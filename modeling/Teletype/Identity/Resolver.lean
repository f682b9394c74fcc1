import Teletype.Identity.Command
import Teletype.Identity.Native
import Teletype.Notice

/-!
# Resolving credentials

A credential is made from the answers of an identity database: the uid, the gid, the names of the
groups and the id of each of them, asked in this order. The first question without an answer ends the
resolution. Nothing is kept from one resolution to the next.
-/

namespace Teletype.Identity

/-- A question asked: what, and about whom. -/
abbrev Question := Lookup × String

/-- How a resolution went: its result, the questions asked, and what the operator is told. -/
structure Resolution where
  result : Except Failure Credential
  asked : List Question
  notices : List Notice

/-- A resolution that ended at its last question. -/
def Resolution.failed (asked : List Question) (question : Question) (cause : Fault) : Resolution :=
  ⟨.error (.lookup question.1 question.2 cause), asked, [.lookupFailed question.1 question.2 cause]⟩

/-- A resolution that a question ended by a fault: one that means no answer is reported as such, any
    other passes through. -/
def Resolution.stopped (asked : List Question) (question : Question) (cause : Fault) : Resolution :=
  if cause.refusesLookup then .failed asked question cause else ⟨.error (.fault cause), asked, []⟩

/-- The ids of groups up to the first without one: the ids, the questions asked, and the fault with
    the name it is about. -/
def groupIds (db : Database) : List String → List Int × List Question × Option (String × Fault)
  | [] => ([], [], none)
  | name :: rest =>
    match db.groupId name with
    | .error f => ([], [(.group, name)], some (name, f))
    | .ok id =>
      let (ids, asked, stop) := groupIds db rest
      (id :: ids, (.group, name) :: asked, stop)

/-- Resolves the credential of a user. -/
def resolve (db : Database) (user : String) : Resolution :=
  match db.uid user with
  | .error f => .stopped [(.uid, user)] (.uid, user) f
  | .ok uid =>
    match db.gid user with
    | .error f => .stopped [(.uid, user), (.gid, user)] (.gid, user) f
    | .ok gid =>
      let asked := [(.uid, user), (.gid, user), (.groups, user)]
      match db.groupNames user with
      | .error f => .stopped asked (.groups, user) f
      | .ok names =>
        match groupIds db names with
        | (_, more, some (name, f)) => .stopped (asked ++ more) (.group, name) f
        | (ids, more, none) =>
          if 0 < uid ∧ 0 < gid then ⟨.ok ⟨uid, gid, ids⟩, asked ++ more, []⟩
          else ⟨.error (.credential user uid gid), asked ++ more, [.credentialRefused user uid gid]⟩

/-- A host that knows users and groups, by its tables and by what its commands print. -/
structure Host where
  tables : Tables := {}
  run : List String → Except Fault String := fun argv => .error (.commandStatus 127 argv)

/-- A way to look up identities on a host. -/
inductive Source where
  | native (tables : Tables)
  | commands (commands : Commands)

namespace Source

/-- The source for a backend. -/
def ofBackend (host : Host) (shell : String) (arguments : List String) : Backend → Source
  | .native => .native host.tables
  | .command => .commands ⟨shell, arguments, host.run⟩

/-- The source for a backend of some name. -/
def ofName (host : Host) (shell : String) (arguments : List String) (backend : String) :
    Except Fault Source :=
  match Backend.ofName? backend with
  | some b => .ok (ofBackend host shell arguments b)
  | none => .error ⟨.value, "unknown identity backend: " ++ Text.quoted backend⟩

/-- The source that settings of a shell ask for. -/
def ofSettings (host : Host) (s : ShellSettings) : Source :=
  ofBackend host s.shell s.commandArgs s.backend

/-- The database of a source. -/
def database : Source → Database
  | .native t => t.database
  | .commands c => c.database

/-- The commands run to ask questions. -/
def runs (source : Source) (asked : List Question) : List (List String) :=
  match source with
  | .native _ => []
  | .commands c => asked.map fun (question, name) => c.argv question name

end Source

end Teletype.Identity
