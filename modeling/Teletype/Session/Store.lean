import Teletype.Identity.Resolver
import Teletype.Output.Copy
import Teletype.Session.Basic
import Teletype.Shell

/-!
# Sessions and their managers

A manager starts, resizes and stops one session at a time. A session started while another is active
takes its place: the other is closed once the new one is up. The store holds the sessions of any number
of managers and those made by hand, on one host.
-/

namespace Teletype

/-- What a store keeps of a session: the session, its terminal, and what each write to it took. -/
structure Entry where
  session : Session
  terminal : Terminal := {}
  written : List Text.Bytes := []

/-- A manager: its settings, where it looks up identities, what happens when the restricted user is
    announced, and the session it manages. -/
structure Manager where
  settings : ShellSettings := {}
  database : Identity.Database
  announce : String → Option Fault := fun _ => none
  current : Option Nat := none

/-- What looking up the restricted user involved. -/
structure Inquiry where
  announced : List String := []
  asked : List Identity.Question := []
  deriving Repr

/-- Sessions and managers on a host, at a time. -/
structure Store where
  host : Host := {}
  now : Time := 0
  environment : Environment := []
  managers : List Manager := []
  entries : List Entry := []
  inquiry : Inquiry := {}

namespace Store

/-- The manager of an index. -/
def manager? (st : Store) (m : Nat) : Option Manager := st.managers[m]?

/-- The entry of an index. -/
def entry? (st : Store) (k : Nat) : Option Entry := st.entries[k]?

/-- The store with one entry replaced. -/
def setEntry (st : Store) (k : Nat) (e : Entry) : Store := { st with entries := st.entries.set k e }

/-- The store with another host. -/
def withHost (st : Store) (h : Host) : Store := { st with host := h }

/-- The credential that a start uses: none unless the shell is restricted; otherwise the restricted user
    is announced and then looked up. -/
def credential (st : Store) (m : Manager) (restricted : Bool) :
    Except Failure (Option Credential) × Store :=
  if restricted then
    let user := m.settings.runAsUser
    let st := { st with inquiry := { st.inquiry with announced := st.inquiry.announced ++ [user] } }
    match m.announce user with
    | some f => (.error (.fault f), st)
    | none =>
      let r := Identity.resolve m.database user
      let st := { st with inquiry := { st.inquiry with asked := st.inquiry.asked ++ r.asked } }
      (r.result.map some, st.withHost (r.notices.foldl Host.tell st.host))
  else (.ok none, st)

/-- Makes a session that is not started yet: its index. -/
def create (st : Store) (command : List String) (environment : Environment) (credential : Option Credential) :
    Nat × Store :=
  let (id, host) := st.host.name
  (st.entries.length,
    { st with host, entries := st.entries ++ [⟨{ id, command, environment, credential }, {}, []⟩] })

/-- Starts a session by itself. -/
def startSession (st : Store) (k : Nat) : Except Failure Unit × Store :=
  match st.entry? k with
  | none => (.ok (), st)
  | some e =>
    match e.session.start st.host with
    | (.error f, s, h) => (.error f, (st.withHost h).setEntry k { e with session := s })
    | (.ok device, s, h) => (.ok (), (st.withHost h).setEntry k { e with session := s, terminal := .begin device st.now })

/-- Closes a session. -/
def closeSession (st : Store) (k : Nat) : Except Failure Unit × Store :=
  match st.entry? k with
  | none => (.ok (), st)
  | some e =>
    let (r, s, h) := e.session.close st.host
    (r, (st.withHost h).setEntry k { e with session := s })

/-- Closes the session that another takes the place of, if it is active. A failure to close it is only
    told. -/
def closeReplaced (st : Store) (previous : Option Nat) : Except Failure Unit × Store :=
  match previous.bind fun k => (st.entry? k).map fun e => (k, e.session) with
  | none => (.ok (), st)
  | some (k, s) =>
    if s.isActive then
      let st := st.withHost (st.host.tell (.replacing s.id))
      match st.closeSession k with
      | (.error (.close reason), st) =>
        (.ok (), st.withHost (st.host.tell (.replacedNotClosed (.close reason))))
      | (.error f, st) => (.error f, st)
      | (.ok (), st) => (.ok (), st)
    else (.ok (), st)

/-- Starts a session of a manager: its index. -/
def start (st : Store) (m : Nat) (restricted : Bool) (command : String) : Except Failure Nat × Store :=
  match st.manager? m with
  | none => (.ok 0, st)
  | some manager =>
    match st.credential manager restricted with
    | (.error f, st) => (.error f, st)
    | (.ok credential, st) =>
      match Shell.environment manager.settings st.environment with
      | .error f => (.error f, st)
      | .ok environment =>
        let (k, st) := st.create (Shell.argv manager.settings command) environment credential
        match st.startSession k with
        | (.error f, st) => (.error f, st)
        | (.ok (), st) =>
          let st := { st with managers := st.managers.set m { manager with current := some k } }
          match st.closeReplaced manager.current with
          | (.error f, st) => (.error f, st)
          | (.ok (), st) => (.ok k, st)

/-- Closes the session of a manager. -/
def stop (st : Store) (m : Nat) : Except Failure Unit × Store :=
  match (st.manager? m).bind (·.current) with
  | none => (.error (.close .noSession), st)
  | some k => st.closeSession k

/-- Resizes the window of a session. -/
def resizeSession (st : Store) (k : Nat) (columns rows : Int) : Except Failure Unit × Store :=
  match st.entry? k with
  | none => (.ok (), st)
  | some e =>
    let (r, s, h) := e.session.resize st.host columns rows
    (r, (st.withHost h).setEntry k { e with session := s })

/-- Resizes the window of a manager's session. -/
def resize (st : Store) (m : Nat) (columns rows : Int) : Except Failure Unit × Store :=
  match (st.manager? m).bind (·.current) with
  | none => (.error (.resize .noSession), st)
  | some k => st.resizeSession k columns rows

/-- Leaves the scope of a session: closes it if its master is open. -/
def leave (st : Store) (k : Nat) : Except Failure Unit × Store :=
  match st.entry? k with
  | some e => if e.session.isOpen then st.closeSession k else (.ok (), st)
  | none => (.ok (), st)

/-- Reads what the terminal of a session puts out, up to its end. -/
def copyOutput (st : Store) (k : Nat) : List Item × Store :=
  match st.entry? k with
  | none => ([], st)
  | some e =>
    let (reads, terminal, now) := e.terminal.copy st.now
    (reads, { st.setEntry k { e with terminal } with now })

/-- Waits for the child of a session to exit. Without a child there is nothing to wait for. -/
def waitForExit (st : Store) (k : Nat) (span : Span) : Option Int × Store :=
  match st.entry? k with
  | none => (none, st)
  | some e =>
    if e.session.child.isSome then
      let (code, terminal, now) := e.terminal.waitForExit st.now span
      (code, { st.setEntry k { e with terminal } with now })
    else (some (-1), st)

/-- Writes a text to a session, as the host answers. -/
def write (st : Store) (k : Nat) (text : String) (answers : List Answer) : Except Failure Unit × Store :=
  match st.entry? k with
  | none => (.ok (), st)
  | some e =>
    let (taken, fault) := e.session.write text answers
    (match fault with
      | none => .ok ()
      | some f => .error (.fault f), st.setEntry k { e with written := e.written ++ taken })

end Store

end Teletype
