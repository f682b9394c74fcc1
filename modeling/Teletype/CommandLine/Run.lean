import Teletype.CommandLine.Command
import Teletype.Recording.Studio
import Teletype.Session.Store

/-!
# Running commands

What a command does on a host: the code it exits with, what it prints, and the failure that ended it if
it did not handle it. A failure that it handles is printed after `Error: `, and it exits with 1.
-/

namespace Teletype.CommandLine

/-- Where a command runs: the files and the directory it works in, its variables, who is known there,
    and the devices at hand. -/
structure Site where
  files : Files.Tree := []
  here : Files.Place := []
  environment : Environment := []
  identities : Identity.Host := {}
  devices : List Device := []

/-- What came of a command. -/
structure Outcome where
  exitCode : Int := 0
  output : Text.Bytes := []
  errors : List String := []
  /-- The least severity of what is logged, once logging is set up. -/
  logLevel : Option Nat := none
  unhandled : Option Failure := none
  runs : List (List String) := []
  journal : List Event := []
  typed : List (List (Time × String)) := []
  /-- What goes over the terminal of the command. -/
  past : List Output.Happening := []

namespace Outcome

/-- The outcome after a failure that is reported. -/
def report (o : Outcome) (f : Failure) : Outcome :=
  { o with exitCode := 1, errors := o.errors ++ [f.message] }

/-- The outcome after a failure that is not handled. -/
def abort (o : Outcome) (f : Failure) : Outcome := { o with exitCode := 1, unhandled := some f }

/-- The outcome after a failure: reported if it is one of the session's own kinds. -/
def fail (o : Outcome) (f : Failure) : Outcome := if f.isOwn then o.report f else o.abort f

end Outcome

/-- A text as lines, each with its end. -/
def printed (lines : List String) : Text.Bytes := Text.utf8 (String.join (lines.map (· ++ "\n")))

/-- The lines that show a credential. -/
def credentialLines (user : String) (c : Credential) : List String :=
  let groups := ", ".intercalate (c.groups.map toString)
  ["user:   " ++ user, "uid:    " ++ toString c.uid, "gid:    " ++ toString c.gid,
    "groups: " ++ if groups.isEmpty then "-" else groups]

/-- Looks up a credential and prints it. -/
def runCredentials (site : Site) (s : ShellSettings) (user backend : Option String) (o : Outcome) : Outcome :=
  let user := user.getD s.runAsUser
  match Identity.Source.ofName site.identities s.shell s.commandArgs (backend.getD s.backend.name) with
  | .error f => o.report (.fault f)
  | .ok source =>
    let r := Identity.resolve source.database user
    let o := { o with runs := source.runs r.asked, journal := r.notices.map .told }
    match r.result with
    | .ok c => { o with output := printed (credentialLines user c) }
    | .error f => o.fail f

/-- How long a command may take to exit after its output has ended. -/
def exitSpan : Span := .finite 5

/-- The end of a command's session: it is closed, and a failure to close it takes the place of what came
    before. -/
def leaveScope (st : Store) (k : Nat) (o : Outcome) : Outcome :=
  let past := o.past ++ if (st.entry? k).any (·.session.isOpen) then [.closed] else []
  let (r, st) := st.leave k
  let o := { o with journal := st.host.journal, past }
  match r with
  | .ok () => o
  | .error f => o.abort f

/-- Runs a command on a terminal and copies its output. -/
def runExec (site : Site) (s : ShellSettings) (command : String) (asUser : Bool) (columns rows : Int)
    (o : Outcome) : Outcome :=
  let source := Identity.Source.ofSettings site.identities s
  let manager : Manager := { settings := s, database := source.database }
  let st : Store := {
    host := { devices := site.devices }, environment := site.environment, managers := [manager] }
  let (started, st) := st.start 0 asUser command
  let o := { o with runs := source.runs st.inquiry.asked, journal := st.host.journal,
                    typed := List.replicate st.host.opened [] }
  match started with
  | .error f => o.fail f
  | .ok k =>
    match st.resize 0 columns rows with
    | (.error f, st) => leaveScope st k (o.fail f)
    | (.ok (), st) =>
      let (reads, st) := st.copyOutput k
      let (code, st) := st.waitForExit k exitSpan
      leaveScope st k { o with
        output := reads.flatMap Item.bytes, past := reads.map .read, exitCode := code.getD 0 }

/-- Makes a recording. -/
def runRecord (site : Site) (s : Settings) (target : Target) (o : Outcome) : Outcome :=
  let studio : Recording.Studio := {
    plan := ⟨s, site.environment⟩, files := site.files, here := site.here,
    host := { devices := site.devices } }
  let studio := studio.recordInTurn [target]
  let o := { o with
    journal := studio.host.journal
    typed := (studio.booths.map fun (b : Recording.Booth) => b.line.terminal.typed).take studio.host.opened }
  match studio.booths.head?.map Recording.Booth.phase with
  | some (.done (.ok path)) => { o with output := printed ["Transcript: " ++ path] }
  | some (.done (.error f)) => o.fail f
  | _ => o

/-- Runs a command with its settings. -/
def runWith (site : Site) (s : Settings) (o : Outcome) : Command → Outcome
  | .credentials user backend => runCredentials site s.shell user backend o
  | .exec command asUser columns rows => runExec site s.shell command asUser columns rows o
  | .record logFile ipcFile blocking => runRecord site s ⟨logFile, ipcFile, blocking⟩ o

/-- The code for arguments that no command can be made out of. -/
def misuseCode : Int := 2

/-- Runs the program: reads its arguments, loads the settings, and runs the command. -/
def run (site : Site) (args : List String) : Outcome :=
  match read args with
  | .help => {}
  | .misuse => { exitCode := misuseCode }
  | .run common command =>
    let (loaded, environment) := Settings.load site.files site.here site.environment common.config
    let o : Outcome := { logLevel := some (if common.verbose then 10 else 20) }
    match loaded with
    | .error f => o.abort f
    | .ok s => runWith { site with environment } s o command

end Teletype.CommandLine
