import Teletype.CommandLine.Options
import Teletype.Settings.Field
import Teletype.Text.Blank

/-!
# Commands

The commands of the program and how they are read from its arguments: look up a credential, run a
command on a terminal, make a recording.
-/

namespace Teletype.CommandLine

/-- What all commands take: whether to tell more, and where the settings are. -/
structure Common where
  verbose : Bool := false
  config : Option String := none
  deriving DecidableEq, Repr

/-- A command with its options. -/
inductive Command where
  | credentials (user backend : Option String)
  | exec (command : String) (asUser : Bool) (columns rows : Int)
  | record (logFile ipcFile : String) (blocking : Bool)
  deriving DecidableEq, Repr

/-- What arguments ask for: help, a command, or nothing that can be made out. -/
inductive Request where
  | help
  | misuse
  | run (common : Common) (command : Command)
  deriving DecidableEq, Repr

def helpForm : OptionForm := { long := "--help" }

/-- The options of all commands. -/
def commonForms : List OptionForm := [
  helpForm, { long := "--verbose", letter := some 'v' },
  { long := "--config", letter := some 'c', takesValue := true }]

def credentialsForms : List OptionForm := commonForms ++ [
  { long := "--user", letter := some 'u', takesValue := true },
  { long := "--backend", letter := some 'b', takesValue := true }]

def execForms : List OptionForm := commonForms ++ [
  { long := "--as-user", letter := some 'U' }, { long := "--cols", takesValue := true },
  { long := "--rows", takesValue := true }]

def recordForms : List OptionForm := commonForms ++ [
  { long := "--log-file", letter := some 'l', takesValue := true },
  { long := "--ipc-file", letter := some 'i', takesValue := true }, { long := "--blocking" }]

/-- A number given by an option, or its default. -/
def numberOr (w : Words) (long : String) (default : Int) : Option Int :=
  match w.value? long with
  | none => some default
  | some s => match Settings.Reader.wholeOfText s.toList with
    | .valid n => some n
    | .invalid _ => none

/-- A value that says something. -/
def nonempty (value : Option String) : Option String := value.filter (· != "")

/-- The credentials command of words. -/
def credentialsOf (w : Words) : Option Command :=
  match w.others with
  | [] => some (.credentials (nonempty (w.value? "--user")) (nonempty (w.value? "--backend")))
  | _ => none

/-- The exec command of words. A blank command is refused, for it would start an interactive shell. -/
def execOf (w : Words) : Option Command :=
  match w.others with
  | [command] => do
    let columns ← numberOr w "--cols" 80
    let rows ← numberOr w "--rows" 24
    if Text.isAllBlank command then none
    else some (.exec command (w.has "--as-user") columns rows)
  | _ => none

/-- The record command of words. -/
def recordOf (w : Words) : Option Command :=
  match w.others with
  | [] => do
    let logFile ← w.value? "--log-file"
    let ipcFile ← w.value? "--ipc-file"
    some (.record (Files.tidyPath logFile) (Files.tidyPath ipcFile) (w.has "--blocking"))
  | _ => none

/-- Reads the arguments of one command. Help is given before anything is missed. -/
def readCommand (forms : List OptionForm) (make : Words → Option Command) (args : List String) : Request :=
  match readWords forms true args with
  | none => .misuse
  | some w =>
    if w.has "--help" then .help
    else match make w with
      | none => .misuse
      | some command => .run ⟨w.has "--verbose", w.value? "--config"⟩ command

/-- Reads the arguments of the program. -/
def read (args : List String) : Request :=
  match readWords [helpForm] false args with
  | none => .misuse
  | some w =>
    if w.has "--help" then .help
    else match w.others with
      | "credentials" :: rest => readCommand credentialsForms credentialsOf rest
      | "exec" :: rest => readCommand execForms execOf rest
      | "record" :: rest => readCommand recordForms recordOf rest
      | _ => .misuse

end Teletype.CommandLine
