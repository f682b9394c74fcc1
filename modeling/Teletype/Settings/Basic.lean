import Teletype.Settings.Field
import Teletype.Text.Template

/-!
# Settings

The settings of shells and of recordings, with their defaults, and how they are read from data.
-/

namespace Teletype

/-- Where user and group records are looked up: in the tables of the host, or by asking commands. -/
inductive Backend where
  | native
  | command
  deriving DecidableEq, Repr

namespace Backend

def name : Backend → String
  | .native => "native"
  | .command => "command"

/-- The backend of a name. -/
def ofName? (name : String) : Option Backend :=
  if name == "native" then some .native else if name == "command" then some .command else none

/-- Reads a backend. -/
def reader : Settings.Reader Backend
  | .text s => match ofName? s with
    | some b => .valid b
    | none => .refuse .notBackend
  | _ => .refuse .notBackend

end Backend

/-- How a shell is started. -/
structure ShellSettings where
  shell : String := "sh"
  commandArgs : List String := ["-c"]
  term : String := "xterm-256color"
  defaultLang : String := "C.UTF-8"
  runAsUser : String := "session-user"
  homeTemplate : String := "/home/\x7buser\x7d"
  backend : Backend := .native
  deriving DecidableEq, Repr

/-- How a recording is scripted, and how long its steps may take. -/
structure RecorderSettings where
  screenBufferSize : Int := 30000
  sessionLogger : String := "session-logger"
  screenCommand : String := "screen -h \x7bbuffer_size\x7d"
  recordCommand : String := "script \x7blog_file\x7d"
  loggerCommand : String := "\x7blogger\x7d \x7bipc_file\x7d \x7bblocking\x7d"
  exitCommand : String := "exit"
  readyTimeout : Number.Binary64 := .ofInt 15
  loggerTimeout : Number.Binary64 := .ofInt 300
  exitTimeout : Number.Binary64 := .ofInt 30
  probeInterval : Number.Binary64 := .ofInt 1
  flushTimeout : Number.Binary64 := .ofInt 15
  deriving DecidableEq, Repr

/-- The settings of the whole program. -/
structure Settings where
  shell : ShellSettings := {}
  recorder : RecorderSettings := {}
  deriving DecidableEq, Repr

/-- Where a transcript goes, and what is replayed into it. -/
structure Target where
  logFile : String
  ipcFile : String
  blocking : Bool := false
  deriving DecidableEq, Repr

namespace ShellSettings

open Settings in
/-- Reads the settings of a shell. -/
def reader : Reader ShellSettings :=
  record "ShellConfig" fun m =>
    let d : ShellSettings := {}
    ShellSettings.mk
      <$> optional m "shell" .text d.shell
      <*> optional m "command_args" .texts d.commandArgs
      <*> optional m "term" .text d.term
      <*> optional m "default_lang" .text d.defaultLang
      <*> optional m "run_as_user" .text d.runAsUser
      <*> optional m "home_template" .text d.homeTemplate
      <*> optional m "identity_backend" Backend.reader d.backend

/-- The home directory: the template filled with the restricted user. -/
def home (s : ShellSettings) : Except Text.Template.Error String :=
  Text.Template.fill [("user", .text s.runAsUser)] s.homeTemplate

end ShellSettings

open Settings in
/-- Reads the settings of recordings. -/
def RecorderSettings.reader : Reader RecorderSettings :=
  record "RecorderConfig" fun m =>
    let d : RecorderSettings := {}
    RecorderSettings.mk
      <$> optional m "screen_buffer_size" .whole d.screenBufferSize
      <*> optional m "session_logger" .text d.sessionLogger
      <*> optional m "screen_command" .text d.screenCommand
      <*> optional m "record_command" .text d.recordCommand
      <*> optional m "logger_command" .text d.loggerCommand
      <*> optional m "exit_command" .text d.exitCommand
      <*> optional m "ready_timeout" .real d.readyTimeout
      <*> optional m "logger_timeout" .real d.loggerTimeout
      <*> optional m "exit_timeout" .real d.exitTimeout
      <*> optional m "probe_interval" .real d.probeInterval
      <*> optional m "flush_timeout" .real d.flushTimeout

open Settings in
/-- Reads the settings of the whole program. -/
def Settings.reader : Reader Settings :=
  record "PtyShellConfig" fun m =>
    Settings.mk
      <$> optional m "shell" ShellSettings.reader {}
      <*> optional m "recorder" RecorderSettings.reader {}

open Settings in
/-- Reads a target. -/
def Target.reader : Reader Target :=
  record "RecordingTarget" fun m =>
    Target.mk
      <$> required m "log_file" .path
      <*> required m "ipc_file" .path
      <*> optional m "blocking" .flag false

end Teletype
