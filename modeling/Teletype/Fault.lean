import Teletype.Data.Value
import Teletype.Number.Integer

/-!
# Faults

A fault is a failure of what a session stands on: the host, an identity database, a hook, a data file.
It has a kind and a text. Who handles a fault asks only for the family of its kind; faults of system
calls are told apart by their error number.
-/

namespace Teletype

/-- What kind of thing went wrong. -/
inductive Fault.Kind where
  | lookup
  | missingKey
  | missingIndex
  | value
  | encoding
  | undecodable
  | malformedJson
  | system
  | permission
  | noSuchFile
  | noSuchProcess
  | noChild
  | interrupted
  | blocking
  | fileExists
  | notDirectory
  | isDirectory
  | connection
  | brokenPipe
  | connectionAborted
  | connectionReset
  | connectionRefused
  | timedOut
  | child
  | childStatus
  | childTimeout
  | field
  | overflow
  | wrongAttribute
  | wrongType
  | general
  | unlisted (label : String)
  deriving DecidableEq, Repr

/-- The families by which faults are handled. -/
inductive Fault.Family where
  | lookup
  | value
  | system
  | child
  | other
  deriving DecidableEq, Repr

namespace Fault.Kind

/-- The family of a kind. -/
def family : Kind → Family
  | .lookup | .missingKey | .missingIndex => .lookup
  | .value | .encoding | .undecodable | .malformedJson => .value
  | .system | .permission | .noSuchFile | .noSuchProcess | .noChild | .interrupted | .blocking
  | .fileExists | .notDirectory | .isDirectory | .connection | .brokenPipe | .connectionAborted
  | .connectionReset | .connectionRefused | .timedOut => .system
  | .child | .childStatus | .childTimeout => .child
  | .field | .overflow | .wrongAttribute | .wrongType | .general | .unlisted _ => .other

/-- The kind of a system call's fault, by its error number. -/
def ofErrorNumber (n : Int) : Kind :=
  if n == 1 || n == 13 then .permission
  else if n == 2 then .noSuchFile
  else if n == 3 then .noSuchProcess
  else if n == 4 then .interrupted
  else if n == 10 then .noChild
  else if n == 11 || n == 114 || n == 115 then .blocking
  else if n == 17 then .fileExists
  else if n == 20 then .notDirectory
  else if n == 21 then .isDirectory
  else if n == 32 || n == 108 then .brokenPipe
  else if n == 103 then .connectionAborted
  else if n == 104 then .connectionReset
  else if n == 110 then .timedOut
  else if n == 111 then .connectionRefused
  else .system

end Fault.Kind

/-- A failure of what a session stands on. -/
structure Fault where
  kind : Fault.Kind
  text : String
  deriving DecidableEq, Repr

namespace Fault

/-- The family of a fault. -/
def family (f : Fault) : Family := f.kind.family

/-- A fault of a system call. -/
def isSystem (f : Fault) : Bool := f.family == .system

/-- A fault that means the host refused to spawn a child. -/
def refusesSpawn (f : Fault) : Bool :=
  f.family == .system || f.family == .value || f.family == .child

/-- A fault that means an identity lookup has no answer. -/
def refusesLookup (f : Fault) : Bool := f.family != .other

/-- The names of the signals that end a process, in the order of their numbers from 1. -/
def signalNames : List String := [
  "SIGHUP", "SIGINT", "SIGQUIT", "SIGILL", "SIGTRAP", "SIGABRT", "SIGBUS", "SIGFPE", "SIGKILL",
  "SIGUSR1", "SIGSEGV", "SIGUSR2", "SIGPIPE", "SIGALRM", "SIGTERM", "SIGSTKFLT", "SIGCHLD",
  "SIGCONT", "SIGSTOP", "SIGTSTP", "SIGTTIN", "SIGTTOU", "SIGURG", "SIGXCPU", "SIGXFSZ",
  "SIGVTALRM", "SIGPROF", "SIGWINCH", "SIGIO", "SIGPWR", "SIGSYS"]

/-- The name of a signal. The real-time signals have names at their two ends. -/
def signalName? (n : Nat) : Option String :=
  match n with
  | 0 => none
  | 34 => some "SIGRTMIN"
  | 64 => some "SIGRTMAX"
  | n + 1 => signalNames[n]?

/-- What is said of a command that ended with a status other than zero. -/
def statusText (status : Int) (command : String) : String :=
  "Command '" ++ command ++ "' " ++
    if status < 0 then
      let n := status.natAbs
      match signalName? n with
      | some name => "died with <Signals." ++ name ++ ": " ++ toString n ++ ">."
      | none => "died with unknown signal " ++ toString n ++ "."
    else "returned non-zero exit status " ++ toString status ++ "."

/-- A command that ended with a status other than zero. -/
def commandStatus (status : Int) (argv : List String) : Fault :=
  ⟨.childStatus, statusText status (Data.Value.list (argv.map .text)).plain⟩

/-- A name that is not in a table. -/
def missing (key : String) : Fault := ⟨.missingKey, Text.quoted key⟩

/-- What is said of a system call that failed with an error number, on a file if one is given. -/
def numberedText (number reason : Data.Value) (file : Data.Value) : String :=
  "[Errno " ++ number.plain ++ "] " ++ reason.plain ++
    match file with
    | .null => ""
    | f => ": " ++ f.literal

/-- The text of a fault of some kind that is made from these arguments. -/
def textOf (kind : Kind) (arguments : List Data.Value) : String :=
  match kind, arguments with
  | .childStatus, .int status :: command :: _ => statusText status command.plain
  | .childTimeout, command :: seconds :: _ =>
    "Command '" ++ command.plain ++ "' timed out after " ++ seconds.plain ++ " seconds"
  | .missingKey, [key] => key.literal
  | kind, arguments =>
    match arguments with
    | [] => ""
    | [v] => v.plain
    | first :: second :: rest =>
      if kind.family == .system && rest.length ≤ 3 then numberedText first second (rest.headD .null)
      else "(" ++ ", ".intercalate (arguments.map Data.Value.literal) ++ ")"

/-- The kind of a fault made from these arguments: a system call's fault is told by its number. -/
def kindOf (kind : Kind) (arguments : List Data.Value) : Kind :=
  match kind, arguments with
  | .system, .int number :: _ :: rest => if rest.length ≤ 3 then .ofErrorNumber number else .system
  | kind, _ => kind

/-- The fault of some kind that is made from these arguments. -/
def make (kind : Kind) (arguments : List Data.Value) : Fault :=
  ⟨kindOf kind arguments, textOf kind arguments⟩

/-- A whole number from a text. -/
def integerOf (s : String) : Except Fault Int :=
  match Number.readInteger s.toList with
  | .ok n => .ok n
  | .error e => .error ⟨.value, e.message s⟩

end Fault

end Teletype
