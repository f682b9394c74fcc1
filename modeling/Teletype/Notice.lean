import Teletype.Failure
import Teletype.Text.Utf8

/-!
# Notices

What is told to the operator while an operation runs: warnings, and errors that have been handled.
-/

namespace Teletype

inductive Notice.Level where
  | warning
  | error
  deriving DecidableEq, Repr

def Notice.Level.name : Level → String
  | .warning => "WARNING"
  | .error => "ERROR"

/-- Something the operator is told. -/
inductive Notice where
  | lookupFailed (step : Lookup) (identity : String) (cause : Fault)
  | credentialRefused (user : String) (uid gid : Int)
  | terminalNotOpened (cause : Fault)
  | shellNotStarted (cause : Fault)
  | replacing (id : String)
  | replacedNotClosed (failure : Failure)
  | recordingNotClosed (failure : Failure)
  | stepUnready (step : String) (output : Text.Bytes)
  | transcriptUnsettled (path : String)
  deriving DecidableEq, Repr

namespace Notice

def level : Notice → Level
  | .replacing _ | .stepUnready .. | .transcriptUnsettled _ => .warning
  | _ => .error

/-- The channel that a notice goes out on. -/
def channel : Notice → String
  | .lookupFailed .. | .credentialRefused .. => "ptyshell.identity.credentials"
  | .terminalNotOpened _ | .shellNotStarted _ => "ptyshell.pty.session"
  | .replacing _ | .replacedNotClosed _ => "ptyshell.pty.manager"
  | .recordingNotClosed _ | .stepUnready .. | .transcriptUnsettled _ => "ptyshell.recorder"

def text : Notice → String
  | .lookupFailed step identity cause =>
    "Failed to retrieve " ++ step.name ++ " for " ++ identity ++ ": " ++ cause.text
  | .credentialRefused user uid gid =>
    "Invalid uid/gid for " ++ user ++ ": uid=" ++ toString uid ++ " gid=" ++ toString gid
  | .terminalNotOpened cause => "Failed to open pty: " ++ cause.text
  | .shellNotStarted cause => "Failed to start pty: " ++ cause.text
  | .replacing id => "Replacing active PTY session " ++ id
  | .replacedNotClosed failure => "Error occurred while closing replaced pty: " ++ failure.message
  | .recordingNotClosed failure => "Error occurred while closing pty: " ++ failure.message
  | .stepUnready step output =>
    "Step " ++ step ++ " got no readiness marker, last output: " ++ Text.quotedBytes output
  | .transcriptUnsettled path => "Transcript " ++ path ++ " not settled on disk after flush wait"

end Notice

end Teletype
