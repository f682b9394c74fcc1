import Teletype.Fault
import Teletype.Settings.Basic

/-!
# Failures

How an operation fails: a shell does not start, a lookup has no answer, a credential is refused, a
window is not resized, a handle is not closed, a step of a recording is not ready in time. Beside these
an operation may end by a fault that it does not handle, or by settings that do not fit. Each failure
has one wording, and the fault that caused it if there is one.
-/

namespace Teletype

/-- The lookups that a credential is made from. -/
inductive Lookup where
  | uid
  | gid
  | groups
  | group
  deriving DecidableEq, Repr

def Lookup.name : Lookup → String
  | .uid => "uid"
  | .gid => "gid"
  | .groups => "groups"
  | .group => "group"

/-- Why a window keeps its size. -/
inductive ResizeFailure where
  | noSession
  | inactive (id : String)
  | refused (cause : Fault)
  deriving DecidableEq, Repr

/-- Why a handle is not closed. -/
inductive CloseFailure where
  | noSession
  | notOpen (id : String)
  | refused (id : String) (cause : Fault)
  deriving DecidableEq, Repr

/-- How an operation fails. -/
inductive Failure where
  | start (cause : Fault)
  | query (step identity reason : String) (cause : Option Fault)
  | credential (user : String) (uid gid : Int)
  | resize (reason : ResizeFailure)
  | close (reason : CloseFailure)
  | unready (step : String) (timeout : Number.Binary64)
  | fault (f : Fault)
  | settings (issues : List Settings.Issue)
  deriving DecidableEq, Repr

namespace Failure

/-- A lookup that ended by a fault. -/
def lookup (step : Lookup) (identity : String) (cause : Fault) : Failure :=
  .query step.name identity cause.text (some cause)

/-- The failure is one of the session's own kinds, as against a fault that was not handled. -/
def isOwn : Failure → Bool
  | .fault _ | .settings _ => false
  | _ => true

/-- The fault that caused a failure. -/
def cause : Failure → Option Fault
  | .start f => some f
  | .query _ _ _ f => f
  | .resize (.refused f) => some f
  | .close (.refused _ f) => some f
  | _ => none

def message : Failure → String
  | .start f => "Failed to start pty: " ++ f.text
  | .query step identity reason _ =>
    step ++ " lookup failed for " ++ Text.quoted identity ++ if reason.isEmpty then "" else ": " ++ reason
  | .credential user uid gid =>
    "invalid uid and gid for " ++ Text.quoted user ++ ": uid=" ++ toString uid ++ " gid=" ++ toString gid
  | .resize .noSession => "set pty size failed: no session was started"
  | .resize (.inactive id) => "set pty size failed: session " ++ id ++ " is not active"
  | .resize (.refused f) => "set pty size failed: " ++ f.text
  | .close .noSession => "unable to close pty: no session was started"
  | .close (.notOpen id) => "unable to close pty " ++ id ++ ": handle is not open"
  | .close (.refused id f) => "unable to close pty " ++ id ++ ": " ++ f.text
  | .unready step timeout =>
    "recording step " ++ Text.quoted step ++ " not ready after " ++ Number.generalText timeout ++ "s"
  | .fault f => f.text
  | .settings _ => ""

end Failure

/-- The fault that a template which cannot be filled amounts to. -/
def Text.Template.Error.fault (e : Text.Template.Error) : Fault :=
  let kind : Fault.Kind := match e with
    | .malformed _ => .value
    | .unboundName _ => .missingKey
    | .unboundIndex _ => .missingIndex
    | .outsideText => .missingIndex
    | .noAttribute => .wrongAttribute
    | .notIndexed => .wrongType
    | .noSuchCharacter => .overflow
    | .beyondWord => .overflow
    | .beyondBinary64 => .overflow
    | .beyondDecimal => .value
  ⟨kind, e.message⟩

end Teletype
