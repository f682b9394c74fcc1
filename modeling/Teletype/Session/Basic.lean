import Teletype.Host

/-!
# Sessions

A session is a shell on a terminal of its own. It is started once it has a terminal and a child, and
closed by closing the master of the terminal; the child is left to itself. A start that fails leaves
the session as it was.
-/

namespace Teletype

inductive Status where
  | pending
  | active
  | closed
  deriving DecidableEq, Repr

def Status.name : Status → String
  | .pending => "pending"
  | .active => "active"
  | .closed => "closed"

/-- The master side of a terminal: its handle, whether it is open, and the fault that closing it will
    meet. -/
structure Master where
  handle : Nat
  isOpen : Bool := true
  closeFault : Option Fault := none
  deriving DecidableEq, Repr

/-- A shell on a terminal. -/
structure Session where
  id : String
  command : List String := []
  environment : Environment := []
  credential : Option Credential := none
  columns : Int := 0
  rows : Int := 0
  status : Status := .pending
  master : Option Master := none
  child : Option Nat := none
  deriving DecidableEq, Repr

namespace Session

/-- The session is started and not closed. -/
def isActive (s : Session) : Bool := s.status == .active

/-- The session has a master that is open. -/
def isOpen (s : Session) : Bool := (s.master.map (·.isOpen)).getD false

/-- What a session whose master has these handles spawns. -/
def spawnOn (s : Session) (subordinate : Nat) : Spawn :=
  ⟨s.command, [subordinate, subordinate, subordinate], s.environment, true, s.credential⟩

/-- How a start ends: the device that the session is connected to now, the session, and the host. -/
abbrev Started := Except Failure Device × Session × Host

/-- Spawns the child of a session on a terminal that has been opened. Whether this succeeds or not, the
    subordinate side is closed; if the host refuses, the master is closed too. -/
def connect (s : Session) (h : Host) (master : Nat) (device : Device) : Started :=
  let subordinate := Host.subordinateOf master
  match h.spawn (s.spawnOn subordinate) with
  | (.error f, h) =>
    let h := h.note (.closed subordinate)
    if f.refusesSpawn then
      (.error (.start f), s, (h.note (.closed master)).tell (.shellNotStarted f))
    else (.error (.fault f), s, h)
  | (.ok child, h) =>
    let h := h.note (.closed subordinate)
    let s := { s with
      child := some child, status := .active, master := some ⟨master, true, device.closeFault⟩ }
    (.ok device, s, h)

/-- Starts a session: opens a terminal and spawns the child on it. -/
def start (s : Session) (h : Host) : Started :=
  match h.openTerminal with
  | (.error f, h) =>
    if f.isSystem then (.error (.start f), s, h.tell (.terminalNotOpened f)) else (.error (.fault f), s, h)
  | (.ok (master, device), h) => s.connect h master device

/-- Closes the master of a session. After a fault, too, it counts as closed. -/
def close (s : Session) (h : Host) : Except Failure Unit × Session × Host :=
  match s.master with
  | some m =>
    if m.isOpen then
      let h := h.note (.closingMaster m.handle)
      let s := { s with status := .closed, master := some { m with isOpen := false, closeFault := none } }
      match m.closeFault with
      | none => (.ok (), s, h)
      | some f => (.error (if f.isSystem then .close (.refused s.id f) else .fault f), s, h)
    else (.error (.close (.notOpen s.id)), s, h)
  | none => (.error (.close (.notOpen s.id)), s, h)

/-- A number that fits a field of a window's size. -/
def fits (n : Int) : Bool := 0 ≤ n && n ≤ 65535

/-- What a number that does not fit amounts to. -/
def misfit (n : Int) : Fault :=
  ⟨.field, if Number.inWord n then "ushort format requires 0 <= number <= 65535"
    else "argument out of range"⟩

/-- Gives the window of a session's terminal a size. Rows are checked before columns. -/
def resize (s : Session) (h : Host) (columns rows : Int) : Except Failure Unit × Session × Host :=
  match s.status, s.master with
  | .active, some m =>
    if !fits rows then (.error (.resize (.refused (misfit rows))), s, h)
    else if !fits columns then (.error (.resize (.refused (misfit columns))), s, h)
    else
      match h.resize m.handle columns rows with
      | (some f, h) => (.error (if f.isSystem then .resize (.refused f) else .fault f), s, h)
      | (none, h) => (.ok (), { s with columns, rows }, h)
  | _, _ => (.error (.resize (.inactive s.id)), s, h)

/-- Writes bytes as the host takes them: what each write took, and the fault that ended the writing. The
    host takes all of what is left once its answers are used up. -/
def push (payload : Text.Bytes) : List Answer → List Text.Bytes × Option Fault
  | [] => (if payload.isEmpty then [] else [payload], none)
  | answer :: rest =>
    if payload.isEmpty then ([], none)
    else match answer with
      | .took n =>
        let (taken, fault) := push (payload.drop n) rest
        (payload.take n :: taken, fault)
      | .wouldBlock =>
        let (taken, fault) := push payload rest
        ([] :: taken, fault)
      | .fault f => ([], some f)

/-- Why a session takes no text, if it takes none. -/
def writeRefusal? (s : Session) : Option Fault :=
  if s.isOpen then none else some ⟨.system, "PTY session " ++ s.id ++ " is not open"⟩

/-- Writes a text to the shell. -/
def write (s : Session) (text : String) (answers : List Answer) : List Text.Bytes × Option Fault :=
  match s.writeRefusal? with
  | some f => ([], some f)
  | none => push (Text.utf8 text) answers

/-- What a session that was never started amounts to where it is asked for its handle. -/
def neverStarted (s : Session) (kind : Fault.Kind) : Fault :=
  ⟨kind, "PTY session " ++ s.id ++ " was never started"⟩

/-- The handle of the session's master, while it is open. -/
def handle (s : Session) : Except Fault Nat :=
  match s.master with
  | none => .error (s.neverStarted .value)
  | some m => if m.isOpen then .ok m.handle else .error ⟨.value, "I/O operation on closed file"⟩

/-- The handle that input and output of the session go through, also after it was closed. -/
def stream (s : Session) : Except Fault Nat :=
  match s.master with
  | none => .error (s.neverStarted .general)
  | some m => .ok m.handle

end Session

end Teletype
