import Teletype.Output.Watcher

/-!
# Lines

A line is a terminal with a watcher on it, at a time. What the terminal queues is read at once. Waiting
for a marker goes through what the device has planned, from one time to the next, until the marker is
there, the output has ended, or the deadline comes first. A line remembers what has gone over it.
-/

namespace Teletype.Output

open Text (Bytes)

/-- Something that goes over a line: the watcher comes and goes, reads an item, a text is typed, the child
    is found to have exited, or the handle is closed. -/
inductive Happening where
  | attached
  | detached
  | read (item : Item)
  | typed (text : String)
  | exited (code : Int)
  | closed
  deriving DecidableEq, Repr

/-- A terminal with its watcher, at a time, and all that has gone over the line so far. -/
structure Line where
  now : Time := 0
  terminal : Terminal := {}
  watcher : Watcher := {}
  past : List Happening := []

namespace Line

/-- The line with one more thing in its past. -/
def note (l : Line) (h : Happening) : Line := { l with past := l.past ++ [h] }

/-- The line when its watcher is attached. -/
def attach (l : Line) : Line := { l with watcher := l.watcher.attach }.note .attached

/-- The line when its watcher is detached. It may have detached itself before. -/
def detach (l : Line) : Line :=
  if l.watcher.attached then { l with watcher := l.watcher.detach }.note .detached else l

/-- The line when the watcher has read what is queued. -/
def settle (l : Line) : Line :=
  let (watcher, taken, queue) := l.watcher.drain l.terminal.queue
  { l with watcher, terminal := { l.terminal with queue }, past := l.past ++ taken.map .read }

/-- The line after effects at a time. -/
def perform (l : Line) (entry : Timed) : Line :=
  settle { l with now := later l.now entry.1, terminal := l.terminal.applyAll entry.1 entry.2 }

/-- The line with an agenda. -/
def withAgenda (l : Line) (agenda : List Timed) : Line :=
  { l with terminal := { l.terminal with agenda } }

/-- The line at a deadline that has come. -/
def expire (l : Line) : Deadline → Line
  | .at t => { l with now := later l.now t }
  | _ => l

/-- A deadline comes no later than a time. -/
def comesBy : Deadline → Time → Bool
  | .at t, time => t ≤ time
  | .passed, _ => true
  | _, _ => false

/-- Goes through an agenda until the marker is decided on or the deadline comes. All entries of one
    time happen before the watcher is asked. -/
def listen (marker : Bytes) (start : Int) (deadline : Deadline) (l : Line) : List Timed → Bool × Line
  | [] => (false, (l.withAgenda []).expire deadline)
  | entry :: rest =>
    if comesBy deadline entry.1 then (false, (l.withAgenda (entry :: rest)).expire deadline)
    else
      let l' := l.perform entry
      if (rest.head?.map fun e => decide (e.1 ≤ l'.now)).getD false then listen marker start deadline l' rest
      else
        match l'.watcher.verdict? marker start with
        | some found => (found, l'.withAgenda rest)
        | none => listen marker start deadline l' rest

/-- The outcome of waiting for a marker. -/
structure Wait where
  found : Bool
  line : Line
  /-- Others could act while this went on. -/
  gaveWay : Bool

/-- Waits for a marker at or after a place. What is known at once is answered at once. -/
def waitFor (l : Line) (marker : Bytes) (start : Int) (span : Span) : Wait :=
  match l.watcher.verdict? marker start with
  | some found => ⟨found, l, false⟩
  | none =>
    let deadline := Deadline.after l.now span
    if deadline.isOver l.now then ⟨false, l, false⟩
    else
      let (found, line) := listen marker start deadline l ((l.now, []) :: l.terminal.agenda)
      ⟨found, line, true⟩

/-- Types a text. What the device shows at once is read at once. -/
def type (l : Line) (text : String) : Option Fault × Line :=
  let (fault, terminal) := l.terminal.type l.now text
  (fault, settle ({ l with terminal }.note (.typed text)))

/-- Waits for the child to exit. -/
def waitForExit (l : Line) (span : Span) : Option Int × Line :=
  let (code, terminal, now) := l.terminal.waitForExit l.now span
  let l := settle { l with terminal, now }
  (code, match code with
    | some code => l.note (.exited code)
    | none => l)

end Line

end Teletype.Output
