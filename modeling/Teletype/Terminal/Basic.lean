import Teletype.Terminal.Device

/-!
# Terminals

A terminal with a child, as seen from its handle: what is queued for the reader, the code that the
child has exited with, what the device will do and when, what has been typed, and the files that the
device has changed.
-/

namespace Teletype

/-- Something queued for the reader of a terminal. -/
inductive Item where
  | chunk (bytes : Text.Bytes)
  | endOfOutput
  | fault
  deriving DecidableEq, Repr

/-- Effects that happen at a time. -/
abbrev Timed := Time × List Effect

/-- A file that got a size at a time. -/
structure Change where
  time : Time
  path : String
  size : Nat
  deriving DecidableEq, Repr

/-- A terminal with a child. The agenda is in the order of time. -/
structure Terminal where
  device : Device := {}
  queue : List Item := []
  exit : Option Int := none
  agenda : List Timed := []
  typed : List (Time × String) := []
  changes : List Change := []

/-- An agenda with one more entry, after those of the same time. -/
def schedule (entry : Timed) : List Timed → List Timed
  | [] => [entry]
  | first :: rest => if entry.1 < first.1 then entry :: first :: rest else first :: schedule entry rest

namespace Terminal

/-- One effect at a time. Empty output is nothing. -/
def apply (now : Time) (t : Terminal) : Effect → Terminal
  | .output bytes => if bytes.isEmpty then t else { t with queue := t.queue ++ [.chunk bytes] }
  | .file path size => { t with changes := t.changes ++ [⟨now, path, size⟩] }
  | .exit code => { t with exit := some code }
  | .endOfOutput => { t with queue := t.queue ++ [.endOfOutput] }
  | .readFault => { t with queue := t.queue ++ [.fault] }

/-- Effects at a time, in order. -/
def applyAll (now : Time) (t : Terminal) (effects : List Effect) : Terminal :=
  effects.foldl (apply now) t

/-- A terminal with effects put on its agenda. -/
def plan (t : Terminal) (entry : Timed) : Terminal := { t with agenda := schedule entry t.agenda }

/-- The terminal with an exit of its child planned, if one is given by its delay and code. -/
def expect (t : Terminal) (now : Time) : Option (Rat × Int) → Terminal
  | some (delay, code) => t.plan (now + delay, [.exit code])
  | none => t

/-- The terminal of a device whose child is spawned now. -/
def begin (device : Device) (now : Time) : Terminal :=
  let t : Terminal := { device, exit := device.exitCode }
  let t := t.applyAll now device.input
  device.events.foldl (fun t (delay, effects) => t.plan (now + delay, effects)) t

/-- Does all that is on an agenda up to a time; the rest of the agenda stays. -/
def runAgenda (t : Terminal) (now : Time) : List Timed → Terminal
  | [] => { t with agenda := [] }
  | (time, effects) :: rest =>
    if time ≤ now then runAgenda (t.applyAll time effects) now rest
    else { t with agenda := (time, effects) :: rest }

/-- The terminal at a time: all that was due has been done. -/
def advance (t : Terminal) (now : Time) : Terminal := t.runAgenda now t.agenda

/-- Types a text: the fault if the write fails, and the terminal with the device's reaction. -/
def type (t : Terminal) (now : Time) (text : String) : Option Fault × Terminal :=
  let before := t.typed.map (·.2)
  let t' := { t with typed := t.typed ++ [(now, text)] }
  match t.device.writeFault before.length with
  | some f => (some f, t')
  | none =>
    let reaction := t.device.react before text
    let t' := t'.applyAll now reaction.atOnce
    (none, reaction.later.foldl (fun t (delay, effects) => t.plan (now + delay, effects)) t')

/-- The files that an agenda will change. -/
def plannedChanges (agenda : List Timed) : List Change :=
  agenda.flatMap fun (time, effects) => effects.filterMap fun
    | .file path size => some ⟨time, path, size⟩
    | _ => none

/-- The files that the device has changed and those that it will change. -/
def allChanges (t : Terminal) : List Change := t.changes ++ plannedChanges t.agenda

/-- The times between two looks at a child that is waited for. -/
def pollInterval : Rat := 1 / 20

/-- Looks at the child again and again until it has exited or the deadline is not ahead any more, and
    then once more. At most `fuel` looks are made before the last. -/
def pollExit (deadline : Deadline) (fuel : Nat) (t : Terminal) (now : Time) :
    Option Int × Terminal × Time :=
  match fuel with
  | 0 => (t.exit, t, now)
  | fuel + 1 =>
    if deadline.isAhead now then
      match t.exit with
      | some code => (some code, t, now)
      | none =>
        let next := now + pollInterval
        pollExit deadline fuel (t.advance next) next
    else (t.exit, t, now)

/-- The looks that a span leaves room for. An endless one leaves room for as many as it takes until
    nothing more can happen. -/
def looks (t : Terminal) (now : Time) : Span → Nat
  | .finite s => (s / pollInterval).ceil.toNat + 1
  | .endless => match t.agenda.getLast? with
    | some (time, _) => ((time - now) / pollInterval).ceil.toNat + 2
    | none => 2
  | _ => 1

/-- Waits for the child to exit: the code if it does so in time, the terminal and the time then. -/
def waitForExit (t : Terminal) (now : Time) (span : Span) : Option Int × Terminal × Time :=
  t.pollExit (.after now span) (t.looks now span) now

end Terminal

end Teletype
