import Teletype.Output.Window
import Teletype.Terminal.Basic

/-!
# Watchers

A watcher reads all that a terminal has queued, as long as it is attached. It stops reading at the end
of the output, or when reading fails.
-/

namespace Teletype.Output

open Text (Bytes)

/-- The most bytes taken in one read. -/
def readSize : Nat := 4096

/-- Bytes in pieces of at most a read each. -/
def pieces (bs : Bytes) : List Bytes :=
  if bs.length ≤ readSize then (if bs.isEmpty then [] else [bs])
  else bs.take readSize :: pieces (bs.drop readSize)
termination_by bs.length
decreasing_by simp only [List.length_drop, readSize] at *; omega

/-- A reader of a terminal's output. -/
structure Watcher where
  window : Window := {}
  attached : Bool := false
  ended : Bool := false
  deriving DecidableEq, Repr

namespace Watcher

def attach (w : Watcher) : Watcher := { w with attached := true }

def detach (w : Watcher) : Watcher := { w with attached := false }

/-- Reads one item of the queue. -/
def read (w : Watcher) : Item → Watcher
  | .chunk bytes => { w with window := (pieces bytes).foldl Window.extend w.window }
  | .endOfOutput | .fault => { w with ended := true, attached := false }

/-- Reads what is queued, as long as the watcher is attached: the watcher, what it has read, and what is
    left. -/
def drain (w : Watcher) : List Item → Watcher × List Item × List Item
  | [] => (w, [], [])
  | item :: rest =>
    if w.attached then
      let (w, taken, left) := drain (w.read item) rest
      (w, item :: taken, left)
    else (w, [], item :: rest)

/-- The place just after the last byte read. -/
def position (w : Watcher) : Nat := w.window.position

/-- What is known of a marker that is waited for: it is there, or it will not come any more. -/
def verdict? (w : Watcher) (marker : Bytes) (start : Int) : Option Bool :=
  if (w.window.find? marker start).isSome then some true
  else if w.ended then some false else none

end Watcher

end Teletype.Output
