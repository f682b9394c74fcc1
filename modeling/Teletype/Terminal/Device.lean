import Teletype.Clock
import Teletype.Fault
import Teletype.Text.Utf8

/-!
# Devices

What stands at the far end of a terminal: a shell with whatever runs in it, seen from the handle of the
terminal alone. It acts by itself at certain times and in answer to what is typed; it may refuse what
the host asks of it.
-/

namespace Teletype

/-- One thing that a device does. -/
inductive Effect where
  | output (bytes : Text.Bytes)
  | file (path : String) (size : Nat)
  | exit (code : Int)
  | endOfOutput
  | readFault
  deriving DecidableEq, Repr

/-- What a device does in answer to a text: some of it at once, the rest after a delay. -/
structure Reaction where
  atOnce : List Effect := []
  later : List (Rat × List Effect) := []

/-- How the host answers a request to write: it takes a number of bytes, would have to wait, or
    fails. -/
inductive Answer where
  | took (count : Nat)
  | wouldBlock
  | fault (f : Fault)
  deriving DecidableEq, Repr

/-- Faults that the host has ready, each for the next call of its kind. -/
structure Faults where
  opening : Option Fault := none
  spawning : Option Fault := none
  resizing : Option Fault := none
  deriving DecidableEq, Repr

/-- Faults with those of another supply in place of them where it has some. -/
def Faults.updated (old new : Faults) : Faults where
  opening := new.opening <|> old.opening
  spawning := new.spawning <|> old.spawning
  resizing := new.resizing <|> old.resizing

/-- A device: the faults it brings, the code its child has exited with from the start, what it does
    when the child is spawned and at times after that, how it reacts to a text after the texts typed
    before, which writes fail, and whether closing fails. -/
structure Device where
  faults : Faults := {}
  exitCode : Option Int := none
  input : List Effect := []
  events : List (Rat × List Effect) := []
  react : List String → String → Reaction := fun _ _ => {}
  writeFault : Nat → Option Fault := fun _ => none
  closeFault : Option Fault := none

end Teletype
