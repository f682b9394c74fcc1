import Teletype.Terminal.Device
import Teletype.Text.Search

/-!
# Devices with rules

A device that answers by rules: each waits for texts that hold a certain word, lets some of them pass,
and does something a while after each of the others. The device may also show what is typed, as a
terminal does.
-/

namespace Teletype

/-- A rule: the word, how many texts with it pass before the first and how many are answered at most,
    the delay, and what is done. -/
structure Rule where
  word : String
  skip : Nat := 0
  limit : Option Nat := none
  delay : Rat := 0
  effects : List Effect := []
  deriving Repr

namespace Rule

/-- The rule answers the hit of this number, counted from 1. -/
def answers (r : Rule) (hit : Nat) : Bool :=
  r.skip < hit && match r.limit with
    | none => true
    | some n => decide (hit ≤ r.skip + n)

/-- What a rule does about a text after the texts typed before. -/
def react (r : Rule) (before : List String) (text : String) : Option (Rat × List Effect) :=
  if Text.holds text r.word then
    let hit := (before.filter fun t => Text.holds t r.word).length + 1
    if r.answers hit then some (r.delay, r.effects) else none
  else none

end Rule

/-- What a terminal shows of a text that is typed. -/
def shown (text : String) : Text.Bytes :=
  Text.utf8 (String.ofList (text.toList.flatMap fun c => if c == '\n' then ['\r', '\n'] else [c]))

/-- The reaction of a device with rules. -/
def reactBy (echo : Bool) (rules : List Rule) (before : List String) (text : String) : Reaction where
  atOnce := if echo then [.output (shown text)] else []
  later := rules.filterMap fun r => r.react before text

end Teletype
