import Teletype.Number.Decimal

/-!
# Time

Time is exact and counted in seconds. A span may be endless, past from the start, or no number at all;
a deadline made from it is then never met, met from the start, or such that every comparison with it
fails.
-/

namespace Teletype

/-- A point in time, in seconds. -/
abbrev Time := Rat

/-- The later of two times. -/
def later (a b : Time) : Time := if a < b then b else a

/-- How long something may take. -/
inductive Span where
  | finite (seconds : Rat)
  | endless
  | past
  | undefined
  deriving DecidableEq, Repr

namespace Span

/-- The span that a number of seconds stands for, by its decimal value. -/
def ofNumber (x : Number.Binary64) : Span :=
  match x with
  | .nan => .undefined
  | .infinite negative => if negative then .past else .endless
  | .finite .. => .finite (x.writtenValue?.getD 0)

/-- One span is shorter than another. Nothing is shorter than an undefined span, nor is that shorter
    than anything. -/
def isShorter : Span → Span → Bool
  | .finite a, .finite b => a < b
  | .finite _, .endless => true
  | .past, .finite _ => true
  | .past, .endless => true
  | _, _ => false

/-- The second of two spans if it is the shorter one, and the first otherwise. -/
def orShorter (a b : Span) : Span := if b.isShorter a then b else a

end Span

/-- When something has to be done. -/
inductive Deadline where
  | at (time : Time)
  | never
  | passed
  | undefined
  deriving DecidableEq, Repr

namespace Deadline

/-- The deadline a span after a time. -/
def after (now : Time) : Span → Deadline
  | .finite s => .at (now + s)
  | .endless => .never
  | .past => .passed
  | .undefined => .undefined

/-- The span that is left until a deadline. -/
def left (d : Deadline) (now : Time) : Span :=
  match d with
  | .at t => .finite (t - now)
  | .never => .endless
  | .passed => .past
  | .undefined => .undefined

/-- Nothing is left until the deadline. -/
def isOver (d : Deadline) (now : Time) : Bool :=
  match d with
  | .at t => t ≤ now
  | .passed => true
  | .never | .undefined => false

/-- The deadline is still to come. -/
def isAhead (d : Deadline) (now : Time) : Bool :=
  match d with
  | .at t => now < t
  | .never => true
  | .passed | .undefined => false

end Deadline

/-- The microseconds in a number of seconds, rounded to the nearest, a tie going to the even one. -/
def microseconds (t : Rat) : Int :=
  let num := t.num.natAbs * 1000000
  let size : Int := Number.roundDiv num t.den
  if t.num < 0 then -size else size

end Teletype
