import Teletype.Number.Power

/-!
# Binary floating-point numbers

The numbers of IEEE 754's binary64 format, by what they stand for: a sign, and a whole number of
units of a power of two. A ratio is read as the nearest of them, a tie going to the even mantissa.
-/

namespace Teletype.Number

/-- The whole number nearest to `num / den`, a tie going to the even neighbour. -/
def roundDiv (num den : Nat) : Nat :=
  let q := num / den
  let r := num % den
  if 2 * r < den then q else if den < 2 * r then q + 1 else q + q % 2

/-- A binary64 number. A finite one is `± mantissa · 2 ^ exponent`, with a mantissa below `2 ^ 53`
    that is at least `2 ^ 52` unless the exponent is the least, `-1074`. -/
inductive Binary64 where
  | nan
  | infinite (negative : Bool)
  | finite (negative : Bool) (mantissa : Nat) (exponent : Int)
  deriving DecidableEq, Repr

namespace Binary64

/-- Zero. -/
def zero : Binary64 := .finite false 0 (-1074)

instance : Inhabited Binary64 := ⟨zero⟩

/-- `num / den` counted in units of `2 ^ e`, as a numerator and a denominator. -/
def inUnits (num den : Nat) (e : Int) : Nat × Nat :=
  if 0 ≤ e then (num, den * pow2 e.toNat) else (num * pow2 (-e).toNat, den)

/-- The exponent of the number nearest to `num / den`: the one that gives the mantissa 53 bits,
    unless that is below the least. -/
def exponentFor (num den : Nat) : Int :=
  let e : Int := (num.log2 : Int) - den.log2 - 52
  let (n, d) := inUnits num den e
  max (-1074) (if n < pow2 52 * d then e - 1 else e)

/-- The number nearest to `± num / den`. -/
def ofRatio (negative : Bool) (num den : Nat) : Binary64 :=
  if num == 0 then .finite negative 0 (-1074)
  else
    let e := exponentFor num den
    let (n, d) := inUnits num den e
    let m := roundDiv n d
    let (m, e) := if m == pow2 53 then (pow2 52, e + 1) else (m, e)
    if 971 < e then .infinite negative else .finite negative m e

/-- The number nearest to `± digits · 10 ^ scale`. -/
def ofDecimal (negative : Bool) (digits : Nat) (scale : Int) : Binary64 :=
  let size : Int := (Nat.toDigits 10 digits).length
  if digits == 0 || scale + size < -400 then .finite negative 0 (-1074)
  else if 400 < scale + size then .infinite negative
  else if 0 ≤ scale then ofRatio negative (digits * pow10 scale.toNat) 1
  else ofRatio negative digits (pow10 (-scale).toNat)

/-- The number nearest to a whole number. -/
def ofInt (n : Int) : Binary64 := ofRatio (n < 0) n.natAbs 1

/-- The size of a finite number, as a numerator and a denominator. -/
def ratio? : Binary64 → Option (Nat × Nat)
  | .finite _ m e => some (if 0 ≤ e then (m * pow2 e.toNat, 1) else (m, pow2 (-e).toNat))
  | _ => none

def isNegative : Binary64 → Bool
  | .nan => false
  | .infinite negative => negative
  | .finite negative _ _ => negative

/-- The whole number that a finite number is, if it is one. -/
def toInt? : Binary64 → Option Int
  | .finite negative m e =>
    let size? := if 0 ≤ e then some (m * pow2 e.toNat)
      else if m % pow2 (-e).toNat == 0 then some (m / pow2 (-e).toNat) else none
    size?.map fun n => if negative then -(n : Int) else n
  | _ => none

def isFinite : Binary64 → Bool
  | .finite .. => true
  | _ => false

/-- The encoding as 64 bits: sign, exponent, mantissa. There is one encoding of a number that is
    none. -/
def toBits : Binary64 → Nat
  | .nan => 0x7ff8000000000000
  | .infinite negative => (if negative then pow2 63 else 0) + 0x7ff * pow2 52
  | .finite negative m e =>
    (if negative then pow2 63 else 0) + (if m < pow2 52 then m else (e + 1075).toNat * pow2 52 + (m - pow2 52))

end Binary64

end Teletype.Number
