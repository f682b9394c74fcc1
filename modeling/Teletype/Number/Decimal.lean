import Teletype.Text.Digit
import Teletype.Number.Binary64

/-!
# Decimal digits of a number

Ratios as decimal digits: rounded to a number of significant digits or of places, or the fewest
digits that read back as a given binary64 number. From the digits, the positional and the
exponential spelling.
-/

namespace Teletype.Number

/-- The number `0.d₁d₂… · 10 ^ point`, where `digits` are `d₁d₂…` as one whole number of `count`
    digits. -/
structure Decimal where
  digits : Nat
  count : Nat
  point : Int
  deriving DecidableEq, Repr

/-- The least `k` with `num / den < 10 ^ k`, for a ratio that is not zero. -/
def magnitude (num den : Nat) : Int :=
  if den ≤ num then (Nat.toDigits 10 (num / den)).length
  else
    let d := (Nat.toDigits 10 (den / num)).length
    if num * pow10 (d - 1) == den then 2 - (d : Int) else 1 - (d : Int)

/-- `num / den · 10 ^ k`, as a numerator and a denominator. -/
def shifted (num den : Nat) (k : Int) : Nat × Nat :=
  if 0 ≤ k then (num * pow10 k.toNat, den) else (num, den * pow10 (-k).toNat)

/-- A ratio rounded to `n` significant digits, a tie going to the even digit. Zero has the point
    after its first digit. -/
def significant (n num den : Nat) : Decimal :=
  if num == 0 then ⟨0, n, 1⟩
  else
    let k := magnitude num den
    let (a, b) := shifted num den (n - k)
    let q := roundDiv a b
    if q == pow10 n then ⟨pow10 (n - 1), n, k + 1⟩ else ⟨q, n, k⟩

/-- The number nearest to a decimal. -/
def Decimal.toBinary64 (d : Decimal) : Binary64 := .ofDecimal false d.digits (d.point - d.count)

/-- The two neighbours of `num / den` with `n` significant digits, the nearer first. -/
def neighbours (n num den : Nat) : List Decimal :=
  let k := magnitude num den
  let (a, b) := shifted num den (n - k)
  let near := roundDiv a b
  let far := if near == a / b then a / b + 1 else a / b
  [near, far].map fun q => if q == pow10 n then ⟨pow10 (n - 1), n, k + 1⟩ else ⟨q, n, k⟩

/-- The fewest digits that read back as the number nearest to `num / den`, and of those the nearest
    to it. Seventeen always do. -/
def shortest (num den : Nat) : Decimal :=
  if num == 0 then ⟨0, 1, 1⟩
  else
    let x := Binary64.ofRatio false num den
    let tries := (List.range 17).flatMap fun n => neighbours (n + 1) num den
    (tries.find? fun d => d.toBinary64 == x).getD (significant 17 num den)

/-- The digits as characters. -/
def Decimal.chars (d : Decimal) : List Char := Text.paddedDigits 10 d.count d.digits

/-- The characters of a run of digits without the zeros at its end. -/
def withoutTrailingZeros (ds : List Char) : List Char := (ds.reverse.dropWhile (· == '0')).reverse

/-- The digits before and after the point in positional spelling. -/
def Decimal.split (d : Decimal) : List Char × List Char :=
  let ds := d.chars
  if d.point ≤ 0 then (['0'], List.replicate (-d.point).toNat '0' ++ ds)
  else
    let k := d.point.toNat
    (ds.take k ++ List.replicate (k - ds.length) '0', ds.drop k)

/-- An exponent: its mark, its sign, and at least two digits. -/
def exponentChars (mark : Char) (e : Int) : List Char :=
  mark :: (if e < 0 then '-' else '+') :: Text.paddedDigits 10 2 e.natAbs

/-- Digits around a point, which is left out if nothing follows it. -/
def joined (whole fraction : List Char) : List Char :=
  if fraction.isEmpty then whole else whole ++ '.' :: fraction

/-- The spelling with at most six significant digits: positional between a ten-thousandth and a
    million, exponential elsewhere, without zeros at the end. -/
def generalText (x : Binary64) : String :=
  match x with
  | .nan => "nan"
  | .infinite negative => if negative then "-inf" else "inf"
  | .finite negative m e =>
    let (num, den) := (Binary64.ratio? (.finite negative m e)).getD (0, 1)
    let d := significant 6 num den
    let body :=
      if -4 < d.point && d.point ≤ 6 then joined d.split.1 (withoutTrailingZeros d.split.2)
      else joined (d.chars.take 1) (withoutTrailingZeros (d.chars.drop 1)) ++ exponentChars 'e' (d.point - 1)
    String.ofList ((if negative then ['-'] else []) ++ body)

/-- The spelling with the fewest digits that read back: positional between a ten-thousandth and
    `10 ^ 16`, there with at least one digit after the point, and exponential elsewhere. -/
def shortestText (x : Binary64) : String :=
  match x with
  | .nan => "nan"
  | .infinite negative => if negative then "-inf" else "inf"
  | .finite negative m e =>
    let (num, den) := (Binary64.ratio? (.finite negative m e)).getD (0, 1)
    let d := shortest num den
    let body :=
      if -4 < d.point && d.point ≤ 16 then
        let fraction := withoutTrailingZeros d.split.2
        joined d.split.1 (if fraction.isEmpty then ['0'] else fraction)
      else joined (d.chars.take 1) (withoutTrailingZeros (d.chars.drop 1)) ++ exponentChars 'e' (d.point - 1)
    String.ofList ((if negative then ['-'] else []) ++ body)

/-- The decimal value that a finite number is written as. A span of time given as `0.1` lasts a tenth
    of a second, not the binary fraction next to it. -/
def Binary64.writtenValue? (x : Binary64) : Option Rat :=
  x.ratio?.map fun (num, den) =>
    let d := shortest num den
    let k := d.point - d.count
    let size : Rat := if 0 ≤ k then (d.digits * pow10 k.toNat : Nat) else mkRat d.digits (pow10 (-k).toNat)
    if x.isNegative then -size else size

end Teletype.Number
