import Teletype.Text.Blank
import Teletype.Text.Digit
import Teletype.Text.Quoted

/-!
# Whole numbers in a text

A whole number is read with blanks around it, a sign, and decimal digits of any script, between two
of which one underscore may stand. More than 4300 digits are refused.
-/

namespace Teletype.Number

/-- The most digits that are read. -/
def digitLimit : Nat := 4300

/-- Why a text is not read as a whole number. -/
inductive NotAnInteger where
  | malformed
  | tooManyDigits (count : Nat)
  deriving DecidableEq, Repr

/-- What is said of a number with too many digits. -/
def tooManyDigitsText (count : Nat) : String :=
  "Exceeds the limit (4300 digits) for integer string conversion: value has " ++ toString count
    ++ " digits; use sys.set_int_max_str_digits() to increase the limit"

/-- What is said of a text that is not read. At most 200 characters of its quoted form are shown. -/
def NotAnInteger.message (s : String) : NotAnInteger → String
  | .malformed =>
    "invalid literal for int() with base 10: " ++ String.ofList ((Text.quoted s).toList.take 200)
  | .tooManyDigits count => tooManyDigitsText count

/-- The characters that may stand around a number: the blanks other than the four ASCII separators. -/
def isMargin (c : Char) : Bool := Text.isBlank c && !(0x1c ≤ c.toNat && c.toNat ≤ 0x1f)

/-- A run of digits with single underscores between them: the digits' values, and the rest. An
    underscore belongs to the run if it stands `after` a digit and before one. -/
def digitRun (digit? : Char → Option Nat) (after : Bool) : List Char → List Nat × List Char
  | [] => ([], [])
  | c :: rest =>
    match digit? c with
    | some d =>
      let (ds, tail) := digitRun digit? true rest
      (d :: ds, tail)
    | none =>
      if c == '_' && after && (rest.head?.bind digit?).isSome then digitRun digit? false rest
      else ([], c :: rest)

/-- A sign and the rest: whether the number is negative. -/
def signOf : List Char → Bool × List Char
  | '-' :: rest => (true, rest)
  | '+' :: rest => (false, rest)
  | rest => (false, rest)

/-- A size with a sign. -/
def signed (negative : Bool) (n : Nat) : Int := if negative then -(n : Int) else n

/-- Reads a whole number. -/
def readInteger (s : List Char) : Except NotAnInteger Int :=
  let (negative, body) := signOf (s.dropWhile isMargin)
  let (ds, after) := digitRun Text.digitValue? false body
  if after.head? == some '_' then .error .malformed
  else if digitLimit < ds.length then .error (.tooManyDigits ds.length)
  else if ds.isEmpty || after.any fun c => !isMargin c then .error .malformed
  else .ok (signed negative (Text.ofDigits 10 ds))

end Teletype.Number
