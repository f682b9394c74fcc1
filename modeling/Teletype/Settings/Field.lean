import Teletype.Data.Value
import Teletype.Files.Path
import Teletype.Number.Integer
import Teletype.Number.Power
import Teletype.Settings.Issue

/-!
# Fields of settings

How a value of a data file is taken for a field of a type. Texts are taken as they are; numbers and
truth values are also read from texts that spell them, and from each other where nothing is lost.
-/

namespace Teletype.Settings

open Number (Binary64)

/-- Reads a value for a field. -/
abbrev Reader (α : Type) := Data.Value → Checked α

namespace Reader

/-- A text. -/
def text : Reader String
  | .text s => .valid s
  | _ => .refuse .notText

/-- The items of a list from an index on. -/
def textsFrom (index : Nat) : List Data.Value → Checked (List String)
  | [] => .valid []
  | v :: rest => List.cons <$> (text v).within (.item index) <*> textsFrom (index + 1) rest

/-- A list of texts. -/
def texts : Reader (List String)
  | .list items => textsFrom 0 items
  | _ => .refuse .notList

/-- A path, which is tidied. -/
def path : Reader String
  | .text s => .valid (Files.tidyPath s)
  | _ => .refuse .notPath

/-- A text without what may stand around a number. -/
def withoutMargin (s : List Char) : List Char :=
  ((s.dropWhile Number.isMargin).reverse.dropWhile Number.isMargin).reverse

/-- Two underscores stand side by side. -/
def hasDoubleMark : List Char → Bool
  | '_' :: '_' :: _ => true
  | _ :: rest => hasDoubleMark rest
  | [] => false

/-- A spelling without its underscores, unless they stand at an end or side by side. -/
def withoutMarks (s : List Char) : List Char :=
  if s.head? == some '_' || s.getLast? == some '_' || hasDoubleMark s then s else s.filter (· != '_')

/-- A spelling without a point that only zeros follow. -/
def withoutZeroFraction (s : List Char) : List Char :=
  match s.span (· != '.') with
  | (whole, _ :: zeros) => if zeros.all (· == '0') then whole else s
  | _ => s

/-- What remains of a spelling that starts with a zero when all leading zeros and the underscores
    between them are left out; `last` is the character before. A zero before a point stays. -/
def afterZeros (last : Char) : List Char → Option (List Char)
  | [] => some [last]
  | c :: rest =>
    if c == '0' || c == '_' then afterZeros c rest
    else if '1' ≤ c && c ≤ '9' then some (c :: rest)
    else if c == '.' then some (last :: c :: rest)
    else none

/-- A spelling without leading zeros, if it starts with a digit. -/
def withoutZeros : List Char → Option (List Char)
  | [] => none
  | c :: rest =>
    if c == '0' then afterZeros c rest
    else if '1' ≤ c && c ≤ '9' then some (c :: rest) else none

/-- A whole number from a spelling: a sign, digits with single underscores between them, and no
    fraction other than zero. -/
def wholeOfText (s : List Char) : Checked Int :=
  let body := withoutMargin s
  let body := match body with
    | '+' :: rest => if rest.head? == some '-' then none else some rest
    | _ => some body
  let signed? := body.map Number.signOf
  match signed?.bind fun (negative, rest) =>
      if negative && rest.head? == some '+' then none else (withoutZeros rest).map fun r => (negative, r) with
  | none => .refuse .unreadWhole
  | some (negative, rest) =>
    let ds := withoutMarks (withoutZeroFraction rest)
    if ds.isEmpty || !ds.all Char.isDigit then .refuse .unreadWhole
    else if Number.digitLimit < ds.length then .refuse .tooLongWhole
    else .valid (Number.signed negative (Text.ofDigits 10 (ds.filterMap Text.asciiDigit?)))

/-- A whole number from a number with a point. -/
def wholeOfReal (x : Binary64) : Checked Int :=
  if !x.isFinite then .refuse .notFinite
  else match x.toInt? with
    | none => .refuse .fractional
    | some n => if Number.inWord n then .valid n else .refuse .tooLongWhole

/-- A whole number. -/
def whole : Reader Int
  | .int n => .valid n
  | .bool b => .valid (if b then 1 else 0)
  | .float x => wholeOfReal x
  | .text s => wholeOfText s.toList
  | _ => .refuse .notWhole

/-- The words for numbers that are not finite. -/
def wordNumber? (negative : Bool) (s : List Char) : Option Binary64 :=
  let word := String.ofList (s.map Char.toLower)
  if word == "inf" || word == "infinity" then some (.infinite negative)
  else if word == "nan" then some .nan
  else none

/-- An exponent that is all of a text. -/
def exponent? : List Char → Option Int
  | [] => some 0
  | c :: rest =>
    if c == 'e' || c == 'E' then
      let (negative, ds) := Number.signOf rest
      if ds.isEmpty || !ds.all Char.isDigit then none
      else some (Number.signed negative (Text.ofDigits 10 (ds.filterMap Text.asciiDigit?)))
    else none

/-- A number from a spelling with a point or an exponent, digits on at least one side of the point. -/
def decimalNumber? (negative : Bool) (s : List Char) : Option Binary64 :=
  let whole := s.takeWhile Char.isDigit
  let rest := s.dropWhile Char.isDigit
  let (fraction, rest) := match rest with
    | '.' :: tail => (tail.takeWhile Char.isDigit, tail.dropWhile Char.isDigit)
    | _ => ([], rest)
  let ds := (whole ++ fraction).filterMap Text.asciiDigit?
  if ds.isEmpty then none
  else (exponent? rest).map fun e => .ofDecimal negative (Text.ofDigits 10 ds) (e - fraction.length)

/-- A number from a spelling. -/
def realOfText (s : List Char) : Checked Binary64 :=
  let (negative, body) := Number.signOf (withoutMarks (withoutMargin s))
  match wordNumber? negative body <|> decimalNumber? negative body with
  | some x => .valid x
  | none => .refuse .unreadReal

/-- A number. -/
def real : Reader Binary64
  | .float x => .valid x
  | .int n =>
    let x := Binary64.ofInt n
    if x.isFinite then .valid x else .refuse .notReal
  | .bool b => .valid (.ofInt (if b then 1 else 0))
  | .text s => realOfText s.toList
  | _ => .refuse .notReal

/-- A truth value from a whole number. -/
def flagOfInt (n : Int) : Checked Bool :=
  if n == 0 then .valid false
  else if n == 1 then .valid true
  else if Number.inWord n then .refuse .unreadFlag
  else .refuse .notFlag

/-- A truth value. -/
def flag : Reader Bool
  | .bool b => .valid b
  | .int n => flagOfInt n
  | .float x => match x.toInt? with
    | some n => flagOfInt n
    | none => .refuse .notFlag
  | .text s =>
    let word := String.ofList (s.toList.map Char.toLower)
    if ["0", "off", "f", "false", "n", "no"].contains word then .valid false
    else if ["1", "on", "t", "true", "y", "yes"].contains word then .valid true
    else .refuse .unreadFlag
  | _ => .refuse .notFlag

end Reader

variable {α : Type}

/-- A field that has to be there. -/
def required (members : List (String × Data.Value)) (name : String) (read : Reader α) : Checked α :=
  (match members.lookup name with
    | some v => read v
    | none => .refuse .missing).within (.field name)

/-- A field that has a default. -/
def optional (members : List (String × Data.Value)) (name : String) (read : Reader α) (default : α) :
    Checked α :=
  match members.lookup name with
  | some v => (read v).within (.field name)
  | none => .valid default

/-- An object, read by its members. -/
def record (model : String) (read : List (String × Data.Value) → Checked α) : Reader α
  | .object members => read members
  | _ => .refuse (.notObject model)

end Teletype.Settings
