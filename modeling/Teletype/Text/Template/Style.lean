import Teletype.Number.Decimal
import Teletype.Number.Integer
import Teletype.Text.Template.Error

/-!
# Styles of template fields

The part of a field after its colon: fill and alignment, sign, width, separators, precision and a
code for the form. A style is read once and then applied to a text or to a whole number.
-/

namespace Teletype.Text.Template

/-- What a style asks for. -/
structure Style where
  fill : Char := ' '
  align : Char
  sign : Option Char := none
  coerceZero : Bool := false
  alternate : Bool := false
  width : Nat := 0
  separator : Option Char := none
  precision : Option Nat := none
  code : Option Char := none
  deriving Repr

def isAlign (c : Char) : Bool := c == '<' || c == '>' || c == '=' || c == '^'

/-- The largest number that a style or an index may hold. -/
def countLimit : Nat := Number.pow2 63 - 1

/-- A number at the start of a style: `none` without digits. -/
def readCount (s : List Char) : Except Malformed (Option Nat × List Char) :=
  let ds := (s.takeWhile fun c => (digitValue? c).isSome).filterMap digitValue?
  let n := ofDigits 10 ds
  if countLimit < n then .error .tooManyDigits
  else .ok (if ds.isEmpty then none else some n, s.drop ds.length)

/-- The fill and alignment at the start of a style. -/
def readAlign (s : List Char) : Option Char × Option Char × List Char :=
  match s with
  | fill :: align :: rest =>
    if isAlign align then (some fill, some align, rest)
    else if isAlign fill then (none, some fill, align :: rest)
    else (none, none, s)
  | [c] => if isAlign c then (none, some c, []) else (none, none, s)
  | [] => (none, none, s)

/-- A character at the start of a style, if it is one of those asked for. -/
def readOne (chars : List Char) : List Char → Option Char × List Char
  | [] => (none, [])
  | c :: rest => if chars.contains c then (some c, rest) else (none, c :: rest)

/-- The separator of thousands at the start of a style; two different ones exclude each other. -/
def readSeparator (s : List Char) : Except Malformed (Option Char × List Char) :=
  match readOne [','] s with
  | (some comma, rest) => if rest.head? == some '_' then .error .bothSeparators else .ok (some comma, rest)
  | (none, rest) =>
    match readOne ['_'] rest with
    | (some low, tail) => if tail.head? == some ',' then .error .bothSeparators else .ok (some low, tail)
    | (none, tail) => .ok (none, tail)

/-- The precision at the start of a style: a point and a number. -/
def readPrecision : List Char → Except Malformed (Option Nat × List Char)
  | '.' :: rest =>
    match readCount rest with
    | .error e => .error e
    | .ok (none, _) => .error .missingPrecision
    | .ok (some n, tail) => .ok (some n, tail)
  | rest => .ok (none, rest)

/-- Whether a separator may go with a code: either one with decimal forms, the underscore also with
    the forms in other bases. -/
def allowsSeparator (separator : Char) (code : Option Char) : Bool :=
  match code with
  | none => true
  | some c => "defgEG%F".toList.contains c || (separator == '_' && "boxX".toList.contains c)

/-- Reads a style for a value of a kind. -/
def Style.read (kind : Kind) (spec : List Char) : Except Malformed Style := do
  let natural := match kind with
    | .text => '<'
    | .number => '>'
  let (fill?, align?, s) := readAlign spec
  let (sign, s) := readOne [' ', '+', '-'] s
  let (coerce, s) := readOne ['z'] s
  let (alternate, s) := readOne ['#'] s
  let (zero, s) := if fill?.isNone then readOne ['0'] s else (none, s)
  let align := align?.getD (if zero.isSome && kind == .number then '=' else natural)
  let (width, s) ← readCount s
  let (separator, s) ← readSeparator s
  let (precision, s) ← readPrecision s
  let code ← match s with
    | [] => pure none
    | [c] => pure (some c)
    | _ => throw (.invalidStyle (String.ofList spec) kind)
  if let some sep := separator then
    let effective := if kind == .text && code.isNone then some 's' else code
    if !allowsSeparator sep effective then throw (.separatorWithCode sep (effective.getD 's'))
  return {
    fill := fill?.getD (if zero.isSome then '0' else ' '), align, sign, coerceZero := coerce.isSome,
    alternate := alternate.isSome, width := width.getD 0, separator, precision, code }

/-- A body padded to a width; `lead` stays in front of the padding of an `=` alignment. -/
def Style.pad (st : Style) (lead body : List Char) : List Char :=
  let n := st.width - (lead.length + body.length)
  let fill := List.replicate n st.fill
  match st.align with
  | '<' => lead ++ body ++ fill
  | '^' => fill.take (n / 2) ++ lead ++ body ++ fill.drop (n / 2)
  | '=' => lead ++ fill ++ body
  | _ => fill ++ lead ++ body

/-- A text in a style. -/
def Style.text (st : Style) (s : List Char) : Except Malformed (List Char) :=
  if st.code.any (· != 's') then .error (.unknownCode (st.code.getD 's') .text)
  else if st.sign == some ' ' then .error .textSpace
  else if st.sign.isSome then .error .textSign
  else if st.coerceZero then .error .textCoercion
  else if st.alternate then .error .textAlternate
  else if st.align == '=' then .error .textAlignment
  else .ok (st.pad [] (match st.precision with
    | some n => s.take n
    | none => s))

/-- Digits with a separator before every `size`-th digit counted from the end. -/
def grouped (size : Nat) (separator : Char) (ds : List Char) : List Char :=
  (ds.zipIdx.flatMap fun (d, i) =>
    let after := ds.length - i
    if i != 0 && after % size == 0 then [separator, d] else [d])

/-- The digits of a whole part, with separators, and with leading zeros where zeros fill up to the
    width: the fewest that reach it. -/
def Style.whole (st : Style) (size others : Nat) (ds : List Char) : List Char :=
  let least := if st.fill == '0' && st.align == '=' then st.width - others else 0
  match st.separator with
  | none => List.replicate (least - ds.length) '0' ++ ds
  | some sep =>
    let fits (extra : Nat) : Bool :=
      let n := ds.length + extra
      decide (least ≤ n + (n - 1) / size)
    let extra := ((List.range (least + 1)).find? fits).getD 0
    grouped size sep (List.replicate extra '0' ++ ds)

/-- The sign that a style shows for a number. -/
def Style.signChars (st : Style) (negative : Bool) : List Char :=
  if negative then ['-'] else
    match st.sign with
    | some '+' => ['+']
    | some ' ' => [' ']
    | _ => []

/-- A whole number in a base, with the mark of the base if the style asks for it. -/
def Style.inBase (st : Style) (base : Nat) (mark : List Char) (upper : Bool) (n : Int) : List Char :=
  let ds := Nat.toDigits base n.natAbs
  let ds := if upper then ds.map Char.toUpper else ds
  let lead := st.signChars (n < 0) ++ (if st.alternate then mark else [])
  st.pad lead (st.whole (if base == 10 then 3 else 4) lead.length ds)

/-- The digits around the point and the exponent of a number in a fixed, exponential or general
    form. -/
def numberParts (code : Char) (alternate : Bool) (precision num den : Nat) :
    List Char × List Char × List Char :=
  let point (fraction : List Char) := if fraction.isEmpty && !alternate then [] else '.' :: fraction
  match code.toLower with
  | 'e' =>
    let d := Number.significant (precision + 1) num den
    (d.chars.take 1, point (d.chars.drop 1), Number.exponentChars code (d.point - 1))
  | 'f' =>
    let q := Number.roundDiv (num * Number.pow10 precision) den
    let ds := paddedDigits 10 (precision + 1) q
    (ds.take (ds.length - precision), point (ds.drop (ds.length - precision)), [])
  | _ =>
    let p := max precision 1
    let d := Number.significant p num den
    let strip (f : List Char) := if alternate then f else Number.withoutTrailingZeros f
    let mark := if code == 'G' then 'E' else 'e'
    if -4 < d.point && d.point ≤ p then (d.split.1, point (strip d.split.2), [])
    else (d.chars.take 1, point (strip (d.chars.drop 1)), Number.exponentChars mark (d.point - 1))

/-- A whole number in a form with a point. -/
def Style.pointed (st : Style) (code : Char) (n : Int) : Except Error (List Char) :=
  let precision := st.precision.getD 6
  if Number.pow2 31 ≤ precision then .error (.malformed .precisionTooBig)
  else match (Number.Binary64.ofInt n).ratio? with
    | none => .error .beyondBinary64
    | some (num, den) =>
      let percent := code == '%'
      let (whole, fraction, exponent) :=
        numberParts (if percent then 'f' else code) st.alternate precision (if percent then num * 100 else num) den
      let tail := fraction ++ exponent ++ (if percent then ['%'] else [])
      let lead := st.signChars (n < 0)
      .ok (st.pad lead (st.whole 3 (lead.length + tail.length) whole ++ tail))

/-- A whole number in a style. -/
def Style.number (st : Style) (n : Int) : Except Error (List Char) :=
  let code := st.code.getD 'd'
  if "eEfFgG%".toList.contains code then st.pointed code n
  else if !"bcdnoxX".toList.contains code then .error (.malformed (.unknownCode code .number))
  else if st.precision.isSome then .error (.malformed .numberPrecision)
  else if st.coerceZero then .error (.malformed .numberCoercion)
  else match code with
    | 'c' =>
      if st.sign.isSome then .error (.malformed .characterSign)
      else if st.alternate then .error (.malformed .characterAlternate)
      else if !Number.inWord n then .error .beyondWord
      else if n < 0 || 0x110000 ≤ n then .error .noSuchCharacter
      else .ok (st.pad [] [Char.ofNat n.toNat])
    | 'b' => .ok (st.inBase 2 ['0', 'b'] false n)
    | 'o' => .ok (st.inBase 8 ['0', 'o'] false n)
    | 'x' => .ok (st.inBase 16 ['0', 'x'] false n)
    | 'X' => .ok (st.inBase 16 ['0', 'X'] true n)
    | _ =>
      if Number.pow10 Number.digitLimit ≤ n.natAbs then .error .beyondDecimal
      else .ok (st.inBase 10 [] false n)

end Teletype.Text.Template
