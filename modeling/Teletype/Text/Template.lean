import Teletype.Text.Template.Style

/-!
# Templates

A template is text with fields in braces. A field names a value, may pick a part of it, may ask for
its quoted form after `!`, and may give a style after `:`, in which fields may stand again. Doubled
braces are braces. Fields are filled from left to right, so the first thing wrong decides.
-/

namespace Teletype.Text.Template

/-- A value that a field is filled with. -/
inductive Slot where
  | text (s : String)
  | number (n : Int)
  deriving DecidableEq, Repr

/-- The values by name. -/
abbrev Bindings := List (String × Slot)

/-- A field as written: the name with what it picks, the conversion, and the style. -/
structure Field where
  name : List Char
  conversion : Option Char := none
  style : List Char := []
  deriving Repr

/-- The number that a name is, if it is all digits. -/
def readIndex (s : List Char) : Except Malformed (Option Nat) :=
  if s.isEmpty || s.any fun c => (digitValue? c).isNone then .ok none
  else do
    let (n, _) ← readCount s
    return n

/-- The name of a field and the character that ends it; a bracket hides all up to the next closing
    one. -/
def splitName (inBracket : Bool) : List Char → List Char × Option Char × List Char
  | [] => ([], none, [])
  | c :: rest =>
    if inBracket then
      let (name, stop, tail) := splitName (c != ']') rest
      (c :: name, stop, tail)
    else if c == '{' || c == '}' || c == ':' || c == '!' then ([], some c, rest)
    else
      let (name, stop, tail) := splitName (c == '[') rest
      (c :: name, stop, tail)

/-- A style up to the brace that closes its field, `depth` braces being open inside it. -/
def splitStyle (depth : Nat) : List Char → Option (List Char × List Char)
  | [] => none
  | c :: rest =>
    if c == '}' then
      match depth with
      | 0 => some ([], rest)
      | d + 1 => (splitStyle d rest).map fun (s, tail) => (c :: s, tail)
    else if c == '{' then (splitStyle (depth + 1) rest).map fun (s, tail) => (c :: s, tail)
    else (splitStyle depth rest).map fun (s, tail) => (c :: s, tail)

/-- The field with a name and a conversion whose style starts here. -/
def readStyle (name : List Char) (conversion : Option Char) (s : List Char) :
    Except Malformed (Field × List Char) :=
  match splitStyle 0 s with
  | some (style, tail) => .ok (⟨name, conversion, style⟩, tail)
  | none => .error .unclosedStyle

/-- Reads a field after its opening brace. -/
def readField (s : List Char) : Except Malformed (Field × List Char) :=
  match splitName false s with
  | (name, some '}', rest) => .ok (⟨name, none, []⟩, rest)
  | (name, some ':', rest) => readStyle name none rest
  | (name, some '!', rest) =>
    match rest with
    | [] => .error .missingConversion
    | [c] => readStyle name (some c) []
    | c :: '}' :: tail => .ok (⟨name, some c, []⟩, tail)
    | c :: ':' :: tail => readStyle name (some c) tail
    | _ => .error .conversionNotEnded
  | (_, some _, _) => .error .unexpectedOpen
  | (_, none, _) => .error .unclosedField

/-- What a field picks from its value. -/
inductive Pick where
  | attribute (name : String)
  | item (index : Nat)
  | itemNamed (name : String)
  deriving DecidableEq, Repr

/-- The first pick of a field, and the rest. -/
def readPick : List Char → Except Malformed (Pick × List Char)
  | '.' :: rest =>
    let (name, tail) := rest.span fun c => c != '.' && c != '['
    if name.isEmpty then .error .emptyAttribute else .ok (.attribute (String.ofList name), tail)
  | '[' :: rest =>
    let (name, tail) := rest.span fun c => c != ']'
    if tail.isEmpty then .error .missingBracket
    else do
      let index ← readIndex name
      if name.isEmpty then throw .emptyAttribute
      return (match index with
        | some n => .item n
        | none => .itemNamed (String.ofList name), tail.drop 1)
  | _ => .error .afterBracket

/-- A pick from a value. A whole number has its real part, its imaginary part and its two parts as a
    fraction. -/
def Slot.pick : Slot → Pick → Except Error Slot
  | .text s, .item n => match s.toList[n]? with
    | some c => .ok (.text (String.singleton c))
    | none => .error .outsideText
  | .number n, .attribute name =>
    if name == "real" || name == "numerator" then .ok (.number n)
    else if name == "imag" then .ok (.number 0)
    else if name == "denominator" then .ok (.number 1)
    else .error .noAttribute
  | .text _, .attribute _ => .error .noAttribute
  | .text _, .itemNamed _ => .error .notIndexed
  | .number _, .item _ => .error .notIndexed
  | .number _, .itemNamed _ => .error .notIndexed

/-- Follows the picks of a field, at most `fuel` of them. -/
def follow (fuel : Nat) (v : Slot) (s : List Char) : Except Error Slot :=
  match fuel, s with
  | _, [] => .ok v
  | 0, _ => .ok v
  | fuel + 1, s =>
    match readPick s with
    | .error m => .error (.malformed m)
    | .ok (p, rest) =>
      match v.pick p with
      | .error e => .error e
      | .ok w => follow fuel w rest

/-- The decimal digits of a number, refused if there are too many. -/
def numberText (n : Int) : Except Error String :=
  if Number.pow10 Number.digitLimit ≤ n.natAbs then .error .beyondDecimal else .ok (toString n)

/-- The plain form of a value. -/
def Slot.plain : Slot → Except Error String
  | .text s => .ok s
  | .number n => numberText n

/-- The value that a field stands for, before conversion. A name that is empty or a number asks for
    a value by position, and there are none. -/
def Bindings.value (b : Bindings) (name : List Char) : Except Error Slot :=
  let (first, rest) := name.span fun c => c != '.' && c != '['
  match readIndex first with
  | .error m => .error (.malformed m)
  | .ok (some n) => .error (.unboundIndex n)
  | .ok none =>
    if first.isEmpty then .error (.unboundIndex 0)
    else match b.lookup (String.ofList first) with
      | none => .error (.unboundName (String.ofList first))
      | some v => follow rest.length v rest

/-- A value after the conversion that a field asks for. -/
def Slot.convert (v : Slot) : Option Char → Except Error Slot
  | none => .ok v
  | some 's' => v.plain.map .text
  | some 'r' => match v with
    | .text s => .ok (.text (quoted s))
    | .number n => (numberText n).map .text
  | some 'a' => match v with
    | .text s => .ok (.text (asciiQuoted s))
    | .number n => (numberText n).map .text
  | some c => .error (.malformed (.unknownConversion c))

/-- A value in a style; without one, its plain form. -/
def Slot.styled (v : Slot) (style : List Char) : Except Error (List Char) :=
  if style.isEmpty then v.plain.map String.toList
  else match v with
    | .text s => match Style.read .text style >>= fun st => st.text s.toList with
      | .ok cs => .ok cs
      | .error m => .error (.malformed m)
    | .number n => match Style.read .number style with
      | .ok st => st.number n
      | .error m => .error (.malformed m)

/-- Fills a template. `depth` is how deep fields may still stand inside styles, and `fuel` bounds the
    number of pieces. -/
def expand (b : Bindings) (depth fuel : Nat) (s : List Char) : Except Error (List Char) :=
  match depth, fuel, s with
  | 0, _, _ => .error (.malformed .nestedTooDeep)
  | _ + 1, _, [] => .ok []
  | _ + 1, 0, _ => .ok []
  | depth + 1, fuel + 1, c :: rest =>
    let literal (cs tail : List Char) : Except Error (List Char) :=
      (expand b (depth + 1) fuel tail).map (cs ++ ·)
    match c, rest with
    | '{', '{' :: tail => literal ['{'] tail
    | '}', '}' :: tail => literal ['}'] tail
    | '{', [] => .error (.malformed .singleOpen)
    | '}', _ => .error (.malformed .singleClose)
    | '{', rest =>
      match readField rest with
      | .error m => .error (.malformed m)
      | .ok (field, tail) => do
        let v ← b.value field.name
        let v ← v.convert field.conversion
        let style ← if field.style.contains '{' then expand b depth fuel field.style else pure field.style
        literal (← v.styled style) tail
    | c, rest => literal [c] rest
termination_by structural fuel

/-- Fills a template with values. -/
def fill (b : Bindings) (template : String) : Except Error String :=
  (expand b 2 template.length template.toList).map String.ofList

end Teletype.Text.Template
