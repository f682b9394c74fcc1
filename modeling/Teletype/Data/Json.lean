import Teletype.Data.Value
import Teletype.Number.Integer

/-!
# Reading JSON

A reader of JSON texts that tells where and why a text is refused. Beside the standard's values it
takes `NaN`, `Infinity` and `-Infinity`. A number is whole unless it has a point or an exponent. Of two
members of one name the later counts.

Each reader gives back what is left of the text; the place of a flaw is told by how many characters
are left there.
-/

namespace Teletype.Data.Json

open Number (Binary64)

/-- What a reader finds wrong. -/
inductive Complaint where
  | expectedValue
  | expectedName
  | expectedColon
  | expectedComma
  | extraData
  | unterminatedText
  | controlCharacter
  | badEscape
  | badUnitEscape
  | byteOrderMark
  deriving DecidableEq, Repr

def Complaint.message : Complaint → String
  | .expectedValue => "Expecting value"
  | .expectedName => "Expecting property name enclosed in double quotes"
  | .expectedColon => "Expecting ':' delimiter"
  | .expectedComma => "Expecting ',' delimiter"
  | .extraData => "Extra data"
  | .unterminatedText => "Unterminated string starting at"
  | .controlCharacter => "Invalid control character at"
  | .badEscape => "Invalid \\escape"
  | .badUnitEscape => "Invalid \\uXXXX escape"
  | .byteOrderMark => "Unexpected UTF-8 BOM (decode using utf-8-sig)"

/-- Why a text is refused while it is read: a complaint with the number of characters left at its
    place, or a whole number with too many digits. -/
inductive Stop where
  | complaint (what : Complaint) (left : Nat)
  | tooManyDigits (count : Nat)
  deriving DecidableEq, Repr

def isSpace (c : Char) : Bool := c == ' ' || c == '\t' || c == '\n' || c == '\r'

def skipSpace (s : List Char) : List Char := s.dropWhile isSpace

/-- What follows `word` in a text that starts with it. -/
def after? (word : String) (s : List Char) : Option (List Char) :=
  if word.toList.isPrefixOf s then some (s.drop word.length) else none

/-- The character of a one-letter escape. -/
def escaped? (c : Char) : Option Char :=
  match c with
  | '"' => some '"'
  | '\\' => some '\\'
  | '/' => some '/'
  | 'b' => some '\x08'
  | 'f' => some '\x0c'
  | 'n' => some '\n'
  | 'r' => some '\r'
  | 't' => some '\t'
  | _ => none

/-- A UTF-16 unit of four hexadecimal digits, `left` being the characters left at its start. A unit
    that ends the text is refused, for a quote has to follow. -/
def readUnit (s : List Char) : Except Stop (Nat × List Char) :=
  if s.length ≤ 4 then .error (.complaint .badUnitEscape (s.length + 1))
  else
    let ds := (s.take 4).filterMap Text.hexDigit?
    if ds.length == 4 then .ok (Text.ofDigits 16 ds, s.drop 4)
    else .error (.complaint .badUnitEscape (s.length + 1))

/-- The character of a unit escape after its `\u`, joined with the escape after it if the two are a
    surrogate pair. A lone surrogate stands for no character and becomes the replacement character. -/
def readUnits (s : List Char) : Except Stop (Char × List Char) := do
  let (high, rest) ← readUnit s
  let lone : Char := if 0xd800 ≤ high && high ≤ 0xdfff then '\ufffd' else Char.ofNat high
  if 0xd800 ≤ high && high ≤ 0xdbff && 6 < rest.length then
    match rest with
    | '\\' :: 'u' :: tail =>
      let (low, tail) ← readUnit tail
      if 0xdc00 ≤ low && low ≤ 0xdfff then
        return (Char.ofNat (0x10000 + (high - 0xd800) * 0x400 + (low - 0xdc00)), tail)
      else return (lone, rest)
    | _ => return (lone, rest)
  else return (lone, rest)

/-- Reads a text after its opening quote. `opened` is the number of characters left at the quote,
    `before` holds the characters read, last first. -/
def readText (fuel opened : Nat) (before : List Char) (s : List Char) :
    Except Stop (String × List Char) :=
  match fuel, s with
  | 0, _ => .error (.complaint .unterminatedText opened)
  | _, [] => .error (.complaint .unterminatedText opened)
  | fuel + 1, c :: rest =>
    if c == '"' then .ok (String.ofList before.reverse, rest)
    else if c == '\\' then
      match rest with
      | [] => .error (.complaint .unterminatedText opened)
      | 'u' :: tail =>
        match readUnits tail with
        | .error e => .error e
        | .ok (d, tail) => readText fuel opened (d :: before) tail
      | e :: tail =>
        match escaped? e with
        | some d => readText fuel opened (d :: before) tail
        | none => .error (.complaint .badEscape (tail.length + 2))
    else if c.toNat ≤ 0x1f then .error (.complaint .controlCharacter (rest.length + 1))
    else readText fuel opened (c :: before) rest

/-- The digits at the start of a text. -/
def digits (s : List Char) : List Nat × List Char :=
  ((s.takeWhile Char.isDigit).filterMap Text.asciiDigit?, s.dropWhile Char.isDigit)

/-- The digits after a point, if there is a point with a digit after it. -/
def readFraction : List Char → Option (List Nat) × List Char
  | '.' :: d :: rest =>
    if d.isDigit then
      let (ds, tail) := digits (d :: rest)
      (some ds, tail)
    else (none, '.' :: d :: rest)
  | s => (none, s)

/-- An exponent, if there is a mark with a digit after it. -/
def readExponent (s : List Char) : Option Int × List Char :=
  match s with
  | [] => (none, s)
  | c :: rest =>
    if c == 'e' || c == 'E' then
      let (negative, body) := Number.signOf rest
      let (ds, tail) := digits body
      if ds.isEmpty then (none, s) else (some (Number.signed negative (Text.ofDigits 10 ds)), tail)
    else (none, s)

/-- Reads a number. Leading zeros end it. -/
def readNumber (s : List Char) : Except Stop (Value × List Char) :=
  let (negative, body) := match s with
    | '-' :: rest => (true, rest)
    | _ => (false, s)
  let (whole, rest) := match body with
    | '0' :: rest => ([0], rest)
    | _ => digits body
  if whole.isEmpty then .error (.complaint .expectedValue s.length)
  else
    let (fraction, rest) := readFraction rest
    let (exponent, rest) := readExponent rest
    if fraction.isNone && exponent.isNone then
      if Number.digitLimit < whole.length then .error (.tooManyDigits whole.length)
      else .ok (.int (Number.signed negative (Text.ofDigits 10 whole)), rest)
    else
      let ds := whole ++ fraction.getD []
      let scale := exponent.getD 0 - (fraction.getD []).length
      .ok (.float (Binary64.ofDecimal negative (Text.ofDigits 10 ds) scale), rest)

mutual

/-- Reads a value. -/
def readValue (fuel : Nat) (s : List Char) : Except Stop (Value × List Char) :=
  match fuel with
  | 0 => .error (.complaint .expectedValue s.length)
  | fuel + 1 =>
    match s with
    | [] => .error (.complaint .expectedValue 0)
    | '"' :: rest => (readText (rest.length + 1) s.length [] rest).map fun (t, tail) => (.text t, tail)
    | '\x7b' :: rest =>
      match skipSpace rest with
      | '\x7d' :: tail => .ok (.object [], tail)
      | body => readMembers fuel [] body
    | '[' :: rest =>
      match skipSpace rest with
      | ']' :: tail => .ok (.list [], tail)
      | body => readItems fuel [] body
    | _ =>
      if let some rest := after? "null" s then .ok (.null, rest)
      else if let some rest := after? "true" s then .ok (.bool true, rest)
      else if let some rest := after? "false" s then .ok (.bool false, rest)
      else if let some rest := after? "NaN" s then .ok (.float .nan, rest)
      else if let some rest := after? "Infinity" s then .ok (.float (.infinite false), rest)
      else if let some rest := after? "-Infinity" s then .ok (.float (.infinite true), rest)
      else readNumber s

/-- Reads the items of a list up to its end, after those in `before` (last first). -/
def readItems (fuel : Nat) (before : List Value) (s : List Char) : Except Stop (Value × List Char) :=
  match fuel with
  | 0 => .error (.complaint .expectedValue s.length)
  | fuel + 1 =>
    match readValue fuel s with
    | .error e => .error e
    | .ok (v, rest) =>
      match skipSpace rest with
      | ']' :: tail => .ok (.list (v :: before).reverse, tail)
      | ',' :: tail => readItems fuel (v :: before) (skipSpace tail)
      | rest => .error (.complaint .expectedComma rest.length)

/-- Reads the members of an object up to its end, after those in `before`. -/
def readMembers (fuel : Nat) (before : Table Value) (s : List Char) : Except Stop (Value × List Char) :=
  match fuel with
  | 0 => .error (.complaint .expectedValue s.length)
  | fuel + 1 =>
    match s with
    | '"' :: rest =>
      match readText (rest.length + 1) s.length [] rest with
      | .error e => .error e
      | .ok (name, rest) =>
        match skipSpace rest with
        | ':' :: rest =>
          match readValue fuel (skipSpace rest) with
          | .error e => .error e
          | .ok (v, rest) =>
            match skipSpace rest with
            | '\x7d' :: tail => .ok (.object (before.put name v), tail)
            | ',' :: tail => readMembers fuel (before.put name v) (skipSpace tail)
            | rest => .error (.complaint .expectedComma rest.length)
        | rest => .error (.complaint .expectedColon rest.length)
    | s => .error (.complaint .expectedName s.length)

end

/-- Why a text is no JSON: a complaint with the line, the column and the offset of its place, or a
    whole number with too many digits. -/
inductive Flaw where
  | misformed (what : Complaint) (line column offset : Nat)
  | tooManyDigits (count : Nat)
  deriving DecidableEq, Repr

def Flaw.message : Flaw → String
  | .misformed what line column offset =>
    what.message ++ ": line " ++ toString line ++ " column " ++ toString column
      ++ " (char " ++ toString offset ++ ")"
  | .tooManyDigits count => Number.tooManyDigitsText count

/-- A flaw at the place of `s` that has `left` characters after it. -/
def Flaw.at (s : List Char) (what : Complaint) (left : Nat) : Flaw :=
  let offset := s.length - left
  let before := s.take offset
  .misformed what (before.count '\n' + 1) ((before.reverse.takeWhile (· != '\n')).length + 1) offset

/-- Reads a JSON text. -/
def read (s : List Char) : Except Flaw Value :=
  if s.head? == some '\ufeff' then .error (.at s .byteOrderMark s.length)
  else
    match readValue (2 * s.length + 2) (skipSpace s) with
    | .error (.complaint what left) => .error (.at s what left)
    | .error (.tooManyDigits count) => .error (.tooManyDigits count)
    | .ok (v, rest) =>
      match skipSpace rest with
      | [] => .ok v
      | rest => .error (.at s .extraData rest.length)

end Teletype.Data.Json
