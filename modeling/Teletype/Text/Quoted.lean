import Teletype.Text.Digit
import Teletype.Text.Printable

/-!
# Quoted texts

The form in which messages show a text or a run of bytes: between quotes, with what cannot be read
on a screen written as an escape. The quote is an apostrophe unless the content holds apostrophes
and no double quotes.
-/

namespace Teletype.Text

/-- The quote around a content: the double quote exactly if the content has an apostrophe and no
    double quote. -/
def quoteFor (s : List Char) : Char :=
  if s.contains '\'' && !s.contains '"' then '"' else '\''

/-- The escape of a code point by number, with the fewest of two, four and eight digits. -/
def numericEscape (n : Nat) : List Char :=
  if n ≤ 0xff then '\\' :: 'x' :: paddedDigits 16 2 n
  else if n ≤ 0xffff then '\\' :: 'u' :: paddedDigits 16 4 n
  else '\\' :: 'U' :: paddedDigits 16 8 n

/-- One character between quotes `q`; `shown` tells which characters beyond ASCII stay as they are. -/
def quotedChar (shown : Char → Bool) (q c : Char) : List Char :=
  if c == '\\' || c == q then ['\\', c]
  else if c == '\n' then ['\\', 'n']
  else if c == '\r' then ['\\', 'r']
  else if c == '\t' then ['\\', 't']
  else if c.toNat < 0x20 || c.toNat == 0x7f then numericEscape c.toNat
  else if c.toNat < 0x7f || shown c then [c]
  else numericEscape c.toNat

/-- A content between quotes. -/
def quoteWith (shown : Char → Bool) (s : List Char) : List Char :=
  let q := quoteFor s
  q :: s.flatMap (quotedChar shown q) ++ [q]

/-- A text between quotes, printable characters as they are. -/
def quoted (s : String) : String := String.ofList (quoteWith isPrintable s.toList)

/-- A text between quotes in ASCII alone. -/
def asciiQuoted (s : String) : String := String.ofList (quoteWith (fun _ => false) s.toList)

/-- Bytes between quotes, marked by a leading `b`; every byte outside printable ASCII is an escape. -/
def quotedBytes (bs : List UInt8) : String :=
  String.ofList ('b' :: quoteWith (fun _ => false) (bs.map fun b => Char.ofNat b.toNat))

/-- Items in brackets, separated by commas. -/
def bracketed (items : List String) : String := "[" ++ ", ".intercalate items ++ "]"

end Teletype.Text
