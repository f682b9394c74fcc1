import Teletype.Text.Digit

/-!
# UTF-8

Reading bytes as characters. What is not well formed is reported with the bytes it spans and the
reason: a byte that starts no character, a character whose continuation is wrong, or one that the
end of the data cuts off.
-/

namespace Teletype.Text

/-- Bytes, in order. -/
abbrev Bytes := List UInt8

/-- The bytes of a text. -/
def utf8 (s : String) : Bytes := s.toUTF8.toList

namespace Utf8

/-- Why bytes are not a character. -/
inductive Reason where
  | invalidStart
  | invalidContinuation
  | unexpectedEnd
  deriving DecidableEq, Repr

def Reason.text : Reason → String
  | .invalidStart => "invalid start byte"
  | .invalidContinuation => "invalid continuation byte"
  | .unexpectedEnd => "unexpected end of data"

/-- The first place where bytes are not UTF-8: an offset, the bytes it spans, and why. -/
structure Flaw where
  offset : Nat
  span : Bytes
  reason : Reason
  deriving Repr

/-- How many bytes follow a first byte, and what the first of them may be. -/
def lead? (b : UInt8) : Option (Nat × UInt8 × UInt8) :=
  if 0xc2 ≤ b && b ≤ 0xdf then some (1, 0x80, 0xbf)
  else if b == 0xe0 then some (2, 0xa0, 0xbf)
  else if b == 0xed then some (2, 0x80, 0x9f)
  else if 0xe1 ≤ b && b ≤ 0xef then some (2, 0x80, 0xbf)
  else if b == 0xf0 then some (3, 0x90, 0xbf)
  else if 0xf1 ≤ b && b ≤ 0xf3 then some (3, 0x80, 0xbf)
  else if b == 0xf4 then some (3, 0x80, 0x8f)
  else none

/-- How many of the bytes after a first byte continue its character: the first between `low` and
    `high`, the others any continuation. -/
def tailLength (owed : Nat) (low high : UInt8) : Bytes → Nat
  | [] => 0
  | b :: rest =>
    match owed with
    | 0 => 0
    | owed + 1 => if low ≤ b && b ≤ high then 1 + tailLength owed 0x80 0xbf rest else 0

/-- The bits that a byte of a character of `size` bytes contributes. -/
def assemble (first : UInt8) (tail : Bytes) : Nat :=
  let high := match tail.length with
    | 0 => first.toNat
    | 1 => first.toNat % 0x20
    | 2 => first.toNat % 0x10
    | _ => first.toNat % 0x08
  tail.foldl (fun n b => n * 0x40 + b.toNat % 0x40) high

/-- Reads characters from `bs`, which starts at `offset`, after those read before (last first). -/
def decodeFrom (offset : Nat) (before : List Char) (bs : Bytes) : Except Flaw (List Char) :=
  match bs with
  | [] => .ok before.reverse
  | b :: rest =>
    if b < 0x80 then decodeFrom (offset + 1) (Char.ofNat b.toNat :: before) rest
    else match lead? b with
      | none => .error ⟨offset, [b], .invalidStart⟩
      | some (owed, low, high) =>
        let got := tailLength owed low high rest
        if got == owed then
          decodeFrom (offset + 1 + owed) (Char.ofNat (assemble b (rest.take owed)) :: before) (rest.drop owed)
        else if rest.length ≤ got then .error ⟨offset, b :: rest.take got, .unexpectedEnd⟩
        else .error ⟨offset, b :: rest.take got, .invalidContinuation⟩
termination_by bs.length
decreasing_by
  · simp
  · simp only [List.length_drop, List.length_cons]; omega

/-- The characters that bytes stand for. -/
def decode (bs : Bytes) : Except Flaw (List Char) := decodeFrom 0 [] bs

/-- The text that bytes stand for, if they are UTF-8. -/
def text? (bs : Bytes) : Option String :=
  match decode bs with
  | .ok cs => some (String.ofList cs)
  | .error _ => none

end Utf8

/-- Every line end, be it `\r\n` or `\r`, read as `\n`. -/
def plainLines : List Char → List Char
  | '\r' :: '\n' :: rest => '\n' :: plainLines rest
  | '\r' :: rest => '\n' :: plainLines rest
  | c :: rest => c :: plainLines rest
  | [] => []

/-- Bytes in hexadecimal. -/
def hex (bs : Bytes) : String := String.ofList (bs.flatMap fun b => paddedDigits 16 2 b.toNat)

/-- Reads hexadecimal digits in pairs. -/
def unhex? : List Char → Option Bytes
  | [] => some []
  | a :: b :: rest => do
    let high ← hexDigit? a
    let low ← hexDigit? b
    let tail ← unhex? rest
    return (high * 16 + low).toUInt8 :: tail
  | [_] => none

end Teletype.Text
