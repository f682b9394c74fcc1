import Teletype.Text.Quoted

/-!
# What can be wrong with a template

A template is refused for its own form, for a name or index it uses that nothing is bound to, or
for a use that the value bound does not allow.
-/

namespace Teletype.Text.Template

/-- The two kinds of value that a template is filled with, by the names messages give them. -/
inductive Kind where
  | text
  | number
  deriving DecidableEq, Repr

def Kind.name : Kind → String
  | .text => "str"
  | .number => "int"

/-- A character as messages about styles show it: as it is if it is printable ASCII, and by number
    otherwise. -/
def shownCode (c : Char) : String :=
  if 0x20 < c.toNat && c.toNat < 0x7f then String.singleton c
  else "\\x" ++ String.ofList (Nat.toDigits 16 c.toNat)

/-- A fault in the form of a template, or in the style of one of its fields. -/
inductive Malformed where
  | singleOpen
  | singleClose
  | unexpectedOpen
  | unclosedField
  | missingConversion
  | conversionNotEnded
  | unclosedStyle
  | emptyAttribute
  | missingBracket
  | afterBracket
  | nestedTooDeep
  | tooManyDigits
  | unknownConversion (c : Char)
  | missingPrecision
  | bothSeparators
  | separatorWithCode (separator code : Char)
  | invalidStyle (style : String) (kind : Kind)
  | unknownCode (code : Char) (kind : Kind)
  | textSign
  | textSpace
  | textAlternate
  | textCoercion
  | textAlignment
  | numberPrecision
  | numberCoercion
  | characterSign
  | characterAlternate
  | precisionTooBig
  deriving DecidableEq, Repr

def Malformed.message : Malformed → String
  | .singleOpen => "Single '\x7b' encountered in format string"
  | .singleClose => "Single '\x7d' encountered in format string"
  | .unexpectedOpen => "unexpected '\x7b' in field name"
  | .unclosedField => "expected '\x7d' before end of string"
  | .missingConversion => "end of string while looking for conversion specifier"
  | .conversionNotEnded => "expected ':' after conversion specifier"
  | .unclosedStyle => "unmatched '\x7b' in format spec"
  | .emptyAttribute => "Empty attribute in format string"
  | .missingBracket => "Missing ']' in format string"
  | .afterBracket => "Only '.' or '[' may follow ']' in format field specifier"
  | .nestedTooDeep => "Max string recursion exceeded"
  | .tooManyDigits => "Too many decimal digits in format string"
  | .unknownConversion c => "Unknown conversion specifier " ++ shownCode c
  | .missingPrecision => "Format specifier missing precision"
  | .bothSeparators => "Cannot specify both ',' and '_'."
  | .separatorWithCode s c => "Cannot specify '" ++ String.singleton s ++ "' with '" ++ shownCode c ++ "'."
  | .invalidStyle style kind =>
    "Invalid format specifier '" ++ style ++ "' for object of type '" ++ kind.name ++ "'"
  | .unknownCode c kind =>
    "Unknown format code '" ++ shownCode c ++ "' for object of type '" ++ kind.name ++ "'"
  | .textSign => "Sign not allowed in string format specifier"
  | .textSpace => "Space not allowed in string format specifier"
  | .textAlternate => "Alternate form (#) not allowed in string format specifier"
  | .textCoercion => "Negative zero coercion (z) not allowed in string format specifier"
  | .textAlignment => "'=' alignment not allowed in string format specifier"
  | .numberPrecision => "Precision not allowed in integer format specifier"
  | .numberCoercion => "Negative zero coercion (z) not allowed in integer format specifier"
  | .characterSign => "Sign not allowed with integer format specifier 'c'"
  | .characterAlternate => "Alternate form (#) not allowed with integer format specifier 'c'"
  | .precisionTooBig => "precision too big"

/-- Why a template cannot be filled. -/
inductive Error where
  | malformed (m : Malformed)
  | unboundName (name : String)
  | unboundIndex (index : Nat)
  | outsideText
  | noAttribute
  | notIndexed
  | noSuchCharacter
  | beyondWord
  | beyondBinary64
  | beyondDecimal
  deriving DecidableEq, Repr

def Error.message : Error → String
  | .malformed m => m.message
  | .unboundName name => quoted name
  | .unboundIndex n => "Replacement index " ++ toString n ++ " out of range for positional args tuple"
  | .outsideText => "string index out of range"
  | .noAttribute => ""
  | .notIndexed => ""
  | .noSuchCharacter => "%c arg not in range(0x110000)"
  | .beyondWord => "Python int too large to convert to C long"
  | .beyondBinary64 => "int too large to convert to float"
  | .beyondDecimal =>
    "Exceeds the limit (4300 digits) for integer string conversion; "
      ++ "use sys.set_int_max_str_digits() to increase the limit"

end Teletype.Text.Template
