import Teletype.Data.Table
import Teletype.Number.Decimal
import Teletype.Text.Quoted

/-!
# Data values

What a data file holds: numbers, texts and truth values, in lists and objects. Whole numbers are kept
apart from numbers with a point, since settings take them by different rules.
-/

namespace Teletype.Data

/-- A value of a data file. -/
inductive Value where
  | null
  | bool (b : Bool)
  | int (n : Int)
  | float (x : Number.Binary64)
  | text (s : String)
  | list (items : List Value)
  | object (members : List (String × Value))
  deriving Inhabited, Repr

namespace Value

/-- The member of an object, if the value is one and has it. -/
def member? : Value → String → Option Value
  | .object members, name => members.lookup name
  | _, _ => none

mutual

/-- The form in which messages show a value. -/
def literal : Value → String
  | .null => "None"
  | .bool b => if b then "True" else "False"
  | .int n => toString n
  | .float x => Number.shortestText x
  | .text s => Text.quoted s
  | .list items => Text.bracketed (literals items)
  | .object members => "\x7b" ++ ", ".intercalate (entries members) ++ "\x7d"

/-- The forms of the items of a list. -/
def literals : List Value → List String
  | [] => []
  | v :: rest => v.literal :: literals rest

/-- The forms of the members of an object. -/
def entries : List (String × Value) → List String
  | [] => []
  | (name, v) :: rest => (Text.quoted name ++ ": " ++ v.literal) :: entries rest

end

/-- The form of a value by itself: a text as it is, any other as a literal. -/
def plain : Value → String
  | .text s => s
  | v => v.literal

end Value

end Teletype.Data
