/-!
# Issues with settings

An issue tells which place of the data is refused and why. All issues of the data are told, in the
order of the fields.
-/

namespace Teletype.Settings

/-- A step into the data: a member of an object or an item of a list. -/
inductive Step where
  | field (name : String)
  | item (index : Nat)
  deriving DecidableEq, Repr

/-- Why a place is refused. -/
inductive Complaint where
  | missing
  | notObject (model : String)
  | notText
  | notList
  | notBackend
  | notPath
  | notWhole
  | unreadWhole
  | tooLongWhole
  | fractional
  | notFinite
  | notReal
  | unreadReal
  | notFlag
  | unreadFlag
  deriving DecidableEq, Repr

/-- The short name of a complaint. -/
def Complaint.code : Complaint → String
  | .missing => "missing"
  | .notObject _ => "model_type"
  | .notText => "string_type"
  | .notList => "list_type"
  | .notBackend => "literal_error"
  | .notPath => "path_type"
  | .notWhole => "int_type"
  | .unreadWhole => "int_parsing"
  | .tooLongWhole => "int_parsing_size"
  | .fractional => "int_from_float"
  | .notFinite => "finite_number"
  | .notReal => "float_type"
  | .unreadReal => "float_parsing"
  | .notFlag => "bool_type"
  | .unreadFlag => "bool_parsing"

def Complaint.message : Complaint → String
  | .missing => "Field required"
  | .notObject model => "Input should be a valid dictionary or instance of " ++ model
  | .notText => "Input should be a valid string"
  | .notList => "Input should be a valid list"
  | .notBackend => "Input should be 'native' or 'command'"
  | .notPath => "Input is not a valid path for <class 'pathlib.Path'>"
  | .notWhole => "Input should be a valid integer"
  | .unreadWhole => "Input should be a valid integer, unable to parse string as an integer"
  | .tooLongWhole => "Unable to parse input string as an integer, exceeded maximum size"
  | .fractional => "Input should be a valid integer, got a number with a fractional part"
  | .notFinite => "Input should be a finite number"
  | .notReal => "Input should be a valid number"
  | .unreadReal => "Input should be a valid number, unable to parse string as a number"
  | .notFlag => "Input should be a valid boolean"
  | .unreadFlag => "Input should be a valid boolean, unable to interpret input"

/-- A place that is refused, from the top of the data, and why. -/
structure Issue where
  place : List Step
  complaint : Complaint
  deriving DecidableEq, Repr

/-- A value, or all that is wrong with the data it was to be read from. -/
inductive Checked (α : Type) where
  | valid (a : α)
  | invalid (issues : List Issue)
  deriving Repr

namespace Checked

variable {α β : Type}

/-- A place refused. -/
def refuse (complaint : Complaint) : Checked α := .invalid [⟨[], complaint⟩]

def map (f : α → β) : Checked α → Checked β
  | .valid a => .valid (f a)
  | .invalid issues => .invalid issues

/-- Applies a checked function to a checked value; the issues of both are told. -/
def ap : Checked (α → β) → Checked α → Checked β
  | .valid f, .valid a => .valid (f a)
  | .valid _, .invalid issues => .invalid issues
  | .invalid issues, .valid _ => .invalid issues
  | .invalid issues, .invalid more => .invalid (issues ++ more)

instance : Applicative Checked where
  pure := .valid
  map := map
  seq f a := ap f (a ())

/-- The same, one step further into the data. -/
def within (step : Step) : Checked α → Checked α
  | .valid a => .valid a
  | .invalid issues => .invalid (issues.map fun i => { i with place := step :: i.place })

end Checked

end Teletype.Settings
