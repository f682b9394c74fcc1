/-!
# Splitting at a separator

The parts of a text between the occurrences of a character. There is one more part than there are
separators, and joining the parts again gives the text.
-/

namespace Teletype.Text

/-- The parts of a text between separators. -/
def splitAt (separator : Char) : List Char → List (List Char)
  | [] => [[]]
  | c :: rest =>
    if c == separator then [] :: splitAt separator rest
    else match splitAt separator rest with
      | [] => [[c]]
      | part :: parts => (c :: part) :: parts

/-- The parts of a text between separators. -/
def parts (separator : Char) (s : String) : List String :=
  (splitAt separator s.toList).map String.ofList

end Teletype.Text
