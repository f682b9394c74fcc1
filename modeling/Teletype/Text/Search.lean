/-!
# Searching

The first place of a run of items in a list.
-/

namespace Teletype.Text

variable {α : Type} [BEq α]

/-- The first index of a run of items. -/
def indexOf? (needle : List α) : List α → Option Nat
  | [] => if needle.isEmpty then some 0 else none
  | a :: rest =>
    if needle.isPrefixOf (a :: rest) then some 0 else (indexOf? needle rest).map (· + 1)

/-- A text holds another. -/
def holds (text part : String) : Bool := (indexOf? part.toList text.toList).isSome

end Teletype.Text
