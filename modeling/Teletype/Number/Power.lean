/-!
# Powers

Powers of two and of ten, and the bounds of a machine word.
-/

namespace Teletype.Number

/-- A power of two. -/
def pow2 (n : Nat) : Nat := Nat.pow 2 n

/-- A power of ten. -/
def pow10 (n : Nat) : Nat := Nat.pow 10 n

/-- The numbers of a machine word with a sign. -/
def inWord (n : Int) : Bool := -(pow2 63 : Int) ≤ n && n < (pow2 63 : Int)

end Teletype.Number
