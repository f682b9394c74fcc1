import Teletype.Number.Integer
import Teletype.Proofs.Text.Words

/-! # Numbers that are written are read

A whole number that is written in decimal is read back as it was, as long as it has no more digits than are read. Its
numeral is a word. -/

namespace Teletype.Number

open Text

/-! ### Digits -/

theorem digitValue_of_isDigit {c : Char} (hc : c.isDigit = true) : digitValue? c = some (c.toNat - '0'.toNat) := by
  obtain ⟨hge, hle⟩ := Char.isDigit_iff_toNat.mp hc
  have hge : 48 ≤ c.toNat := hge
  have hle : c.toNat ≤ 57 := hle
  have hfirst : (decide (48 ≤ c.toNat) && decide (c.toNat < 48 + 10)) = true := by simp; omega
  have hzero : zeros.find? (fun z => decide (z ≤ c.toNat) && decide (c.toNat < z + 10)) = some 48 :=
    List.find?_cons_of_pos hfirst
  rw [digitValue?, hzero]
  rfl

theorem notBlank_of_isDigit {c : Char} (hc : c.isDigit = true) : isBlank c = false := by
  obtain ⟨hge, hle⟩ := Char.isDigit_iff_toNat.mp hc
  have hge : 48 ≤ c.toNat := hge
  have hle : c.toNat ≤ 57 := hle
  simp [isBlank]
  omega

theorem digitRun_of_digits {cs : List Char} (hcs : ∀ c ∈ cs, c.isDigit = true) (after : Bool) :
    digitRun digitValue? after cs = (cs.map fun c => c.toNat - '0'.toNat, []) := by
  induction cs generalizing after with
  | nil => rfl
  | cons c cs ih =>
    rw [digitRun, digitValue_of_isDigit (hcs c List.mem_cons_self)]
    dsimp only
    rw [ih fun d hd => hcs d (List.mem_cons_of_mem c hd), List.map_cons]

theorem ofDigits_toDigits (n : Nat) : ofDigits 10 ((Nat.toDigits 10 n).map fun c => c.toNat - '0'.toNat) = n := by
  rw [ofDigits, List.foldl_map]
  have h := Nat.ofDigitChars_ten_toDigits (n := n)
  rw [Nat.ofDigitChars] at h
  simpa only [Nat.mul_comm] using h

/-! ### Numerals -/

/-- The characters of a number in decimal. -/
def numeral (n : Int) : List Char := (toString n).toList

theorem numeral_eq (n : Int) : numeral n = (if n < 0 then ['-'] else []) ++ Nat.toDigits 10 n.natAbs := by
  rw [numeral, Int.toString_eq_repr, Int.repr_eq_if]
  by_cases hn : 0 ≤ n
  · rw [if_pos hn, if_neg (Int.not_lt.mpr hn), Nat.toList_repr, List.nil_append]
    congr
    omega
  · rw [if_neg hn, if_pos (Int.not_le.mp hn), String.toList_append, Nat.toList_repr]
    congr
    omega

theorem isDigit_of_mem_digits {n : Nat} {c : Char} (hc : c ∈ Nat.toDigits 10 n) : c.isDigit = true :=
  Nat.isDigit_of_mem_toDigits (by decide) (Nat.le_refl 10) hc

theorem isWord_numeral (n : Int) : IsWord (numeral n) where
  ne_nil := by
    rw [numeral_eq]
    exact List.append_ne_nil_of_right_ne_nil _ Nat.toDigits_ne_nil
  solid := by
    intro c hc
    rw [numeral_eq] at hc
    rcases List.mem_append.mp hc with hc | hc
    · split at hc
      · obtain rfl := List.mem_singleton.mp hc
        rfl
      · cases hc
    · exact notBlank_of_isDigit (isDigit_of_mem_digits hc)

/-- Nothing in a numeral is a separator of fields. -/
theorem colon_notMem_numeral (n : Int) : ':' ∉ numeral n := by
  intro hc
  rw [numeral_eq] at hc
  rcases List.mem_append.mp hc with hc | hc
  · split at hc <;> simp at hc
  · exact absurd (isDigit_of_mem_digits hc) (by decide)

/-- The number has no more digits than are read. -/
def IsReadable (n : Int) : Prop := (Nat.toDigits 10 n.natAbs).length ≤ digitLimit

instance (n : Int) : Decidable (IsReadable n) := inferInstanceAs (Decidable (_ ≤ _))

/-- Digits are what remains of a numeral once its sign is off. -/
theorem signOf_numeral (n : Int) : signOf (numeral n) = (decide (n < 0), Nat.toDigits 10 n.natAbs) := by
  rw [numeral_eq]
  split
  · next hn => rw [decide_eq_true hn]; rfl
  · next hn =>
    rw [decide_eq_false hn, List.nil_append]
    cases hdigits : Nat.toDigits 10 n.natAbs with
    | nil => exact absurd hdigits Nat.toDigits_ne_nil
    | cons c cs =>
      have hc := isDigit_of_mem_digits (n := n.natAbs) (hdigits ▸ List.mem_cons_self (a := c))
      unfold signOf
      split
      · next heq =>
        cases heq
        cases hc
      · next heq =>
        cases heq
        cases hc
      · rfl

theorem signed_natAbs (n : Int) : signed (decide (n < 0)) n.natAbs = n := by
  by_cases hn : n < 0
  · rw [signed, decide_eq_true hn, if_pos rfl, Int.ofNat_natAbs_of_nonpos (Int.le_of_lt hn), Int.neg_neg]
  · rw [signed, decide_eq_false hn, if_neg Bool.false_ne_true, Int.natAbs_of_nonneg (Int.not_lt.mp hn)]

/-- A number that is not too long is read back. -/
theorem readInteger_numeral {n : Int} (hn : IsReadable n) : readInteger (numeral n) = .ok n := by
  have hdigits : ∀ c ∈ Nat.toDigits 10 n.natAbs, c.isDigit = true := fun c => isDigit_of_mem_digits
  have hmargin : (numeral n).dropWhile isMargin = numeral n := by
    have hword := isWord_numeral n
    cases hnumeral : numeral n with
    | nil => rfl
    | cons c cs =>
      rw [hnumeral] at hword
      rw [List.dropWhile_cons_of_neg]
      simp [isMargin, hword.solid c List.mem_cons_self]
  rw [readInteger, hmargin, signOf_numeral]
  dsimp only
  rw [digitRun_of_digits hdigits]
  dsimp only
  rw [if_neg (by simp), if_neg (by rw [List.length_map]; exact Nat.not_lt.mpr hn), if_neg (by simp [Nat.toDigits_ne_nil]),
    ofDigits_toDigits, signed_natAbs]

end Teletype.Number
