import Teletype.Text.Split

/-! # Splitting: the parts of a text

Characters that do not hold the separator are one part, and a separator ends the part before it. -/

namespace Teletype.Text

variable {sep : Char}

theorem splitAt_of_notMem : ∀ {cs : List Char}, sep ∉ cs → splitAt sep cs = [cs]
  | [], _ => rfl
  | c :: cs, h => by
    have hc : (c == sep) = false := beq_eq_false_iff_ne.mpr fun heq => h (heq ▸ List.mem_cons_self)
    have ih := splitAt_of_notMem fun hmem => h (List.mem_cons_of_mem c hmem)
    unfold splitAt
    rw [hc, ih]
    rfl

theorem splitAt_append (rest : List Char) : ∀ {cs : List Char}, sep ∉ cs →
    splitAt sep (cs ++ sep :: rest) = cs :: splitAt sep rest
  | [], _ => by
    show splitAt sep (sep :: rest) = _
    rw [splitAt, if_pos (beq_self_eq_true sep)]
  | c :: cs, h => by
    have hc : (c == sep) = false := beq_eq_false_iff_ne.mpr fun heq => h (heq ▸ List.mem_cons_self)
    have ih := splitAt_append rest fun hmem => h (List.mem_cons_of_mem c hmem)
    rw [List.cons_append, splitAt, hc, ih]
    rfl

/-- There is one part more than there are separators. -/
theorem length_splitAt (sep : Char) : ∀ cs : List Char, (splitAt sep cs).length = cs.count sep + 1
  | [] => rfl
  | c :: cs => by
    have ih := length_splitAt sep cs
    rw [splitAt, List.count_cons]
    split
    · rw [List.length_cons, ih]
    · cases hparts : splitAt sep cs with
      | nil =>
        rw [hparts] at ih
        cases ih
      | cons part parts =>
        rw [hparts] at ih
        exact ih

/-- A text without separators is its only part. -/
theorem parts_of_notMem {s : String} (h : sep ∉ s.toList) : parts sep s = [s] := by
  rw [parts, splitAt_of_notMem h, List.map_singleton, String.ofList_toList]

/-- A first part that ends with a separator comes off. -/
theorem parts_append {s : String} (h : sep ∉ s.toList) (rest : String) :
    parts sep (s ++ String.singleton sep ++ rest) = s :: parts sep rest := by
  rw [parts, String.toList_append, String.toList_append, String.toList_singleton, List.append_assoc,
    List.singleton_append, splitAt_append _ h, List.map_cons, String.ofList_toList]
  rfl

end Teletype.Text
