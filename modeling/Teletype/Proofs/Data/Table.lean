import Teletype.Data.Table

/-! # Tables by their names

Binding a name changes its value in its place, or puts it at the end. -/

namespace Teletype.Data.Table
variable {α : Type} {t : Table α} {name : String} {a : α}

/-- Binding a name to what it is bound to changes nothing. -/
theorem put_of_get? (h : t.get? name = some a) : t.put name a = t := by
  induction t with
  | nil => cases h
  | cons e rest ih =>
    obtain ⟨n, b⟩ := e
    rw [get?, List.lookup_cons] at h
    rw [put]
    by_cases hn : n = name
    · subst hn
      rw [beq_self_eq_true] at h
      rw [beq_self_eq_true, if_pos rfl, Option.some.inj h]
    · rw [beq_false_of_ne (Ne.symm hn)] at h
      rw [beq_false_of_ne hn, if_neg Bool.false_ne_true, ih h]

/-- A new name comes in at the end. -/
theorem put_of_get?_none (h : t.get? name = none) : t.put name a = t ++ [(name, a)] := by
  induction t with
  | nil => rfl
  | cons e rest ih =>
    obtain ⟨n, b⟩ := e
    rw [get?, List.lookup_cons] at h
    by_cases hn : n = name
    · rw [hn, beq_self_eq_true] at h
      cases h
    · rw [beq_false_of_ne (Ne.symm hn)] at h
      rw [put, beq_false_of_ne hn, if_neg Bool.false_ne_true, ih h]
      rfl

theorem get?_append (t more : Table α) (name : String) : get? (t ++ more) name = (t.get? name).or (more.get? name) :=
  List.lookup_append

theorem mem_of_get? (h : t.get? name = some a) : (name, a) ∈ t := by
  obtain ⟨before, after, rfl, -⟩ := List.lookup_eq_some_iff.mp h
  exact List.mem_append_right _ List.mem_cons_self

theorem get?_of_mem (hnodup : (t.map (·.1)).Nodup) (h : (name, a) ∈ t) : t.get? name = some a := by
  obtain ⟨before, after, rfl⟩ := List.append_of_mem h
  refine List.lookup_eq_some_iff.mpr ⟨before, after, rfl, fun e he => bne_iff_ne.mpr fun hname => ?_⟩
  rw [List.map_append, List.map_cons, List.nodup_append] at hnodup
  exact hnodup.2.2 e.1 (List.mem_map_of_mem he) name List.mem_cons_self hname.symm

theorem get?_eq_none_of_not_mem (h : name ∉ t.map (·.1)) : t.get? name = none :=
  List.lookup_eq_none_iff.mpr fun _ he => bne_iff_ne.mpr fun hname => h (hname ▸ List.mem_map_of_mem he)

end Teletype.Data.Table
