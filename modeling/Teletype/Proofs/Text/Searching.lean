import Teletype.Text.Search

/-! # Searching: where a run of items stands

`indexOf?` finds the first index at which a run of items stands in a list, and nothing exactly if it
stands at no index. An empty run stands at every index, the end of the list included. -/

namespace Teletype.Text

variable {α : Type}

/-- A run of items stands at an index of a list: the slice from there that is as long as the run is the
    run. -/
def StandsAt (run l : List α) (i : Nat) : Prop :=
  i + run.length ≤ l.length ∧ (l.drop i).take run.length = run

theorem standsAt_iff {run l : List α} {i : Nat} : StandsAt run l i ↔ i ≤ l.length ∧ run <+: l.drop i := by
  constructor
  · rintro ⟨hle, hslice⟩
    exact ⟨by omega, List.prefix_iff_eq_take.mpr hslice.symm⟩
  · rintro ⟨hle, hrun⟩
    have hlen := hrun.length_le
    rw [List.length_drop] at hlen
    exact ⟨by omega, (List.prefix_iff_eq_take.mp hrun).symm⟩

/-- A run that stands somewhere in a list is a part of it. -/
theorem StandsAt.isInfix {run l : List α} {i : Nat} (h : StandsAt run l i) : run <:+: l :=
  (standsAt_iff.mp h).2.isInfix.trans (List.drop_suffix i l).isInfix

/-- What stands in a list stands there, too, when the list goes on. -/
theorem StandsAt.append {run l : List α} {i : Nat} (h : StandsAt run l i) (more : List α) :
    StandsAt run (l ++ more) i := by
  obtain ⟨hle, hrun⟩ := standsAt_iff.mp h
  refine standsAt_iff.mpr ⟨by rw [List.length_append]; omega, ?_⟩
  rw [List.drop_append_of_le_length hle]
  exact hrun.trans (List.prefix_append _ _)

theorem standsAt_drop {run l : List α} {i n : Nat} (hn : n ≤ l.length) :
    StandsAt run (l.drop n) i ↔ StandsAt run l (n + i) := by
  rw [standsAt_iff, standsAt_iff, List.drop_drop, List.length_drop]
  exact and_congr_left fun _ => by omega

theorem standsAt_cons_succ {run l : List α} {a : α} {i : Nat} :
    StandsAt run (a :: l) (i + 1) ↔ StandsAt run l i := by
  rw [standsAt_iff, standsAt_iff, List.length_cons, List.drop_succ_cons, Nat.succ_le_succ_iff]

variable [BEq α] [LawfulBEq α]

theorem indexOf?_eq_none {run : List α} : ∀ {l : List α}, indexOf? run l = none → ∀ i, ¬StandsAt run l i
  | [], h, i => by
    rw [indexOf?] at h
    rw [standsAt_iff, List.drop_nil, List.prefix_nil]
    rintro ⟨-, rfl⟩
    simp at h
  | a :: l, h, i => by
    rw [indexOf?] at h
    split at h
    · cases h
    · next hne =>
      rw [Option.map_eq_none_iff] at h
      cases i with
      | zero =>
        rw [standsAt_iff, List.drop_zero]
        exact fun hs => hne (List.isPrefixOf_iff_prefix.mpr hs.2)
      | succ i =>
        rw [standsAt_cons_succ]
        exact indexOf?_eq_none h i

theorem indexOf?_eq_some {run : List α} : ∀ {l : List α} {i : Nat}, indexOf? run l = some i →
    StandsAt run l i ∧ ∀ j, StandsAt run l j → i ≤ j
  | [], i, h => by
    rw [indexOf?] at h
    split at h
    · next hrun =>
      obtain rfl := Option.some.inj h
      rw [List.isEmpty_iff] at hrun
      exact ⟨standsAt_iff.mpr ⟨Nat.le_refl 0, by simp [hrun]⟩, fun j _ => Nat.zero_le j⟩
    · cases h
  | a :: l, i, h => by
    rw [indexOf?] at h
    split at h
    · next hrun =>
      obtain rfl := Option.some.inj h
      exact ⟨standsAt_iff.mpr ⟨Nat.zero_le _, List.isPrefixOf_iff_prefix.mp hrun⟩, fun j _ => Nat.zero_le j⟩
    · next hne =>
      obtain ⟨k, hk, rfl⟩ := Option.map_eq_some_iff.mp h
      obtain ⟨hstands, hleast⟩ := indexOf?_eq_some hk
      refine ⟨standsAt_cons_succ.mpr hstands, fun j hj => ?_⟩
      cases j with
      | zero => exact absurd (List.isPrefixOf_iff_prefix.mpr (standsAt_iff.mp hj).2) hne
      | succ j => exact Nat.succ_le_succ (hleast j (standsAt_cons_succ.mp hj))

/-- A text holds another exactly if that is a part of it. -/
theorem holds_iff {text part : String} : holds text part = true ↔ part.toList <:+: text.toList := by
  unfold holds
  constructor
  · intro h
    obtain ⟨i, hi⟩ := Option.isSome_iff_exists.mp h
    exact (indexOf?_eq_some hi).1.isInfix
  · rintro ⟨s, t, hst⟩
    cases hi : indexOf? part.toList text.toList with
    | none =>
      refine absurd (standsAt_iff.mpr ⟨?_, ?_⟩) (indexOf?_eq_none hi s.length)
      · rw [← hst, List.length_append, List.length_append]
        omega
      · rw [← hst, List.append_assoc, List.drop_left]
        exact List.prefix_append _ _
    | some _ => rfl

/-! ### Runs inside what is put together

A run that lacks some item lies on one side of that item wherever it stands. And if items are written one
by one, the plain ones of a run each as a single item that nothing else is written with, then the
written run is found in what was written only if the run was there. -/

omit [BEq α] [LawfulBEq α]

theorem isInfix_or_of_notMem {run l r : List α} {sep : α} (hsep : sep ∉ run) (h : run <:+: l ++ sep :: r) :
    run <:+: l ∨ run <:+: r := by
  obtain ⟨s, t, hst⟩ := h
  rcases List.append_eq_append_iff.mp hst with ⟨c, hl, -⟩ | ⟨c, hrun, hr⟩
  · exact Or.inl ⟨s, c, hl.symm⟩
  · cases c with
    | nil =>
      rw [List.append_nil] at hrun
      exact Or.inl ⟨s, [], by rw [List.append_nil]; exact hrun⟩
    | cons x c =>
      obtain ⟨rfl, htail⟩ := List.cons.inj hr
      rcases List.append_eq_append_iff.mp hrun with ⟨d, -, hd⟩ | ⟨d, -, hd⟩
      · exact absurd (by rw [hd]; simp) hsep
      · cases d with
        | nil =>
          rw [List.nil_append] at hd
          exact absurd (by rw [← hd]; simp) hsep
        | cons y d =>
          refine Or.inr ⟨d, t, ?_⟩
          rw [htail, (List.cons.inj hd).2]
          rfl

theorem isInfix_of_disjoint {run : List α} (hne : run ≠ []) : ∀ {l r : List α}, (∀ a ∈ l, a ∉ run) →
    run <:+: l ++ r → run <:+: r
  | [], _, _, h => h
  | a :: l, r, hl, h => by
    rcases isInfix_or_of_notMem (l := []) (hl a List.mem_cons_self) h with h | h
    · exact absurd (List.infix_nil.mp h) hne
    · exact isInfix_of_disjoint hne (fun b hb => hl b (List.mem_cons_of_mem a hb)) h

/-- A way to write items: a plain item is written as one item of its own, and any other with items that no
    plain item is written as. -/
structure Writing {β : Type} (write : α → List β) (letter : α → β) (plain : α → Prop) : Prop where
  kept : ∀ {a}, plain a → write a = [letter a]
  inj : ∀ {a b}, plain a → plain b → letter a = letter b → a = b
  other : ∀ {a}, ¬plain a → ∀ x ∈ write a, ∀ b, plain b → x ≠ letter b
  ne_nil : ∀ a, write a ≠ []

namespace Writing
variable {β : Type} {write : α → List β} {letter : α → β} {plain : α → Prop}

theorem prefix_of_flatMap (W : Writing write letter plain) : ∀ {run l : List α}, (∀ a ∈ run, plain a) →
    run.map letter <+: l.flatMap write → run <+: l
  | [], l, _, _ => List.nil_prefix
  | a :: run, [], _, h => by cases List.prefix_nil.mp h
  | a :: run, b :: l, hrun, h => by
    have ha := hrun a List.mem_cons_self
    rw [List.map_cons, List.flatMap_cons] at h
    by_cases hb : plain b
    · rw [W.kept hb, List.singleton_append, List.cons_prefix_cons] at h
      obtain rfl := W.inj ha hb h.1
      exact List.cons_prefix_cons.mpr
        ⟨rfl, W.prefix_of_flatMap (fun c hc => hrun c (List.mem_cons_of_mem a hc)) h.2⟩
    · cases hw : write b with
      | nil => exact absurd hw (W.ne_nil b)
      | cons x xs =>
        rw [hw, List.cons_append, List.cons_prefix_cons] at h
        exact absurd h.1.symm (W.other hb x (by rw [hw]; exact List.mem_cons_self) a ha)

theorem isInfix_of_flatMap (W : Writing write letter plain) {run : List α} (hne : run ≠ [])
    (hrun : ∀ a ∈ run, plain a) : ∀ {l : List α}, run.map letter <:+: l.flatMap write → run <:+: l
  | [], h => absurd (List.map_eq_nil_iff.mp (List.infix_nil.mp h)) hne
  | b :: l, h => by
    by_cases hb : plain b
    · rw [List.flatMap_cons, W.kept hb, List.singleton_append, List.infix_cons_iff] at h
      rcases h with h | h
      · refine (W.prefix_of_flatMap (l := b :: l) hrun ?_).isInfix
        rwa [List.flatMap_cons, W.kept hb, List.singleton_append]
      · exact List.infix_cons_iff.mpr (Or.inr (W.isInfix_of_flatMap hne hrun h))
    · have hdisjoint : ∀ x ∈ write b, x ∉ run.map letter := fun x hx hmem => by
        obtain ⟨a, ha, rfl⟩ := List.mem_map.mp hmem
        exact W.other hb _ hx a (hrun a ha) rfl
      rw [List.flatMap_cons] at h
      exact List.infix_cons_iff.mpr (Or.inr (W.isInfix_of_flatMap hne hrun
        (isInfix_of_disjoint (fun hnil => hne (List.map_eq_nil_iff.mp hnil)) hdisjoint h)))

end Writing

end Teletype.Text
