import Teletype.Proofs.Text.Searching
import Teletype.Text.Word

/-! # Spellings of words

Two words have different spellings in a command line, so what a command is asked about can be told from its line. A run
of characters that are no quotes stands in the spelling of a word as it stands in the word. -/

namespace Teletype.Text.Word

/-- A word between apostrophes. -/
def guard (s : List Char) : List Char := '\'' :: (s.flatMap guarded ++ ['\''])

/-- A word is spelled as it stands, and then it does not begin with an apostrophe, or between apostrophes. -/
theorem spell_cases (s : List Char) : (spell s = s ∧ s.head? ≠ some '\'') ∨ spell s = guard s := by
  cases s with
  | nil => exact Or.inr rfl
  | cons c s =>
    unfold spell
    rw [if_neg (by simp)]
    cases hplain : (c :: s).all isPlain with
    | false => exact Or.inr (by rw [if_neg (by simp)]; rfl)
    | true =>
      rw [if_pos rfl]
      refine Or.inl ⟨rfl, fun hc => ?_⟩
      cases hc
      cases hplain

theorem flatMap_guarded_injective : ∀ {s t : List Char}, s.flatMap guarded = t.flatMap guarded → s = t
  | [], [], _ => rfl
  | [], d :: t, h => by
    rw [List.flatMap_nil, List.flatMap_cons] at h
    unfold guarded at h
    split at h <;> cases h
  | c :: s, [], h => by
    rw [List.flatMap_nil, List.flatMap_cons] at h
    unfold guarded at h
    split at h <;> cases h
  | c :: s, d :: t, h => by
    rw [List.flatMap_cons, List.flatMap_cons] at h
    by_cases hcd : c = d
    · subst hcd
      rw [flatMap_guarded_injective (List.append_cancel_left h)]
    · -- Characters that differ have spellings that differ at their head, for at most one is an apostrophe.
      unfold guarded at h
      split at h
      · next hc =>
        split at h
        · next hd => exact absurd ((beq_iff_eq.mp hc).trans (beq_iff_eq.mp hd).symm) hcd
        · next hd =>
          have hhead := (List.cons.inj h).1
          rw [← hhead] at hd
          exact absurd rfl hd
      · next hc =>
        split at h
        · next hd =>
          have hhead := (List.cons.inj h).1
          rw [hhead] at hc
          exact absurd rfl hc
        · exact absurd (List.cons.inj h).1 hcd

theorem guard_injective {s t : List Char} (h : guard s = guard t) : s = t :=
  flatMap_guarded_injective (List.append_cancel_right (List.cons.inj h).2)

theorem spell_injective {s t : List Char} (h : spell s = spell t) : s = t := by
  rcases spell_cases s with ⟨hs, hhead⟩ | hs
  · rcases spell_cases t with ⟨ht, -⟩ | ht
    · rwa [hs, ht] at h
    · rw [hs, ht] at h
      rw [h] at hhead
      exact absurd rfl hhead
  · rcases spell_cases t with ⟨ht, hhead⟩ | ht
    · rw [hs, ht] at h
      rw [← h] at hhead
      exact absurd rfl hhead
    · rw [hs, ht] at h
      exact guard_injective h

theorem quote_injective {s t : String} (h : quote s = quote t) : s = t :=
  String.toList_injective (spell_injective (String.ofList_injective h))

/-! ### Runs in spellings -/

/-- A character that no apostrophe is written with. -/
def isUnquoted (c : Char) : Prop := c ≠ '\'' ∧ c ≠ '"'

/-- Characters that are no quotes are the plain ones when a word is guarded. -/
theorem guardedWriting : Writing guarded id isUnquoted where
  kept := fun ha => if_neg (by simpa using ha.1)
  inj := fun _ _ h => h
  other := fun {a} ha x hx b hb heq => by
    obtain rfl : x = b := heq
    unfold guarded at hx
    split at hx
    · simp only [List.mem_cons, List.not_mem_nil, or_false] at hx
      rcases hx with rfl | rfl | rfl | rfl | rfl <;> simp [isUnquoted] at hb
    · rw [List.mem_singleton.mp hx] at hb
      exact ha hb
  ne_nil := fun a => by
    unfold guarded
    split <;> exact List.cons_ne_nil _ _

theorem flatMap_guarded_of_unquoted : ∀ {run : List Char}, (∀ c ∈ run, isUnquoted c) → run.flatMap guarded = run
  | [], _ => rfl
  | c :: run, h => by
    obtain ⟨hc, hrun⟩ := List.forall_mem_cons.mp h
    rw [List.flatMap_cons, guardedWriting.kept hc, flatMap_guarded_of_unquoted hrun]
    rfl

/-- A run without quotes stands in the spelling of a word just if it stands in the word. -/
theorem isInfix_spell_iff {run s : List Char} (hne : run ≠ []) (hrun : ∀ c ∈ run, isUnquoted c) :
    run <:+: spell s ↔ run <:+: s := by
  have hquote : '\'' ∉ run := fun hmem => (hrun _ hmem).1 rfl
  rcases spell_cases s with ⟨hs, -⟩ | hs <;> rw [hs]
  constructor
  · intro h
    rcases isInfix_or_of_notMem (l := []) hquote h with h | h
    · exact absurd (List.infix_nil.mp h) hne
    rcases isInfix_or_of_notMem (r := []) hquote h with h | h
    · exact guardedWriting.isInfix_of_flatMap hne hrun ((List.map_id run).symm ▸ h)
    · exact absurd (List.infix_nil.mp h) hne
  · rintro ⟨u, v, rfl⟩
    refine ⟨'\'' :: u.flatMap guarded, v.flatMap guarded ++ ['\''], ?_⟩
    simp [guard, flatMap_guarded_of_unquoted hrun]

end Teletype.Text.Word
