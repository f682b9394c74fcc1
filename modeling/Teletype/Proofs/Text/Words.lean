import Teletype.Text.Blank

/-! # Blanks around words

Words are found again between any blanks, in their order. Trimming takes away the blanks at the two ends of a text
and nothing else. -/

namespace Teletype.Text

/-- Nothing but blanks. -/
def AllBlank (cs : List Char) : Prop := ∀ c ∈ cs, isBlank c = true

instance (cs : List Char) : Decidable (AllBlank cs) := decidable_of_iff (cs.all isBlank = true) List.all_eq_true

/-- Something, and no blank in it. -/
structure IsWord (cs : List Char) : Prop where
  ne_nil : cs ≠ []
  solid : ∀ c ∈ cs, isBlank c = false

instance (cs : List Char) : Decidable (IsWord cs) :=
  decidable_of_iff (cs ≠ [] ∧ (cs.all fun c => !isBlank c) = true)
    ⟨fun h => ⟨h.1, by simpa using h.2⟩, fun h => ⟨h.ne_nil, by simpa using h.solid⟩⟩

/-- Texts in order, separated by blanks: after each of them all ends or a blank follows. -/
inductive Spaced : List (List Char) → List Char → Prop
  | nil (blanks : List Char) (hblanks : AllBlank blanks) : Spaced [] blanks
  | cons (blanks text rest : List Char) (texts : List (List Char)) (hblanks : AllBlank blanks)
      (hends : ∀ c ∈ rest.head?, isBlank c = true) (hrest : Spaced texts rest) : Spaced (text :: texts) (blanks ++ (text ++ rest))

/-- The words of a text are these: no more than blanks stand before them, between them and after them. -/
structure HasWords (cs : List Char) (ws : List (List Char)) : Prop where
  word : ∀ w ∈ ws, IsWord w
  spaced : Spaced ws cs

/-- A text with nothing but blanks around it. -/
def Padded (text cs : List Char) : Prop := ∃ before after, AllBlank before ∧ AllBlank after ∧ cs = before ++ (text ++ after)

section
variable {blanks word rest : List Char}

theorem allBlank_nil : AllBlank [] := fun _ hc => absurd hc List.not_mem_nil

theorem AllBlank.notMem (h : AllBlank blanks) {c : Char} (hc : isBlank c = false) : c ∉ blanks := by
  intro hmem
  rw [h c hmem] at hc
  cases hc

/-! ### Words -/

theorem words_nil : words [] = [] := by rw [words.eq_def]

theorem words_cons (c : Char) (rest : List Char) : words (c :: rest) = if isBlank c then words rest
    else (c :: rest.takeWhile fun d => !isBlank d) :: words (rest.dropWhile fun d => !isBlank d) := by
  rw [words.eq_def]

theorem words_of_blanks (hblanks : AllBlank blanks) (rest : List Char) : words (blanks ++ rest) = words rest := by
  induction blanks with
  | nil => rfl
  | cons c blanks ih =>
    rw [List.cons_append, words_cons, if_pos (hblanks c List.mem_cons_self)]
    exact ih fun d hd => hblanks d (List.mem_cons_of_mem c hd)

theorem words_of_word (hword : IsWord word) (hends : ∀ c ∈ rest.head?, isBlank c = true) :
    words (word ++ rest) = word :: words rest := by
  cases word with
  | nil => exact absurd rfl hword.ne_nil
  | cons c cs =>
    have hsolid : ∀ d ∈ cs, (!isBlank d) = true := fun d hd => by rw [hword.solid d (List.mem_cons_of_mem c hd)]; rfl
    have htake : rest.takeWhile (fun d => !isBlank d) = [] := by
      cases rest with
      | nil => rfl
      | cons d rest => rw [List.takeWhile_cons_of_neg (by rw [hends d rfl]; exact Bool.false_ne_true)]
    have hdrop : rest.dropWhile (fun d => !isBlank d) = rest := by
      cases rest with
      | nil => rfl
      | cons d rest => rw [List.dropWhile_cons_of_neg (by rw [hends d rfl]; exact Bool.false_ne_true)]
    rw [List.cons_append, words_cons, if_neg (by rw [hword.solid c List.mem_cons_self]; exact Bool.false_ne_true),
      List.takeWhile_append_of_pos hsolid, List.dropWhile_append_of_pos hsolid, htake, hdrop, List.append_nil]

/-- Words that are separated by blanks are found again. -/
theorem Spaced.words_eq {ws : List (List Char)} {cs : List Char} (h : Spaced ws cs) (hws : ∀ w ∈ ws, IsWord w) :
    words cs = ws := by
  induction h with
  | nil blanks hblanks => rw [← List.append_nil blanks, words_of_blanks hblanks, words_nil]
  | cons blanks word rest ws hblanks hends hrest ih =>
    rw [words_of_blanks hblanks, words_of_word (hws word List.mem_cons_self) hends,
      ih fun w hw => hws w (List.mem_cons_of_mem word hw)]

/-- A blank in front makes no difference. -/
theorem Spaced.cons_blank {ws : List (List Char)} {cs : List Char} {c : Char} (hc : isBlank c = true) (h : Spaced ws cs) :
    Spaced ws (c :: cs) := by
  cases h with
  | nil _ hblanks => exact .nil (c :: cs) (List.forall_mem_cons.mpr ⟨hc, hblanks⟩)
  | cons blanks text rest texts hblanks hends hrest =>
    exact .cons (c :: blanks) text rest texts (List.forall_mem_cons.mpr ⟨hc, hblanks⟩) hends hrest

/-- The texts of a line, each but the first after a space, are separated by blanks. -/
theorem spaced_line (text : List Char) (texts : List (List Char)) :
    Spaced (text :: texts) (text ++ (texts.flatMap (fun next => ' ' :: next) ++ ['\n'])) := by
  induction texts generalizing text with
  | nil => exact .cons [] text ['\n'] [] allBlank_nil (by rintro c ⟨⟩; rfl) (.nil ['\n'] (by decide))
  | cons next texts ih =>
    have hrest := (ih next).cons_blank (c := ' ') rfl
    rw [List.flatMap_cons, List.append_assoc]
    exact .cons [] text _ (next :: texts) allBlank_nil (by rintro c ⟨⟩; rfl) hrest

/-- A run of characters that are not blank ends where all ends or a blank follows. -/
theorem isBlank_of_mem_head?_dropWhile {cs : List Char} {c : Char} (hc : c ∈ (cs.dropWhile fun d => !isBlank d).head?) :
    isBlank c = true := by
  have hnot := List.head?_dropWhile_not (fun d => !isBlank d) cs
  rw [hc] at hnot
  simpa using hnot

/-- Every text has its words. -/
theorem hasWords_words (cs : List Char) : HasWords cs (words cs) := by
  fun_induction words cs with
  | case1 => exact ⟨fun w hw => absurd hw List.not_mem_nil, .nil [] allBlank_nil⟩
  | case2 c rest hc ih => exact ⟨ih.word, ih.spaced.cons_blank hc⟩
  | case3 c rest hc ih =>
    have hword : IsWord (c :: rest.takeWhile fun d => !isBlank d) := by
      refine ⟨List.cons_ne_nil _ _, List.forall_mem_cons.mpr ⟨by simpa using hc, fun d hd => ?_⟩⟩
      simpa using List.all_eq_true.mp List.all_takeWhile d hd
    refine ⟨List.forall_mem_cons.mpr ⟨hword, ih.word⟩, ?_⟩
    have hspaced := Spaced.cons [] (c :: rest.takeWhile fun d => !isBlank d) _ _ allBlank_nil
      (fun d hd => isBlank_of_mem_head?_dropWhile hd) ih.spaced
    rwa [List.nil_append, List.cons_append, List.takeWhile_append_dropWhile] at hspaced

/-- The words of a text are those that are found. -/
theorem hasWords_iff {cs : List Char} {ws : List (List Char)} : HasWords cs ws ↔ words cs = ws := by
  constructor
  · intro h
    exact h.spaced.words_eq h.word
  · rintro rfl
    exact hasWords_words cs

/-! ### Trimming -/

theorem dropWhile_of_word (hword : IsWord word) (rest : List Char) : (word ++ rest).dropWhile isBlank = word ++ rest := by
  cases word with
  | nil => exact absurd rfl hword.ne_nil
  | cons c cs =>
    rw [List.cons_append, List.dropWhile_cons_of_neg]
    rw [hword.solid c List.mem_cons_self]
    exact Bool.false_ne_true

theorem trimEnd_of_blanks (hblanks : AllBlank blanks) : trimEnd blanks = [] := by
  have hall : ∀ c ∈ blanks.reverse, isBlank c = true := fun c hc => hblanks c (List.mem_reverse.mp hc)
  rw [trimEnd, ← List.append_nil blanks.reverse, List.dropWhile_append_of_pos hall]
  rfl

/-- What stands before a character that is not blank is not at the end. -/
theorem trimEnd_append_cons {c : Char} (hc : isBlank c = false) (cs rest : List Char) :
    trimEnd (cs ++ c :: rest) = cs ++ c :: trimEnd rest := by
  have hkept : (c :: cs.reverse).dropWhile isBlank = c :: cs.reverse := List.dropWhile_cons_of_neg (by simp [hc])
  rw [trimEnd, List.reverse_append, List.reverse_cons, List.append_assoc, List.singleton_append, List.dropWhile_append,
    trimEnd]
  split
  · next hnil =>
    rw [hkept, List.isEmpty_iff.mp hnil, List.reverse_cons, List.reverse_reverse]
    simp
  · simp

/-- Blanks are taken from the two ends only as far as a character in between that is not blank. -/
theorem trim_append_cons {c : Char} (hc : isBlank c = false) (cs rest : List Char) :
    trim (cs ++ c :: rest) = cs.dropWhile isBlank ++ c :: trimEnd rest := by
  have hkept : (c :: rest).dropWhile isBlank = c :: rest := List.dropWhile_cons_of_neg (by simp [hc])
  rw [trim, List.dropWhile_append, hkept]
  split
  · next hnil => rw [List.isEmpty_iff.mp hnil, ← List.nil_append (c :: rest), trimEnd_append_cons hc]
  · rw [trimEnd_append_cons hc]

theorem trimEnd_of_word (hword : IsWord word) (rest : List Char) : trimEnd (word ++ rest) = word ++ trimEnd rest := by
  obtain ⟨cs, c, rfl⟩ := List.eq_nil_or_concat word |>.resolve_left hword.ne_nil
  rw [List.concat_append, trimEnd_append_cons (hword.solid c (by simp)), List.concat_append]

theorem Padded.trim_eq {cs : List Char} (h : Padded word cs) (hword : IsWord word) : trim cs = word := by
  obtain ⟨before, after, hbefore, hafter, rfl⟩ := h
  rw [trim, List.dropWhile_append_of_pos hbefore, dropWhile_of_word hword, trimEnd_of_word hword, trimEnd_of_blanks hafter,
    List.append_nil]

/-- What is neither in a text nor blank is not in it with blanks around it. -/
theorem Padded.notMem {cs : List Char} (h : Padded word cs) {c : Char} (hc : isBlank c = false) (hword : c ∉ word) : c ∉ cs := by
  obtain ⟨before, after, hbefore, hafter, rfl⟩ := h
  intro hmem
  rcases List.mem_append.mp hmem with hmem | hmem
  · exact hbefore.notMem hc hmem
  · exact (List.mem_append.mp hmem).elim hword (hafter.notMem hc)

theorem padded_self (text : List Char) : Padded text text :=
  ⟨[], [], allBlank_nil, allBlank_nil, (List.append_nil text).symm⟩

end

end Teletype.Text
