import Teletype.Text.Template

/-! # Filled templates

A template is made of text and of fields. Where the text has no braces and a field asks for no conversion and no style, the
value of each field comes in its place as it stands. What was filled in is not looked at again, so braces in a value are
text. -/

namespace Teletype.Text.Template

/-- A part of a template: text, or a field that only says what it picks. -/
inductive Part where
  | literal (cs : List Char)
  | field (name : List Char)

namespace Part

/-- How the part is written. -/
def written : Part → List Char
  | literal cs => cs
  | field name => '{' :: (name ++ ['}'])

/-- What comes in its place. -/
def filled (b : Bindings) : Part → Except Error (List Char)
  | literal cs => .ok cs
  | field name => (b.value name).bind fun v => v.plain.map String.toList

/-- Text without braces, or a name that nothing in it ends. -/
def isPlain : Part → Bool
  | literal cs => cs.all fun c => c != '{' && c != '}'
  | field name => name.all fun c => !"\x7b\x7d:![".toList.contains c

end Part

/-- What comes in the place of all parts. The first part that cannot be filled decides. -/
def filledAll (b : Bindings) : List Part → Except Error (List Char)
  | [] => .ok []
  | p :: parts => (p.filled b).bind fun cs => (filledAll b parts).map (cs ++ ·)

section
variable {b : Bindings} {name cs : List Char} {depth fuel : Nat} {c : Char}

/-! ### Fields -/

theorem splitName_of_isPlain (hname : (Part.field name).isPlain = true) (tail : List Char) :
    splitName false (name ++ '}' :: tail) = (name, some '}', tail) := by
  induction name with
  | nil => rfl
  | cons c name ih =>
    obtain ⟨hc, hname⟩ := Bool.and_eq_true_iff.mp hname
    have hne {d : Char} (hd : d ∈ "\x7b\x7d:![".toList) : (c == d) = false :=
      beq_false_of_ne fun heq => by
        rw [heq] at hc
        dsimp only at hc
        rw [List.contains_iff_mem.mpr hd] at hc
        cases hc
    rw [List.cons_append, splitName, hne (by decide), hne (by decide), hne (by decide), hne (by decide), hne (by decide),
      ih hname]
    rfl

theorem readField_of_isPlain (hname : (Part.field name).isPlain = true) (tail : List Char) :
    readField (name ++ '}' :: tail) = .ok (⟨name, none, []⟩, tail) := by
  unfold readField
  rw [splitName_of_isPlain hname]
  rfl

/-- What a field picks comes in its place. The template goes on behind the field. -/
theorem expand_field (hname : (Part.field name).isPlain = true) (tail : List Char) :
    expand b (depth + 1) (fuel + 1) ('{' :: (name ++ '}' :: tail)) =
      ((Part.field name).filled b).bind fun cs => (expand b (depth + 1) fuel tail).map (cs ++ ·) := by
  have hfield := readField_of_isPlain hname tail
  have hopen : ∀ rest, name ++ '}' :: tail = '{' :: rest → False := by
    intro rest heq
    cases name with
    | nil => cases heq
    | cons c name =>
      obtain rfl := (List.cons.inj heq).1
      cases hname
  have hsome : name ++ '}' :: tail = [] → False := by simp
  generalize name ++ '}' :: tail = written at hfield hopen hsome
  rw [expand]
  · rw [hfield]
    dsimp only [Part.filled]
    cases b.value name with
    | error e => rfl
    | ok v => rfl
  · exact hopen
  · exact hsome

theorem expand_cons (hc : (Part.literal (c :: cs)).isPlain = true) (tail : List Char) :
    expand b (depth + 1) (fuel + 1) (c :: tail) = (expand b (depth + 1) fuel tail).map ([c] ++ ·) := by
  obtain ⟨hc, -⟩ := Bool.and_eq_true_iff.mp hc
  have hne : c ≠ '{' ∧ c ≠ '}' := by simpa using hc
  rw [expand]
  · exact hne.2
  · exact hne.1
  · exact fun _ h _ => hne.1 h
  · exact fun _ h _ => hne.2 h
  · exact fun h _ => hne.1 h

/-! ### Templates -/

theorem expand_nil : expand b (depth + 1) fuel [] = .ok [] := by
  rw [expand]

theorem expand_literal (hcs : (Part.literal cs).isPlain = true) (tail : List Char) :
    expand b (depth + 1) (fuel + cs.length) (cs ++ tail) = (expand b (depth + 1) fuel tail).map (cs ++ ·) := by
  induction cs with
  | nil =>
    show expand b (depth + 1) fuel tail = _
    cases expand b (depth + 1) fuel tail <;> rfl
  | cons c cs ih =>
    have hrest := ih (Bool.and_eq_true_iff.mp hcs).2
    rw [List.length_cons, ← Nat.add_assoc, List.cons_append, expand_cons hcs, hrest]
    cases expand b (depth + 1) fuel tail <;> rfl

/-- Parts without braces, conversions and styles are filled one after the other, if there is fuel for every character. -/
theorem expand_parts {parts : List Part} (hparts : parts.all Part.isPlain = true)
    (hfuel : (parts.flatMap Part.written).length ≤ fuel) :
    expand b (depth + 1) fuel (parts.flatMap Part.written) = filledAll b parts := by
  induction parts generalizing fuel with
  | nil => exact expand_nil
  | cons p parts ih =>
    obtain ⟨hp, hrest⟩ := Bool.and_eq_true_iff.mp hparts
    rw [List.flatMap_cons, List.length_append] at hfuel
    rw [List.flatMap_cons, filledAll]
    cases p with
    | literal cs =>
      have hfuel : cs.length + (parts.flatMap Part.written).length ≤ fuel := hfuel
      obtain ⟨more, rfl⟩ := Nat.exists_eq_add_of_le' (Nat.le_trans (Nat.le_add_right _ _) hfuel)
      rw [Part.written, expand_literal hp, ih hrest (by omega)]
      rfl
    | field name =>
      have hlength : (Part.field name).written.length = name.length + 2 := by simp [Part.written]
      obtain ⟨more, rfl⟩ := Nat.exists_eq_add_of_le' (show 1 ≤ fuel by omega)
      rw [Part.written, List.cons_append, List.append_assoc, List.singleton_append, expand_field hp, ih hrest (by omega)]

/-- In a template of such parts every field gives way to its value, and everything else stays as it is. -/
theorem fill_parts {parts : List Part} (hparts : parts.all Part.isPlain = true) :
    fill b (String.ofList (parts.flatMap Part.written)) = (filledAll b parts).map String.ofList := by
  rw [fill, String.toList_ofList, String.length_ofList, expand_parts hparts (Nat.le_refl _)]

end

end Teletype.Text.Template
