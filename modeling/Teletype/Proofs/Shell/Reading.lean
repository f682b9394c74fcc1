import Mathlib.Tactic.SplitIfs
import Teletype.Proofs.Text.Quoting

/-! # How a shell reads a line

A shell takes a line apart into words. Outside quotes blanks separate them, and operators, patterns and expansions are more
than text. A backslash makes the next character text; between apostrophes all is text, and between double quotes all but
expansions. A word that is spelled for a command line is read as one word, which is text and nothing else. -/

namespace Teletype.Shell

open Text.Word (spell quote guarded isPlain)

/-! ### Lines of words -/

/-- How a character is read: outside quotes, behind a backslash there, between apostrophes, between double quotes, behind a
    backslash there, or in a comment. -/
inductive Mode where
  | bare
  | escaped
  | single
  | double
  | escapedInDouble
  | comment
  deriving DecidableEq, Repr

/-- A line as far as it is read: how the next character is read, the words so far, and the word that has begun, if one
    has. -/
structure Reading where
  mode : Mode := .bare
  words : List (List Char) := []
  word : Option (List Char) := none
  deriving DecidableEq, Repr

namespace Reading

/-- The reading with one more character in the word. -/
def push (r : Reading) (c : Char) : Reading := { r with word := some (r.word.getD [] ++ [c]) }

/-- Quotes are opened. With them a word has begun, even if nothing comes in between. -/
def quoted (r : Reading) (mode : Mode) : Reading := { r with mode, word := some (r.word.getD []) }

/-- The word that has begun is over. -/
def separate (r : Reading) : Reading := { r with words := r.words ++ r.word.toList, word := none }

/-- Outside quotes the character is an operator or may be a part of a pattern or an expansion. A tilde may be where a word
    or the value of an assignment begins. -/
def isActive (r : Reading) (c : Char) : Bool :=
  "|&;<>()$\x60*?[\n".toList.contains c || c == '~' && (r.word.getD []).getLast?.all fun b => b == '=' || b == ':'

/-- Reads a character outside quotes, unless it is active there. -/
def bare (r : Reading) (c : Char) : Option Reading :=
  if c = ' ' ∨ c = '\t' then some r.separate
  else if c = '\'' then some (r.quoted .single)
  else if c = '"' then some (r.quoted .double)
  else if c = '\\' then some { r with mode := .escaped }
  else if c = '#' ∧ r.word = none then some { r with mode := .comment }
  else if r.isActive c then none
  else some (r.push c)

/-- Reads a character behind a backslash. A line goes on behind the end of one. -/
def escaped (r : Reading) (c : Char) : Reading :=
  if c = '\n' then { r with mode := .bare } else { r with mode := .bare }.push c

/-- Reads a character between double quotes, unless it begins an expansion. -/
def double (r : Reading) (c : Char) : Option Reading :=
  if c = '"' then some { r with mode := .bare }
  else if c = '\\' then some { r with mode := .escapedInDouble }
  else if c = '$' ∨ c = '\x60' then none
  else some (r.push c)

/-- Reads a character behind a backslash between double quotes, where it stands for itself before most characters. -/
def escapedInDouble (r : Reading) (c : Char) : Reading :=
  if c = '\n' then { r with mode := .double }
  else if "$\x60\"\\".toList.contains c then { r with mode := .double }.push c
  else ({ r with mode := .double }.push '\\').push c

/-- Reads a character, unless it is more than text. -/
def step (r : Reading) (c : Char) : Option Reading :=
  if c = '\x00' then none
  else match r.mode with
    | .bare => r.bare c
    | .escaped => some (r.escaped c)
    | .single => if c = '\'' then some { r with mode := .bare } else some (r.push c)
    | .double => r.double c
    | .escapedInDouble => some (r.escapedInDouble c)
    | .comment => if c = '\n' then none else some r

/-- Reads one character after the other. -/
def read (r : Reading) (cs : List Char) : Option Reading := cs.foldlM step r

/-- The words at the end of a line, where no quotes may be open. -/
def finish (r : Reading) : Option (List String) :=
  match r.mode with
  | .bare | .comment => some (r.separate.words.map String.ofList)
  | .escaped | .single | .double | .escapedInDouble => none

end Reading

/-- The words of a line, if there is nothing in it but words that are text, and a comment. -/
def words? (line : String) : Option (List String) := (({} : Reading).read line.toList).bind Reading.finish

namespace Reading

section
variable {r r' : Reading} {words : List (List Char)} {word : Option (List Char)} {w cs : List Char} {c : Char}

@[simp] theorem read_nil (r : Reading) : r.read [] = some r := rfl

@[simp] theorem read_cons (r : Reading) (c : Char) (cs : List Char) : r.read (c :: cs) = (r.step c).bind (·.read cs) :=
  List.foldlM_cons

theorem read_append (r : Reading) (cs more : List Char) : r.read (cs ++ more) = (r.read cs).bind (·.read more) :=
  List.foldlM_append

/-! ### Spelled words -/

/-- A plain character is text outside quotes. -/
theorem step_of_isPlain (hc : isPlain c = true) (words : List (List Char)) (word : Option (List Char)) :
    step ⟨.bare, words, word⟩ c = some ⟨.bare, words, some (word.getD [] ++ [c])⟩ := by
  have hne {d : Char} (hd : isPlain d = false) : c ≠ d := fun heq => by rw [heq, hd] at hc; cases hc
  have hactive : isActive ⟨.bare, words, word⟩ c = false := by
    have htilde : (c == '~') = false := beq_false_of_ne (hne (by decide))
    have hnone : "|&;<>()$\x60*?[\n".toList.contains c = false := by
      rw [← Bool.not_eq_true, List.contains_iff_mem]
      intro hmem
      have hall : "|&;<>()$\x60*?[\n".toList.all (fun d => !isPlain d) = true := by decide
      have hnot := List.all_eq_true.mp hall c hmem
      rw [hc] at hnot
      cases hnot
    rw [isActive, hnone, htilde]
    rfl
  rw [step, if_neg (hne (by decide)), bare, if_neg (not_or.mpr ⟨hne (by decide), hne (by decide)⟩), if_neg (hne (by decide)),
    if_neg (hne (by decide)), if_neg (hne (by decide)), if_neg fun h => hne (by decide) h.1, if_neg (by rw [hactive]; nofun)]
  rfl

/-- Plain characters go on with the word. -/
theorem read_of_isPlain (hw : ∀ c ∈ w, isPlain c = true) (words : List (List Char)) (u : List Char) :
    read ⟨.bare, words, some u⟩ w = some ⟨.bare, words, some (u ++ w)⟩ := by
  induction w generalizing u with
  | nil => rw [List.append_nil, read_nil]
  | cons c w ih =>
    obtain ⟨hc, hw⟩ := List.forall_mem_cons.mp hw
    rw [read_cons, step_of_isPlain hc, Option.bind_some, Option.getD_some, ih hw, List.append_assoc]
    rfl

/-- Between apostrophes every character is text, and one that is guarded is an apostrophe. -/
theorem read_guarded (hw : '\x00' ∉ w) (words : List (List Char)) (u : List Char) :
    read ⟨.single, words, some u⟩ (w.flatMap guarded) = some ⟨.single, words, some (u ++ w)⟩ := by
  induction w generalizing u with
  | nil => rw [List.append_nil, List.flatMap_nil, read_nil]
  | cons c w ih =>
    have hc : '\x00' ≠ c := List.ne_of_not_mem_cons hw
    have hstep : read ⟨.single, words, some u⟩ (guarded c) = some ⟨.single, words, some (u ++ [c])⟩ := by
      unfold guarded
      split
      · next hquote =>
        rw [beq_iff_eq.mp hquote]
        rfl
      · next hother =>
        rw [read_cons, step, if_neg hc.symm]
        dsimp only
        rw [if_neg (by simpa using hother)]
        rfl
    rw [List.flatMap_cons, read_append, hstep, Option.bind_some, ih (List.not_mem_of_not_mem_cons hw), List.append_assoc]
    rfl

/-- A spelled word is read as the word. -/
theorem read_spell (hw : '\x00' ∉ w) (words : List (List Char)) :
    read ⟨.bare, words, none⟩ (spell w) = some ⟨.bare, words, some w⟩ := by
  have hguard : read ⟨.bare, words, none⟩ (Text.Word.guard w) = some ⟨.bare, words, some w⟩ := by
    have hopen : step ⟨.bare, words, none⟩ '\'' = some ⟨.single, words, some []⟩ := rfl
    have hclose : read ⟨.single, words, some w⟩ ['\''] = some ⟨.bare, words, some w⟩ := rfl
    rw [Text.Word.guard, read_cons, hopen, Option.bind_some, read_append, read_guarded hw, Option.bind_some,
      List.nil_append, hclose]
  cases w with
  | nil => exact hguard
  | cons c w =>
    unfold spell
    rw [if_neg (by simp)]
    split
    · next hplain =>
      obtain ⟨hc, hplain⟩ := List.forall_mem_cons.mp (List.all_eq_true.mp hplain)
      rw [read_cons, step_of_isPlain hc, Option.bind_some, read_of_isPlain hplain]
      rfl
    · exact hguard

/-- A blank ends a word. -/
theorem read_blank (words : List (List Char)) (w cs : List Char) :
    read ⟨.bare, words, some w⟩ (' ' :: cs) = read ⟨.bare, words ++ [w], none⟩ cs := rfl

/-! ### Words that stand as they are -/

/-- How many characters are in the words of a reading, and how many are in none of them for sure: those that ended a word,
    and a backslash or the sign of a comment that was read last. -/
def size (r : Reading) : Nat :=
  r.words.flatten.length + r.words.length + (r.word.getD []).length +
    match r.mode with
    | .escaped | .escapedInDouble | .comment => 1
    | .bare | .single | .double => 0

theorem size_push (r : Reading) (c : Char) : (r.push c).size = r.size + 1 := by
  simp only [size, push, Option.getD_some, List.length_append, List.length_singleton]
  omega

theorem size_separate (r : Reading) : r.separate.size ≤ r.size + 1 := by
  obtain ⟨mode, words, word⟩ := r
  cases word with
  | none => simp [size, separate]
  | some w =>
    simp only [size, separate, Option.toList_some, List.flatten_concat, List.length_append, List.length_singleton,
      Option.getD_none, Option.getD_some, List.length_nil]
    omega

/-- Every character goes into one of the words or is lost; none goes into two places. -/
theorem size_step (h : r.step c = some r') : r'.size ≤ r.size + 1 := by
  have hpush := r.size_push c
  have hseparate := r.size_separate
  unfold step at h
  split at h
  · cases h
  · split at h
    · next hmode =>
      unfold bare at h
      split_ifs at h <;> cases h
      · exact hseparate
      · simp [size, quoted, hmode]
      · simp [size, quoted, hmode]
      · simp [size, hmode]
      · simp [size, hmode]
      · exact Nat.le_of_eq hpush
    · next hmode =>
      cases h
      unfold escaped
      split
      · simp [size, hmode]; omega
      · rw [size_push]
        simp [size, hmode]
    · next hmode =>
      split at h <;> cases h
      · simp [size, hmode]
      · exact Nat.le_of_eq hpush
    · next hmode =>
      unfold double at h
      split_ifs at h <;> cases h
      · simp [size, hmode]
      · simp [size, hmode]
      · exact Nat.le_of_eq hpush
    · next hmode =>
      cases h
      unfold escapedInDouble
      split_ifs
      · simp [size, hmode]; omega
      · rw [size_push]
        simp [size, hmode]
      · rw [size_push, size_push]
        simp [size, hmode]
    · next hmode =>
      split at h <;> cases h
      exact Nat.le_succ _

theorem size_read (h : r.read cs = some r') : r'.size ≤ r.size + cs.length := by
  induction cs generalizing r with
  | nil =>
    obtain rfl := Option.some.inj h
    exact Nat.le_refl _
  | cons c cs ih =>
    rw [read_cons] at h
    obtain ⟨r₁, hstep, hread⟩ := Option.bind_eq_some_iff.mp h
    have hfirst := size_step hstep
    have hrest := ih hread
    rw [List.length_cons]
    omega

end

end Reading

/-- A word that is read as itself is text from its beginning to its end: in a line every character goes into the word. -/
theorem read_of_words? {w : String} (h : words? w = some [w]) :
    ({} : Reading).read w.toList = some ⟨.bare, [], some w.toList⟩ := by
  obtain ⟨r, hread, hfinish⟩ := Option.bind_eq_some_iff.mp h
  have hsize : r.size ≤ 0 + w.toList.length := Reading.size_read hread
  rw [hread]
  obtain ⟨mode, words, word⟩ := r
  have hwords : (words ++ word.toList).map String.ofList = [w] ∧ (mode = .bare ∨ mode = .comment) := by
    cases mode with
    | bare => exact ⟨Option.some.inj hfinish, Or.inl rfl⟩
    | comment => exact ⟨Option.some.inj hfinish, Or.inr rfl⟩
    | escaped | single | double | escapedInDouble => cases hfinish
  obtain ⟨hwords, hmode⟩ := hwords
  have hlists : words ++ word.toList = [w.toList] := by
    refine (List.map_inj_right fun u v heq => String.ofList_injective heq).mp (hwords.trans ?_)
    rw [List.map_singleton, String.ofList_toList]
  cases word with
  | none =>
    -- A blank has ended the word, and so is lost.
    rw [Option.toList_none, List.append_nil] at hlists
    rw [hlists] at hsize
    simp only [Reading.size, List.flatten_singleton, List.length_singleton] at hsize
    omega
  | some u =>
    obtain ⟨rfl, hu⟩ : words = [] ∧ [u] = [w.toList] := by
      cases words with
      | nil => exact ⟨rfl, hlists⟩
      | cons v words => cases words <;> cases hlists
    obtain rfl := (List.cons.inj hu).1
    rcases hmode with rfl | rfl
    · rfl
    · simp only [Reading.size, List.flatten_nil, List.length_nil, Option.getD_some] at hsize
      omega

/-! ### Lines -/

/-- A command with arguments that are spelled for a command line. -/
def commandLine (command : String) (arguments : List String) : String :=
  arguments.foldl (fun line w => line ++ " " ++ quote w) command

theorem toList_commandLine (command : String) (arguments : List String) : (commandLine command arguments).toList =
    command.toList ++ arguments.flatMap fun w => ' ' :: spell w.toList := by
  induction arguments generalizing command with
  | nil => exact (List.append_nil _).symm
  | cons w arguments ih =>
    have hquote : (quote w).toList = spell w.toList := String.toList_ofList
    have hfirst := ih (command ++ " " ++ quote w)
    rw [String.toList_append, String.toList_append, hquote, List.append_assoc, List.append_assoc] at hfirst
    exact hfirst

theorem finish_arguments {arguments : List String} (harguments : ∀ w ∈ arguments, '\x00' ∉ w.toList)
    (words : List (List Char)) (u : List Char) :
    (Reading.read ⟨.bare, words, some u⟩ (arguments.flatMap fun w => ' ' :: spell w.toList)).bind Reading.finish =
      some (words.map String.ofList ++ String.ofList u :: arguments) := by
  induction arguments generalizing words u with
  | nil =>
    show some ((words ++ [u]).map String.ofList) = _
    rw [List.map_append]
    rfl
  | cons w arguments ih =>
    obtain ⟨hw, harguments⟩ := List.forall_mem_cons.mp harguments
    rw [List.flatMap_cons, List.cons_append, Reading.read_blank, Reading.read_append, Reading.read_spell hw,
      Option.bind_some, ih harguments, List.map_append, String.ofList_toList, List.append_assoc]
    rfl

/-- A shell reads a command that is one word, and then each argument as the word that it is, whatever is in it. -/
theorem words?_commandLine {command : String} (hcommand : words? command = some [command]) {arguments : List String}
    (harguments : ∀ w ∈ arguments, '\x00' ∉ w.toList) :
    words? (commandLine command arguments) = some (command :: arguments) := by
  rw [words?, toList_commandLine, Reading.read_append, read_of_words? hcommand, Option.bind_some,
    finish_arguments harguments, String.ofList_toList]
  rfl

example : words? "groups 'it'\"'\"'s $1; #'" = some ["groups", "it's $1; #"] := by decide

example : words? "groups it; id" = none := by decide

end Teletype.Shell
