import Mathlib.Data.List.Basic
import Teletype.Proofs.Terminal.Echo
import Teletype.Recording.Script

/-! # Markers in what a terminal puts out

A marker is one word, so it stands in a line only within one of its words. No word of a probe is as long
as a marker, and a marker is never part of another one. So neither the echoes of what a recording types
nor the answers to other probes put a marker into the output, in whatever order they come. -/

namespace Teletype.Recording

open Text (Bytes utf8 utf8_append isAscii isInfix_or_of_notMem holds_iff)

/-! ### The characters of a marker -/

/-- A marker as a text. -/
def markerText (index : Nat) : String := markerHead ++ markerTail index

theorem toList_markerText (i : Nat) :
    (markerText i).toList = "__ptyshell_ready_".toList ++ Nat.toDigits 10 i ++ ['_', '_'] := by
  unfold markerText markerTail markerHead
  simp only [String.toList_append, Nat.toString_eq_ofList_toDigits, String.toList_ofList]
  rfl

theorem toList_markerTail (i : Nat) : (markerTail i).toList = "ready_".toList ++ Nat.toDigits 10 i ++ ['_', '_'] := by
  unfold markerTail
  simp only [String.toList_append, Nat.toString_eq_ofList_toDigits, String.toList_ofList]
  rfl

theorem isDigit_of_mem {c : Char} {n : Nat} (h : c ∈ Nat.toDigits 10 n) : c.isDigit = true :=
  Nat.isDigit_of_mem_toDigits (by omega) (by omega) h

theorem mem_markerText {c : Char} {i : Nat} (h : c ∈ (markerText i).toList) :
    c ∈ "__ptyshell_ready_".toList ∨ c.isDigit = true := by
  rw [toList_markerText, List.mem_append, List.mem_append] at h
  rcases h with (h | h) | h
  · exact Or.inl h
  · exact Or.inr (isDigit_of_mem h)
  · exact Or.inl (by rcases List.mem_cons.mp h with rfl | h <;> simp_all)

theorem isAscii_markerText {i : Nat} : ∀ c ∈ (markerText i).toList, isAscii c := by
  have hword : ("__ptyshell_ready_".toList.all fun c => isAscii c) = true := by decide +kernel
  intro c hc
  rcases mem_markerText hc with h | h
  · exact of_decide_eq_true (List.all_eq_true.mp hword c h)
  · simp only [Char.isDigit, Bool.and_eq_true, decide_eq_true_eq] at h
    have := UInt32.le_iff_toNat_le.mp h.2
    exact Nat.lt_of_le_of_lt this (by decide)

theorem notMem_markerText {c : Char} (hword : c ∉ "__ptyshell_ready_".toList) (hdigit : c.isDigit = false) (i : Nat) :
    c ∉ (markerText i).toList := by
  intro h
  rcases mem_markerText h with h | h
  · exact hword h
  · rw [hdigit] at h
    cases h

theorem markerText_ne_nil (i : Nat) : (markerText i).toList ≠ [] := by
  rw [toList_markerText]
  simp

theorem isInLine_markerText {i : Nat} : ∀ c ∈ (markerText i).toList, isInLine c := fun c hc =>
  ⟨fun hn => notMem_markerText (by decide) (by decide) i (hn ▸ hc),
    fun hr => notMem_markerText (by decide) (by decide) i (hr ▸ hc)⟩

/-! ### Markers in lines -/

theorem not_isInfix_of_mem {run l : List Char} {c : Char} (hrun : c ∈ run) (hl : c ∉ l) : ¬run <:+: l :=
  fun h => hl (h.mem hrun)

/-- No probe holds a marker: the words of a marker are apart in it. -/
theorem not_isInfix_probe (i j : Nat) : ¬(markerText i).toList <:+: (probe j).toList := by
  have hh : 'h' ∈ (markerText i).toList := by
    rw [toList_markerText]
    simp
  have hd : 'd' ∈ (markerText i).toList := by
    rw [toList_markerText]
    simp
  have hspace : ' ' ∉ (markerText i).toList := notMem_markerText (by decide) (by decide) i
  have hprobe : (probe j).toList = "printf".toList ++ ' ' :: ("'%s%s\\n'".toList ++ ' ' ::
      (markerHead.toList ++ ' ' :: (markerTail j).toList)) := by
    unfold probe
    simp only [String.toList_append]
    rfl
  have htail : 'h' ∉ (markerTail j).toList := by
    rw [toList_markerTail]
    intro h
    rw [List.mem_append, List.mem_append] at h
    rcases h with (h | h) | h
    · revert h
      decide
    · cases isDigit_of_mem h
    · revert h
      decide
  rw [hprobe]
  intro h
  rcases isInfix_or_of_notMem hspace h with h | h
  · exact not_isInfix_of_mem hh (by decide) h
  rcases isInfix_or_of_notMem hspace h with h | h
  · exact not_isInfix_of_mem hh (by decide) h
  rcases isInfix_or_of_notMem hspace h with h | h
  · exact not_isInfix_of_mem hd (by decide) h
  · exact not_isInfix_of_mem hh htail h

theorem isInfix_of_chained {i j : Nat} {s : Step}
    (h : (markerText i).toList <:+: (s.text ++ "; " ++ probe j).toList) :
    (markerText i).toList <:+: s.text.toList := by
  have hsemicolon : ';' ∉ (markerText i).toList := notMem_markerText (by decide) (by decide) i
  have hspace : ' ' ∉ (markerText i).toList := notMem_markerText (by decide) (by decide) i
  rw [String.toList_append, String.toList_append, List.append_assoc] at h
  rcases isInfix_or_of_notMem hsemicolon h with h | h
  · exact h
  · rcases isInfix_or_of_notMem (l := []) hspace h with h | h
    · exact absurd (List.infix_nil.mp h) (markerText_ne_nil i)
    · exact absurd h (not_isInfix_probe i j)

theorem takeWhile_toDigits (n : Nat) (rest : List Char) :
    (Nat.toDigits 10 n ++ '_' :: rest).takeWhile Char.isDigit = Nat.toDigits 10 n := by
  rw [List.takeWhile_append_of_pos fun c hc => isDigit_of_mem hc, List.takeWhile_cons_of_neg (by decide),
    List.append_nil]

/-- A marker is part of no other marker. -/
theorem eq_of_isInfix_markerText {i j : Nat} (h : (markerText i).toList <:+: (markerText j).toList) : i = j := by
  obtain ⟨s, t, hst⟩ := h
  rw [toList_markerText, toList_markerText] at hst
  -- There is one `p` in a marker, so both markers begin at the same place.
  have hp : 'p' ∉ "tyshell_ready_".toList ++ Nat.toDigits 10 j ++ ['_', '_'] := by
    intro h
    rw [List.mem_append, List.mem_append] at h
    rcases h with (h | h) | h
    · revert h
      decide
    · cases isDigit_of_mem h
    · revert h
      decide
  have hparts : s ++ ['_', '_'] ++ 'p' :: ("tyshell_ready_".toList ++ Nat.toDigits 10 i ++ ['_', '_'] ++ t) =
      ['_', '_'] ++ 'p' :: ("tyshell_ready_".toList ++ Nat.toDigits 10 j ++ ['_', '_']) := by
    simpa using hst
  obtain ⟨-, -, htails⟩ := (List.append_cons_inj_of_notMem (by decide) hp).mp hparts.symm
  rw [List.append_assoc, List.append_assoc, List.append_assoc, List.append_cancel_left_eq] at htails
  have hdigits := congrArg (List.takeWhile Char.isDigit) htails
  rw [takeWhile_toDigits] at hdigits
  have heq : Nat.toDigits 10 i = Nat.toDigits 10 j := (takeWhile_toDigits i ('_' :: t)).symm.trans hdigits.symm
  rw [← Nat.ofDigitChars_ten_toDigits (n := i), heq, Nat.ofDigitChars_ten_toDigits]

/-! ### Markers in output -/

/-- A piece of output without the marker of a step: the echo of a line typed for any step, be it a probe, a
    command or both, provided the command itself does not hold the marker, or the answer of another
    step. -/
inductive Noise (index : Nat) : Bytes → Prop
  | probed (j : Nat) {bytes : Bytes} : Echo (probeLine j) bytes → Noise index bytes
  | ordered (s : Step) {bytes : Bytes} : Text.holds s.text (markerText index) = false → Echo s.line bytes →
      Noise index bytes
  | chained (s : Step) (j : Nat) {bytes : Bytes} : Text.holds s.text (markerText index) = false →
      Echo (s.chainedLine j) bytes → Noise index bytes
  | answered (j : Nat) {bytes : Bytes} : j ≠ index → bytes = marker j ++ [10] ∨ bytes = marker j ++ [13, 10] →
      Noise index bytes

theorem not_isInfix_of_holds {s t : String} (h : Text.holds s t = false) : ¬t.toList <:+: s.toList := fun hi => by
  rw [holds_iff.mpr hi] at h
  cases h

theorem echo_answer {j : Nat} {bytes : Bytes} (h : bytes = marker j ++ [10] ∨ bytes = marker j ++ [13, 10]) :
    Echo (markerText j ++ "\n") bytes := by
  rcases h with rfl | rfl
  · refine Or.inl ?_
    rw [utf8_append, utf8_newline]
    rfl
  · refine Or.inr ?_
    rw [shown_append, shown_newline, shown_of_isInLine isInLine_markerText]
    rfl

/-- Each such piece shows a line without the marker. -/
theorem Noise.exists_line {i : Nat} {bytes : Bytes} (h : Noise i bytes) :
    ∃ line : String, Echo (line ++ "\n") bytes ∧ ¬(markerText i).toList <:+: line.toList := by
  cases h with
  | probed j h => exact ⟨probe j, h, not_isInfix_probe i j⟩
  | ordered s hs h => exact ⟨s.text, h, not_isInfix_of_holds hs⟩
  | chained s j hs h =>
    exact ⟨s.text ++ "; " ++ probe j, h, fun hi => not_isInfix_of_holds hs (isInfix_of_chained hi)⟩
  | answered j hj h =>
    exact ⟨markerText j, echo_answer h, fun hi => hj (eq_of_isInfix_markerText hi).symm⟩

theorem Noise.not_isInfix {i : Nat} {bytes : Bytes} (h : Noise i bytes) : ¬marker i <:+: bytes := by
  obtain ⟨line, hecho, hline⟩ := h.exists_line
  intro hi
  have hall := hecho.isInfix (markerText_ne_nil i) isAscii_markerText isInLine_markerText hi
  rw [String.toList_append] at hall
  have hend : '\n' ∉ (markerText i).toList := notMem_markerText (by decide) (by decide) i
  rcases isInfix_or_of_notMem (r := []) hend hall with h | h
  · exact hline h
  · exact absurd (List.infix_nil.mp h) (markerText_ne_nil i)

theorem marker_eq_map (i : Nat) : marker i = (markerText i).toList.map fun c => UInt8.ofNat c.toNat :=
  Text.utf8_of_isAscii isAscii_markerText

theorem marker_ne_nil (i : Nat) : marker i ≠ [] := by
  rw [marker_eq_map]
  exact fun h => markerText_ne_nil i (List.map_eq_nil_iff.mp h)

theorem newline_notMem_marker (i : Nat) : (10 : UInt8) ∉ marker i := by
  rw [marker_eq_map]
  intro h
  obtain ⟨c, hc, heq⟩ := List.mem_map.mp h
  have hn : c = '\n' := Text.ofNat_toNat_inj (isAscii_markerText c hc) (by decide) heq
  exact (isInLine_markerText c hc).1 hn

/-- However such pieces follow each other, the marker is not in them: each ends with a line end, which no
    marker holds. -/
theorem not_isInfix_flatten {i : Nat} : ∀ {pieces : List Bytes}, (∀ bytes ∈ pieces, Noise i bytes) →
    ¬marker i <:+: pieces.flatten
  | [], _, h => marker_ne_nil i (List.infix_nil.mp h)
  | bytes :: pieces, hnoise, h => by
    have hfirst := hnoise bytes List.mem_cons_self
    obtain ⟨line, hecho, -⟩ := hfirst.exists_line
    obtain ⟨body, rfl⟩ := hecho.endsLine
    rw [List.flatten_cons, List.append_assoc, List.singleton_append] at h
    rcases isInfix_or_of_notMem (newline_notMem_marker i) h with h | h
    · exact hfirst.not_isInfix (h.trans (List.prefix_append body [10]).isInfix)
    · exact not_isInfix_flatten (fun b hb => hnoise b (List.mem_cons_of_mem _ hb)) h

end Teletype.Recording
