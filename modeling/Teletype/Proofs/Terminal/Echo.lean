import Teletype.Proofs.Text.Bytes
import Teletype.Terminal.Rule

/-! # Echoes

A terminal shows what is typed, as it stands or with a carriage return before each line end. Either way
an echo holds a run of ASCII characters without line ends only where the text itself holds it, and the
echo of a line ends with a line end. -/

namespace Teletype

open Text (Bytes utf8 utf8_eq utf8_ofList utf8_append isAscii asciiWriting utf8_of_isAscii Writing)

/-- What a terminal shows of a text, with or without a carriage return before each line end. -/
def Echo (text : String) (bytes : Bytes) : Prop := bytes = utf8 text ∨ bytes = shown text

/-- A character that no line end is written with. -/
def isInLine (c : Char) : Prop := c ≠ '\n' ∧ c ≠ '\r'

/-- Characters within a line are the plain ones when line ends are written with a carriage return. -/
theorem lineWriting : Writing (fun c => if c == '\n' then ['\r', '\n'] else [c]) id isInLine where
  kept := fun ha => if_neg (by simpa using ha.1)
  inj := fun _ _ h => h
  other := fun {a} ha x hx b hb heq => by
    obtain rfl : x = b := heq
    split at hx
    · rcases List.mem_cons.mp hx with rfl | hx
      · exact hb.2 rfl
      · exact hb.1 (List.mem_singleton.mp hx)
    · rw [List.mem_singleton.mp hx] at hb
      exact ha hb
  ne_nil := fun a => by split <;> exact List.cons_ne_nil _ _

/-- A run of ASCII characters without line ends that stands in an echo stands in the text. -/
theorem Echo.isInfix {text : String} {bytes : Bytes} (h : Echo text bytes) {run : String} (hne : run.toList ≠ [])
    (hascii : ∀ c ∈ run.toList, isAscii c) (hline : ∀ c ∈ run.toList, isInLine c) (hrun : utf8 run <:+: bytes) :
    run.toList <:+: text.toList := by
  rw [utf8_of_isAscii hascii] at hrun
  rcases h with rfl | rfl
  · rw [utf8_eq] at hrun
    exact asciiWriting.isInfix_of_flatMap hne hascii hrun
  · unfold shown at hrun
    rw [utf8_ofList] at hrun
    have hshown := asciiWriting.isInfix_of_flatMap hne hascii hrun
    rw [← List.map_id run.toList] at hshown
    exact lineWriting.isInfix_of_flatMap hne hline hshown

theorem utf8_newline : utf8 "\n" = [10] := by decide +kernel

theorem shown_append (s t : String) : shown (s ++ t) = shown s ++ shown t := by
  unfold shown
  rw [String.toList_append, List.flatMap_append, String.ofList_append, utf8_append]

theorem shown_newline : shown "\n" = [13, 10] := by decide +kernel

theorem shown_of_isInLine {s : String} (h : ∀ c ∈ s.toList, isInLine c) : shown s = utf8 s := by
  have hkept : ∀ cs : List Char, (∀ c ∈ cs, isInLine c) →
      cs.flatMap (fun c => if c == '\n' then ['\r', '\n'] else [c]) = cs := by
    intro cs
    induction cs with
    | nil => exact fun _ => rfl
    | cons c cs ih =>
      intro hcs
      rw [List.flatMap_cons, ih fun d hd => hcs d (List.mem_cons_of_mem c hd),
        lineWriting.kept (hcs c List.mem_cons_self)]
      rfl
  unfold shown
  rw [hkept s.toList h, String.ofList_toList]

/-- The echo of a line ends with a line end. -/
theorem Echo.endsLine {text : String} {bytes : Bytes} (h : Echo (text ++ "\n") bytes) :
    ∃ body, bytes = body ++ [10] := by
  rcases h with rfl | rfl
  · exact ⟨utf8 text, by rw [utf8_append, utf8_newline]⟩
  · exact ⟨shown text ++ [13], by rw [shown_append, shown_newline, List.append_assoc]; rfl⟩

end Teletype
