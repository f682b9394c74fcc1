import Teletype.Proofs.Output.Line
import Teletype.Proofs.Terminal.Echo
import Teletype.Proofs.Terminal.Typing

/-! # What a device can put out

A terminal that nobody reads from keeps all that its device has put out in its queue. What can become of such
a terminal, whatever is typed and whatever comes due, is what its device can do; a line that is read
from goes the same way, but for what has been read. -/

namespace Teletype

open Text (Bytes)
open Output (Line Happening Watcher heardIn itemsIn typedIn typedIn_append typedIn_read itemsIn_append itemsIn_read)

/-! ### Terminals that nobody reads from -/

/-- What can become of the terminal of a device by these texts and this time, if nobody reads from it. Time does
    not pass over what is still to come. -/
inductive Course (d : Device) : List String → Time → Terminal → Prop
  | begun (now : Time) : Course d [] now (.begin d now)
  | typed {texts : List String} {now : Time} {t : Terminal} (text : String) : Course d texts now t →
      Course d (texts ++ [text]) now (t.type now text).2
  | passed {texts : List String} {now : Time} {t : Terminal} {entry : Timed} {rest : List Timed} : Course d texts now t →
      t.agenda = entry :: rest →
      Course d texts (later now entry.1) (Terminal.applyAll entry.1 { t with agenda := rest } entry.2)
  | waited {texts : List String} {now : Time} {t : Terminal} (time : Time) : Course d texts now t → now ≤ time →
      (∀ entry ∈ t.agenda.head?, time ≤ entry.1) → Course d texts time t

/-- All that a device ever puts out is the echo of what is typed: bytes that are cut from the front of echoes
    of texts typed so far. Nothing goes wrong with it. -/
structure OnlyEchoes (d : Device) : Prop where
  output : ∀ {texts : List String} {now : Time} {t : Terminal}, Course d texts now t →
    (∀ item ∈ t.queue, ∃ bytes, item = .chunk bytes) ∧
    ∃ echoes : List Bytes, (∀ bytes ∈ echoes, ∃ text ∈ texts, Echo text bytes) ∧
      t.queue.flatMap (fun item => Happening.heard (.read item)) <+: echoes.flatten
  writes : ∀ n, d.writeFault n = none
  closes : d.closeFault = none

namespace Terminal
variable {t : Terminal} {items : List Item} {now : Time}

/-- The terminal as it were if these items had not been read. -/
def behind (t : Terminal) (items : List Item) : Terminal := { t with queue := items ++ t.queue }

theorem apply_behind (e : Effect) : apply now (t.behind items) e = (apply now t e).behind items := by
  cases e with
  | output bytes =>
    cases hempty : bytes.isEmpty with
    | true => simp only [apply, hempty, if_true]
    | false => simp only [apply, hempty, behind, Bool.false_eq_true, if_false, List.append_assoc]
  | file path size => rfl
  | exit code => rfl
  | endOfOutput | readFault => simp only [apply, behind, List.append_assoc]

theorem applyAll_behind : ∀ {effects : List Effect} {t : Terminal},
    applyAll now (t.behind items) effects = (applyAll now t effects).behind items
  | [], _ => rfl
  | e :: effects, t => by
    unfold applyAll
    rw [List.foldl_cons, apply_behind]
    exact applyAll_behind

theorem apply_agenda (agenda : List Timed) (e : Effect) :
    apply now { t with agenda } e = { apply now t e with agenda } := by
  cases e with
  | output bytes => cases hempty : bytes.isEmpty <;> simp [apply, hempty]
  | file | exit | endOfOutput | readFault => rfl

theorem applyAll_agenda (agenda : List Timed) : ∀ {effects : List Effect} {t : Terminal},
    applyAll now { t with agenda } effects = { applyAll now t effects with agenda }
  | [], _ => rfl
  | e :: effects, t => by
    unfold applyAll
    rw [List.foldl_cons, apply_agenda]
    exact applyAll_agenda agenda

theorem plan_behind (entries : List (Rat × List Effect)) : ∀ {t : Terminal},
    entries.foldl (fun t (delay, effects) => t.plan (now + delay, effects)) (t.behind items) =
      (entries.foldl (fun t (delay, effects) => t.plan (now + delay, effects)) t).behind items := by
  induction entries with
  | nil => intro t; rfl
  | cons entry entries ih =>
    obtain ⟨delay, effects⟩ := entry
    intro t
    exact ih (t := t.plan (now + delay, effects))

theorem type_behind (text : String) :
    (t.behind items).type now text = ((t.type now text).1, (t.type now text).2.behind items) := by
  have hnoted : { t.behind items with typed := (t.behind items).typed ++ [(now, text)] } =
      { t with typed := t.typed ++ [(now, text)] }.behind items := rfl
  have hfault : (t.behind items).device.writeFault ((t.behind items).typed.map (·.2)).length =
      t.device.writeFault (t.typed.map (·.2)).length := rfl
  unfold type
  dsimp only
  rw [hfault, hnoted, applyAll_behind, plan_behind]
  cases t.device.writeFault (t.typed.map (·.2)).length <;> rfl

end Terminal

theorem Course.device {d : Device} {texts : List String} {now : Time} {t : Terminal} (h : Course d texts now t) :
    t.device = d := by
  induction h with
  | begun now => exact (Terminal.quiet_begin d now).device
  | typed text _ ih => exact (Terminal.type_device _ _ text).trans ih
  | passed _ _ ih => exact (Terminal.quiet_applyAll _ _ _).device.trans ih
  | waited _ _ _ _ ih => exact ih

/-! ### A device that shows what is typed -/

/-- A device without rules that shows what is typed. -/
def mirror : Device where
  react := reactBy true []

/-- All that is ever queued is what is typed as it is shown, and nothing is to come. -/
theorem Course.of_mirror {texts : List String} {now : Time} {t : Terminal} (h : Course mirror texts now t) :
    t.agenda = [] ∧ (∀ item ∈ t.queue, ∃ bytes, item = .chunk bytes) ∧
      t.queue.flatMap (fun item => Happening.heard (.read item)) = (texts.map shown).flatten := by
  induction h with
  | begun => exact ⟨rfl, nofun, rfl⟩
  | @typed texts now t text ht ih =>
    obtain ⟨hagenda, hchunks, hqueue⟩ := ih
    have htype : (t.type now text).2 =
        Terminal.apply now { t with typed := t.typed ++ [(now, text)] } (.output (shown text)) := by
      unfold Terminal.type
      rw [ht.device]
      rfl
    rw [htype, Terminal.apply, List.map_append, List.flatten_append, ← hqueue]
    split
    · next hempty =>
      rw [List.isEmpty_iff] at hempty
      exact ⟨hagenda, hchunks, by simp [hempty]⟩
    · refine ⟨hagenda, fun item hitem => ?_, by simp [Happening.heard]⟩
      rcases List.mem_append.mp hitem with h | h
      · exact hchunks item h
      · exact ⟨_, List.mem_singleton.mp h⟩
  | passed _ hpassed ih => cases ih.1.symm.trans hpassed
  | waited _ _ _ _ ih => exact ih

theorem onlyEchoes_mirror : OnlyEchoes mirror where
  output := by
    intro texts now t h
    obtain ⟨-, hchunks, hqueue⟩ := h.of_mirror
    refine ⟨hchunks, texts.map shown, ?_, hqueue ▸ List.prefix_refl _⟩
    intro bytes hbytes
    obtain ⟨text, htext, rfl⟩ := List.mem_map.mp hbytes
    exact ⟨text, htext, Or.inr rfl⟩
  writes := fun _ => rfl
  closes := rfl

/-! ### Lines that are read from -/

namespace Output.Line
variable {d : Device} {l : Line} {agenda : List Timed} {deadline : Deadline} {marker : Bytes} {start : Int}

/-- The terminal of a line is what its device can make of it by the texts typed so far, but for what has been
    read. -/
def Attends (d : Device) (l : Line) : Prop := Course d (typedIn l.past) l.now (l.terminal.behind (itemsIn l.past))

theorem Attends.settle (h : Attends d l) : Attends d l.settle := by
  unfold Line.settle
  generalize hd : l.watcher.drain l.terminal.queue = r
  obtain ⟨w, taken, left⟩ := r
  obtain ⟨hqueue, -⟩ := Watcher.drain_eq hd
  have hbehind : ({ l.terminal with queue := left } : Terminal).behind (itemsIn (l.past ++ taken.map .read)) =
      l.terminal.behind (itemsIn l.past) := by
    rw [itemsIn_append, itemsIn_read, Terminal.behind, Terminal.behind, hqueue, List.append_assoc]
  have htyped : typedIn (l.past ++ taken.map .read) = typedIn l.past := by
    rw [typedIn_append, typedIn_read, List.append_nil]
  show Course d (typedIn (l.past ++ taken.map .read)) l.now _
  rw [htyped]
  exact hbehind ▸ h

theorem settle_withAgenda (l : Line) (agenda : List Timed) : l.settle.withAgenda agenda = (l.withAgenda agenda).settle := by
  unfold Line.settle withAgenda
  rfl

/-- Performing the first entry of an agenda leaves the rest of it. -/
theorem Attends.perform {entry : Timed} {rest : List Timed} (h : Attends d (l.withAgenda (entry :: rest))) :
    Attends d ((l.perform entry).withAgenda rest) := by
  unfold Line.perform
  rw [settle_withAgenda]
  refine Attends.settle ?_
  have hpassed : Course d (typedIn l.past) (later l.now entry.1)
      (Terminal.applyAll entry.1 (Terminal.behind { l.terminal with agenda := rest } (itemsIn l.past)) entry.2) :=
    h.passed rfl
  rw [Terminal.applyAll_behind, Terminal.applyAll_agenda] at hpassed
  exact hpassed

theorem Attends.expire (h : Attends d (l.withAgenda agenda)) (hnow : comesBy deadline l.now = false)
    (hnext : ∀ entry ∈ agenda.head?, comesBy deadline entry.1 = true) :
    Attends d ((l.withAgenda agenda).expire deadline) := by
  cases deadline with
  | «at» t =>
    simp only [comesBy, decide_eq_true_eq, decide_eq_false_iff_not, Rat.not_le] at hnow hnext
    have hlater : later l.now t = t := if_pos hnow
    show Course d (typedIn l.past) (later l.now t) _
    rw [hlater]
    exact h.waited t (Rat.le_of_lt hnow) hnext
  | never | passed | undefined => exact h

theorem Attends.listen : ∀ {agenda : List Timed} {l : Line}, Attends d (l.withAgenda agenda) →
    comesBy deadline l.now = false → Attends d (Line.listen marker start deadline l agenda).2
  | [], l, h, hnow => h.expire hnow nofun
  | entry :: rest, l, h, hnow => by
    cases hdue : comesBy deadline entry.1 with
    | true =>
      rw [listen_due hdue]
      exact h.expire hnow fun e he => Option.some.inj he ▸ hdue
    | false =>
      rcases listen_cons hdue rest l with hlisten | ⟨found, -, hlisten⟩ <;> rw [hlisten]
      · exact h.perform.listen (comesBy_later hnow hdue)
      · exact h.perform

theorem Attends.waitFor (h : Attends d l) (marker : Bytes) (start : Int) (span : Span) :
    Attends d (l.waitFor marker start span).line := by
  unfold Line.waitFor
  split
  · exact h
  · dsimp only
    split
    · exact h
    · next hover =>
      rw [Bool.not_eq_true] at hover
      have hnow := comesBy_of_isOver hover
      -- What is performed first is nothing, and at once.
      let first : Timed := (l.now, [])
      have hfirst : comesBy (.after l.now span) first.1 = false := hnow
      have hperform : l.perform first = l.settle := by
        have hlater : later l.now l.now = l.now := if_neg Rat.lt_irrefl
        unfold Line.perform
        rw [hlater]
        rfl
      have hsettle : Attends d ((l.perform first).withAgenda l.terminal.agenda) := by
        rw [hperform, settle_withAgenda]
        exact h.settle
      rcases listen_cons hfirst l.terminal.agenda l with hlisten | ⟨found, -, hlisten⟩ <;> rw [hlisten]
      · exact hsettle.listen (comesBy_later hnow hnow)
      · exact hsettle

theorem Attends.type (h : Attends d l) (text : String) : Attends d (l.type text).2 := by
  unfold Line.type
  refine Attends.settle ?_
  have htyped := h.typed text
  rw [Terminal.type_behind] at htyped
  show Course d (typedIn (l.past ++ [.typed text])) l.now (Terminal.behind _ (itemsIn (l.past ++ [.typed text])))
  rw [typedIn_append, itemsIn_append]
  exact (List.append_nil (itemsIn l.past)).symm ▸ htyped

/-- A device that only echoes takes every text. -/
theorem Attends.type_takes (h : Attends d l) (hd : OnlyEchoes d) (text : String) : (l.type text).1 = none := by
  have hdevice : l.terminal.device = d := h.device
  show (l.terminal.type l.now text).1 = none
  unfold Terminal.type
  dsimp only
  rw [hdevice, hd.writes]

/-- A line to a device that only echoes has heard nothing but echoes of what was typed, and its output has not
    ended. -/
theorem Attends.heard (h : Attends d l) (hd : OnlyEchoes d) : (∀ item ∈ itemsIn l.past, ∃ bytes, item = .chunk bytes) ∧
    ∃ echoes : List Bytes, (∀ bytes ∈ echoes, ∃ text ∈ typedIn l.past, Echo text bytes) ∧
      heardIn l.past <+: echoes.flatten := by
  obtain ⟨hchunks, echoes, hechoes, hprefix⟩ := hd.output h
  refine ⟨fun item hitem => hchunks item (List.mem_append_left _ hitem), echoes, hechoes, ?_⟩
  rw [Output.heardIn_eq]
  refine List.IsPrefix.trans ?_ hprefix
  show _ <+: (itemsIn l.past ++ l.terminal.queue).flatMap _
  rw [List.flatMap_append]
  exact List.prefix_append _ _

end Output.Line

end Teletype
