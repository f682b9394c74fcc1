import Mathlib.Algebra.Order.Floor.Semiring
import Mathlib.Data.Rat.Floor
import Teletype.Proofs.Output.Passing

/-! # A text that is typed again and again

A text that is typed at regular intervals meets a line that has gone on by itself since it was typed last. Which of the
typings came last by a time says what the watcher has read by then, and so at which time a marker is decided on. Waiting
for the marker from one typing to the next finds just that time. -/

namespace Teletype.Output.Line

open Text (Bytes)

/-- The line before the text is typed once more, after it has been typed so many times. -/
def before (text : String) (pace : Rat) (l : Line) : Nat → Line
  | 0 => l
  | k + 1 => ((l.before text pace k).type text).2.passTo (l.now + (k + 1 : Nat) * pace)

/-- The line after that. -/
def beat (text : String) (pace : Rat) (l : Line) (k : Nat) : Line := ((l.before text pace k).type text).2

/-- A text with the times at which it is typed, so many times. -/
def beats (text : String) (pace : Rat) (now : Time) (n : Nat) : List (Time × String) :=
  (List.range n).map fun (i : Nat) => (now + i * pace, text)

/-- The typing that came last by a time. -/
def lastBeat (pace : Rat) (l : Line) (t : Time) : Nat := ⌊(t - l.now) / pace⌋₊

/-- What the watcher has read by a time, if nothing that was read led to an end. -/
def heardBy (text : String) (pace : Rat) (l : Line) (t : Time) : Watcher := (l.beat text pace (l.lastBeat pace t)).watcherBy t

/-- At a time the marker is in the window: when the text has just been typed, or when all that has come by then is read. -/
def Shows (text : String) (pace : Rat) (marker : Bytes) (start : Int) (l : Line) (t : Time) : Prop :=
  ((l.heardBy text pace t).window.find? marker start).isSome = true ∨
    t = l.now + l.lastBeat pace t * pace ∧ ((l.beat text pace (l.lastBeat pace t)).watcher.window.find? marker start).isSome = true

/-- The times before a limit at which the marker is in the window or the output has ended. -/
def settling (text : String) (pace : Rat) (marker : Bytes) (start : Int) (limit : Time) (l : Line) : Set Time :=
  {t | l.now ≤ t ∧ t < limit ∧ (l.Shows text pace marker start t ∨ (l.heardBy text pace t).ended = true)}

variable {l : Line} {text : String} {pace : Rat} {marker : Bytes} {start : Int} {limit t : Time} {k : Nat}

/-! ### The line between typings -/

@[simp] theorem before_now (text : String) (pace : Rat) (l : Line) (k : Nat) : (l.before text pace k).now = l.now + k * pace := by
  cases k with
  | zero => simp [before]
  | succ k => rfl

@[simp] theorem beat_now (text : String) (pace : Rat) (l : Line) (k : Nat) : (l.beat text pace k).now = l.now + k * pace :=
  before_now text pace l k

theorem before_succ (text : String) (pace : Rat) (l : Line) (k : Nat) :
    l.before text pace (k + 1) = (l.beat text pace k).passTo (l.now + (k + 1 : Nat) * pace) := rfl

theorem settle_beat (text : String) (pace : Rat) (l : Line) (k : Nat) : (l.beat text pace k).settle = l.beat text pace k :=
  settle_type _ text

theorem before_device (text : String) (pace : Rat) (l : Line) (k : Nat) :
    (l.before text pace k).terminal.device = l.terminal.device := by
  induction k with
  | zero => rfl
  | succ k ih =>
    rw [before_succ, (quiet_passTo _ _).device]
    exact (Terminal.type_device _ _ text).trans ih

theorem before_typed (text : String) (pace : Rat) (l : Line) (k : Nat) :
    (l.before text pace k).terminal.typed = l.terminal.typed ++ beats text pace l.now k := by
  induction k with
  | zero => simp [before, beats]
  | succ k ih =>
    have htyped := ((l.before text pace k).terminal.type_typed (l.before text pace k).now text).2.2
    rw [before_succ, (quiet_passTo _ _).typed]
    refine htyped.trans ?_
    rw [ih, before_now, List.append_assoc, beats, beats, List.range_succ, List.map_append]
    rfl

theorem beat_typed (text : String) (pace : Rat) (l : Line) (k : Nat) :
    (l.beat text pace k).terminal.typed = l.terminal.typed ++ beats text pace l.now (k + 1) := by
  rw [← before_typed, before_succ, (quiet_passTo _ _).typed]

theorem before_inOrder (h : InOrder l.terminal.agenda) (text : String) (pace : Rat) (k : Nat) :
    InOrder (l.before text pace k).terminal.agenda := by
  induction k with
  | zero => exact h
  | succ k ih => exact passTo_inOrder (Terminal.type_inOrder ih _ text) _

theorem beat_inOrder (h : InOrder l.terminal.agenda) (text : String) (pace : Rat) (k : Nat) :
    InOrder (l.beat text pace k).terminal.agenda :=
  Terminal.type_inOrder (before_inOrder h text pace k) _ text

/-- From one typing up to the next the former is the last. -/
theorem lastBeat_eq (hpace : 0 < pace) (hle : l.now + k * pace ≤ t) (hlt : t < l.now + (k + 1 : Nat) * pace) :
    l.lastBeat pace t = k := by
  have hsince : (k : Rat) * pace ≤ t - l.now := by linarith
  have hnext : t - l.now < (k + 1 : Nat) * pace := by linarith
  push_cast at hnext
  unfold lastBeat
  rw [Nat.floor_eq_iff (div_nonneg (by nlinarith [(Nat.cast_nonneg k : (0 : Rat) ≤ k)]) hpace.le)]
  exact ⟨(le_div_iff₀ hpace).mpr hsince, (div_lt_iff₀ hpace).mpr hnext⟩

theorem lastBeat_mul_le (hpace : 0 < pace) (h : l.now ≤ t) : l.now + l.lastBeat pace t * pace ≤ t := by
  have hfloor := Nat.floor_le (div_nonneg (sub_nonneg.mpr h) hpace.le)
  have hle := (le_div_iff₀ hpace).mp hfloor
  unfold lastBeat
  linarith

theorem le_lastBeat (hpace : 0 < pace) (h : l.now + k * pace ≤ t) : k ≤ l.lastBeat pace t := by
  have hsince : (k : Rat) * pace ≤ t - l.now := by linarith
  exact Nat.le_floor ((le_div_iff₀ hpace).mpr hsince)

theorem lastBeat_mono (hpace : 0 < pace) {t' : Time} (h : t ≤ t') : l.lastBeat pace t ≤ l.lastBeat pace t' :=
  Nat.floor_le_floor (div_le_div_of_nonneg_right (sub_le_sub_right h l.now) hpace.le)

/-! ### Settling by parts -/

/-- The first settling time before a deadline is the first at all, if there is none before it was waited. -/
theorem isLeast_settling {since deadline : Time} (hle : deadline ≤ limit)
    (hquiet : ∀ t ∈ l.settling text pace marker start limit, since ≤ t)
    (h : IsLeast (l.settling text pace marker start deadline ∩ Set.Ici since) t) :
    IsLeast (l.settling text pace marker start limit) t := by
  obtain ⟨⟨⟨hnow, huntil, hsettles⟩, -⟩, hfirst⟩ := h
  refine ⟨⟨hnow, huntil.trans_le hle, hsettles⟩, fun t' ht' => ?_⟩
  by_cases hearly : t' < deadline
  · exact hfirst ⟨⟨ht'.1, hearly, ht'.2.2⟩, hquiet t' ht'⟩
  · exact huntil.le.trans (not_lt.mp hearly)

theorem le_of_settling_empty {since deadline : Time} (hquiet : ∀ t ∈ l.settling text pace marker start limit, since ≤ t)
    (h : l.settling text pace marker start deadline ∩ Set.Ici since = ∅) :
    ∀ t ∈ l.settling text pace marker start limit, deadline ≤ t := by
  intro t ht
  by_contra hearly
  exact Set.eq_empty_iff_forall_notMem.mp h t ⟨⟨ht.1, not_le.mp hearly, ht.2.2⟩, hquiet t ht⟩

/-! ### Waiting from one typing to the next -/

/-- How the wait after a typing goes: the marker is found, or the output ends, at the first time at which either is so; or
    there is no such time until the deadline, and the line has just gone on. -/
inductive Awaits (text : String) (pace : Rat) (marker : Bytes) (start : Int) (l : Line) (k : Nat) (deadline : Time)
    (wait : Wait) : Prop
  | found (t : Time) (hleast : IsLeast (l.settling text pace marker start deadline ∩ Set.Ici (l.now + k * pace)) t)
      (hlast : l.lastBeat pace t = k) (hshows : l.Shows text pace marker start t) (hfound : wait.found = true)
      (hnow : wait.line.now = t)
  | ended (t : Time) (hleast : IsLeast (l.settling text pace marker start deadline ∩ Set.Ici (l.now + k * pace)) t)
      (hlast : l.lastBeat pace t = k) (hshows : ¬l.Shows text pace marker start t) (hfound : wait.found = false)
      (hended : wait.line.watcher.ended = true) (hnow : wait.line.now = t)
  | passed (hnone : l.settling text pace marker start deadline ∩ Set.Ici (l.now + k * pace) = ∅) (hfound : wait.found = false)
      (hopen : wait.line.watcher.ended = false) (hline : wait.line = (l.beat text pace k).passTo deadline)

/-- Within its interval it is the last typing that counts. -/
theorem mem_settling (text : String) (marker : Bytes) (start : Int) {seconds : Rat} (hpace : 0 < pace) (hle : seconds ≤ pace)
    (hsince : l.now + k * pace ≤ t) (huntil : t < l.now + k * pace + seconds) : l.lastBeat pace t = k ∧
      (l.Shows text pace marker start t ↔ (l.beat text pace k).foundBy marker start t = true ∨
        t = l.now + k * pace ∧ ((l.beat text pace k).watcher.window.find? marker start).isSome = true) ∧
      (t ∈ l.settling text pace marker start (l.now + k * pace + seconds) ↔
        l.Shows text pace marker start t ∨ ((l.beat text pace k).watcherBy t).ended = true) := by
  have hlast : l.lastBeat pace t = k := by
    refine lastBeat_eq hpace hsince (huntil.trans_le ?_)
    push_cast
    linarith
  have hnow : l.now ≤ t := by
    have hk : 0 ≤ (k : Rat) * pace := mul_nonneg (Nat.cast_nonneg k) hpace.le
    linarith
  have hheard : l.heardBy text pace t = (l.beat text pace k).watcherBy t := by rw [heardBy, hlast]
  refine ⟨hlast, ?_, ?_⟩
  · rw [Shows, hheard, hlast]
    rfl
  · rw [← hheard]
    exact ⟨fun h => h.2.2, fun h => ⟨hnow, huntil, h⟩⟩

theorem waitFor_awaits (marker : Bytes) (start : Int) {seconds : Rat} (hpace : 0 < pace) (horder : InOrder l.terminal.agenda)
    (hopen : (l.before text pace k).watcher.ended = false) (hpos : 0 < seconds) (hle : seconds ≤ pace) :
    Awaits text pace marker start l k (l.now + k * pace + seconds)
      ((l.beat text pace k).waitFor marker start (.finite seconds)) := by
  have hmem {t : Time} (hsince : l.now + k * pace ≤ t) (huntil : t < l.now + k * pace + seconds) :=
    mem_settling text marker start hpace hle hsince huntil
  have hnow : (l.beat text pace k).now = l.now + k * pace := beat_now text pace l k
  have horder' : InOrder (l.beat text pace k).terminal.agenda := beat_inOrder horder text pace k
  have hread : (l.beat text pace k).settle = l.beat text pace k := settle_beat text pace l k
  have hdetached (h : (l.beat text pace k).watcher.ended = true) : (l.beat text pace k).watcher.attached = false :=
    Watcher.detached_of_ended hopen h
  generalize hb : l.beat text pace k = b at hmem hnow horder' hread hdetached ⊢
  obtain ⟨hlast, hshows, hsettles⟩ := hmem le_rfl (by linarith)
  have hfirst {t : Time} : t ∈ l.settling text pace marker start (l.now + k * pace + seconds) ∩ Set.Ici (l.now + k * pace) →
      l.now + k * pace ≤ t := fun h => h.2
  cases hv : b.watcher.verdict? marker start with
  | some found =>
    rw [waitFor_of_verdict hv]
    cases found with
    | true =>
      have hhere := hshows.mpr (Or.inr ⟨rfl, verdict?_eq_true hv⟩)
      exact .found _ ⟨⟨hsettles.mpr (Or.inl hhere), Set.mem_Ici.mpr le_rfl⟩, fun t ht => hfirst ht⟩ hlast hhere rfl hnow
    | false =>
      -- The watcher has detached itself, so nothing that is queued is read any more.
      have hended : b.watcher.ended = true := verdict?_eq_false hv
      have hstays : b.watcherBy (l.now + k * pace) = b.watcher := by
        rw [watcherBy, Watcher.drain_of_detached (hdetached hended)]
      have hnone : b.watcher.window.find? marker start = none := verdict?_ne_true (by simp [hv])
      have hnot : ¬l.Shows text pace marker start (l.now + k * pace) := by
        rw [hshows, foundBy, hstays, hnone]
        simp
      exact .ended _ ⟨⟨hsettles.mpr (Or.inr (hstays ▸ hended)), Set.mem_Ici.mpr le_rfl⟩, fun t ht => hfirst ht⟩ hlast hnot rfl hended hnow
  | none =>
    -- Undecided at the typing itself, so the times that settle it are those at which the wait decides.
    have hnone : (b.watcher.window.find? marker start).isSome = false := (verdict?_eq_none.mp hv).1
    have hshows {t : Time} (hsince : l.now + k * pace ≤ t) (huntil : t < l.now + k * pace + seconds) :
        l.Shows text pace marker start t ↔ b.foundBy marker start t = true := by
      rw [(hmem hsince huntil).2.1, hnone]
      simp
    have hsame : l.settling text pace marker start (l.now + k * pace + seconds) ∩ Set.Ici (l.now + k * pace) =
        b.decisive marker start (b.now + seconds) := by
      ext t
      rw [decisive, hnow]
      constructor
      · rintro ⟨ht, hsince⟩
        exact ⟨hsince, ht.2.1, ((hmem hsince ht.2.1).2.2.mp ht).imp_left (hshows hsince ht.2.1).mp⟩
      · rintro ⟨hsince, huntil, h⟩
        exact ⟨(hmem hsince huntil).2.2.mpr (h.imp_left (hshows hsince huntil).mpr), hsince⟩
    rcases waitFor_endsWell horder' hv hpos with ⟨t, hleast, hfound, htime⟩ | ⟨hempty, hfound, htime⟩
    · obtain ⟨hsince, huntil, -⟩ := hleast.1
      rw [hnow] at hsince huntil
      cases hby : b.foundBy marker start t with
      | true =>
        exact .found t (hsame ▸ hleast) (hmem hsince huntil).1 ((hshows hsince huntil).mpr hby) (hfound.trans hby) htime
      | false =>
        have hnot : ¬l.Shows text pace marker start t := by
          rw [hshows hsince huntil, hby]
          exact Bool.false_ne_true
        refine .ended t (hsame ▸ hleast) (hmem hsince huntil).1 hnot (hfound.trans hby) ?_ htime
        by_contra hgoes
        have hlate := waitFor_late (hfound.trans hby) (Bool.not_eq_true _ ▸ hgoes)
        change b.now + seconds ≤ _ at hlate
        rw [hnow] at hlate
        exact absurd (hlate.trans_eq htime) (not_le.mpr huntil)
    · have hgoes : (b.waitFor marker start (.finite seconds)).line.watcher.ended = false := by
        by_contra hended
        exact absurd htime (waitFor_ended hpos hv hfound (Bool.not_eq_false _ ▸ hended)).ne
      refine .passed (hsame.trans hempty) hfound hgoes ?_
      rw [waitFor_passes hread hpos hfound hgoes, hb, hnow]

/-! ### Silence -/

/-- Nothing is to be read on the line, and the device does nothing by itself or when a text is typed. -/
structure Silent (l : Line) : Prop where
  queue : l.terminal.queue = []
  agenda : l.terminal.agenda = []
  takes : ∀ n, l.terminal.device.writeFault n = none
  react : ∀ before text, l.terminal.device.react before text = {}

namespace Silent

theorem type (h : l.Silent) (text : String) : (l.type text).2.Silent ∧ (l.type text).2.watcher = l.watcher := by
  have htype : (l.terminal.type l.now text).2 = { l.terminal with typed := l.terminal.typed ++ [(l.now, text)] } := by
    unfold Terminal.type
    simp only [h.takes, h.react]
    rfl
  have hline : (l.type text).2 = settle ({ l with
      terminal := { l.terminal with typed := l.terminal.typed ++ [(l.now, text)] } }.note (.typed text)) := by
    rw [← htype]
    rfl
  have hdrain : l.watcher.drain l.terminal.queue = (l.watcher, [], []) := by
    rw [h.queue]
    rfl
  rw [hline]
  unfold settle
  simp only [note, hdrain]
  exact ⟨⟨rfl, h.agenda, h.takes, h.react⟩, trivial⟩

theorem passTo (h : l.Silent) (t : Time) : (l.passTo t).Silent ∧ (l.passTo t).watcher = l.watcher := by
  unfold Line.passTo
  rw [h.agenda]
  exact ⟨⟨h.queue, rfl, h.takes, h.react⟩, rfl⟩

theorem before (h : l.Silent) (text : String) (pace : Rat) (k : Nat) :
    (l.before text pace k).Silent ∧ (l.before text pace k).watcher = l.watcher := by
  induction k with
  | zero => exact ⟨h, rfl⟩
  | succ k ih =>
    obtain ⟨hsilent, hwatcher⟩ := ih
    obtain ⟨hsilent', hwatcher'⟩ := hsilent.type text
    obtain ⟨hsilent'', hwatcher''⟩ := hsilent'.passTo (l.now + (k + 1 : Nat) * pace)
    exact ⟨hsilent'', hwatcher''.trans (hwatcher'.trans hwatcher)⟩

/-- Nothing settles what is waited for on a silent line, unless it is settled already. -/
theorem settling_eq (h : l.Silent) (text : String) (pace : Rat) (hv : l.watcher.verdict? marker start = none) (limit : Time) :
    l.settling text pace marker start limit = ∅ := by
  obtain ⟨hfind, hended⟩ := verdict?_eq_none.mp hv
  refine Set.eq_empty_iff_forall_notMem.mpr fun t ht => ?_
  obtain ⟨hsilent, hwatcher⟩ := h.before text pace (l.lastBeat pace t)
  obtain ⟨hsilent', hwatcher'⟩ := hsilent.type text
  have hbeat : (l.beat text pace (l.lastBeat pace t)).watcher = l.watcher := hwatcher'.trans hwatcher
  have hheard : l.heardBy text pace t = l.watcher := by
    rw [heardBy, watcherBy, show (l.beat text pace (l.lastBeat pace t)).terminal.queue = [] from hsilent'.queue,
      show (l.beat text pace (l.lastBeat pace t)).terminal.agenda = [] from hsilent'.agenda, hbeat]
    rfl
  rcases ht.2.2 with (hshows | ⟨-, hshows⟩) | hends
  · rw [hheard, hfind] at hshows
    cases hshows
  · rw [hbeat, hfind] at hshows
    cases hshows
  · rw [hheard, hended] at hends
    cases hends

end Silent

end Teletype.Output.Line
