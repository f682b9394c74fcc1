import Teletype.Proofs.Output.Cadence
import Teletype.Proofs.Recording.Budget

/-! # Probing in time

A step that is probed types its command once and then its probe at regular intervals, whatever else there is on the line. It
ends at the first time at which its marker is in the window or the output has ended, or at its timeout. -/

namespace Teletype.Recording

open Output (Line)

/-- What a step types before its probes, with the time. -/
def Step.typedAt (step : Step) (now : Time) : List (Time × String) := if step.text.isEmpty then [] else [(now, step.line)]

/-- The line once the command of a step is typed, if it has one. -/
def commanded (l : Line) (step : Step) : Line := if step.text.isEmpty then l else (l.type step.line).2

section
variable (l : Line) (step : Step)

theorem commanded_now : (commanded l step).now = l.now := by
  unfold commanded
  split <;> rfl

theorem commanded_device : (commanded l step).terminal.device = l.terminal.device := by
  unfold commanded
  split
  · rfl
  · exact Terminal.type_device _ _ _

theorem commanded_typed : (commanded l step).terminal.typed = l.terminal.typed ++ step.typedAt l.now := by
  unfold commanded Step.typedAt
  split
  · exact (List.append_nil _).symm
  · exact (l.terminal.type_typed l.now step.line).2.2

theorem commanded_inOrder {l : Line} (h : Teletype.InOrder l.terminal.agenda) :
    Teletype.InOrder (commanded l step).terminal.agenda := by
  unfold commanded
  split
  · exact h
  · exact Terminal.type_inOrder h _ _

end

namespace Booth
variable {plan : Plan} {b r : Booth} {index start k n : Nat} {step : Step} {rest : List Step} {limit t : Time} {l : Line}
  {pace timeout : Rat} {P : Booth → Prop}

/-! ### Runs of a length -/

/-- After so many actions this holds, whatever is around the booth. -/
def EndsIn (plan : Plan) (n : Nat) (P : Booth → Prop) (b : Booth) : Prop :=
  ∀ around : List Surroundings, around.length = n → P (b.run plan around)

theorem endsIn_zero (h : P b) : b.EndsIn plan 0 P := by
  intro around hlength
  rw [List.length_eq_zero_iff.mp hlength]
  exact h

theorem endsIn_succ (h : ∀ s : Surroundings, (b.actIn plan s).EndsIn plan n P) : b.EndsIn plan (n + 1) P := by
  intro around hlength
  cases around with
  | nil => cases hlength
  | cons s around => exact h s around (Nat.succ_injective hlength)

theorem EndsIn.trans {m : Nat} {Q : Booth → Prop} (h : b.EndsIn plan n P) (hnext : ∀ r, P r → r.EndsIn plan m Q) :
    b.EndsIn plan (n + m) Q := by
  intro around hlength
  have hfirst := h (around.take n) (by simp [hlength])
  have hrest := hnext _ hfirst (around.drop n) (by simp [hlength])
  rwa [← run_append, List.take_append_drop] at hrest

/-! ### Single actions -/

theorem takeStep_probed (hr : step.readiness = .probe) (hopen : b.session.isOpen = true)
    (htakes : ∀ n, b.line.terminal.device.writeFault n = none) (rest : List Step) :
    b.takeStep index step rest = goTo { b with line := commanded b.line step }
      (.probing index step b.line.watcher.position (.after b.now (.ofNumber step.timeout)) rest) := by
  unfold takeStep
  simp only [hr]
  unfold typeCommand commanded
  split
  · rfl
  · rw [type_of_isOpen hopen, Line.type_takes htakes]
    rfl

theorem actIn_over (hphase : b.phase = .probing index step start (.at limit) rest)
    (hover : b.line.watcher.ended = true ∨ limit ≤ b.now) (s : Surroundings) : b.actIn plan s = b.fail (unready step) := by
  rw [actIn_takeProbe plan hphase]
  unfold takeProbe
  rw [if_pos (by simpa [Deadline.isOver] using hover)]

theorem actIn_ahead (hphase : b.phase = .probing index step start (.at limit) rest) (hopen : b.session.isOpen = true)
    (htakes : ∀ n, b.line.terminal.device.writeFault n = none) (hended : b.line.watcher.ended = false) (hahead : b.now < limit)
    (s : Surroundings) : b.actIn plan s = if (probeWait plan b index start limit).found
      then (b.heard (probeWait plan b index start limit)).goTo (.between (index + 1) rest)
      else b.heard (probeWait plan b index start limit) := by
  rw [actIn_takeProbe plan hphase]
  unfold takeProbe
  rw [if_neg (by simp [Deadline.isOver, hended, hahead])]
  dsimp only
  rw [type_of_isOpen hopen, Line.type_takes htakes]
  rfl

/-- Probes come a pace apart as long as a timeout lasts: the interval is the pace, or it is endless and there is no second
    probe. -/
def Keeps (plan : Plan) (pace timeout : Rat) : Prop :=
  Span.ofNumber plan.settings.recorder.probeInterval = .finite pace ∨
    Span.ofNumber plan.settings.recorder.probeInterval = .endless ∧ timeout ≤ pace

theorem Keeps.patience (h : Keeps plan pace timeout) {now : Time} (hleft : limit - now ≤ timeout) :
    patience plan now limit = .finite (min pace (limit - now)) := by
  unfold Booth.patience
  rcases h with hfinite | ⟨hendless, hlong⟩
  · rw [hfinite]
    simp only [Span.orShorter, Deadline.left, Span.isShorter, decide_eq_true_eq]
    split
    · next hshort => rw [min_eq_right hshort.le]
    · next hlong => rw [min_eq_left (not_lt.mp hlong)]
  · rw [hendless, min_eq_right (hleft.trans hlong)]
    rfl

/-! ### Probe by probe -/

/-- So many probes of a step have been made in vain, and it is time for the next. -/
structure Stands (pace : Rat) (index : Nat) (step : Step) (start : Nat) (limit : Time) (rest : List Step) (l : Line) (k : Nat)
    (b : Booth) : Prop where
  phase : b.phase = .probing index step start (.at limit) rest
  line : b.line = l.before (probeLine index) pace k
  isOpen : b.session.isOpen = true
  goes : b.line.watcher.ended = false
  quiet : ∀ t ∈ l.settling (probeLine index) pace (marker index) start limit, l.now + k * pace ≤ t

/-- What becomes of a step by one more probe: it is answered, the output ends, the time of the step comes to its end, or it
    is time for the next probe. -/
inductive Proceeds (pace : Rat) (index : Nat) (step : Step) (start : Nat) (limit : Time) (rest : List Step) (l : Line) (k : Nat)
    (r : Booth) : Prop
  | answered (t : Time) (hleast : IsLeast (l.settling (probeLine index) pace (marker index) start limit) t)
      (hlast : l.lastBeat pace t = k) (hshows : l.Shows (probeLine index) pace (marker index) start t)
      (hphase : r.phase = .between (index + 1) rest) (hnow : r.now = t)
  | ended (t : Time) (hleast : IsLeast (l.settling (probeLine index) pace (marker index) start limit) t)
      (hlast : l.lastBeat pace t = k) (hshows : ¬l.Shows (probeLine index) pace (marker index) start t)
      (hphase : r.phase = .probing index step start (.at limit) rest) (hended : r.line.watcher.ended = true) (hnow : r.now = t)
  | expired (hnone : l.settling (probeLine index) pace (marker index) start limit = ∅)
      (hlast : limit ≤ l.now + (k + 1 : Nat) * pace) (hphase : r.phase = .probing index step start (.at limit) rest)
      (hnow : r.now = limit)
  | goesOn (hnext : l.now + (k + 1 : Nat) * pace < limit) (hstands : Stands pace index step start limit rest l (k + 1) r)

/-- The device takes all that is typed, what is to come is in the order of time, and probes come a pace apart until a limit. -/
structure Paced (plan : Plan) (pace timeout : Rat) (limit : Time) (l : Line) : Prop where
  keeps : Keeps plan pace timeout
  pos : 0 < pace
  takes : ∀ n, l.terminal.device.writeFault n = none
  inOrder : Teletype.InOrder l.terminal.agenda
  limit : limit = l.now + timeout

theorem Stands.probe (hpaced : Paced plan pace timeout limit l) (h : Stands pace index step start limit rest l k b)
    (hahead : l.now + k * pace < limit) (s : Surroundings) : Proceeds pace index step start limit rest l k (b.actIn plan s) ∧
      (b.actIn plan s).line.terminal.typed = l.terminal.typed ++ Line.beats (probeLine index) pace l.now (k + 1) := by
  obtain ⟨hphase, hline, hopen, hgoes, hquiet⟩ := h
  obtain ⟨hkeeps, hpace, htakes, horder, hlimit⟩ := hpaced
  have hnow : b.now = l.now + k * pace := (congrArg Line.now hline).trans (Line.before_now _ pace l k)
  have hdevice : b.line.terminal.device = l.terminal.device := by rw [hline, Line.before_device]
  have hleft : limit - b.now ≤ timeout := by
    have hk : 0 ≤ (k : Rat) * pace := mul_nonneg (Nat.cast_nonneg k) hpace.le
    linarith
  have hwait : probeWait plan b index start limit =
      (l.beat (probeLine index) pace k).waitFor (marker index) start (.finite (min pace (limit - b.now))) := by
    unfold probeWait
    rw [hkeeps.patience hleft, hline]
    rfl
  have hseconds : 0 < min pace (limit - b.now) := lt_min hpace (by linarith)
  have hawaits := Line.waitFor_awaits (marker index) start hpace horder (hline ▸ hgoes) hseconds (min_le_left _ _)
  have htyped := (Line.quiet_waitFor (l.beat (probeLine index) pace k) (marker index) start
    (.finite (min pace (limit - b.now)))).typed
  rw [Line.beat_typed] at htyped
  rw [actIn_ahead hphase hopen (hdevice ▸ htakes) hgoes (hnow ▸ hahead), hwait]
  generalize (l.beat (probeLine index) pace k).waitFor (marker index) start (.finite (min pace (limit - b.now))) = wait at *
  refine ⟨?_, by split <;> exact htyped⟩
  have hdeadline : l.now + k * pace + min pace (limit - b.now) = min (l.now + (k + 1 : Nat) * pace) limit := by
    rw [← min_add_add_left]
    congr 1
    · push_cast
      ring
    · rw [hnow]
      ring
  rw [hdeadline] at hawaits
  cases hawaits with
  | found t hleast hlast hshows hfound htime =>
    rw [if_pos hfound]
    exact .answered t (Line.isLeast_settling (min_le_right _ _) hquiet hleast) hlast hshows rfl htime
  | ended t hleast hlast hshows hfound hended htime =>
    rw [hfound, if_neg Bool.false_ne_true]
    exact .ended t (Line.isLeast_settling (min_le_right _ _) hquiet hleast) hlast hshows hphase hended htime
  | passed hnone hfound hopens hpasses =>
    rw [hfound, if_neg Bool.false_ne_true]
    have hquiet' := Line.le_of_settling_empty hquiet hnone
    by_cases hnext : l.now + (k + 1 : Nat) * pace < limit
    · rw [min_eq_left hnext.le] at hpasses hquiet'
      exact .goesOn hnext ⟨hphase, hpasses, hopen, hopens, hquiet'⟩
    · rw [min_eq_right (not_lt.mp hnext)] at hpasses hquiet'
      refine .expired (Set.eq_empty_iff_forall_notMem.mpr fun t ht => ?_) (not_lt.mp hnext) hphase (congrArg Line.now hpasses)
      exact absurd (hquiet' t ht) (not_le.mpr ht.2.1)

/-! ### Until the step ends -/

theorem Stands.goesOn (hpaced : Paced plan pace timeout limit l) (h : Stands pace index step start limit rest l 0 b)
    (hahead : l.now + n * pace < limit)
    (hquiet : ∀ t ∈ l.settling (probeLine index) pace (marker index) start limit, n ≤ l.lastBeat pace t) :
    b.EndsIn plan n (Stands pace index step start limit rest l n) := by
  -- Of the four ways for a probe to go only the last is left while nothing settles the step.
  induction n with
  | zero => exact endsIn_zero h
  | succ n ih =>
    have hahead' : l.now + n * pace < limit := by
      have hpos := hpaced.pos
      push_cast at hahead
      linarith
    refine (ih hahead' fun t ht => Nat.le_of_succ_le (hquiet t ht)).trans fun r hstands => endsIn_succ fun s => endsIn_zero ?_
    cases (hstands.probe hpaced hahead' s).1 with
    | answered t hleast hlast | ended t hleast hlast =>
      have hlater := hquiet t hleast.1
      omega
    | expired hnone hover => exact absurd hahead (not_lt.mpr hover)
    | goesOn hnext hstands' => exact hstands'

theorem Stands.settles (hpaced : Paced plan pace timeout limit l) (h : Stands pace index step start limit rest l 0 b)
    (hahead : l.now + n * pace < limit) :
    (∃ t, IsLeast (l.settling (probeLine index) pace (marker index) start limit) t) ∨
      ∃ r, Stands pace index step start limit rest l n r := by
  induction n with
  | zero => exact Or.inr ⟨b, h⟩
  | succ n ih =>
    have hahead' : l.now + n * pace < limit := by
      have hpos := hpaced.pos
      push_cast at hahead
      linarith
    rcases ih hahead' with hleast | ⟨r, hstands⟩
    · exact Or.inl hleast
    · cases (hstands.probe hpaced hahead' {}).1 with
      | answered t hleast | ended t hleast => exact Or.inl ⟨t, hleast⟩
      | expired hnone hover => exact absurd hahead (not_lt.mpr hover)
      | goesOn hnext hstands' => exact Or.inr ⟨_, hstands'⟩

/-- So many probes have been typed, the last thing has happened at this time, and it goes on with this. -/
structure Leads (index : Nat) (pace : Rat) (l : Line) (n : Nat) (t : Time) (phase : Phase) (r : Booth) : Prop where
  phase : r.phase = phase
  now : r.now = t
  typed : r.line.terminal.typed = l.terminal.typed ++ Line.beats (probeLine index) pace l.now n

/-- A step is probed up to the time that settles it, and is answered then or fails. -/
theorem Stands.leads (hpaced : Paced plan pace timeout limit l) (h : Stands pace index step start limit rest l 0 b)
    (hleast : IsLeast (l.settling (probeLine index) pace (marker index) start limit) t) :
    (l.Shows (probeLine index) pace (marker index) start t → b.EndsIn plan (l.lastBeat pace t + 1)
      (Leads index pace l (l.lastBeat pace t + 1) t (.between (index + 1) rest))) ∧
    (¬l.Shows (probeLine index) pace (marker index) start t → b.EndsIn plan (l.lastBeat pace t + 2)
      (Leads index pace l (l.lastBeat pace t + 1) t (.failing (unready step)))) := by
  obtain ⟨hnow, huntil, -⟩ := hleast.1
  have hahead : l.now + l.lastBeat pace t * pace < limit := (Line.lastBeat_mul_le hpaced.pos hnow).trans_lt huntil
  -- Nothing settles the step before its last probe, so all probes up to that one are in vain.
  have hgoes := h.goesOn hpaced hahead fun t' ht' => Line.lastBeat_mono hpaced.pos (hleast.2 ht')
  have hnext {r : Booth} : ¬Stands pace index step start limit rest l (l.lastBeat pace t + 1) r := fun hstands => by
    have hlater := Line.le_lastBeat hpaced.pos (hstands.quiet t hleast.1)
    omega
  constructor
  · refine fun hshows => hgoes.trans fun r hstands => endsIn_succ fun s => endsIn_zero ?_
    obtain ⟨hproceeds, htyped⟩ := hstands.probe hpaced hahead s
    cases hproceeds with
    | answered t' hleast' hlast' hshows' hphase hnow' => exact ⟨hphase, hnow'.trans (hleast'.unique hleast), htyped⟩
    | ended t' hleast' hlast' hshows' => exact absurd (hleast.unique hleast' ▸ hshows) hshows'
    | expired hnone => exact absurd hleast.1 (hnone ▸ Set.notMem_empty t)
    | goesOn _ hstands' => exact absurd hstands' hnext
  · refine fun hshows => hgoes.trans fun r hstands => endsIn_succ fun s => endsIn_succ fun s' => endsIn_zero ?_
    obtain ⟨hproceeds, htyped⟩ := hstands.probe hpaced hahead s
    cases hproceeds with
    | answered t' hleast' hlast' hshows' => exact absurd (hleast.unique hleast' ▸ hshows') hshows
    | ended t' hleast' hlast' hshows' hphase hended hnow' =>
      rw [actIn_over hphase (Or.inl hended)]
      exact ⟨rfl, hnow'.trans (hleast'.unique hleast), htyped⟩
    | expired hnone => exact absurd hleast.1 (hnone ▸ Set.notMem_empty t)
    | goesOn _ hstands' => exact absurd hstands' hnext

/-- A step that nothing settles is probed up to its timeout and fails then. -/
theorem Stands.expires (hpaced : Paced plan pace timeout limit l) (h : Stands pace index step start limit rest l 0 b)
    (hahead : l.now + n * pace < limit) (hover : limit ≤ l.now + (n + 1 : Nat) * pace)
    (hnone : l.settling (probeLine index) pace (marker index) start limit = ∅) :
    b.EndsIn plan (n + 2) (Leads index pace l (n + 1) limit (.failing (unready step))) := by
  have hgoes := h.goesOn hpaced hahead fun t ht => absurd ht (hnone ▸ Set.notMem_empty t)
  refine hgoes.trans fun r hstands => endsIn_succ fun s => endsIn_succ fun s' => endsIn_zero ?_
  obtain ⟨hproceeds, htyped⟩ := hstands.probe hpaced hahead s
  cases hproceeds with
  | answered t hleast | ended t hleast => exact absurd hleast.1 (hnone ▸ Set.notMem_empty t)
  | expired _ _ hphase hnow =>
    rw [actIn_over hphase (Or.inr hnow.ge)]
    exact ⟨rfl, hnow, htyped⟩
  | goesOn hnext => exact absurd hnext (not_lt.mpr hover)

theorem Stands.first_or_none (hpaced : Paced plan pace timeout limit l) (h : Stands pace index step start limit rest l 0 b)
    (hahead : l.now + n * pace < limit) (hover : limit ≤ l.now + (n + 1 : Nat) * pace) :
    l.settling (probeLine index) pace (marker index) start limit = ∅ ∨
      ∃ t, IsLeast (l.settling (probeLine index) pace (marker index) start limit) t := by
  rcases h.settles hpaced hahead with hleast | ⟨r, hstands⟩
  · exact Or.inr hleast
  · cases (hstands.probe hpaced hahead {}).1 with
    | answered t hleast | ended t hleast => exact Or.inr ⟨t, hleast⟩
    | expired hnone => exact Or.inl hnone
    | goesOn hnext => exact absurd hnext (not_lt.mpr hover)

/-- A step that is probed types its command once, if it has one, and then its probe a pace apart, and what comes over the
    line neither delays a probe nor brings one about. If the output has ended already, or there is no time, the step fails at
    once without a probe. Otherwise it ends at the first time before its timeout at which its marker is in the window, at or
    after the place noted at the start, or the output has ended: it is answered in the former case and fails in the latter. If
    there is no such time it fails at its timeout, after as many probes as there are paces in the timeout. -/
theorem probed_step_keeps_pace (hphase : b.phase = .between index (step :: rest)) (hprobe : step.readiness = .probe)
    (htimeout : Span.ofNumber step.timeout = .finite timeout) (hkeeps : Keeps plan pace timeout) (hpace : 0 < pace)
    (hopen : b.session.isOpen = true) (htakes : ∀ n, b.line.terminal.device.writeFault n = none)
    (horder : Teletype.InOrder b.line.terminal.agenda) :
    let l := commanded b.line step
    let start := b.line.watcher.position
    let settling := l.settling (probeLine index) pace (marker index) start (b.now + timeout)
    let leads (n : Nat) (t : Time) (phase : Phase) (r : Booth) : Prop := r.phase = phase ∧ r.now = t ∧
      r.line.terminal.typed = b.line.terminal.typed ++ step.typedAt b.now ++
        (List.range n).map fun (k : Nat) => (b.now + k * pace, probeLine index)
    (l.watcher.ended = true ∨ timeout ≤ 0 → b.EndsIn plan 2 (leads 0 b.now (.failing (unready step)))) ∧
    (l.watcher.ended = false → 0 < timeout →
      (∀ t, IsLeast settling t → let n := ⌊(t - b.now) / pace⌋₊ + 1
        (l.Shows (probeLine index) pace (marker index) start t → b.EndsIn plan (n + 1) (leads n t (.between (index + 1) rest))) ∧
        (¬l.Shows (probeLine index) pace (marker index) start t → b.EndsIn plan (n + 2) (leads n t (.failing (unready step))))) ∧
      (settling = ∅ → let n := ⌈timeout / pace⌉₊
        b.EndsIn plan (n + 2) (leads n (b.now + timeout) (.failing (unready step)))) ∧
      (settling = ∅ ∨ ∃ t, IsLeast settling t)) := by
  intro l start settling leads
  have hnow : l.now = b.now := commanded_now b.line step
  have htyped : l.terminal.typed = b.line.terminal.typed ++ step.typedAt b.now := commanded_typed b.line step
  have hpaced : Paced plan pace timeout (b.now + timeout) l :=
    ⟨hkeeps, hpace, (commanded_device b.line step).symm ▸ htakes, commanded_inOrder step horder, by rw [hnow]⟩
  obtain ⟨first, hbegins, hfirst, hline, hsession⟩ : ∃ first : Booth, (∀ s, b.actIn plan s = first) ∧
      first.phase = .probing index step start (.at (b.now + timeout)) rest ∧ first.line = l ∧ first.session = b.session := by
    refine ⟨_, fun s => actIn_takeStep plan hphase s, ?_⟩
    rw [takeStep_probed hprobe hopen htakes, htimeout]
    exact ⟨rfl, rfl, rfl⟩
  have hleads {m n : Nat} {t : Time} {phase : Phase} (h : first.EndsIn plan m (Leads index pace l n t phase)) :
      b.EndsIn plan (m + 1) (leads n t phase) := by
    refine endsIn_succ fun s around hlength => ?_
    rw [hbegins]
    obtain ⟨hphase', hnow', htyped'⟩ := h around hlength
    refine ⟨hphase', hnow', htyped'.trans ?_⟩
    rw [htyped, Line.beats, hnow]
  refine ⟨fun hover => hleads (endsIn_succ fun s => endsIn_zero ?_), fun hgoes hpos => ?_⟩
  · have hsame : first.now = l.now := congrArg Line.now hline
    rw [actIn_over hfirst (hover.imp (hline ▸ ·) fun h => by linarith)]
    exact ⟨rfl, hsame.trans hnow, by simp [Line.beats, fail, goTo, hline]⟩
  · have hstands : Stands pace index step start (b.now + timeout) rest l 0 first := by
      refine ⟨hfirst, hline, hsession ▸ hopen, hline ▸ hgoes, fun t ht => ?_⟩
      rw [Nat.cast_zero, zero_mul, add_zero]
      exact ht.1
    obtain ⟨n, hn⟩ : ∃ n, ⌈timeout / pace⌉₊ = n + 1 := Nat.exists_eq_succ_of_ne_zero (Nat.ceil_pos.mpr (div_pos hpos hpace)).ne'
    have hahead : l.now + n * pace < b.now + timeout := by
      have hlt : (n : Rat) < timeout / pace := Nat.lt_ceil.mp (by omega)
      have hlt' := (lt_div_iff₀ hpace).mp hlt
      linarith
    have hover : b.now + timeout ≤ l.now + (n + 1 : Nat) * pace := by
      have hle := (div_le_iff₀ hpace).mp (Nat.le_ceil (timeout / pace))
      rw [hn] at hle
      linarith
    refine ⟨fun t hleast => ?_, fun hnone => ?_, hstands.first_or_none hpaced hahead hover⟩
    · obtain ⟨hanswered, hended⟩ := hstands.leads hpaced hleast
      rw [Line.lastBeat, hnow] at hanswered hended
      exact ⟨fun hshows => hleads (hanswered hshows), fun hshows => hleads (hended hshows)⟩
    · rw [hn]
      exact hleads (hstands.expires hpaced hahead hover hnone)

/-- A booth before the step that opens the screen, on a line where nothing ever answers. -/
def unansweredBooth : Booth where
  target := { logFile := "log", ipcFile := "ipc" }
  phase := .between 2 [⟨"screen", "screen -q", .ofInt 15, .probe⟩]
  session := { id := "00000001", status := .active, master := some { handle := 100 } }
  line := { watcher := { attached := true } }

theorem silent_layer_is_probed_until_timeout : unansweredBooth.EndsIn {} 17 fun r =>
    r.phase = .failing (.unready "screen" (.ofInt 15)) ∧ r.now = 0 + 15 ∧
      r.line.terminal.typed = [(0, "screen -q\n")] ++ (List.range 15).map fun (k : Nat) => (0 + (k : Rat) * 1, probeLine 2) := by
  have hphase : unansweredBooth.phase = .between 2 [⟨"screen", "screen -q", .ofInt 15, .probe⟩] := rfl
  have htimeout : Span.ofNumber (.ofInt 15) = .finite 15 := by decide +kernel
  have hkeeps : Keeps {} 1 15 := Or.inl (by decide +kernel)
  have hsilent : unansweredBooth.line.Silent := ⟨rfl, rfl, fun _ => rfl, fun _ _ => rfl⟩
  obtain ⟨hscreen, hwatcher⟩ := hsilent.type "screen -q\n"
  have hverdict : unansweredBooth.line.watcher.verdict? (marker 2) (0 : Nat) = none := by decide +kernel
  have hgoes : unansweredBooth.line.watcher.ended = false := rfl
  obtain ⟨-, hexpires, -⟩ := (probed_step_keeps_pace hphase rfl htimeout hkeeps one_pos rfl (fun _ => rfl) List.Pairwise.nil).2
    (hwatcher ▸ hgoes) (by norm_num)
  have hceil : ⌈(15 : Rat) / 1⌉₊ = 15 := by norm_num
  rw [hceil] at hexpires
  exact hexpires (hscreen.settling_eq (probeLine 2) 1 (hwatcher ▸ hverdict) (0 + 15))

end Booth

end Teletype.Recording
