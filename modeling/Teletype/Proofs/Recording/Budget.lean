import Mathlib.Algebra.Order.BigOperators.Group.List
import Teletype.Proofs.Recording.Probing
import Teletype.Proofs.Recording.Sequence

/-! # Recordings end in time

With finite timeouts and probes an interval apart a recording ends, whatever its device does and whatever happens around
it. No step takes longer than its timeout; the end of the child is seen by the first look after its timeout, and so is
the end of the wait for the transcript. So a studio comes to the end of all its recordings. -/

namespace Teletype

/-- Settings with finite timeouts, and an interval between probes that is longer than nothing. -/
structure RecorderSettings.Bounded (r : RecorderSettings) : Prop where
  ready : r.readyTimeout.isFinite = true
  logger : r.loggerTimeout.isFinite = true
  exit : r.exitTimeout.isFinite = true
  flush : r.flushTimeout.isFinite = true
  interval : (Span.finite 0).isShorter (.ofNumber r.probeInterval) = true

theorem RecorderSettings.bounded_default : ({} : RecorderSettings).Bounded := by constructor <;> decide +kernel

namespace Recording

open Output (Line)

/-- How long a step may take. -/
def Step.limit (s : Step) : Rat := max s.timeout.seconds 0 + if s.readiness = .exit then Terminal.pollInterval else 0

/-- How many actions a step may take. -/
def Step.actions (plan : Plan) (s : Step) : Nat :=
  1 + if s.readiness = .probe then
    Studio.actionsIn (.ofNumber s.timeout) (.ofNumber plan.settings.recorder.probeInterval) else 0

/-- How long the wait for the transcript may take. -/
def Plan.flushLimit (plan : Plan) : Rat := max plan.settings.recorder.flushTimeout.seconds 0 + Booth.settleInterval

/-- How many actions the wait for the transcript may take. -/
def Plan.flushActions (plan : Plan) : Nat :=
  Studio.actionsIn (.ofNumber plan.settings.recorder.flushTimeout) (.finite Booth.settleInterval)

theorem Step.limit_nonneg (s : Step) : 0 ≤ s.limit := by
  unfold Step.limit
  split
  · linarith [le_max_right s.timeout.seconds 0, Terminal.pollInterval_pos]
  · linarith [le_max_right s.timeout.seconds 0]

/-- The actions allowed for in a time are enough for so many paces and one action more. -/
theorem Studio.exists_paces {interval : Span} (h : (Span.finite 0).isShorter interval = true) (seconds : Rat) :
    ∃ pace n, Booth.Paces interval pace ∧ seconds ≤ (n : Nat) * pace ∧
      n + 1 ≤ Studio.actionsIn (.finite seconds) interval := by
  cases interval with
  | finite i =>
    have hpos : 0 < i := by simpa [Span.isShorter] using h
    obtain ⟨n, hn, hle⟩ := Studio.actionsIn_eq_succ hpos seconds
    exact ⟨i, n, Booth.paces_finite hpos, hle, hn.ge⟩
  | endless =>
    have hpos : 0 < max seconds 1 := lt_max_of_lt_right one_pos
    refine ⟨max seconds 1, 1, Booth.paces_endless hpos, ?_, show 2 ≤ 100000 by decide⟩
    rw [Nat.cast_one, one_mul]
    exact le_max_left seconds 1
  | past | undefined => cases h

namespace Booth
variable {plan : Plan} {b : Booth} {index : Nat} {step : Step} {rest : List Step} {limit : Time}

/-! ### Time goes on -/

theorem now_le_type (text : String) {next : Booth → Booth} (h : ∀ r : Booth, r.now = b.now → b.now ≤ (next r).now) :
    b.now ≤ (b.type text next).now := by
  rcases b.type_cases text next with hbroken | ⟨-, htype⟩
  · exact hbroken.now.ge
  · rw [htype]
    exact h _ rfl

theorem now_le_typeCommand {next : Booth → Booth} (h : ∀ r : Booth, r.now = b.now → b.now ≤ (next r).now) :
    b.now ≤ (b.typeCommand step next).now := by
  unfold typeCommand
  split
  · exact h b rfl
  · exact now_le_type _ h

theorem now_le_hear (index start : Nat) (span : Span) {next : Bool → Booth → Booth}
    (h : ∀ found r, (next found r).now = r.now) : b.now ≤ (b.hear index start span next).now := by
  unfold hear
  rw [h]
  exact Line.now_le_waitFor _ _ _ _

theorem now_le_takeStep (b : Booth) (index : Nat) (step : Step) (rest : List Step) : b.now ≤ (b.takeStep index step rest).now := by
  unfold takeStep
  dsimp only
  split
  · refine now_le_type _ fun r hr => hr ▸ now_le_hear _ _ _ fun found r => ?_
    cases found <;> rfl
  · refine now_le_typeCommand fun r hr => hr ▸ ?_
    have hwait := Line.now_le_waitForExit r.line (.ofNumber step.timeout)
    generalize r.line.waitForExit _ = wait at hwait ⊢
    obtain ⟨code, line⟩ := wait
    cases code <;> exact hwait
  · exact now_le_typeCommand fun r hr => hr.ge

theorem now_le_takeProbe (b : Booth) (h : Host) (index : Nat) (step : Step) (start : Nat) (deadline : Deadline) (rest : List Step) :
    b.now ≤ (b.takeProbe plan h index step start deadline rest).1.now := by
  unfold takeProbe
  split
  · exact le_rfl
  · refine now_le_type _ fun r hr => hr ▸ now_le_hear _ _ _ fun found r => ?_
    cases found <;> rfl

@[simp] theorem close_now (b : Booth) (h : Host) : (b.close h).2.1.now = b.now := by
  have hdetach : b.line.detach.now = b.line.now := by
    unfold Line.detach
    split <;> rfl
  simp only [close, now]
  split <;> exact hdetach

theorem closeFailed_done (b : Booth) (h : Host) (failure : Failure) :
    (∃ result, (b.closeFailed h failure).1.phase = .done result) ∧ (b.closeFailed h failure).1.now = b.now := by
  have hnow := b.close_now h
  unfold closeFailed
  generalize b.close h = r at hnow ⊢
  obtain ⟨e | ⟨⟩, b', h'⟩ := r
  · cases e <;> exact ⟨⟨_, rfl⟩, hnow⟩
  · exact ⟨⟨_, rfl⟩, hnow⟩

theorem closeDone_cases (plan : Plan) (b : Booth) (h : Host) :
    ((∃ result, (b.closeDone plan h).1.phase = .done result) ∨ (b.closeDone plan h).1.phase =
      .settling (.after b.now (.ofNumber plan.settings.recorder.flushTimeout)) none) ∧
    (b.closeDone plan h).1.now = b.now := by
  have hnow := b.close_now h
  unfold closeDone
  generalize b.close h = r at hnow ⊢
  obtain ⟨e | ⟨⟩, b', h'⟩ := r
  · exact ⟨Or.inl ⟨_, rfl⟩, hnow⟩
  · refine ⟨Or.inr ?_, hnow⟩
    rw [← hnow]
    rfl

/-- A look ends the recording, or it was made before the deadline and the next one is an interval later. -/
theorem look_goes_on (files : Files.History) (b : Booth) (h : Host) (deadline : Deadline) (last : Option Nat) :
    (∃ result, (b.look files h deadline last).1.phase = .done result) ∧ (b.look files h deadline last).1.now = b.now ∨
    deadline.isAhead b.now = true ∧ (∃ last', (b.look files h deadline last).1.phase = .settling deadline last') ∧
      (b.look files h deadline last).1.now = b.now + settleInterval := by
  unfold look
  dsimp only
  split
  · next hahead =>
    split
    · exact Or.inl ⟨⟨_, rfl⟩, rfl⟩
    · split
      · exact Or.inl ⟨⟨_, rfl⟩, rfl⟩
      · exact Or.inr ⟨hahead, ⟨_, rfl⟩, rfl⟩
  · exact Or.inl ⟨⟨_, rfl⟩, rfl⟩

theorem begin_cases (plan : Plan) (b : Booth) (h : Host) : (b.begin plan h).1.now = b.now ∧
    ((∃ f, (b.begin plan h).1.phase = .failing f ∨ (b.begin plan h).1.phase = .done (.error f)) ∨
      ∃ steps, script plan.settings.recorder b.target = .ok steps ∧ (b.begin plan h).1.phase = .between 1 steps) := by
  unfold begin
  split
  · exact ⟨rfl, Or.inl ⟨_, Or.inr rfl⟩⟩
  · dsimp only
    split
    · exact ⟨rfl, Or.inl ⟨_, Or.inl rfl⟩⟩
    · next steps hscript => exact ⟨rfl, Or.inr ⟨steps, hscript, rfl⟩⟩

theorem now_le_actIn (plan : Plan) (b : Booth) (s : Surroundings) : b.now ≤ (b.actIn plan s).now := by
  unfold actIn act
  cases b.phase with
  | waiting => exact (b.begin_cases plan s.host).1.ge
  | between index steps =>
    cases steps with
    | nil => exact (b.closeDone_cases plan s.host).2.ge
    | cons step rest => exact now_le_takeStep b index step rest
  | probing index step start deadline rest => exact now_le_takeProbe b s.host index step start deadline rest
  | failing failure => exact (b.closeFailed_done s.host failure).2.ge
  | settling deadline last =>
    rcases look_goes_on s.files b s.host deadline last with ⟨-, hnow⟩ | ⟨-, -, hnow⟩
    · exact hnow.ge
    · exact (le_add_of_nonneg_right Booth.settleInterval_pos.le).trans hnow.ge
  | done result => exact le_rfl

theorem now_le_run (plan : Plan) : ∀ (around : List Surroundings) (b : Booth), b.now ≤ (b.run plan around).now
  | [], _ => le_rfl
  | s :: around, b => (now_le_actIn plan b s).trans (now_le_run plan around _)

/-! ### Steps are over in time -/

/-- The booth is behind a step by a time, with the rest of the steps before it or after a failure. -/
def Leaves (index : Nat) (rest : List Step) (limit : Time) (r : Booth) : Prop :=
  (r.phase = .between (index + 1) rest ∨ ∃ f, r.phase = .failing f) ∧ r.now ≤ limit

theorem BrokenOff.leaves {text : String} {r : Booth} (h : BrokenOff b text r) (hnow : b.now ≤ limit) :
    Leaves index rest limit r := by
  obtain ⟨f, hfailing⟩ := h.phase
  exact ⟨Or.inr ⟨_, hfailing⟩, h.now.trans_le hnow⟩

/-- Probing is over by the time of the step. -/
theorem probing_leaves {start : Nat} {t : Time} (hbounded : plan.settings.recorder.Bounded)
    (hphase : b.phase = .probing index step start (.at t) rest) (hnow : b.now ≤ limit) (ht : t ≤ limit) :
    Within plan (Leaves index rest limit)
      (Studio.actionsIn (.finite (t - b.now)) (.ofNumber plan.settings.recorder.probeInterval)) b := by
  obtain ⟨pace, n, hpace, hlong, hactions⟩ := Studio.exists_paces hbounded.interval (t - b.now)
  refine (probing_within hpace (I := fun r => r.now ≤ limit) (fun b r hb hphase hprobes => ?_) n hnow hphase
    (Or.inr (by linarith))).le hactions
  cases hprobes with
  | gaveUp => exact Or.inl ⟨Or.inr ⟨_, rfl⟩, hb⟩
  | broken _ _ hbroken => exact Or.inl (hbroken.leaves hb)
  | answered _ hahead => exact Or.inl ⟨Or.inl rfl, (probeWait_now hpace hahead).1.trans ht⟩
  | unanswered _ hahead => exact Or.inr ⟨(probeWait_now hpace hahead).1.trans ht, hphase⟩

theorem takeStep_chained_leaves (hr : step.readiness = .chained) (htimeout : step.timeout.isFinite = true) :
    Leaves index rest (b.now + step.limit) (b.takeStep index step rest) := by
  have hlimit : step.limit = max step.timeout.seconds 0 := by simp [Step.limit, hr]
  have hwait : (b.chainedWait index step).line.now ≤ b.now + step.limit := by
    rw [chainedWait, hlimit, Span.ofNumber_of_isFinite htimeout]
    exact Line.waitFor_le _ _ _ _
  have hchains := b.takeStep_chained_cases index rest hr
  generalize b.takeStep index step rest = r at hchains ⊢
  cases hchains with
  | broken hbroken => exact hbroken.leaves (by linarith [step.limit_nonneg])
  | answered => exact ⟨Or.inl rfl, hwait⟩
  | unanswered => exact ⟨Or.inr ⟨_, rfl⟩, hwait⟩

theorem takeStep_exit_leaves (hr : step.readiness = .exit) (htimeout : step.timeout.isFinite = true) :
    Leaves index rest (b.now + step.limit) (b.takeStep index step rest) := by
  have hlimit : step.limit = max step.timeout.seconds 0 + Terminal.pollInterval := by simp [Step.limit, hr]
  unfold takeStep
  simp only [hr]
  rcases b.typeCommand_cases step _ with ⟨-, hbroken⟩ | ⟨line, hline, htype⟩
  · exact hbroken.leaves (by linarith [step.limit_nonneg])
  · have hnow : line.now = b.now := hline.now
    have hwait := Line.waitForExit_le line step.timeout.seconds
    rw [hnow, add_assoc, ← hlimit, ← Span.ofNumber_of_isFinite htimeout] at hwait
    rw [htype]
    dsimp only
    generalize line.waitForExit _ = wait at hwait ⊢
    obtain ⟨code, line⟩ := wait
    cases code with
    | some code => exact ⟨Or.inl rfl, hwait⟩
    | none => exact ⟨Or.inr ⟨_, rfl⟩, hwait⟩

/-- The probes of a step begin: its command has been typed, and no time has passed. -/
structure Begins (index : Nat) (step : Step) (rest : List Step) (b r : Booth) : Prop where
  phase : r.phase = .probing index step b.line.watcher.position (.at (b.now + step.timeout.seconds)) rest
  line : Commanded b.line step r.line

theorem Begins.now {r : Booth} (h : Begins index step rest b r) : r.now = b.now := h.line.now

/-- A step that is probed is broken off by a fault, or its probes begin at once. -/
theorem takeStep_probe_cases (b : Booth) (index : Nat) (rest : List Step) (hr : step.readiness = .probe)
    (htimeout : step.timeout.isFinite = true) :
    (step.text.isEmpty = false ∧ BrokenOff b step.line (b.takeStep index step rest)) ∨
      Begins index step rest b (b.takeStep index step rest) := by
  unfold takeStep
  simp only [hr]
  rcases b.typeCommand_cases step _ with hbroken | ⟨line, hline, htype⟩
  · exact Or.inl hbroken
  · have hnow : line.now = b.now := hline.now
    rw [htype, Span.ofNumber_of_isFinite htimeout]
    refine Or.inr ⟨?_, hline⟩
    rw [← hnow]
    rfl

/-- A step is over within its actions and its limit. -/
theorem step_leaves (hbounded : plan.settings.recorder.Bounded) (hphase : b.phase = .between index (step :: rest))
    (htimeout : step.timeout.isFinite = true) :
    Within plan (Leaves index rest (b.now + step.limit)) (step.actions plan) b := by
  unfold Step.actions
  rw [Nat.add_comm]
  refine .act fun s => ?_
  rw [actIn_takeStep plan hphase]
  cases hr : step.readiness with
  | chained => exact .here (takeStep_chained_leaves hr htimeout)
  | exit => exact .here (takeStep_exit_leaves hr htimeout)
  | probe =>
    have hlimit : step.limit = max step.timeout.seconds 0 := by simp [Step.limit, hr]
    rcases takeStep_probe_cases b index rest hr htimeout with ⟨-, hbroken⟩ | hbegins
    · exact .here (hbroken.leaves (by linarith [step.limit_nonneg]))
    · rw [hlimit, Span.ofNumber_of_isFinite htimeout, if_pos rfl]
      have hspan : b.now + step.timeout.seconds - (b.takeStep index step rest).now = step.timeout.seconds := by
        rw [hbegins.now]
        ring
      have hleaves : Within plan (Leaves index rest (b.now + max step.timeout.seconds 0)) _ (b.takeStep index step rest) :=
        probing_leaves hbounded hbegins.phase (hbegins.now.trans_le (by linarith [le_max_right step.timeout.seconds 0]))
          (by linarith [le_max_left step.timeout.seconds 0])
      rwa [hspan] at hleaves

/-! ### Recordings are over in time -/

/-- The booth is done by a time. -/
def DoneBy (limit : Time) (r : Booth) : Prop := (∃ result, r.phase = .done result) ∧ r.now ≤ limit

theorem DoneBy.le {r : Booth} {limit' : Time} (h : DoneBy limit r) (hle : limit ≤ limit') : DoneBy limit' r := ⟨h.1, h.2.trans hle⟩

theorem failing_done {f : Failure} (hphase : b.phase = .failing f) (hnow : b.now ≤ limit) : Within plan (DoneBy limit) 1 b := by
  refine .act fun s => .here ?_
  rw [show b.actIn plan s = _ from congrArg (·.1) (act_failing hphase)]
  obtain ⟨hdone, htime⟩ := b.closeFailed_done s.host f
  exact ⟨hdone, htime.trans_le hnow⟩

/-- Look after look the deadline comes. -/
theorem settling_done {t : Time} : ∀ (n : Nat) {b : Booth} {last : Option Nat}, b.phase = .settling (.at t) last →
    t ≤ b.now + n * settleInterval → b.now ≤ limit + settleInterval → t ≤ limit →
    Within plan (DoneBy (limit + settleInterval)) (n + 1) b := by
  intro n
  induction n with
  | zero =>
    refine fun {b last} hphase hlate hnow _ => .act fun s => .here ?_
    rw [show b.actIn plan s = _ from congrArg (·.1) (act_settling hphase)]
    rcases look_goes_on s.files b s.host (.at t) last with ⟨hdone, htime⟩ | ⟨hahead, -⟩
    · exact ⟨hdone, htime.trans_le hnow⟩
    · have hahead : b.now < t := by simpa [Deadline.isAhead] using hahead
      rw [Nat.cast_zero, zero_mul, add_zero] at hlate
      exact absurd hahead (not_lt.mpr hlate)
  | succ n ih =>
    refine fun {b last} hphase hlate hnow ht => .act fun s => ?_
    rw [show b.actIn plan s = _ from congrArg (·.1) (act_settling hphase)]
    rcases look_goes_on s.files b s.host (.at t) last with ⟨hdone, htime⟩ | ⟨hahead, ⟨last', hphase'⟩, htime⟩
    · exact .here ⟨hdone, htime.trans_le hnow⟩
    · have hahead : b.now < t := by simpa [Deadline.isAhead] using hahead
      refine ih hphase' ?_ ?_ ht <;> rw [htime]
      · push_cast at hlate
        linarith
      · linarith

/-- After the last step the recording is over within the time for the transcript. -/
theorem between_nil_done (hbounded : plan.settings.recorder.Bounded) (hphase : b.phase = .between index []) :
    Within plan (DoneBy (b.now + plan.flushLimit)) (plan.flushActions + 1) b := by
  refine .act fun s => ?_
  rw [show b.actIn plan s = _ from congrArg (·.1) (act_between_nil hphase)]
  obtain ⟨hdone | hsettling, hnow⟩ := b.closeDone_cases plan s.host
  · refine .here ⟨hdone, hnow.trans_le ?_⟩
    unfold Plan.flushLimit
    linarith [le_max_right plan.settings.recorder.flushTimeout.seconds 0, Booth.settleInterval_pos]
  · rw [Span.ofNumber_of_isFinite hbounded.flush, Deadline.after] at hsettling
    obtain ⟨n, hn, hlong⟩ := Studio.actionsIn_eq_succ Booth.settleInterval_pos plan.settings.recorder.flushTimeout.seconds
    unfold Plan.flushActions Plan.flushLimit
    rw [Span.ofNumber_of_isFinite hbounded.flush, hn, ← add_assoc]
    refine settling_done n hsettling ?_ ?_ ?_
    · rw [hnow]
      linarith
    · rw [hnow]
      linarith [le_max_right plan.settings.recorder.flushTimeout.seconds 0, Booth.settleInterval_pos]
    · linarith [le_max_left plan.settings.recorder.flushTimeout.seconds 0]

/-- From before some steps the recording is over within the actions and the limits of these and of what comes after. -/
theorem between_done (hbounded : plan.settings.recorder.Bounded) : ∀ (steps : List Step) {index : Nat} {b : Booth},
    b.phase = .between index steps → (∀ step ∈ steps, step.timeout.isFinite = true) →
    Within plan (DoneBy (b.now + ((steps.map Step.limit).sum + plan.flushLimit)))
      ((steps.map (Step.actions plan)).sum + (plan.flushActions + 1)) b
  | [], index, b, hphase, _ => by
    simpa using between_nil_done hbounded hphase
  | step :: rest, index, b, hphase, hfinite => by
    obtain ⟨hstep, hrest⟩ := List.forall_mem_cons.mp hfinite
    have hpositive : 0 ≤ (rest.map Step.limit).sum := List.sum_nonneg fun x hx => by
      obtain ⟨s, -, rfl⟩ := List.mem_map.mp hx
      exact s.limit_nonneg
    have hflush : 0 ≤ plan.flushLimit := by
      unfold Plan.flushLimit
      linarith [le_max_right plan.settings.recorder.flushTimeout.seconds 0, Booth.settleInterval_pos]
    rw [List.map_cons, List.sum_cons, List.map_cons, List.sum_cons, Nat.add_assoc]
    refine (step_leaves hbounded hphase hstep).trans fun r hleaves => ?_
    obtain ⟨hphase' | ⟨f, hphase'⟩, hnow⟩ := hleaves
    · exact (between_done hbounded rest hphase' hrest).mono fun r' hdone => hdone.le (by linarith)
    · exact (failing_done hphase' (by linarith)).le (by omega)

end Booth

/-- How long a recording may take. -/
def Plan.limit (plan : Plan) : Rat :=
  3 * max plan.settings.recorder.readyTimeout.seconds 0 + max plan.settings.recorder.loggerTimeout.seconds 0 +
    (3 * max plan.settings.recorder.exitTimeout.seconds 0 + Terminal.pollInterval) + plan.flushLimit

theorem script_bounded {plan : Plan} {target : Target} {steps : List Step} (hbounded : plan.settings.recorder.Bounded)
    (hscript : script plan.settings.recorder target = .ok steps) :
    (∀ step ∈ steps, step.timeout.isFinite = true) ∧ (steps.map Step.limit).sum + plan.flushLimit = plan.limit ∧
      (steps.map (Step.actions plan)).sum + (plan.flushActions + 1) + 1 ≤ Studio.budget plan.settings.recorder := by
  obtain ⟨screen, record, logger, rfl⟩ := script_eq hscript
  refine ⟨?_, ?_, ?_⟩
  · simp [hbounded.ready, hbounded.logger, hbounded.exit]
  · simp only [List.map_cons, List.map_nil, List.sum_cons, List.sum_nil, Step.limit, Plan.limit]
    simp only [reduceCtorEq, if_false, if_true]
    ring
  · simp only [List.map_cons, List.map_nil, List.sum_cons, List.sum_nil, Step.actions, Plan.flushActions, Studio.budget,
      reduceCtorEq, if_false, if_true]
    omega

theorem Plan.flushLimit_nonneg (plan : Plan) : 0 ≤ plan.flushLimit := by
  unfold Plan.flushLimit
  linarith [le_max_right plan.settings.recorder.flushTimeout.seconds 0, Booth.settleInterval_pos]

theorem Plan.limit_nonneg (plan : Plan) : 0 ≤ plan.limit := by
  unfold Plan.limit
  linarith [le_max_right plan.settings.recorder.readyTimeout.seconds 0,
    le_max_right plan.settings.recorder.loggerTimeout.seconds 0,
    le_max_right plan.settings.recorder.exitTimeout.seconds 0, Terminal.pollInterval_pos, plan.flushLimit_nonneg]

namespace Booth

theorem two_le_budget (r : RecorderSettings) : 2 ≤ Studio.budget r := by
  simp only [Studio.budget]
  omega

theorem fresh_done {plan : Plan} (hbounded : plan.settings.recorder.Bounded) (target : Target) (now : Time) :
    Within plan (DoneBy (now + plan.limit)) (Studio.budget plan.settings.recorder) (fresh target now) := by
  suffices h : Within plan (DoneBy (now + plan.limit)) (Studio.budget plan.settings.recorder - 1 + 1) (fresh target now) from
    h.le (by have := two_le_budget plan.settings.recorder; omega)
  refine .act fun s => ?_
  change Within plan _ _ ((fresh target now).begin plan s.host).1
  obtain ⟨hnow, ⟨f, hfailing | hdone⟩ | ⟨steps, hscript, hphase⟩⟩ := (fresh target now).begin_cases plan s.host <;>
    change _ = now at hnow
  · exact (failing_done hfailing (by linarith [plan.limit_nonneg])).le (Nat.le_sub_one_of_lt (two_le_budget _))
  · exact .here ⟨⟨_, hdone⟩, by linarith [plan.limit_nonneg]⟩
  · obtain ⟨hfinite, hlimit, hactions⟩ := script_bounded hbounded hscript
    have hdone := between_done hbounded steps hphase hfinite
    rw [hnow, hlimit] at hdone
    exact hdone.le (by omega)

end Booth

/-! ### Studios come to an end -/

/-- Together these booths are done within so many actions. -/
inductive AllWithin (plan : Plan) : Nat → List Booth → Prop
  | nil : AllWithin plan 0 []
  | cons {m n : Nat} {b : Booth} {booths : List Booth} : Booth.Within plan (fun r => ∃ result, r.phase = .done result) m b →
      AllWithin plan n booths → AllWithin plan (m + n) (b :: booths)

theorem Booth.isDone_iff {b : Booth} : b.isDone = true ↔ ∃ result, b.phase = .done result := by
  unfold Booth.isDone
  cases b.phase <;> simp

/-- An action of a booth that is not done is one of those that are allowed for. -/
theorem AllWithin.act {plan : Plan} {n : Nat} {booths : List Booth} (h : AllWithin plan n booths) : ∀ {i : Nat} {b : Booth},
    booths[i]? = some b → b.isDone = false → ∃ n', n = n' + 1 ∧ ∀ s, AllWithin plan n' (booths.set i (b.actIn plan s)) := by
  induction h with
  | nil => nofun
  | @cons m n c booths hc hbooths ih =>
    intro i b hb hdone
    cases i with
    | zero =>
      cases hb
      cases hc with
      | here hover =>
        rw [Booth.isDone_iff.mpr hover] at hdone
        cases hdone
      | @act m _ hact => exact ⟨m + n, by omega, fun s => .cons (hact s) hbooths⟩
    | succ i =>
      obtain ⟨n', rfl, hset⟩ := ih hb hdone
      exact ⟨m + n', by omega, fun s => .cons hc (hset s)⟩

theorem Studio.nextFrom_not_done : ∀ {booths : List Booth} {index i : Nat} {b : Booth},
    Studio.nextFrom index booths = some (i, b) → b.isDone = false
  | [], _, _, _, h => by cases h
  | c :: rest, index, i, b, h => by
    rw [Studio.nextFrom] at h
    split at h
    · split at h
      · cases h
      · next hc =>
        cases h
        exact Bool.not_eq_true _ ▸ hc
    · next hrest =>
      split at h
      · cases h
        exact Studio.nextFrom_not_done hrest
      · next hc =>
        cases h
        simp only [Bool.or_eq_true, not_or, Bool.not_eq_true] at hc
        exact hc.1

theorem Studio.nextFrom_eq_none {booths : List Booth} : ∀ {index : Nat}, Studio.nextFrom index booths = none →
    ∀ b ∈ booths, b.isDone = true := by
  induction booths with
  | nil => simp
  | cons c rest ih =>
    intro index h
    rw [Studio.nextFrom] at h
    split at h
    · next hrest =>
      split at h
      · next hc => exact List.forall_mem_cons.mpr ⟨hc, ih hrest⟩
      · cases h
    · split at h <;> cases h

theorem Studio.run_done : ∀ {fuel n : Nat} {s : Studio}, AllWithin s.plan n s.booths → n ≤ fuel →
    ∀ b ∈ (s.run fuel).booths, b.isDone = true
  | 0, n, s, h, hn => by
    -- With no action allowed for there is none left to do.
    refine fun b hb => ?_
    obtain ⟨i, hi⟩ := List.getElem?_of_mem hb
    by_contra hdone
    obtain ⟨n', rfl, -⟩ := h.act hi (Bool.not_eq_true _ ▸ hdone)
    omega
  | fuel + 1, n, s, h, hn => by
    rw [Studio.run]
    cases hnext : s.next? with
    | none =>
      rw [Studio.step, hnext]
      exact Studio.nextFrom_eq_none hnext
    | some next =>
      obtain ⟨i, b⟩ := next
      rw [Studio.step, hnext]
      have hb := (Studio.nextFrom_eq_some hnext).2
      rw [Nat.sub_zero] at hb
      obtain ⟨n', rfl, hset⟩ := h.act hb (Studio.nextFrom_not_done hnext)
      exact Studio.run_done (hset ⟨s.history, s.host⟩) (Nat.le_of_succ_le_succ hn)

theorem allWithin_booths {plan : Plan} (hbounded : plan.settings.recorder.Bounded) : ∀ {booths : List Booth},
    (∀ b ∈ booths, b.isDone = true ∨ ∃ target now, b = .fresh target now) →
    AllWithin plan (booths.length * Studio.budget plan.settings.recorder) booths
  | [], _ => by
    rw [List.length_nil, Nat.zero_mul]
    exact .nil
  | b :: booths, h => by
    obtain ⟨hb, hbooths⟩ := List.forall_mem_cons.mp h
    rw [List.length_cons, Nat.succ_mul, Nat.add_comm]
    refine .cons ?_ (allWithin_booths hbounded hbooths)
    rcases hb with hdone | ⟨target, now, rfl⟩
    · exact .here (Booth.isDone_iff.mp hdone)
    · exact (Booth.fresh_done hbounded target now).mono fun r hdone => hdone.1

/-- Where a recording is between steps, it is before a step of its script and follows that. -/
theorem step_of_between {plan : Plan} {target : Target} {now : Time} {around : List Surroundings} {index : Nat} {step : Step}
    {rest : List Step} (hphase : ((Booth.fresh target now).run plan around).phase = .between index (step :: rest)) :
    ∃ steps k, script plan.settings.recorder target = .ok steps ∧ Follows steps target ((Booth.fresh target now).run plan around) ∧
      index = k + 1 ∧ steps[k]? = some step := by
  rcases follows_or_halted plan target now around with ⟨steps, hscript, hb⟩ | h | ⟨f, h | h⟩
  · obtain ⟨k, hindex, hrest, -⟩ : Place steps target _ (.between index (step :: rest)) := hphase ▸ hb.place
    refine ⟨steps, k, hscript, hb, hindex, ?_⟩
    rw [← Nat.add_zero k, ← List.getElem?_drop, ← hrest]
    rfl
  all_goals cases hphase.symm.trans h

/-- With finite timeouts and an interval between probes that is longer than nothing a recording is done after a limited
    number of actions and within its time, whatever its device does and whatever it finds around it. No step takes
    longer than its timeout, or than the first look after it if it waits for the end of the child; the wait for the
    transcript takes no longer than the first look after its timeout. No limit of looks or actions cuts this short: more
    looks at the child change nothing, and a studio comes to the end of all its recordings. -/
theorem recording_ends_in_time {plan : Plan} (hbounded : plan.settings.recorder.Bounded) (target : Target) (now : Time) :
    (∀ around : List Surroundings, Studio.budget plan.settings.recorder ≤ around.length →
      ∃ result, ((Booth.fresh target now).run plan around).phase = .done result) ∧
    (∀ around : List Surroundings,
      let b := (Booth.fresh target now).run plan around
      (now ≤ b.now ∧ b.now ≤ now + plan.limit) ∧
      (∀ index step rest, b.phase = .between index (step :: rest) →
        b.Within plan (Booth.Leaves index rest (b.now + step.limit)) (step.actions plan)) ∧
      ∀ index, b.phase = .between index [] →
        b.Within plan (Booth.DoneBy (b.now + plan.flushLimit)) (plan.flushActions + 1)) ∧
    (∀ (t : Terminal) (now : Time) (seconds : Rat) (more : Nat),
      t.pollExit (.at (now + seconds)) (t.looks now (.finite seconds) + more) now = t.waitForExit now (.finite seconds)) ∧
    ∀ s : Studio, s.plan = plan → (∀ b ∈ s.booths, b.isDone = true ∨ ∃ target now, b = .fresh target now) →
      ∀ b ∈ s.finish.booths, b.isDone = true := by
  have hfresh := Booth.fresh_done hbounded target now
  refine ⟨fun around hlength => (hfresh.run_done around hlength).1, fun around => ⟨⟨?_, ?_⟩, ?_, ?_⟩,
    Terminal.waitForExit_add, fun s hplan hbooths => ?_⟩
  · exact Booth.now_le_run plan around (.fresh target now)
  · -- However the run goes on, it ends in time, and time does not go back until then.
    let more := List.replicate (Studio.budget plan.settings.recorder) ({} : Surroundings)
    have hend := (hfresh.run_done (around ++ more) (by simp [more])).2
    rw [Booth.run_append] at hend
    exact (Booth.now_le_run plan more _).trans hend
  · intro index step rest hphase
    obtain ⟨steps, k, hscript, -, -, hstep⟩ := step_of_between hphase
    exact Booth.step_leaves hbounded hphase ((script_bounded hbounded hscript).1 step (List.mem_of_getElem? hstep))
  · exact fun index hphase => Booth.between_nil_done hbounded hphase
  · subst hplan
    exact Studio.run_done (allWithin_booths hbounded hbooths) le_rfl

theorem default_recording_ends_in_time : ({} : RecorderSettings).Bounded ∧
    Plan.limit {} = 3 * 15 + 300 + (3 * 30 + 1 / 20) + (15 + 1 / 5) ∧
    ∀ (target : Target) (around : List Surroundings), Studio.budget {} ≤ around.length →
      ∃ result, ((Booth.fresh target 0).run {} around).phase = .done result := by
  have hbounded := RecorderSettings.bounded_default
  have hready : (Number.Binary64.ofInt 15).seconds = 15 := by decide +kernel
  have hlogger : (Number.Binary64.ofInt 300).seconds = 300 := by decide +kernel
  have hexit : (Number.Binary64.ofInt 30).seconds = 30 := by decide +kernel
  have hlimit : Plan.limit {} = 3 * 15 + 300 + (3 * 30 + 1 / 20) + (15 + 1 / 5) := by
    simp [Plan.limit, Plan.flushLimit, hready, hlogger, hexit, Terminal.pollInterval, Booth.settleInterval]
  exact ⟨hbounded, hlimit, fun target => (@recording_ends_in_time {} hbounded target 0).1⟩

end Recording

end Teletype
