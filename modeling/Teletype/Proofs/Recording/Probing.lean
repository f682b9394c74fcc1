import Teletype.Proofs.Output.Timing
import Teletype.Proofs.Recording.Run

/-! # Probing step by step

A booth that probes a step gives up once the output has ended or the time of the step is over. Until then it types
its probe and listens: for an interval, or as long as the time of the step lasts if that is shorter. With an interval
that is longer than nothing, time goes on with every probe, so the probes come to an end. -/

namespace Teletype.Recording

open Output (Line)

namespace Booth

/-! ### What comes within some actions -/

/-- After at most so many actions this holds, whatever is around the booth. -/
inductive Within (plan : Plan) (P : Booth → Prop) : Nat → Booth → Prop
  | here {n : Nat} {b : Booth} : P b → Within plan P n b
  | act {n : Nat} {b : Booth} : (∀ s : Surroundings, Within plan P n (b.actIn plan s)) → Within plan P (n + 1) b

variable {plan : Plan} {b : Booth} {P Q : Booth → Prop} {m n : Nat}

theorem Within.le (h : Within plan P m b) (hmn : m ≤ n) : Within plan P n b := by
  induction h generalizing n with
  | here hb => exact .here hb
  | act _ ih =>
    cases n with
    | zero => cases hmn
    | succ n => exact .act fun s => ih s (Nat.le_of_succ_le_succ hmn)

theorem Within.trans (h : Within plan P m b) (hnext : ∀ r, P r → Within plan Q n r) : Within plan Q (m + n) b := by
  induction h with
  | @here m b hb => exact (hnext b hb).le (Nat.le_add_left n m)
  | @act m b _ ih =>
    rw [Nat.add_right_comm]
    exact .act ih

theorem Within.mono (h : Within plan P n b) (hpq : ∀ r, P r → Q r) : Within plan Q n b :=
  h.trans (n := 0) fun r hr => .here (hpq r hr)

/-- A run that is long enough has come by a place where this holds. -/
theorem Within.run (h : Within plan P n b) : ∀ around : List Surroundings, n ≤ around.length →
    ∃ d, d <+: around ∧ P (b.run plan d) := by
  induction h with
  | here hb => exact fun around _ => ⟨[], List.nil_prefix, hb⟩
  | act _ ih =>
    intro around hlength
    cases around with
    | nil => cases hlength
    | cons s around =>
      obtain ⟨d, hd, hp⟩ := ih s around (Nat.le_of_succ_le_succ hlength)
      exact ⟨s :: d, List.cons_prefix_cons.mpr ⟨rfl, hd⟩, hp⟩

/-- What holds once a booth is done holds at the end of every run that is long enough. -/
theorem Within.run_done (h : Within plan (fun r => (∃ result, r.phase = .done result) ∧ P r) n b)
    (around : List Surroundings) (hlength : n ≤ around.length) :
    (∃ result, (b.run plan around).phase = .done result) ∧ P (b.run plan around) := by
  obtain ⟨d, ⟨more, rfl⟩, ⟨result, hdone⟩, hp⟩ := h.run around hlength
  rw [run_append, (run_of_done plan hdone more).1]
  exact ⟨⟨result, hdone⟩, hp⟩

/-! ### Typing -/

/-- A fault breaks a booth off where it types a text, with or without the text. -/
inductive BrokenOff (b : Booth) (text : String) : Booth → Prop
  | untyped (f : Fault) : BrokenOff b text (b.fail (.fault f))
  | typed (f : Fault) : BrokenOff b text (fail { b with line := (b.line.type text).2 } (.fault f))

theorem BrokenOff.now {r : Booth} {text : String} (h : BrokenOff b text r) : r.now = b.now := by cases h <;> rfl

theorem BrokenOff.phase {r : Booth} {text : String} (h : BrokenOff b text r) : ∃ f, r.phase = .failing (.fault f) := by
  cases h <;> exact ⟨_, rfl⟩

/-- A text is typed, and it goes on from there, unless a fault breaks it off. -/
theorem type_cases (b : Booth) (text : String) (next : Booth → Booth) :
    BrokenOff b text (b.type text next) ∨
    (b.line.type text).1 = none ∧ b.type text next = next { b with line := (b.line.type text).2 } := by
  unfold type
  split
  · next f _ => exact Or.inl (.untyped f)
  · split
    · next f line hline =>
      obtain rfl : (b.line.type text).2 = line := congrArg (·.2) hline
      exact Or.inl (.typed f)
    · next line hline =>
      rw [hline]
      exact Or.inr ⟨rfl, rfl⟩

/-- The command of a step has been typed into a line, if there is one. -/
def Commanded (l : Line) (step : Step) (line : Line) : Prop :=
  line = l ∧ step.text.isEmpty = true ∨
    line = (l.type step.line).2 ∧ step.text.isEmpty = false ∧ (l.type step.line).1 = none

theorem Commanded.now {l line : Line} {step : Step} (h : Commanded l step line) : line.now = l.now := by
  rcases h with ⟨rfl, -⟩ | ⟨rfl, -⟩ <;> rfl

theorem typeCommand_cases (b : Booth) (step : Step) (next : Booth → Booth) :
    (step.text.isEmpty = false ∧ BrokenOff b step.line (b.typeCommand step next)) ∨
    ∃ line, Commanded b.line step line ∧ b.typeCommand step next = next { b with line } := by
  unfold typeCommand
  split
  · next hempty => exact Or.inr ⟨b.line, Or.inl ⟨rfl, hempty⟩, rfl⟩
  · next htext =>
    rw [Bool.not_eq_true] at htext
    rcases b.type_cases step.line next with hbroken | ⟨htakes, htyped⟩
    · exact Or.inl ⟨htext, hbroken⟩
    · exact Or.inr ⟨_, Or.inr ⟨rfl, htext, htakes⟩, htyped⟩

/-! ### One probe -/

/-- A booth after a wait. -/
def heard (b : Booth) (wait : Line.Wait) : Booth := { b with line := wait.line, gaveWay := b.gaveWay || wait.gaveWay }

/-- How long a probe is listened for at the most, when the time of its step is over at a time. -/
def patience (plan : Plan) (now t : Time) : Span :=
  (Span.ofNumber plan.settings.recorder.probeInterval).orShorter ((Deadline.at t).left now)

/-- The wait for the answer to a probe that is typed now. -/
def probeWait (plan : Plan) (b : Booth) (index start : Nat) (t : Time) : Line.Wait :=
  (b.line.type (probeLine index)).2.waitFor (marker index) start (patience plan b.now t)

/-- What may become of a booth that probes a step until a time. -/
inductive Probes (plan : Plan) (index : Nat) (step : Step) (start : Nat) (t : Time) (rest : List Step) (b : Booth) :
    Booth → Prop
  | gaveUp : b.line.watcher.ended = true ∨ t ≤ b.now → Probes plan index step start t rest b (b.fail (unready step))
  | broken {r : Booth} : b.line.watcher.ended = false → b.now < t → BrokenOff b (probeLine index) r →
      Probes plan index step start t rest b r
  | answered : b.line.watcher.ended = false → b.now < t → (b.line.type (probeLine index)).1 = none →
      (probeWait plan b index start t).found = true →
      Probes plan index step start t rest b ((b.heard (probeWait plan b index start t)).goTo (.between (index + 1) rest))
  | unanswered : b.line.watcher.ended = false → b.now < t → (b.line.type (probeLine index)).1 = none →
      (probeWait plan b index start t).found = false →
      Probes plan index step start t rest b (b.heard (probeWait plan b index start t))

/-- The wait for the answer to the command of a step that is chained. -/
def chainedWait (b : Booth) (index : Nat) (step : Step) : Line.Wait :=
  (b.line.type (step.chainedLine index)).2.waitFor (marker index) b.line.watcher.position (.ofNumber step.timeout)

/-- What may become of a booth that takes a step that is chained. -/
inductive Chains (index : Nat) (step : Step) (rest : List Step) (b : Booth) : Booth → Prop
  | broken {r : Booth} : BrokenOff b (step.chainedLine index) r → Chains index step rest b r
  | answered : (b.line.type (step.chainedLine index)).1 = none → (b.chainedWait index step).found = true →
      Chains index step rest b ((b.heard (b.chainedWait index step)).goTo (.between (index + 1) rest))
  | unanswered : (b.line.type (step.chainedLine index)).1 = none → (b.chainedWait index step).found = false →
      Chains index step rest b ((b.heard (b.chainedWait index step)).fail (unready step))

section
variable {index start : Nat} {step : Step} {t : Time} {rest : List Step}

theorem takeStep_chained_cases (b : Booth) (index : Nat) (rest : List Step) (hr : step.readiness = .chained) :
    Chains index step rest b (b.takeStep index step rest) := by
  unfold takeStep
  simp only [hr]
  rcases b.type_cases (step.chainedLine index) _ with hbroken | ⟨htakes, htype⟩
  · exact .broken hbroken
  · rw [htype]
    change Chains index step rest b (if (b.chainedWait index step).found then _ else _)
    cases hwait : (b.chainedWait index step).found with
    | true => exact .answered htakes hwait
    | false => exact .unanswered htakes hwait

theorem actIn_probing (plan : Plan) (hphase : b.phase = .probing index step start (.at t) rest) (s : Surroundings) :
    Probes plan index step start t rest b (b.actIn plan s) := by
  unfold actIn
  rw [act_probing hphase]
  unfold takeProbe
  split
  · next hover => exact .gaveUp (by simpa [Deadline.isOver] using hover)
  · next hgoes =>
    obtain ⟨hended, hahead⟩ : b.line.watcher.ended = false ∧ b.now < t := by simpa [Deadline.isOver] using hgoes
    dsimp only
    rcases b.type_cases (probeLine index) _ with hbroken | ⟨htakes, htype⟩
    · exact .broken hended hahead hbroken
    · rw [htype]
      change Probes plan index step start t rest b (if (probeWait plan b index start t).found then _ else _)
      cases hwait : (probeWait plan b index start t).found with
      | true => exact .answered hended hahead htakes hwait
      | false => exact .unanswered hended hahead htakes hwait

/-! ### Probe after probe -/

/-- Listening for an interval, or as long as there is time, takes at least this long or until the time is over. -/
structure Paces (interval : Span) (pace : Rat) : Prop where
  pos : 0 < pace
  listens : ∀ now t : Time, now < t → ∃ r, interval.orShorter ((Deadline.at t).left now) = .finite r ∧ 0 < r ∧
    now + r ≤ t ∧ (pace ≤ r ∨ t ≤ now + r)

theorem paces_finite {interval : Rat} (h : 0 < interval) : Paces (.finite interval) interval := by
  refine ⟨h, fun now t hahead => ?_⟩
  simp only [Span.orShorter, Deadline.left, Span.isShorter, decide_eq_true_eq]
  split
  · exact ⟨t - now, rfl, by linarith, by linarith, Or.inr (by linarith)⟩
  · next hlong => exact ⟨interval, rfl, h, by linarith, Or.inl le_rfl⟩

theorem paces_endless {pace : Rat} (h : 0 < pace) : Paces .endless pace :=
  ⟨h, fun now t hahead => ⟨t - now, rfl, by linarith, by linarith, Or.inr (by linarith)⟩⟩

/-- Listening for a probe ends by the time of the step; without an answer it takes its pace, unless the output ends. -/
theorem probeWait_now {pace : Rat} (hpace : Paces (.ofNumber plan.settings.recorder.probeInterval) pace) (hahead : b.now < t) :
    (probeWait plan b index start t).line.now ≤ t ∧
    ((probeWait plan b index start t).found = false → (probeWait plan b index start t).line.watcher.ended = false →
      b.now + pace ≤ (probeWait plan b index start t).line.now ∨ t ≤ (probeWait plan b index start t).line.now) := by
  obtain ⟨r, hr, hpos, hle, hlong⟩ := hpace.listens b.now t hahead
  unfold probeWait patience
  rw [hr]
  refine ⟨(Line.waitFor_le _ _ _ r).trans ?_, fun hfound hended => ?_⟩
  · rw [max_eq_left hpos.le]
    exact hle
  · have hlate := Line.waitFor_late hfound hended
    change b.now + r ≤ _ at hlate
    rcases hlong with hlong | hlong
    · exact Or.inl (by linarith)
    · exact Or.inr (hlong.trans hlate)

/-- Probe after probe the time of the step comes to its end: so many paces, and one action more to give up. What the
    probes keep as long as they go on is there until then. -/
theorem probing_within {pace : Rat} (hpace : Paces (.ofNumber plan.settings.recorder.probeInterval) pace) {I : Booth → Prop}
    (hprobes : ∀ b r, I b → b.phase = .probing index step start (.at t) rest → Probes plan index step start t rest b r →
      P r ∨ I r ∧ r.phase = .probing index step start (.at t) rest) :
    ∀ (n : Nat) {b : Booth}, I b → b.phase = .probing index step start (.at t) rest →
      b.line.watcher.ended = true ∨ t ≤ b.now + n * pace → Within plan P (n + 1) b := by
  intro n
  induction n with
  | zero =>
    refine fun {b} hb hphase hlate => .act fun s => .here ?_
    have hover : b.line.watcher.ended = true ∨ t ≤ b.now := hlate.imp_right fun h => by simpa using h
    have hprobed := actIn_probing plan hphase s
    generalize b.actIn plan s = r at hprobed ⊢
    refine (hprobes b r hb hphase hprobed).resolve_right fun ⟨_, hphase'⟩ => ?_
    cases hprobed with
    | gaveUp => cases hphase'
    | broken _ _ hbroken =>
      obtain ⟨f, hfailing⟩ := hbroken.phase
      cases hphase'.symm.trans hfailing
    | answered hended hahead | unanswered hended hahead =>
      rcases hover with hover | hover
      · rw [hover] at hended
        cases hended
      · exact absurd hahead (not_lt.mpr hover)
  | succ n ih =>
    refine fun {b} hb hphase hlate => .act fun s => ?_
    have hprobed := actIn_probing plan hphase s
    generalize b.actIn plan s = r at hprobed ⊢
    rcases hprobes b r hb hphase hprobed with hp | ⟨hb', hphase'⟩
    · exact .here hp
    · refine ih hb' hphase' ?_
      cases hprobed with
      | gaveUp => cases hphase'
      | broken _ _ hbroken =>
        obtain ⟨f, hfailing⟩ := hbroken.phase
        cases hphase'.symm.trans hfailing
      | answered => cases hphase'
      | unanswered hended hahead _ hfound =>
        cases hended' : (probeWait plan b index start t).line.watcher.ended with
        | true => exact Or.inl hended'
        | false =>
          right
          have hnow : t ≤ b.now + (n + 1) * pace := by
            rcases hlate with hover | hlate
            · rw [hover] at hended
              cases hended
            · exact_mod_cast hlate
          have hrest : 0 ≤ n * pace := mul_nonneg (Nat.cast_nonneg n) hpace.pos.le
          change t ≤ (probeWait plan b index start t).line.now + n * pace
          rcases (probeWait_now hpace hahead).2 hfound hended' with hgone | hgone <;> linarith

end

end Booth

end Teletype.Recording
