import Teletype.Proofs.Output.Attention
import Teletype.Proofs.Recording.Budget
import Teletype.Proofs.Recording.Echo

/-! # Answers are heard when probes leave time for them

With an interval between probes that is longer than nothing, only so many probes of a step are typed, all that has come is
read before the next one, and a layer that answers a probe before the step is over is heard. Without such an interval
the line never gives way: probe after probe is typed at one time, and what the device would do later is never done. -/

namespace Teletype.Recording

open Output (Line Happening Watcher heardIn typedIn)

namespace Booth
variable {plan : Plan} {b : Booth} {index start : Nat} {step : Step} {t limit : Time} {rest : List Step}

/-! ### What goes over the line with a probe -/

theorem probeWait_goes (plan : Plan) (b : Booth) (index start : Nat) (t : Time) : ∃ items : List Item,
    b.line.Goes (.typed (probeLine index) :: items.map .read) (probeWait plan b index start t).line := by
  obtain ⟨atOnce, htype⟩ := b.line.type_goes (probeLine index)
  obtain ⟨later, hwait⟩ := (b.line.type (probeLine index)).2.waitFor_hears (marker index) start (patience plan b.now t)
  refine ⟨atOnce ++ later, ?_⟩
  rw [List.map_append]
  exact htype.trans hwait

theorem typedIn_probeWait (plan : Plan) (b : Booth) (index start : Nat) (t : Time) :
    typedIn (probeWait plan b index start t).line.past = typedIn b.line.past ++ [probeLine index] := by
  obtain ⟨items, hgoes⟩ := probeWait_goes plan b index start t
  rw [hgoes.past, Output.typedIn_append]
  exact congrArg (typedIn b.line.past ++ probeLine index :: ·) (Output.typedIn_read items)

theorem typedIn_type (l : Line) (text : String) : typedIn (l.type text).2.past = typedIn l.past ++ [text] := by
  obtain ⟨items, hgoes⟩ := l.type_goes text
  rw [hgoes.past, Output.typedIn_append]
  exact congrArg (typedIn l.past ++ text :: ·) (Output.typedIn_read items)

theorem BrokenOff.typedIn_prefix {text : String} {r : Booth} (h : BrokenOff b text r) :
    typedIn r.line.past <+: typedIn b.line.past ++ [text] := by
  cases h with
  | untyped f => exact List.prefix_append _ _
  | typed f => exact (typedIn_type b.line text) ▸ List.prefix_refl _

theorem Commanded.typedIn_eq {l line : Line} (h : Commanded l step line) :
    typedIn line.past = typedIn l.past ++ step.command := by
  rcases h with ⟨rfl, htext⟩ | ⟨rfl, htext, -⟩
  · rw [Step.command, if_pos htext, List.append_nil]
  · rw [Step.command, htext, if_neg Bool.false_ne_true, typedIn_type]

/-! ### Only so many probes -/

/-- So many probes, an interval apart, have their places in a time. -/
def Fits (interval : Rat) (n : Nat) (time : Rat) : Prop := n * interval < max time 0 + interval

/-- Probes since some place: so many are typed, an interval apart, unless the output has ended. -/
def Spaced (interval : Rat) (index : Nat) (t : Time) (b r : Booth) : Prop :=
  ∃ n, typedIn r.line.past = typedIn b.line.past ++ List.replicate n (probeLine index) ∧ Fits interval n (t - b.now) ∧
    (r.line.watcher.ended = true ∨ b.now + n * interval ≤ r.now ∨ t ≤ r.now)

theorem Spaced.refl {interval : Rat} (h : 0 < interval) (index : Nat) (t : Time) (b : Booth) : Spaced interval index t b b := by
  refine ⟨0, by simp, ?_, Or.inr (Or.inl (by simp))⟩
  simp only [Fits, Nat.cast_zero, zero_mul]
  linarith [le_max_right (t - b.now) 0]

theorem Spaced.next {interval : Rat} {r : Booth} (h : Spaced interval index t b r) (hopen : r.line.watcher.ended = false)
    (hahead : r.now < t) : ∃ n, typedIn r.line.past = typedIn b.line.past ++ List.replicate n (probeLine index) ∧
      Fits interval (n + 1) (t - b.now) ∧ b.now + n * interval ≤ r.now := by
  obtain ⟨n, htyped, -, hended | htime | hlate⟩ := h
  · rw [hopen] at hended
    cases hended
  · refine ⟨n, htyped, ?_, htime⟩
    simp only [Fits, Nat.cast_add, Nat.cast_one]
    linarith [le_max_left (t - b.now) 0]
  · exact absurd hahead (not_lt.mpr hlate)

/-- A booth that is behind a step has typed only so many probes for it. -/
def Counted (interval : Rat) (index : Nat) (time : Rat) (before : List String) (r : Booth) : Prop :=
  ∃ n, typedIn r.line.past <+: before ++ List.replicate n (probeLine index) ∧ Fits interval n time

theorem probing_counted {interval : Rat} (hpositive : 0 < interval)
    (hinterval : Span.ofNumber plan.settings.recorder.probeInterval = .finite interval)
    (hphase : b.phase = .probing index step start (.at t) rest) (hnow : b.now ≤ limit) (ht : t ≤ limit) :
    Within plan (fun r => Leaves index rest limit r ∧ Counted interval index (t - b.now) (typedIn b.line.past) r)
      (Studio.actionsIn (.finite (t - b.now)) (.finite interval)) b := by
  have hpace : Paces (.ofNumber plan.settings.recorder.probeInterval) interval := hinterval ▸ paces_finite hpositive
  obtain ⟨n, hn, hlong⟩ := Studio.actionsIn_eq_succ hpositive (t - b.now)
  rw [hn]
  refine probing_within hpace (I := fun r => r.now ≤ limit ∧ Spaced interval index t b r) (fun c r hc hphase hprobes => ?_)
    n ⟨hnow, .refl hpositive index t b⟩ hphase (Or.inr (by linarith))
  obtain ⟨hcnow, hspaced⟩ := hc
  cases hprobes with
  | gaveUp =>
    obtain ⟨m, htyped, hfits, -⟩ := hspaced
    exact Or.inl ⟨⟨Or.inr ⟨_, rfl⟩, hcnow⟩, m, htyped ▸ List.prefix_refl _, hfits⟩
  | broken hopen hahead hbroken =>
    obtain ⟨m, htyped, hfits, -⟩ := hspaced.next hopen hahead
    refine Or.inl ⟨hbroken.leaves hcnow, m + 1, ?_, hfits⟩
    rw [List.replicate_succ', ← List.append_assoc, ← htyped]
    exact hbroken.typedIn_prefix
  | answered hopen hahead =>
    obtain ⟨m, htyped, hfits, -⟩ := hspaced.next hopen hahead
    refine Or.inl ⟨⟨Or.inl rfl, (probeWait_now hpace hahead).1.trans ht⟩, m + 1, ?_, hfits⟩
    rw [List.replicate_succ', ← List.append_assoc, ← htyped]
    exact (typedIn_probeWait plan c index start t) ▸ List.prefix_refl _
  | unanswered hopen hahead _ hfound =>
    obtain ⟨m, htyped, hfits, htime⟩ := hspaced.next hopen hahead
    obtain ⟨hle, hlate⟩ := probeWait_now hpace hahead
    refine Or.inr ⟨⟨hle.trans ht, m + 1, ?_, hfits, ?_⟩, hphase⟩
    · rw [List.replicate_succ', ← List.append_assoc, ← htyped]
      exact typedIn_probeWait plan c index start t
    · cases hended : (probeWait plan c index start t).line.watcher.ended with
      | true => exact Or.inl hended
      | false =>
        right
        rcases hlate hfound hended with hgone | hgone
        · left
          push_cast
          exact le_trans (by linarith) hgone
        · exact Or.inr hgone

theorem step_counted {interval : Rat} (hpositive : 0 < interval)
    (hinterval : Span.ofNumber plan.settings.recorder.probeInterval = .finite interval)
    (hphase : b.phase = .between index (step :: rest)) (hr : step.readiness = .probe) (htimeout : step.timeout.isFinite = true) :
    Within plan (fun r => Leaves index rest (b.now + step.limit) r ∧
      Counted interval index step.timeout.seconds (typedIn b.line.past ++ step.command) r) (step.actions plan) b := by
  have hlimit : step.limit = max step.timeout.seconds 0 := by simp [Step.limit, hr]
  have hactions : step.actions plan = Studio.actionsIn (.finite step.timeout.seconds) (.finite interval) + 1 := by
    rw [Step.actions, if_pos hr, Span.ofNumber_of_isFinite htimeout, hinterval, Nat.add_comm]
  have hnone : Fits interval 0 step.timeout.seconds := by
    simp only [Fits, Nat.cast_zero, zero_mul]
    linarith [le_max_right step.timeout.seconds 0]
  rw [hactions, hlimit]
  refine .act fun s => ?_
  rw [actIn_takeStep plan hphase]
  rcases takeStep_probe_cases b index rest hr htimeout with ⟨htext, hbroken⟩ | hbegins
  · refine .here ⟨hbroken.leaves (by linarith [le_max_right step.timeout.seconds 0]), 0, ?_, hnone⟩
    rw [List.replicate_zero, List.append_nil, Step.command, htext, if_neg Bool.false_ne_true]
    exact hbroken.typedIn_prefix
  · have hspan : b.now + step.timeout.seconds - (b.takeStep index step rest).now = step.timeout.seconds := by
      rw [hbegins.now]
      ring
    have hlate : (b.takeStep index step rest).now ≤ b.now + max step.timeout.seconds 0 :=
      hbegins.now.trans_le (by linarith [le_max_right step.timeout.seconds 0])
    have hcounted := probing_counted hpositive hinterval hbegins.phase hlate
      (by linarith [le_max_left step.timeout.seconds 0])
    rwa [hspan, hbegins.line.typedIn_eq] at hcounted

/-! ### Booths attend to their lines -/

/-- At its steps a booth attends to its line. -/
def Attends (b : Booth) : Prop :=
  match b.phase with
  | .between _ _ | .probing _ _ _ _ _ => b.line.Attentive
  | _ => True

theorem attends_of_attentive (h : b.line.Attentive) : b.Attends := by
  unfold Attends
  split <;> trivial

theorem BrokenOff.attends {text : String} {r : Booth} (h : BrokenOff b text r) : r.Attends := by cases h <;> trivial

theorem type_attends {text : String} {next : Booth → Booth} (h : b.line.Attentive)
    (hnext : ∀ r : Booth, r.line.Attentive → (next r).Attends) : (b.type text next).Attends := by
  rcases b.type_cases text next with hbroken | ⟨-, htype⟩
  · exact hbroken.attends
  · rw [htype]
    exact hnext _ (h.type text)

theorem typeCommand_attends {next : Booth → Booth} (h : b.line.Attentive)
    (hnext : ∀ r : Booth, r.line.Attentive → (next r).Attends) : (b.typeCommand step next).Attends := by
  unfold typeCommand
  split
  · exact hnext b h
  · exact type_attends h hnext

theorem takeStep_attends (h : b.line.Attentive) (index : Nat) (step : Step) (rest : List Step) :
    (b.takeStep index step rest).Attends := by
  unfold takeStep
  dsimp only
  split
  · refine type_attends h fun r hr => ?_
    have hwait := hr.waitFor (marker index) b.line.watcher.position (.ofNumber step.timeout)
    unfold hear
    dsimp only
    split
    · exact hwait
    · trivial
  · refine typeCommand_attends h fun r hr => ?_
    have hwait := hr.waitForExit (.ofNumber step.timeout)
    generalize r.line.waitForExit _ = wait at hwait ⊢
    obtain ⟨code, line⟩ := wait
    cases code with
    | some code => exact hwait
    | none => trivial
  · exact typeCommand_attends h fun r hr => hr

theorem takeProbe_attends {deadline : Deadline} (h : b.line.Attentive) (host : Host) :
    (b.takeProbe plan host index step start deadline rest).1.Attends := by
  unfold takeProbe
  split
  · trivial
  · refine type_attends h fun r hr => ?_
    have hwait := hr.waitFor (marker index) start
      ((Span.ofNumber plan.settings.recorder.probeInterval).orShorter (deadline.left r.now))
    unfold hear
    dsimp only
    split
    · exact hwait
    · exact attends_of_attentive hwait

theorem begin_attends (plan : Plan) (b : Booth) (host : Host) : (b.begin plan host).1.Attends := by
  unfold begin
  split
  · trivial
  · dsimp only
    split
    · trivial
    · exact ⟨Terminal.begin_inOrder _ _, fun _ => rfl⟩

theorem Attends.actIn (h : b.Attends) (plan : Plan) (s : Surroundings) : (b.actIn plan s).Attends := by
  unfold Booth.actIn act
  cases hphase : b.phase with
  | waiting => exact begin_attends plan b s.host
  | between index steps =>
    cases steps with
    | nil => rcases (b.closeDone_cases plan s.host).1 with ⟨result, hdone⟩ | hsettling <;> simp_all [Attends]
    | cons step rest => exact takeStep_attends (by simpa [Attends, hphase] using h) index step rest
  | probing index step start deadline rest => exact takeProbe_attends (by simpa [Attends, hphase] using h) s.host
  | failing failure =>
    obtain ⟨result, hdone⟩ := (b.closeFailed_done s.host failure).1
    simp [Attends, hdone]
  | settling deadline last =>
    rcases look_goes_on s.files b s.host deadline last with ⟨⟨result, hdone⟩, -⟩ | ⟨-, ⟨last', hsettling⟩, -⟩
    · simp [Attends, hdone]
    · simp [Attends, hsettling]
  | done result => exact h

theorem attends_run (plan : Plan) (target : Target) (now : Time) (around : List Surroundings) :
    ((fresh target now).run plan around).Attends :=
  run_keeps (fun _ s h => h.actIn plan s) around trivial

/-! ### Answers are heard -/

/-- Listening in vain for a probe gives way: time passes, and all that has come by then is read. -/
theorem probeWait_reads {pace : Rat} (hpace : Paces (.ofNumber plan.settings.recorder.probeInterval) pace)
    (h : b.line.Attentive) (hahead : b.now < t) (hfound : (probeWait plan b index start t).found = false)
    (hopen : (probeWait plan b index start t).line.watcher.ended = false) :
    b.now < (probeWait plan b index start t).line.now ∧ (probeWait plan b index start t).line.UpToDate ∧
      ∃ items : List Item, (b.line.type (probeLine index)).2.Goes (items.map .read) (probeWait plan b index start t).line ∧
        ∀ e ∈ (b.line.type (probeLine index)).2.terminal.agenda, ∀ bytes ≠ [], .output bytes ∈ e.2 →
          e ∈ (probeWait plan b index start t).line.terminal.agenda ∨ .chunk bytes ∈ items := by
  obtain ⟨r, hr, hpos, -, -⟩ := hpace.listens b.now t hahead
  unfold probeWait patience at hfound hopen ⊢
  rw [hr] at hfound hopen ⊢
  have hlate := Line.waitFor_late hfound hopen
  change b.now + r ≤ _ at hlate
  exact ⟨by linarith, (h.type (probeLine index)).waitFor_reads hpos hfound hopen⟩

/-- A chunk with the marker that is read after the start of the step is found, unless more has been heard since than a
    window shows. -/
theorem found_of_heard {l l' : Line} {part : List Happening} {bytes : Text.Bytes} (hwatcher : l.watcher = .follow {} l.past)
    (hstart : start ≤ (heardIn l.past).length) (hgoes : l.Goes part l') (hchunk : .read (.chunk bytes) ∈ part)
    (hmarker : marker index <:+: bytes) :
    (l'.watcher.window.find? (marker index) start).isSome = true ∨ start + 1048576 < (heardIn l'.past).length := by
  rw [or_iff_not_imp_right, not_lt]
  intro hfits
  have hfollow : l'.watcher = .follow {} l'.past := by
    rw [hgoes.watcher, hwatcher, ← Output.Watcher.follow_append, ← hgoes.past]
  have hpart : bytes <:+: heardIn part := by
    obtain ⟨before, after, rfl⟩ := List.append_of_mem hchunk
    rw [Output.heardIn_append]
    exact ⟨heardIn before, heardIn after, by simp [heardIn, Happening.heard]⟩
  obtain ⟨before, after, hsplit⟩ := hmarker.trans hpart
  have hstands : Text.StandsAt (marker index) (heardIn l'.past) (heardIn l.past ++ before).length := by
    refine Text.standsAt_iff.mpr ⟨?_, ?_⟩ <;> rw [hgoes.past, Output.heardIn_append, ← hsplit]
    · simp only [List.length_append]
      omega
    · rw [List.append_assoc before, ← List.append_assoc (heardIn l.past), List.drop_left]
      exact List.prefix_append _ _
  have hshows : l'.watcher.window.Shows 1048576 (heardIn l'.past) := hfollow ▸ shows_follow l'.past
  rw [← Option.not_isNone, Bool.not_eq_true', ← Bool.not_eq_true]
  intro hnone
  have hempty := hshows.find?_eq_none (Option.isNone_iff_eq_none.mp hnone)
  have hmem : (heardIn l.past ++ before).length ∈ Output.places (heardIn l'.past) l'.watcher.window.data.length
      (marker index) start := by
    refine hshows.mem_places.mpr ⟨?_, hstands⟩
    rw [hshows.base, List.length_append]
    omega
  rw [hempty] at hmem
  exact hmem

/-- Something else than the layer keeps a step from its marker: a write fails, the output ends, or more is heard in the
    step than a window shows. -/
inductive Disturbed (start : Nat) (r : Booth) : Prop
  | broken (h : ∃ f, r.phase = .failing (.fault f))
  | ended (h : r.line.watcher.ended = true)
  | flooded (h : start + 1048576 < (heardIn r.line.past).length)

/-- The step is confirmed, unless it is disturbed. -/
def Heeds (index start : Nat) (rest : List Step) (r : Booth) : Prop :=
  r.phase = .between (index + 1) rest ∨ Disturbed start r

/-- A booth that listens for what comes after a place. -/
structure Listens (start : Nat) (b : Booth) : Prop where
  attentive : b.line.Attentive
  watcher : b.line.watcher = .follow {} b.line.past
  start : start ≤ (heardIn b.line.past).length

/-- An output is to come before a time. -/
def Owed (bytes : Text.Bytes) (t : Time) (l : Line) : Prop := ∃ e ∈ l.terminal.agenda, e.1 < t ∧ .output bytes ∈ e.2

theorem Owed.type {bytes : Text.Bytes} {l : Line} (h : Owed bytes t l) (text : String) : Owed bytes t (l.type text).2 := by
  obtain ⟨e, he, ht, houtput⟩ := h
  exact ⟨e, Line.mem_agenda_type he text, ht, houtput⟩

/-- When a text is typed now an output has come at once, or it is to come before a time. -/
def Due (bytes : Text.Bytes) (t : Time) (l : Line) (text : String) : Prop :=
  (l.type text).1 = none → (l.type text).2.watcher.ended = false →
    (∃ items : List Item, l.Goes (.typed text :: items.map .read) (l.type text).2 ∧ .chunk bytes ∈ items) ∨
      Owed bytes t (l.type text).2

theorem Listens.missed (hb : Listens start b) {part : List Happening} {bytes : Text.Bytes}
    (hgoes : b.line.Goes part (probeWait plan b index start t).line) (hfound : (probeWait plan b index start t).found = false)
    (hchunk : .read (.chunk bytes) ∈ part) (hmarker : marker index <:+: bytes) :
    start + 1048576 < (heardIn (probeWait plan b index start t).line.past).length := by
  refine (found_of_heard hb.watcher hb.start hgoes hchunk hmarker).resolve_left fun hsome => ?_
  have htrue := (Line.waitFor_found_iff (b.line.type (probeLine index)).2 (patience plan b.now t)).mpr hsome
  change (probeWait plan b index start t).found = true at htrue
  rw [hfound] at htrue
  cases htrue

theorem Listens.probes {pace : Rat} (hb : Listens start b) (hpace : Paces (.ofNumber plan.settings.recorder.probeInterval) pace)
    (hphase : b.phase = .probing index step start (.at t) rest) (hahead : b.now < t) {bytes : Text.Bytes}
    (hmarker : marker index <:+: bytes)
    (hdue : Due bytes t b.line (probeLine index))
    {r : Booth} (hprobes : Probes plan index step start t rest b r) :
    Heeds index start rest r ∨ (Listens start r ∧ r.line.UpToDate ∧ Owed bytes t r.line) ∧
      r.phase = .probing index step start (.at t) rest := by
  cases hprobes with
  | gaveUp hover => exact Or.inl (Or.inr (.ended (hover.resolve_right (not_le.mpr hahead))))
  | broken _ _ hbroken => exact Or.inl (Or.inr (.broken hbroken.phase))
  | answered => exact Or.inl (Or.inl rfl)
  | unanswered _ _ htakes hfound =>
    cases hended : (probeWait plan b index start t).line.watcher.ended with
    | true => exact Or.inl (Or.inr (.ended hended))
    | false =>
      have hopen : (b.line.type (probeLine index)).2.watcher.ended = false := by
        by_contra h
        rw [show (probeWait plan b index start t).line.watcher.ended = true from
          Line.ended_waitFor (Bool.not_eq_false _ ▸ h) _] at hended
        cases hended
      obtain ⟨-, huptodate, items, hgoes, hread⟩ := probeWait_reads hpace hb.attentive hahead hfound hended
      obtain ⟨first, htype⟩ := b.line.type_goes (probeLine index)
      have hne : bytes ≠ [] := fun h => by
        rw [h, List.infix_nil] at hmarker
        exact marker_ne_nil index hmarker
      have hmissed : ∀ part, b.line.Goes part (b.line.type (probeLine index)).2 →
          .read (.chunk bytes) ∈ part ++ items.map .read → Heeds index start rest (b.heard (probeWait plan b index start t)) :=
        fun part hpart hchunk => Or.inr (.flooded (hb.missed (hpart.trans hgoes) hfound hchunk hmarker))
      rcases hdue htakes hopen with ⟨atOnce, htype, hchunk⟩ | ⟨e, he, ht, houtput⟩
      · exact Or.inl (hmissed _ htype (List.mem_append_left _ (List.mem_cons_of_mem _ (List.mem_map_of_mem hchunk))))
      · rcases hread e he bytes hne houtput with hstill | hchunk
        · refine Or.inr ⟨⟨⟨(hb.attentive.type _).waitFor _ _ _, ?_, ?_⟩, huptodate, e, hstill, ht, houtput⟩, hphase⟩
          · have hall := htype.trans hgoes
            show (probeWait plan b index start t).line.watcher = _
            rw [hall.watcher, hb.watcher, ← Output.Watcher.follow_append, ← hall.past]
            rfl
          · have hall := htype.trans hgoes
            show start ≤ (heardIn (probeWait plan b index start t).line.past).length
            rw [hall.past, Output.heardIn_append, List.length_append]
            exact hb.start.trans (Nat.le_add_right _ _)
        · exact Or.inl (hmissed _ htype (List.mem_append_right _ (List.mem_map_of_mem hchunk)))

/-- The device answers a text that is typed now with the marker of a step, at once or before a time. -/
def Answers (l : Line) (text : String) (index : Nat) (t : Time) : Prop :=
  ∃ bytes, marker index <:+: bytes ∧
    (.output bytes ∈ (l.terminal.device.react (l.terminal.typed.map (·.2)) text).atOnce ∨
      ∃ e ∈ (l.terminal.device.react (l.terminal.typed.map (·.2)) text).later, l.now + e.1 < t ∧ .output bytes ∈ e.2)

theorem Answers.due {l : Line} {text : String} (h : Answers l text index t) (hl : l.Attentive) :
    ∃ bytes, marker index <:+: bytes ∧ Due bytes t l text := by
  obtain ⟨bytes, hmarker, hanswer⟩ := h
  have hne : bytes ≠ [] := by
    rintro rfl
    exact marker_ne_nil index (List.infix_nil.mp hmarker)
  refine ⟨bytes, hmarker, fun htakes hopen => ?_⟩
  obtain ⟨⟨items, hgoes, hread⟩, hplanned⟩ := hl.type_reads htakes hopen
  rcases hanswer with honce | ⟨e, he, ht, houtput⟩
  · exact Or.inl ⟨items, hgoes, hread bytes hne honce⟩
  · exact Or.inr ⟨_, hplanned e he, ht, houtput⟩

theorem Listens.heeds {interval : Rat} (hb : Listens start b) (hpositive : 0 < interval)
    (hinterval : Span.ofNumber plan.settings.recorder.probeInterval = .finite interval)
    (hphase : b.phase = .probing index step start (.at t) rest) (hahead : b.now < t)
    (hanswers : Answers b.line (probeLine index) index t) :
    Within plan (Heeds index start rest) (Studio.actionsIn (.finite (t - b.now)) (.finite interval)) b := by
  have hpace : Paces (.ofNumber plan.settings.recorder.probeInterval) interval := hinterval ▸ paces_finite hpositive
  obtain ⟨n, hn, hlong⟩ := Studio.actionsIn_eq_succ hpositive (t - b.now)
  obtain ⟨bytes, hmarker, hdue⟩ := hanswers.due hb.attentive
  rw [hn]
  -- Until the step is heeded an answer to the next probe has come by the time at which this is typed, or is to come.
  refine probing_within hpace (I := fun c => Listens start c ∧ c.now < t ∧ Due bytes t c.line (probeLine index))
    (fun c r hc hphase hprobes => ?_) n ⟨hb, hahead, hdue⟩ hphase (Or.inr (by linarith))
  obtain ⟨hc, hahead, hdue⟩ := hc
  rcases hc.probes hpace hphase hahead hmarker hdue hprobes with hheeds | ⟨⟨hr, huptodate, howed⟩, hphase'⟩
  · exact Or.inl hheeds
  · obtain ⟨e, he, ht, -⟩ := id howed
    exact Or.inr ⟨⟨hr, (huptodate.agenda e he).trans_lt ht, fun _ _ => Or.inr (howed.type _)⟩, hphase'⟩

theorem listens_of_run {target : Target} {now : Time} {around : List Surroundings}
    (hphase : ((fresh target now).run plan around).phase = .probing index step start (.at t) rest) :
    Listens start ((fresh target now).run plan around) := by
  have hattends := attends_run plan target now around
  unfold Attends at hattends
  rw [hphase] at hattends
  rcases follows_or_halted plan target now around with ⟨steps, -, hb⟩ | h | ⟨f, h | h⟩
  · obtain ⟨k, before, part, -, -, -, hpast, -, hreach⟩ : Place steps target _ (.probing index step start (.at t) rest) :=
      hphase ▸ hb.place
    refine ⟨hattends, hb.watcher, ?_⟩
    cases hreach
    rw [hpast, position_follow, Output.heardIn_append, List.length_append]
    exact Nat.le_add_right _ _
  all_goals cases hphase.symm.trans h

/-! ### No interval, no answer -/

/-- The device takes all that is typed and shows nothing at the very time at which this is typed. -/
structure TakesItsTime (d : Device) : Prop where
  takes : ∀ n, d.writeFault n = none
  later : ∀ before text, (d.react before text).atOnce.filterMap Effect.item? = []

/-- The device of a line takes its time, and what is queued neither has the marker nor ends the output. -/
structure Idle (index start : Nat) (l : Line) : Prop where
  device : TakesItsTime l.terminal.device
  verdict : l.settle.watcher.verdict? (marker index) start = none

theorem Idle.type {l : Line} (h : Idle index start l) (text : String) : (l.type text).1 = none ∧
    Idle index start (l.type text).2 ∧ (l.type text).2.watcher = l.settle.watcher ∧
    heardIn (l.type text).2.past = heardIn l.settle.past := by
  have hqueue : (l.terminal.type l.now text).2.queue = l.terminal.queue := by
    unfold Terminal.type
    dsimp only
    rw [h.device.takes]
    dsimp only
    rw [Terminal.planAll_queue, Terminal.applyAll_queue, h.device.later, List.append_nil]
  have hwatcher : (l.type text).2.watcher = l.settle.watcher := congrArg (fun q => (l.watcher.drain q).1) hqueue
  have hpast : heardIn (l.type text).2.past = heardIn l.settle.past := by
    have htaken : (l.type text).2.past = l.past ++ [.typed text] ++ (l.watcher.drain l.terminal.queue).2.1.map .read :=
      congrArg (fun q => l.past ++ [.typed text] ++ (l.watcher.drain q).2.1.map .read) hqueue
    rw [htaken, show l.settle.past = l.past ++ (l.watcher.drain l.terminal.queue).2.1.map .read from rfl]
    simp [heardIn, Happening.heard]
  refine ⟨Line.type_takes h.device.takes text, ⟨?_, ?_⟩, hwatcher, hpast⟩
  · exact (Terminal.type_device _ _ text).symm ▸ h.device
  · rw [Line.settle_type, hwatcher]
    exact h.verdict

theorem actIn_idle {interval : Rat} (hinterval : Span.ofNumber plan.settings.recorder.probeInterval = .finite interval)
    (hnone : interval ≤ 0) (hphase : b.phase = .probing index step start (.at t) rest) (hahead : b.now < t)
    (hsession : b.session.isOpen = true) (hidle : Idle index start b.line) (s : Surroundings) :
    b.actIn plan s = { b with line := (b.line.type (probeLine index)).2 } := by
  obtain ⟨htakes, -, hwatcher, -⟩ := hidle.type (probeLine index)
  obtain ⟨-, hopen⟩ := Line.verdict?_eq_none.mp hidle.verdict
  have hended : b.line.watcher.ended = false := by
    by_contra h
    rw [Line.ended_settle (Bool.not_eq_false _ ▸ h)] at hopen
    cases hopen
  have hgoes : (Deadline.at t).isOver b.now = false := by simpa [Deadline.isOver] using hahead
  have hshort : (Span.ofNumber plan.settings.recorder.probeInterval).orShorter ((Deadline.at t).left b.now) = .finite interval := by
    rw [hinterval]
    refine if_neg ?_
    simp only [Deadline.left, Span.isShorter, decide_eq_true_eq, not_lt]
    linarith
  have hwait : (b.line.type (probeLine index)).2.waitFor (marker index) start (.finite interval) =
      ⟨false, (b.line.type (probeLine index)).2, false⟩ :=
    Line.waitFor_of_timeout (hwatcher ▸ hidle.verdict) hnone
  unfold actIn
  rw [act_probing hphase]
  unfold takeProbe
  rw [hended, hgoes, Bool.or_false, if_neg Bool.false_ne_true]
  dsimp only
  rw [type_of_takes hsession htakes]
  unfold hear
  dsimp only
  rw [show now { b with line := (b.line.type (probeLine index)).2 } = b.now from rfl, hshort, hwait]
  simp

theorem run_idle {interval : Rat} (hinterval : Span.ofNumber plan.settings.recorder.probeInterval = .finite interval)
    (hnone : interval ≤ 0) : ∀ (around : List Surroundings) {b : Booth}, b.phase = .probing index step start (.at t) rest →
      b.now < t → b.session.isOpen = true → Idle index start b.line →
      let r := b.run plan around
      r.phase = b.phase ∧ r.now = b.now ∧
        typedIn r.line.past = typedIn b.line.past ++ List.replicate around.length (probeLine index) ∧
        (∀ e ∈ b.line.terminal.agenda, e ∈ r.line.terminal.agenda) ∧ heardIn r.line.past <+: heardIn b.line.settle.past
  | [], b, _, _, _, _ => by
    refine ⟨rfl, rfl, (List.append_nil _).symm, fun e he => he, ?_⟩
    rw [run_nil, show b.line.settle.past = b.line.past ++ (b.line.watcher.drain b.line.terminal.queue).2.1.map .read from rfl,
      Output.heardIn_append]
    exact List.prefix_append _ _
  | s :: around, b, hphase, hahead, hsession, hidle => by
    -- `Idle` carries the induction: the line after a probe is idle as before it, at the same time.
    obtain ⟨-, hidle', -, hheard⟩ := hidle.type (probeLine index)
    have htyped := typedIn_type b.line (probeLine index)
    rw [run_cons, actIn_idle hinterval hnone hphase hahead hsession hidle s]
    obtain ⟨hphase', hnow, htypes, hagenda, hheard'⟩ := run_idle hinterval hnone around
      (b := { b with line := (b.line.type (probeLine index)).2 }) hphase hahead hsession hidle'
    refine ⟨hphase', hnow, ?_, fun e he => hagenda e (Line.mem_agenda_type he _), ?_⟩
    · rw [htypes, htyped, List.length_cons, List.replicate_succ, List.append_assoc]
      rfl
    · change heardIn _ <+: heardIn (b.line.type (probeLine index)).2.settle.past at hheard'
      rwa [Line.settle_type, hheard] at hheard'

end Booth

/-- With an interval between probes that is longer than nothing, only so many probes of a step are typed, as many as have
    their places in its time. After each of them time passes, and all that has come by then is read before the next; so
    if a layer answers a probe before the step is over the step is confirmed, unless a write fails, the output ends or
    more is heard than a window shows. Without such an interval none of this holds: on a device that takes all that is
    typed and takes any time at all, probe after probe is typed at one time, nothing more is heard, and what is to come
    never comes. -/
theorem answers_are_heard_with_interval {plan : Plan} (hready : plan.settings.recorder.readyTimeout.isFinite = true)
    (hexit : plan.settings.recorder.exitTimeout.isFinite = true) (hfinite : plan.settings.recorder.probeInterval.isFinite = true) :
    let interval := plan.settings.recorder.probeInterval.seconds
    (0 < interval → ∀ (target : Target) (now : Time) (around : List Surroundings),
      let b := (Booth.fresh target now).run plan around
      (∀ index step rest, b.phase = .between index (step :: rest) → step.readiness = .probe →
        b.Within plan (fun r => Booth.Leaves index rest (b.now + step.limit) r ∧
          Booth.Counted interval index step.timeout.seconds (typedIn b.line.past ++ step.command) r) (step.actions plan)) ∧
      ∀ index step start t rest, b.phase = .probing index step start (.at t) rest →
        (∀ s, (b.actIn plan s).phase = b.phase → (b.actIn plan s).line.watcher.ended = false →
          b.now < (b.actIn plan s).now ∧ (b.actIn plan s).line.UpToDate) ∧
        (b.now < t → Booth.Answers b.line (probeLine index) index t →
          b.Within plan (Booth.Heeds index start rest) (Studio.actionsIn (.finite (t - b.now)) (.finite interval)))) ∧
    (interval ≤ 0 → ∀ (b : Booth) (index : Nat) (step : Step) (start : Nat) (t : Time) (rest : List Step),
      b.phase = .probing index step start (.at t) rest → b.now < t → b.session.isOpen = true →
      Booth.Idle index start b.line → ∀ around : List Surroundings,
      let r := b.run plan around
      r.phase = b.phase ∧ r.now = b.now ∧
        typedIn r.line.past = typedIn b.line.past ++ List.replicate around.length (probeLine index) ∧
        (∀ e ∈ b.line.terminal.agenda, e ∈ r.line.terminal.agenda) ∧ heardIn r.line.past <+: heardIn b.line.settle.past) := by
  intro interval
  have hinterval : Span.ofNumber plan.settings.recorder.probeInterval = .finite interval := Span.ofNumber_of_isFinite hfinite
  refine ⟨fun hpositive target now around => ⟨fun index step rest hphase hr => ?_, fun index step start t rest hphase => ⟨?_, ?_⟩⟩,
    fun hnone b index step start t rest hphase hahead hsession hidle around =>
      Booth.run_idle hinterval hnone around hphase hahead hsession hidle⟩
  · obtain ⟨steps, k, hscript, -, -, hstep⟩ := step_of_between hphase
    obtain ⟨screen, record, logger, rfl⟩ := script_eq hscript
    have htimeout : step.timeout.isFinite = true := by
      have hstep := List.mem_of_getElem? hstep
      simp only [List.mem_cons, List.not_mem_nil, or_false] at hstep
      rcases hstep with rfl | rfl | rfl | rfl | rfl | rfl | rfl
      · exact hready
      · exact hready
      · exact hready
      · cases hr
      · exact hexit
      · exact hexit
      · cases hr
    exact Booth.step_counted hpositive hinterval hphase hr htimeout
  · intro s hsame hopen
    have hpace : Booth.Paces (.ofNumber plan.settings.recorder.probeInterval) interval := hinterval ▸ Booth.paces_finite hpositive
    have hprobes := Booth.actIn_probing plan hphase s
    rw [hphase] at hsame
    generalize Booth.actIn plan _ s = r at hsame hopen hprobes ⊢
    cases hprobes with
    | gaveUp => cases hsame
    | broken _ _ hbroken =>
      obtain ⟨f, hfailing⟩ := hbroken.phase
      cases hsame.symm.trans hfailing
    | answered => cases hsame
    | unanswered _ hahead _ hfound =>
      obtain ⟨hnow, huptodate, -⟩ :=
        Booth.probeWait_reads hpace (Booth.listens_of_run hphase).attentive hahead hfound hopen
      exact ⟨hnow, huptodate⟩
  · exact fun hahead hanswers => (Booth.listens_of_run hphase).heeds hpositive hinterval hphase hahead hanswers

/-- A shell that answers every text a hundredth of a second later. -/
def slowShell : Device where
  react _ _ := { later := [(1 / 100, [.output (marker 1)])] }

/-- Recordings without an interval between probes. -/
def hastyPlan : Plan where
  settings.recorder := { probeInterval := .ofInt 0 }

theorem idle_slowShell (target : Target) (session : Session) :
    Booth.Idle 1 0 ((Booth.fresh target 0).opened slowShell session).line where
  device := ⟨fun _ => rfl, fun _ _ => rfl⟩
  verdict := by
    have hverdict : (Line.attach { terminal := .begin slowShell 0 }).settle.watcher.verdict? (marker 1) 0 = none := by
      decide +kernel
    exact hverdict

/-- Without an interval between probes a shell that answers each of them is never heard. -/
theorem hasty_probes_are_never_answered :
    let s : Surroundings := { host.devices := [slowShell] }
    let r := hastyPlan.settings.recorder
    let target : Target := { logFile := "log", ipcFile := "ipc" }
    (r.readyTimeout.isFinite = true ∧ r.exitTimeout.isFinite = true ∧ r.probeInterval.isFinite = true) ∧
      ∀ around : List Surroundings, ∃ rest,
        let b := (Booth.fresh target 0).run hastyPlan (s :: s :: around)
        b.phase = .probing 1 ⟨"shell", "", r.readyTimeout, .probe⟩ 0 (.at (0 + 15)) rest ∧ b.now = 0 ∧
          typedIn b.line.past = List.replicate around.length (probeLine 1) ∧ heardIn b.line.past = [] := by
  intro s r target
  have hready : r.readyTimeout.isFinite = true := by decide +kernel
  have hexit : r.exitTimeout.isFinite = true := by decide +kernel
  have hfinite : r.probeInterval.isFinite = true := by decide +kernel
  have hnone : hastyPlan.settings.recorder.probeInterval.seconds ≤ 0 := by decide +kernel
  have htimeout : Span.ofNumber r.readyTimeout = .finite 15 := by decide +kernel
  have hstarts : (Booth.start hastyPlan s.host).1.isOk = true := by decide +kernel
  obtain ⟨steps, hscript⟩ : ∃ steps, script r target = .ok steps := script_of_isOk (by decide +kernel)
  refine ⟨⟨hready, hexit, hfinite⟩, fun around => ?_⟩
  obtain ⟨rest, rfl⟩ : ∃ rest, steps = ⟨"shell", "", r.readyTimeout, .probe⟩ :: rest := by
    obtain ⟨screen, record, logger, rfl⟩ := script_eq hscript
    exact ⟨_, rfl⟩
  obtain ⟨session, h₁, _, hstart, hm⟩ := Booth.start_of_isOk hstarts
  have hbegin : (Booth.fresh target 0).actIn hastyPlan s = _ :=
    congrArg (·.1) (Booth.begin_of_scripted (b := .fresh target 0) hstart hscript)
  have hopen : session.isOpen = true := Session.isOpen_iff.mpr ⟨_, hm, rfl⟩
  have hahead : (0 : Time) < 0 + 15 := by decide +kernel
  rw [Booth.run_cons, hbegin, Booth.run_cons, Booth.actIn_shell hastyPlan rfl htimeout]
  obtain ⟨hphase, hnow, htyped, -, hheard⟩ := (answers_are_heard_with_interval hready hexit hfinite).2 hnone
    (((Booth.fresh target 0).opened slowShell session).goTo (.probing 1 ⟨"shell", "", r.readyTimeout, .probe⟩ 0
      (.at (0 + 15)) rest)) 1 _ 0 (0 + 15) rest rfl hahead hopen (idle_slowShell target session) around
  exact ⟨rest, hphase, hnow, htyped, List.prefix_nil.mp hheard⟩

end Teletype.Recording
