import Teletype.Proofs.Recording.Conduct
import Teletype.Proofs.Recording.Liveness
import Teletype.Proofs.Text.Quoting

/-! # What a path can pass off as an answer

A probe has its marker in two words, but a command spells its path as one. So the echo of a step's own command answers for
the step if its path has the marker of this very step in it; no other target gets a step confirmed by echoes, and then the
recording is not ready in time. -/

namespace Teletype

open Text (Bytes holds holds_iff isInfix_or_of_notMem)

namespace Recording

/-! ### Markers in commands -/

section
variable {index : Nat} {s t path : String}

theorem holds_marker_append : holds (s ++ " " ++ t) (markerText index) = true ↔
    holds s (markerText index) = true ∨ holds t (markerText index) = true := by
  simp only [holds_iff, String.toList_append]
  constructor
  · intro h
    rw [List.append_assoc] at h
    exact isInfix_or_of_notMem (notMem_markerText (by decide) (by decide) index) h
  · rintro (h | h)
    · exact (h.trans (List.prefix_append _ _).isInfix).trans (List.prefix_append _ _).isInfix
    · exact h.trans (List.suffix_append _ _).isInfix

theorem holds_marker_quote : holds (Text.Word.quote path) (markerText index) = true ↔
    holds path (markerText index) = true := by
  rw [holds_iff, holds_iff, Text.Word.quote, String.toList_ofList]
  exact Text.Word.isInfix_spell_iff (markerText_ne_nil index) fun c hc =>
    ⟨fun h => notMem_markerText (by decide) (by decide) index (h ▸ hc),
      fun h => notMem_markerText (by decide) (by decide) index (h ▸ hc)⟩

/-- There is a `y` in every marker. -/
theorem not_holds_marker (h : 'y' ∉ s.toList) : ¬holds s (markerText index) = true := by
  rw [holds_iff]
  refine not_isInfix_of_mem ?_ h
  rw [toList_markerText]
  simp

theorem isInfix_shown (h : holds s (markerText index) = true) : marker index <:+: shown s := by
  obtain ⟨u, v, huv⟩ := holds_iff.mp h
  have hs : s = String.ofList u ++ markerText index ++ String.ofList v := by
    rw [← String.toList_inj]
    simp [← huv]
  rw [hs, shown_append, shown_append, shown_of_isInLine isInLine_markerText]
  exact ⟨_, _, rfl⟩

end

end Recording

namespace Target
open Recording (markerText)

/-- The path that the command of a step spells, when the commands are the default. -/
def spelledIn (t : Target) : Nat → Option String
  | 3 => some t.logFile
  | 4 => some t.ipcFile
  | _ => none

/-- The command of a step spells a path that has the marker of this very step. -/
def Forges (t : Target) (index : Nat) : Prop := ∃ path ∈ t.spelledIn index, holds path (markerText index) = true

/-- Some path of the target has the marker of a step. -/
def Mentions (t : Target) (index : Nat) : Prop := ∃ j, ∃ path ∈ t.spelledIn j, holds path (markerText index) = true

end Target

namespace Recording
open Output (Line Happening Watcher heardIn typedIn typedIn_append)
open Text.Template (fill Slot Bindings)

/-- The steps of a script with the default settings. -/
theorem script_default (target : Target) : script {} target = .ok [
    ⟨"shell", "", ({} : RecorderSettings).readyTimeout, .probe⟩,
    ⟨"screen", "screen -h 30000", ({} : RecorderSettings).readyTimeout, .probe⟩,
    ⟨"record", "script" ++ " " ++ Text.Word.quote target.logFile, ({} : RecorderSettings).readyTimeout, .probe⟩,
    ⟨"logger", "session-logger" ++ " " ++ Text.Word.quote target.ipcFile ++ " " ++
      (if target.blocking then "true" else "false"), ({} : RecorderSettings).loggerTimeout, .chained⟩,
    ⟨"exit record", "exit", ({} : RecorderSettings).exitTimeout, .probe⟩,
    ⟨"exit screen", "exit", ({} : RecorderSettings).exitTimeout, .probe⟩,
    ⟨"exit shell", "exit", ({} : RecorderSettings).exitTimeout, .exit⟩] := by
  have hscreen : fill (bindings {} target) ({} : RecorderSettings).screenCommand = .ok "screen -h 30000" := by
    -- Only the size is asked for, so the paths, which are not known here, do not matter.
    have hsize (size : Slot) (rest : Bindings) : fill (("buffer_size", size) :: rest) "screen -h {buffer_size}" =
      fill [("buffer_size", size)] "screen -h {buffer_size}" := rfl
    have hfill : fill [("buffer_size", .number 30000)] "screen -h {buffer_size}" = .ok "screen -h 30000" := by
      decide +kernel
    exact (hsize _ _).trans hfill
  have hrecord : fill (bindings {} target) ({} : RecorderSettings).recordCommand =
      .ok (String.ofList ("script".toList ++ (" ".toList ++ ((Text.Word.quote target.logFile).toList ++ [])))) := rfl
  have hlogger : fill (bindings {} target) ({} : RecorderSettings).loggerCommand =
      .ok (String.ofList ("session-logger".toList ++ (" ".toList ++ ((Text.Word.quote target.ipcFile).toList ++
        (" ".toList ++ ((if target.blocking then "true" else "false").toList ++ [])))))) := rfl
  unfold script
  dsimp only
  rw [hscreen, hrecord, hlogger]
  simp only [List.append_nil, ← String.toList_append, String.ofList_toList, ← String.append_assoc]
  rfl

/-- With the default settings a command has a marker in it just if it spells a path that has it. -/
theorem holds_command {target : Target} {steps : List Step} (hscript : script {} target = .ok steps) {k : Nat} {step : Step}
    (hstep : steps[k]? = some step) (index : Nat) : holds step.text (markerText index) = true ↔
      ∃ path ∈ target.spelledIn (k + 1), holds path (markerText index) = true := by
  rw [script_default] at hscript
  cases hscript
  have hnone {text : String} {j : Nat} (htext : 'y' ∉ text.toList) (hj : target.spelledIn j = none) :
      holds text (markerText index) = true ↔ ∃ path ∈ target.spelledIn j, holds path (markerText index) = true := by
    simp [not_holds_marker htext, hj]
  match k, hstep with
  | 0, rfl | 1, rfl | 4, rfl | 5, rfl | 6, rfl => exact hnone (by decide) rfl
  | 2, rfl =>
    simp only [holds_marker_append, holds_marker_quote, not_holds_marker (s := "script") (by decide)]
    simp [Target.spelledIn]
  | 3, rfl =>
    have hblocking : ¬holds (if target.blocking then "true" else "false") (markerText index) = true := by
      split <;> exact not_holds_marker (by decide)
    simp only [holds_marker_append, holds_marker_quote, hblocking, not_holds_marker (s := "session-logger") (by decide)]
    simp [Target.spelledIn]

/-! ### Echoes -/

/-- What was heard is made of echoes of these texts, the last of them perhaps not whole. -/
def MadeOfEchoes (texts : List String) (bytes : Bytes) : Prop :=
  ∃ echoes : List Bytes, (∀ echo ∈ echoes, ∃ text ∈ texts, Echo text echo) ∧ bytes <+: echoes.flatten

/-- The echo of what a step types is no answer, unless its command has the marker. -/
theorem noise_of_echo {step : Step} {index i n : Nat} {text : String} {bytes : Bytes} (htext : text ∈ step.texts i n)
    (hplain : holds step.text (markerText index) = false) (hecho : Echo text bytes) : Noise index bytes := by
  have hcommand : text ∈ step.command → Noise index bytes := by
    intro h
    unfold Step.command at h
    split at h
    · simp at h
    · rw [List.mem_singleton.mp h] at hecho
      exact .ordered step hplain hecho
  unfold Step.texts at htext
  split at htext
  · rcases List.mem_append.mp htext with h | h
    · exact hcommand h
    · rw [List.eq_of_mem_replicate h] at hecho
      exact .probed i hecho
  · rw [List.mem_singleton.mp htext] at hecho
    exact .chained step i hplain hecho
  · exact hcommand htext

theorem MadeOfEchoes.not_answered {index : Nat} {texts : List String} {before part : List Happening}
    (h : MadeOfEchoes texts (heardIn part)) (hnoise : ∀ text ∈ texts, ∀ bytes, Echo text bytes → Noise index bytes) :
    ¬Answered index before part := by
  rintro ⟨p, hp, hstands⟩
  obtain ⟨echoes, hechoes, hprefix⟩ := h
  rw [position_follow] at hp
  rw [Output.heardIn_append] at hstands
  obtain ⟨i, rfl⟩ := Nat.exists_eq_add_of_le hp
  have hpart := (Text.standsAt_drop (by simp)).mpr hstands
  rw [List.drop_left] at hpart
  refine not_isInfix_flatten (fun echo hecho => ?_) (hpart.isInfix.trans hprefix.isInfix)
  obtain ⟨text, htext, hshows⟩ := hechoes echo hecho
  exact hnoise text htext echo hshows

/-! ### Steps that are not answered -/

/-- How a step can fail: it is not ready in time, or a fault breaks it off. -/
def Step.FailsBy (step : Step) (failure : Failure) : Prop := failure = Booth.unready step ∨ ∃ f, failure = .fault f

/-- A step is not over, or the recording has failed at it. -/
inductive Stuck (index : Nat) (step : Step) (rest : List Step) : Phase → Prop
  | before : Stuck index step rest (.between index (step :: rest))
  | probing (start : Nat) (deadline : Deadline) : Stuck index step rest (.probing index step start deadline rest)
  | failing {failure : Failure} : step.FailsBy failure → Stuck index step rest (.failing failure)
  | done {failure : Failure} : step.FailsBy failure → Stuck index step rest (.done (.error failure))

namespace Booth
variable {plan : Plan} {b : Booth} {index : Nat} {step : Step} {rest : List Step} {before part : List Happening}

theorem closeFailed_result (b : Booth) (h : Host) (failure : Failure) :
    (b.closeFailed h failure).1.phase = .done (.error failure) ∨
      ∃ f, (b.closeFailed h failure).1.phase = .done (.error (.fault f)) := by
  have hclose : ∀ e, (b.close h).1 = .error e → (∃ reason, e = .close reason) ∨ ∃ f, e = .fault f := by
    intro e he
    cases hopen : b.session.isOpen with
    | true =>
      obtain ⟨m, hm, hopen⟩ := Session.isOpen_iff.mp hopen
      rw [close_of_open hm hopen] at he
      unfold Session.closing at he
      split at he
      · cases he
      · split at he <;> cases he
        · exact Or.inl ⟨_, rfl⟩
        · exact Or.inr ⟨_, rfl⟩
    | false =>
      rw [close_of_not_isOpen hopen] at he
      cases he
      exact Or.inl ⟨_, rfl⟩
  unfold closeFailed
  generalize b.close h = r at hclose ⊢
  obtain ⟨e | ⟨⟩, b', h'⟩ := r
  · rcases hclose e rfl with ⟨reason, rfl⟩ | ⟨f, rfl⟩
    · exact Or.inl rfl
    · exact Or.inr ⟨f, rfl⟩
  · exact Or.inl rfl

theorem failing_stuck {failure : Failure} (hphase : b.phase = .failing failure) (hfails : step.FailsBy failure) :
    ∀ around : List Surroundings, Stuck index step rest (b.run plan around).phase
  | [] => by
    rw [run_nil, hphase]
    exact .failing hfails
  | s :: around => by
    have hact : b.actIn plan s = (b.closeFailed s.host failure).1 := congrArg (·.1) (act_failing hphase)
    rw [run_cons]
    rcases b.closeFailed_result s.host failure with hdone | ⟨f, hdone⟩ <;> rw [← hact] at hdone <;>
      rw [(run_of_done plan hdone around).1, hdone]
    · exact .done hfails
    · exact .done (Or.inr ⟨f, rfl⟩)

/-- A step is stuck as long as its proof has not come. -/
theorem run_stuck : ∀ (around : List Surroundings) (part : List Happening) {b : Booth}, b.line.past = before ++ part →
    b.line.watcher = .follow {} (before ++ part) → Reaches index step rest before part b.phase →
    (∀ d, d <+: around → ∀ part, (b.run plan d).line.past = before ++ part → ¬Confirmed index step before part) →
    Stuck index step rest (b.run plan around).phase
  | around, part, b, hpast, hwatcher, hreach, hnever => by
    -- The induction is on what is around; `Reaches` says how far the step has come in this part of the past.
    generalize hphase : b.phase = phase at hreach
    cases hreach with
    | broken f => exact failing_stuck hphase (Or.inr ⟨f, rfl⟩) around
    | unready => exact failing_stuck hphase (Or.inl rfl) around
    | confirmed hconfirmed => exact absurd hconfirmed (hnever [] List.nil_prefix part hpast)
    | @probing deadline n hr htyped htraffic hprobed =>
      cases around with
      | nil =>
        rw [run_nil, hphase]
        exact .probing _ _
      | cons s around =>
        obtain ⟨more, b', phase, hgoes, hr, hreach⟩ : Brings index step rest before part b (b.actIn plan s) := by
          rw [actIn_takeProbe plan hphase]
          refine takeProbe_brings hphase hwatcher ?_
          rw [hphase]
          exact .probing deadline hr htyped htraffic hprobed
        rw [run_cons, hr]
        refine run_stuck around (part ++ more) ?_ ?_ hreach fun d hd => ?_
        · show b'.line.past = _
          rw [hgoes.line.past, hpast, List.append_assoc]
        · rw [← List.append_assoc]
          exact hgoes.watcher hwatcher
        · rw [← hr]
          exact hnever (s :: d) (List.cons_prefix_cons.mpr ⟨rfl, hd⟩)

/-! ### Nothing but echoes -/

/-- What has gone over the line in a run. -/
def partIn (plan : Plan) (b : Booth) (around : List Surroundings) : List Happening :=
  (b.run plan around).line.past.drop b.line.past.length

/-- All along a run nothing is heard but echoes of what has been typed by then, in the run or earlier. -/
def HearsEchoes (plan : Plan) (earlier : List String) (b : Booth) (around : List Surroundings) : Prop :=
  ∀ d, d <+: around → MadeOfEchoes (earlier ++ typedIn (b.partIn plan d)) (heardIn (b.partIn plan d))

theorem HearsEchoes.of_prefix {earlier : List String} {around d : List Surroundings} (h : HearsEchoes plan earlier b around)
    (hd : d <+: around) : HearsEchoes plan earlier b d := fun e he => h e (he.trans hd)

theorem HearsEchoes.stuck {earlier : List String} {around : List Surroundings} (h : HearsEchoes plan earlier b around)
    (hphase : b.phase = .between index (step :: rest)) (hwatcher : b.line.watcher = .follow {} b.line.past)
    (hr : step.readiness ≠ .exit) (hplain : holds step.text (markerText index) = false)
    (hearlier : ∀ text ∈ earlier, ∀ bytes, Echo text bytes → Noise index bytes) :
    Stuck index step rest (b.run plan around).phase := by
  cases around with
  | nil =>
    rw [run_nil, hphase]
    exact .before
  | cons s around =>
    obtain ⟨more, b', phase, hgoes, hreached, hreach⟩ : Brings index step rest b.line.past [] b (b.actIn plan s) := by
      rw [actIn_takeStep plan hphase]
      exact takeStep_brings hwatcher index step rest
    rw [run_cons, hreached]
    refine run_stuck around more hgoes.line.past (hgoes.watcher hwatcher) hreach fun d hd part hpast hconfirmed => ?_
    have hpart : b.partIn plan (s :: d) = part := by
      rw [partIn, run_cons, hreached, hpast, List.drop_left]
    have hechoes := h (s :: d) (List.cons_prefix_cons.mpr ⟨rfl, hd⟩)
    rw [hpart] at hechoes
    refine hechoes.not_answered (fun text htext bytes hecho => ?_) (?_ : Answered index b.line.past part)
    · rcases List.mem_append.mp htext with htext | htext
      · exact hearlier text htext bytes hecho
      · obtain ⟨n, -, htyped⟩ := hconfirmed.typed
        exact noise_of_echo (htyped ▸ htext) hplain hecho
    · have hproven := hconfirmed.proven
      split at hproven
      · exact hproven
      · exact hproven
      · next hexit => exact absurd hexit hr

/-- Within its actions a step that stays stuck fails, and the recording is over after one action more. -/
theorem done_of_stuck (hbounded : plan.settings.recorder.Bounded) (hphase : b.phase = .between index (step :: rest))
    (htimeout : step.timeout.isFinite = true) (around : List Surroundings)
    (hstuck : ∀ d, d <+: around → Stuck index step rest (b.run plan d).phase) (hlength : step.actions plan + 1 ≤ around.length) :
    ∃ failure, step.FailsBy failure ∧ (b.run plan around).phase = .done (.error failure) := by
  have hends : Within plan (fun r => r.phase = .between (index + 1) rest ∨ ∃ result, r.phase = .done result)
      (step.actions plan + 1) b := by
    refine (step_leaves hbounded hphase htimeout).trans fun r hleaves => ?_
    obtain ⟨hnext | ⟨f, hfailing⟩, -⟩ := hleaves
    · exact .here (Or.inl hnext)
    · exact (failing_done hfailing le_rfl).mono fun r hdone => Or.inr hdone.1
  obtain ⟨d, ⟨more, rfl⟩, hend⟩ := hends.run around hlength
  have hthere := hstuck d (List.prefix_append _ _)
  rcases hend with hnext | ⟨result, hdone⟩
  · rw [hnext] at hthere
    -- The place behind the step has another number.
    generalize index + 1 = i at hthere
    cases hthere
  · rw [run_append, (run_of_done plan hdone more).1, hdone]
    rw [hdone] at hthere
    cases hthere with
    | done hfails => exact ⟨_, hfails, rfl⟩

/-! ### Nothing breaks -/

/-- The device takes all that is typed, and closing the session meets no fault but one of the system. -/
structure Unhindered (b : Booth) : Prop where
  takes : ∀ n, b.line.terminal.device.writeFault n = none
  closes : ∀ m ∈ b.session.master, ∀ f ∈ m.closeFault, f.isSystem

/-- No fault has broken off the recording, and none will. -/
structure Unbroken (b : Booth) : Prop where
  orderly : b.Orderly
  unhindered : b.phase.isBusy = true → b.Unhindered
  failing : ∀ f, b.phase ≠ .failing (.fault f)
  done : ∀ f, b.phase ≠ .done (.error (.fault f))

theorem Unhindered.heard (h : b.Unhindered) (text : String) (marker : Bytes) (start : Int) (span : Span) (n : Nat) :
    ((b.line.type text).2.waitFor marker start span).line.terminal.device.writeFault n = none := by
  rw [(Line.quiet_waitFor _ _ _ _).device]
  exact (Terminal.type_device _ _ text).symm ▸ h.takes n

theorem Unhindered.takeStep (h : b.Unhindered) (hopen : b.session.isOpen = true) (hr : step.readiness ≠ .exit) :
    (b.takeStep index step rest).Unhindered ∧ ∀ f, (b.takeStep index step rest).phase ≠ .failing (.fault f) := by
  unfold Booth.takeStep
  dsimp only
  split
  · rw [type_of_takes hopen (Line.type_takes h.takes _)]
    unfold hear
    dsimp only
    split <;> exact ⟨⟨h.heard _ _ _ _, h.closes⟩, nofun⟩
  · next hexit => exact absurd hexit hr
  · unfold typeCommand
    split
    · exact ⟨⟨h.takes, h.closes⟩, nofun⟩
    · rw [type_of_takes hopen (Line.type_takes h.takes _)]
      exact ⟨⟨(Terminal.type_device _ _ step.line).symm ▸ h.takes, h.closes⟩, nofun⟩

theorem Unhindered.takeProbe {start : Nat} {deadline : Deadline} (h : b.Unhindered) (hopen : b.session.isOpen = true)
    (hphase : b.phase = .probing index step start deadline rest) (host : Host) :
    (b.takeProbe plan host index step start deadline rest).1.Unhindered ∧
      ∀ f, (b.takeProbe plan host index step start deadline rest).1.phase ≠ .failing (.fault f) := by
  unfold Booth.takeProbe
  split
  · exact ⟨⟨h.takes, h.closes⟩, nofun⟩
  · dsimp only
    rw [type_of_takes hopen (Line.type_takes h.takes _)]
    unfold hear
    dsimp only
    split
    · exact ⟨⟨h.heard _ _ _ _, h.closes⟩, nofun⟩
    · exact ⟨⟨h.heard _ _ _ _, h.closes⟩, fun f hfailing => by cases hphase.symm.trans hfailing⟩

theorem begin_unhindered {target : Target} {now : Time} {s : Surroundings}
    (htakes : ∀ n, s.host.nextDevice.writeFault n = none) (hcloses : ∀ f ∈ s.host.nextDevice.closeFault, f.isSystem)
    (hbusy : ((fresh target now).run plan [s]).phase.isBusy = true) : ((fresh target now).run plan [s]).Unhindered := by
  have hbegin : (fresh target now).run plan [s] = ((fresh target now).begin plan s.host).1 := rfl
  have hdevice : (Terminal.begin s.host.nextDevice now).device = s.host.nextDevice := (Course.begun now).device
  rw [hbegin] at hbusy ⊢
  rcases start_cases plan s.host with ⟨e, _, _, _, hstart, -⟩ | ⟨session, h₁, _, master, hstart, hm, -⟩
  · rw [begin_of_error hstart] at hbusy
    cases hbusy
  · have hopened (phase : Phase) : (((fresh target now).opened s.host.nextDevice session).goTo phase).Unhindered := by
      refine ⟨fun n => (congrArg (·.writeFault n) hdevice).trans (htakes n), fun m hmaster f hf => ?_⟩
      cases hm.symm.trans hmaster
      exact hcloses f hf
    cases hscript : script plan.settings.recorder target with
    | error e =>
      rw [begin_of_unscripted (b := fresh target now) hstart hscript]
      exact hopened _
    | ok steps =>
      rw [begin_of_scripted (b := fresh target now) hstart hscript]
      exact hopened _

theorem Unbroken.actIn (h : b.Unbroken) (hstuck : Stuck index step rest b.phase) (hr : step.readiness ≠ .exit) (plan : Plan)
    (s : Surroundings) : (b.actIn plan s).Unbroken := by
  have horderly : (b.actIn plan s).Orderly := by
    obtain ⟨_, hconducts⟩ := b.act_conducts h.orderly plan s.files s.host
    exact hconducts.orderly
  have hopen := h.orderly.isOpen
  have hunhindered := h.unhindered
  -- At a step the booth stays open and busy, so what is left is that nothing hinders it and no fault breaks it off.
  have hsteps (hr : (b.actIn plan s).Unhindered ∧ ∀ f, (b.actIn plan s).phase ≠ .failing (.fault f))
      (hbusy : (b.actIn plan s).phase.isBusy = true) : (b.actIn plan s).Unbroken :=
    ⟨horderly, fun _ => hr.1, hr.2, fun f hdone => by rw [hdone] at hbusy; cases hbusy⟩
  generalize hphase : b.phase = phase at hstuck hopen hunhindered
  cases hstuck with
  | before =>
    rw [actIn_takeStep plan hphase] at hsteps ⊢
    exact hsteps ((hunhindered rfl).takeStep hopen hr) (b.takeStep_stays index step rest).2
  | probing start deadline =>
    rw [actIn_takeProbe plan hphase] at hsteps ⊢
    exact hsteps ((hunhindered rfl).takeProbe hopen hphase s.host)
      (takeProbe_stays (hphase ▸ rfl) plan s.host index step start deadline rest).2
  | @failing failure hfails =>
    obtain ⟨m, hm, hmaster⟩ := Session.isOpen_iff.mp hopen
    obtain ⟨hact, -⟩ := actIn_failing plan hphase hm hmaster ((hunhindered rfl).closes m hm) s
    have hfailure := h.failing
    rw [hphase] at hfailure
    rw [hact] at horderly ⊢
    exact ⟨horderly, nofun, nofun, fun f hdone => hfailure f (by cases hdone; rfl)⟩
  | done =>
    have hact : b.actIn plan s = b := congrArg (·.1) (act_done hphase)
    rwa [hact]

theorem Unbroken.run (hr : step.readiness ≠ .exit) (plan : Plan) : ∀ (around : List Surroundings) {b : Booth}, b.Unbroken →
    (∀ d, d <+: around → Stuck index step rest (b.run plan d).phase) → (b.run plan around).Unbroken
  | [], _, h, _ => h
  | s :: around, _, h, hstuck => by
    have hhere := hstuck [] List.nil_prefix
    refine Unbroken.run hr plan around (h.actIn hhere hr plan s) fun d hd => ?_
    exact hstuck (s :: d) (List.cons_prefix_cons.mpr ⟨rfl, hd⟩)

/-! ### Commands that answer for themselves -/

/-- The step is confirmed at a time, unless it is disturbed. -/
def Passes (index start : Nat) (rest : List Step) (now : Time) (r : Booth) : Prop :=
  (r.phase = .between (index + 1) rest ∧ r.now = now) ∨ Disturbed start r

/-- A marker that the device shows when a text is typed is found at once, unless more is heard than a window shows. -/
theorem wait_of_shown {l l' : Line} {text : String} {start : Nat} {part : List Happening} (hl : l.Attentive)
    (hwatcher : l.watcher = .follow {} l.past) (hstart : start = (heardIn l.past).length)
    (hshows : .output (shown text) ∈ (l.terminal.device.react (l.terminal.typed.map (·.2)) text).atOnce)
    (htakes : (l.type text).1 = none) (hopen : (l.type text).2.watcher.ended = false)
    (hmarker : marker index <:+: shown text) (hgoes : (l.type text).2.Goes part l') (span : Span) :
    l'.waitFor (marker index) start span = ⟨true, l', false⟩ ∨
      start + 1048576 < (heardIn (l'.waitFor (marker index) start span).line.past).length := by
  obtain ⟨⟨items, htype, hread⟩, -⟩ := hl.type_reads htakes hopen
  have hne : shown text ≠ [] := fun h => marker_ne_nil index (List.infix_nil.mp (h ▸ hmarker))
  have hchunk : .read (.chunk (shown text)) ∈ .typed text :: items.map .read ++ part :=
    List.mem_append_left _ (List.mem_cons_of_mem _ (List.mem_map_of_mem (hread _ hne hshows)))
  rcases found_of_heard hwatcher hstart.le (htype.trans hgoes) hchunk hmarker with hfound | hlong
  · exact Or.inl (Line.waitFor_of_verdict (if_pos hfound) span)
  · right
    obtain ⟨later, hwait⟩ := l'.waitFor_hears (marker index) start span
    rw [hwait.past, Output.heardIn_append, List.length_append]
    omega

theorem isInfix_shown_append {s : String} (h : holds s (markerText index) = true) (t : String) :
    marker index <:+: shown (s ++ t) := by
  refine isInfix_shown (holds_iff.mpr ((holds_iff.mp h).trans ?_))
  rw [String.toList_append]
  exact (List.prefix_append _ _).isInfix

/-- The booth attends to a device that shows the command of a step at once when it is typed. -/
structure Mirrored (index : Nat) (step : Step) (b : Booth) : Prop where
  attentive : b.line.Attentive
  watcher : b.line.watcher = .follow {} b.line.past
  shows : ∀ text ∈ step.texts index 0,
    .output (shown text) ∈ (b.line.terminal.device.react (b.line.terminal.typed.map (·.2)) text).atOnce

theorem Mirrored.start (hb : Mirrored index step b) : b.line.watcher.position = (heardIn b.line.past).length := by
  rw [hb.watcher, position_follow]

theorem Mirrored.takeStep_chained (hb : Mirrored index step b) (hr : step.readiness = .chained)
    (hmarker : holds step.text (markerText index) = true) :
    Passes index b.line.watcher.position rest b.now (b.takeStep index step rest) := by
  -- The command itself has brought the marker by the time at which the wait begins.
  have hthere (htakes : (b.line.type (step.chainedLine index)).1 = none) :
      b.chainedWait index step = ⟨true, (b.line.type (step.chainedLine index)).2, false⟩ ∨
        ∀ r : Booth, r.line = (b.chainedWait index step).line → Disturbed b.line.watcher.position r := by
    cases hended : (b.line.type (step.chainedLine index)).2.watcher.ended with
    | true =>
      have hstill : (b.chainedWait index step).line.watcher.ended = true := Line.ended_waitFor hended _
      exact Or.inr fun r hr => .ended (hr ▸ hstill)
    | false =>
      have hshows := hb.shows (step.chainedLine index) (by simp [Step.texts, hr])
      have hshown : marker index <:+: shown (step.chainedLine index) := by
        rw [Step.chainedLine, String.append_assoc, String.append_assoc]
        exact isInfix_shown_append hmarker _
      exact (wait_of_shown hb.attentive hb.watcher hb.start hshows htakes hended hshown (.refl _) _).imp_right
        fun hlong r hr => .flooded (hr ▸ hlong)
  have hchains := b.takeStep_chained_cases index rest hr
  generalize b.takeStep index step rest = r at hchains ⊢
  cases hchains with
  | broken hbroken => exact Or.inr (.broken hbroken.phase)
  | answered htakes =>
    rcases hthere htakes with hwait | hdisturbed
    · rw [hwait]
      exact Or.inl ⟨rfl, rfl⟩
    · exact Or.inr (hdisturbed _ rfl)
  | unanswered htakes hfound =>
    rcases hthere htakes with hwait | hdisturbed
    · rw [hwait] at hfound
      cases hfound
    · exact Or.inr (hdisturbed _ rfl)

theorem probe_passes {start : Nat} {t : Time} (hphase : b.phase = .probing index step start (.at t) rest) (hahead : b.now < t)
    (hthere : b.line.watcher.ended = false → ∀ span,
      (b.line.type (probeLine index)).2.waitFor (marker index) start span = ⟨true, (b.line.type (probeLine index)).2, false⟩ ∨
        start + 1048576 < (heardIn ((b.line.type (probeLine index)).2.waitFor (marker index) start span).line.past).length)
    (s : Surroundings) : Passes index start rest b.now (b.actIn plan s) := by
  have hprobes := actIn_probing plan hphase s
  generalize b.actIn plan s = r at hprobes ⊢
  cases hprobes with
  | gaveUp hover => exact Or.inr (.ended (hover.resolve_right (not_le.mpr hahead)))
  | broken _ _ hbroken => exact Or.inr (.broken hbroken.phase)
  | answered hopen =>
    rcases hthere hopen (patience plan b.now t) with hwait | hlong
    · have hnow : (probeWait plan b index start t).line.now = b.now := by
        rw [probeWait, hwait]
        rfl
      exact Or.inl ⟨rfl, hnow⟩
    · exact Or.inr (.flooded hlong)
  | unanswered hopen _ _ hfound =>
    rcases hthere hopen (patience plan b.now t) with hwait | hlong
    · rw [probeWait, hwait] at hfound
      cases hfound
    · exact Or.inr (.flooded hlong)

theorem Mirrored.takeStep_probe (hb : Mirrored index step b) (hr : step.readiness = .probe)
    (hmarker : holds step.text (markerText index) = true) (htimeout : step.timeout.isFinite = true)
    (hpositive : 0 < step.timeout.seconds) :
    Within plan (Passes index b.line.watcher.position rest b.now) 1 (b.takeStep index step rest) := by
  rcases takeStep_probe_cases b index rest hr htimeout with ⟨-, hbroken⟩ | hbegins
  · exact .here (Or.inr (.broken hbroken.phase))
  · obtain ⟨hline, htext, htakes⟩ := hbegins.line.resolve_left fun ⟨_, hempty⟩ => by
      rw [String.isEmpty_iff.mp hempty] at hmarker
      exact not_holds_marker (by decide) hmarker
    have hshows := hb.shows step.line (by simp [Step.texts, hr, Step.command, htext])
    have hnow := hbegins.now
    refine .act fun s => .here (hnow ▸ probe_passes hbegins.phase (by linarith) (fun hopen span => ?_) s)
    rw [hline] at hopen ⊢
    obtain ⟨items, hgoes⟩ := (b.line.type step.line).2.type_goes (probeLine index)
    exact wait_of_shown hb.attentive hb.watcher hb.start hshows htakes hopen (isInfix_shown_append hmarker _) hgoes span

theorem Mirrored.passes (hb : Mirrored index step b) (hphase : b.phase = .between index (step :: rest)) (hr : step.readiness ≠ .exit)
    (hmarker : holds step.text (markerText index) = true) (htimeout : step.timeout.isFinite = true)
    (hpositive : 0 < step.timeout.seconds) : Within plan (Passes index b.line.watcher.position rest b.now) 2 b := by
  refine .act fun s => ?_
  rw [actIn_takeStep plan hphase]
  cases hreadiness : step.readiness with
  | exit => exact absurd hreadiness hr
  | chained => exact .here (hb.takeStep_chained hreadiness hmarker)
  | probe => exact hb.takeStep_probe hreadiness hmarker htimeout hpositive

end Booth

/-! ### Recordings -/

theorem Follows.mem_texts {steps : List Step} {target : Target} {b : Booth} (hb : Follows steps target b) {text : String}
    (h : text ∈ typedIn b.line.past) :
    ∃ (k : Nat) (step : Step) (n : Nat), steps[k]? = some step ∧ text ∈ step.texts (k + 1) n := by
  obtain ⟨x, hx, htext⟩ := List.mem_filterMap.mp h
  cases x with
  | typed t =>
    cases htext
    obtain ⟨p, q, hpast⟩ := List.append_of_mem hx
    obtain ⟨k, step, before, part, n, -, hstep, -, htexts⟩ := hb.typed.inOrder p q text hpast
    exact ⟨k, step, n, hstep, htexts.subset (List.mem_append_right _ List.mem_cons_self)⟩
  | attached | detached | read | exited | closed => cases htext

theorem Booth.orderly_run (plan : Plan) (target : Target) (now : Time) (around : List Surroundings) :
    ((Booth.fresh target now).run plan around).Orderly := by
  refine run_keeps (fun b s hb => ?_) around (orderly_fresh target now)
  obtain ⟨_, hconducts⟩ := b.act_conducts hb plan s.files s.host
  exact hconducts.orderly

theorem timeouts_default {target : Target} {steps : List Step} (hscript : script {} target = .ok steps) :
    ∀ step ∈ steps, step.timeout.isFinite = true ∧ 0 < step.timeout.seconds := by
  rw [script_default] at hscript
  cases hscript
  have hready : (Number.Binary64.ofInt 15).isFinite = true ∧ 0 < (Number.Binary64.ofInt 15).seconds := by decide +kernel
  have hlogger : (Number.Binary64.ofInt 300).isFinite = true ∧ 0 < (Number.Binary64.ofInt 300).seconds := by decide +kernel
  have hexit : (Number.Binary64.ofInt 30).isFinite = true ∧ 0 < (Number.Binary64.ofInt 30).seconds := by decide +kernel
  simp only [List.forall_mem_cons, List.not_mem_nil, false_implies, implies_true, and_true]
  exact ⟨hready, hready, hready, hlogger, hexit, hexit, hexit⟩

/-- With the default settings echoes confirm no step, unless its own command spells a path with its own marker. A step in
    which nothing is heard but echoes of what has been typed since it began stays where it is until it fails, within its
    actions, and when no fault of writing or closing comes first it fails because it is not ready in time. Echoes of what
    was typed before the step change nothing, unless a path has its marker. But a command with the marker of its own step
    passes at once, with no answer and in no time, on every device that shows it when it is typed. -/
theorem echoes_confirm_only_marked_commands {plan : Plan} (hplan : plan.settings.recorder = {}) (target : Target) (now : Time)
    (around : List Surroundings) :
    let b := (Booth.fresh target now).run plan around
    ∀ index step rest, b.phase = .between index (step :: rest) → step.readiness ≠ .exit →
      (∀ (earlier : List String) (more : List Surroundings),
        (¬target.Forges index ∧ earlier = []) ∨ (¬target.Mentions index ∧ ∀ text ∈ earlier, text ∈ typedIn b.line.past) →
        b.HearsEchoes plan earlier more →
        Stuck index step rest (b.run plan more).phase ∧
        (step.actions plan + 1 ≤ more.length →
          (∃ failure, step.FailsBy failure ∧ (b.run plan more).phase = .done (.error failure)) ∧
          (b.Unhindered → (b.run plan more).phase = .done (.error (Booth.unready step))))) ∧
      (target.Forges index → (∀ text ∈ step.texts index 0,
          .output (shown text) ∈ (b.line.terminal.device.react (b.line.terminal.typed.map (·.2)) text).atOnce) →
        b.Within plan (Booth.Passes index b.line.watcher.position rest b.now) 2) := by
  intro b index step rest hphase hr
  obtain ⟨steps, k, hscript, hb, rfl, hstep⟩ := step_of_between hphase
  have hbounded : plan.settings.recorder.Bounded := hplan ▸ RecorderSettings.bounded_default
  rw [hplan] at hscript
  obtain ⟨hfinite, hpositive⟩ := timeouts_default hscript step (List.mem_of_getElem? hstep)
  refine ⟨fun earlier more hplain hechoes => ?_, fun hforges hshows => ?_⟩
  · have hcommand : holds step.text (markerText (k + 1)) = false := by
      rw [Bool.eq_false_iff]
      intro hholds
      have hforges : target.Forges (k + 1) := (holds_command hscript hstep _).mp hholds
      rcases hplain with ⟨hnone, -⟩ | ⟨hnone, -⟩
      · exact hnone hforges
      · exact hnone ⟨_, hforges⟩
    have hearlier : ∀ text ∈ earlier, ∀ bytes, Echo text bytes → Noise (k + 1) bytes := by
      rcases hplain with ⟨-, rfl⟩ | ⟨hnone, htyped⟩
      · simp
      · intro text htext bytes hecho
        obtain ⟨j, earlierStep, n, hj, hmem⟩ := hb.mem_texts (htyped text htext)
        refine noise_of_echo hmem (Bool.eq_false_iff.mpr fun hholds => hnone ?_) hecho
        exact ⟨_, (holds_command hscript hj _).mp hholds⟩
    have hstuck : ∀ d, d <+: more → Stuck (k + 1) step rest (b.run plan d).phase := fun d hd =>
      (hechoes.of_prefix hd).stuck hphase hb.watcher hr hcommand hearlier
    refine ⟨hstuck more List.prefix_rfl, fun hlength => ?_⟩
    obtain ⟨failure, hfails, hdone⟩ := Booth.done_of_stuck hbounded hphase hfinite more hstuck hlength
    refine ⟨⟨failure, hfails, hdone⟩, fun hunhindered => ?_⟩
    have hunbroken : b.Unbroken := by
      refine ⟨Booth.orderly_run plan target now around, fun _ => hunhindered, fun f hfailing => ?_, fun f hdone => ?_⟩
      · cases hphase.symm.trans hfailing
      · cases hphase.symm.trans hdone
    rcases hfails with rfl | ⟨f, rfl⟩
    · exact hdone
    · exact absurd hdone ((hunbroken.run hr plan more hstuck).done f)
  · have hattends : b.Attends := Booth.attends_run plan target now around
    unfold Booth.Attends at hattends
    rw [hphase] at hattends
    have hmirrored : Booth.Mirrored (k + 1) step b := ⟨hattends, hb.watcher, hshows⟩
    exact hmirrored.passes hphase hr ((holds_command hscript hstep _).mpr hforges) hfinite hpositive

theorem madeOfEchoes_flatMap (texts : List String) : MadeOfEchoes texts (texts.flatMap shown) := by
  refine ⟨texts.map shown, fun echo hecho => ?_, ?_⟩
  · obtain ⟨text, htext, rfl⟩ := List.mem_map.mp hecho
    exact ⟨text, htext, Or.inr rfl⟩
  · have hflat : texts.flatMap shown = (texts.map shown).flatten := List.flatMap_def
    exact hflat ▸ List.prefix_refl _

/-- A terminal that shows what is typed, with a shell that answers the probes of the first three steps. -/
def briefShell : Device where
  react _ text := { atOnce := .output (shown text) ::
    ([1, 2, 3].filter fun j => text == probeLine j).map fun j => .output (marker j ++ [10]) }

/-- On a terminal that only shows what is typed the first step is not ready. Where the path of the logger has the marker of
    its step, that is taken to be done as soon as its command is typed, though nothing is heard but the echo of that. -/
theorem marked_path_answers_for_logger :
    let r : RecorderSettings := {}
    let target : Target := { logFile := "log", ipcFile := "__ptyshell_ready_4__" }
    let shell : Step := ⟨"shell", "", r.readyTimeout, .probe⟩
    let logger : Step := ⟨"logger", "session-logger __ptyshell_ready_4__ false", r.loggerTimeout, .chained⟩
    let leaving : List Step := [⟨"exit record", "exit", r.exitTimeout, .probe⟩, ⟨"exit screen", "exit", r.exitTimeout, .probe⟩,
      ⟨"exit shell", "exit", r.exitTimeout, .exit⟩]
    let idle : Surroundings := { host.devices := [mirror] }
    let brief : Surroundings := { host.devices := [briefShell] }
    let b := (Booth.fresh target 0).run {} [idle]
    let c := (Booth.fresh target 0).run {} (List.replicate 7 brief)
    (b.HearsEchoes {} [] (List.replicate 19 idle) ∧
      (b.run {} (List.replicate 19 idle)).phase = .done (.error (Booth.unready shell))) ∧
    target.Forges 4 ∧ c.phase = .between 4 (logger :: leaving) ∧
      c.Within {} (Booth.Passes 4 c.line.watcher.position leaving c.now) 2 ∧
      (c.actIn {} brief).phase = .between 5 leaving ∧ heardIn (c.partIn {} [brief]) = shown (logger.chainedLine 4) := by
  intro r target shell logger leaving idle brief b c
  have hb : b.phase = .between 1 (shell :: ⟨"screen", "screen -h 30000", r.readyTimeout, .probe⟩ ::
      ⟨"record", "script log", r.readyTimeout, .probe⟩ :: logger :: leaving) := by decide +kernel
  obtain ⟨hc, hshows, hnext, hheard⟩ : c.phase = .between 4 (logger :: leaving) ∧ (∀ text ∈ logger.texts 4 0,
      .output (shown text) ∈ (c.line.terminal.device.react (c.line.terminal.typed.map (·.2)) text).atOnce) ∧
      (c.actIn {} brief).phase = .between 5 leaving ∧ heardIn (c.partIn {} [brief]) = shown (logger.chainedLine 4) := by
    decide +kernel
  have hforges : target.Forges 4 := ⟨"__ptyshell_ready_4__", rfl, by decide +kernel⟩
  have hechoes : b.HearsEchoes {} [] (List.replicate 19 idle) := by
    have hheard : ∀ n < 20, heardIn (b.partIn {} (List.replicate n idle)) =
        (typedIn (b.partIn {} (List.replicate n idle))).flatMap shown := by decide +kernel
    intro d hd
    obtain ⟨hlength, hd⟩ := List.prefix_replicate_iff.mp hd
    have hn := hheard d.length (by omega)
    rw [← hd] at hn
    rw [hn, List.nil_append]
    exact madeOfEchoes_flatMap _
  have hbusy : b.phase.isBusy = true := by rw [hb]; rfl
  have hunhindered : b.Unhindered := by
    refine Booth.begin_unhindered (fun _ => rfl) (fun f hf => ?_) ?_
    · cases hf
    · with_reducible exact hbusy
  have hunforged : ¬target.Forges 1 := by
    rintro ⟨path, hpath, -⟩
    cases hpath
  obtain ⟨hplain, -⟩ := @echoes_confirm_only_marked_commands {} rfl target 0 [idle] 1 shell _ hb (by decide)
  obtain ⟨-, hmarked⟩ := @echoes_confirm_only_marked_commands {} rfl target 0 (List.replicate 7 brief) 4 logger leaving hc
    (by decide)
  obtain ⟨-, hdone⟩ := hplain [] (List.replicate 19 idle) (Or.inl ⟨hunforged, rfl⟩) hechoes
  have hunready := (hdone (by decide +kernel)).2 hunhindered
  have hpasses := hmarked hforges (by with_reducible exact hshows)
  refine ⟨⟨hechoes, ?_⟩, hforges, hc, ?_, hnext, hheard⟩
  · with_reducible exact hunready
  · with_reducible exact hpasses

end Recording

end Teletype
