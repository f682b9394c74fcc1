import Teletype.Proofs.Recording.Release

/-! # Waiting for a transcript

A recording that has closed its session looks at its transcript at once and then again and again. It ends with the first
look that finds the transcript as large as it was when it was last there, or, after all looks that its span allows for,
with a warning. Only a look that the system refuses makes it fail. -/

namespace Teletype.Recording

open Files (History)

section
variable {plan : Plan} {target : Target} {now : Time} {s : Surroundings} {around : List Surroundings} {index : Nat}

/-- After the last step of a recording the session that it started is still open. -/
theorem session_open_after_last (hcloses : s.host.nextDevice.closeFault = none)
    (hlast : ((Booth.fresh target now).run plan (s :: around)).phase = .between index []) :
    let b := (Booth.fresh target now).run plan (s :: around)
    b.target = target ∧ ∃ m, b.session.master = some m ∧ m.isOpen = true ∧ m.closeFault = none := by
  intro b
  rcases Booth.start_cases plan s.host with
    ⟨e, session, h₁, events, hstart, -, hjournal, -⟩ | ⟨session, h₁, events, master, hstart, hm, -, -⟩
  · obtain ⟨hdone, -⟩ := run_refused hstart hjournal target now around
    rw [hlast] at hdone
    cases hdone
  · obtain ⟨steps, huses, hsteps, -⟩ := Uses.begin target now hstart
    have hplain : ∀ f ∈ s.host.nextDevice.closeFault, f.isSystem = true := by
      rw [hcloses]
      nofun
    rcases huses.run hm rfl hplain around hsteps with ⟨hb, -⟩ | ⟨-, hover, -⟩
    · exact ⟨hb.follows.target, _, hb.session ▸ hm, rfl, hcloses⟩
    · rw [← Booth.run_cons, hlast] at hover
      cases hover

/-- A recording whose session closes without a fault after the last step looks at its transcript at regular intervals,
    the first time at once and always before its time is over. The wait ends with the first look that finds the transcript
    settled, and then nothing is told, or else at the first time for a look at which the time is over, with one warning;
    either way the recording ends with the path of its transcript. It fails in one case only: the system refuses one of
    these looks, since the path is too long. -/
theorem recording_waits_for_transcript {seconds : Rat} (hcloses : s.host.nextDevice.closeFault = none)
    (hflush : plan.flush = .finite seconds)
    (hlast : ((Booth.fresh target now).run plan (s :: around)).phase = .between index []) (t : Surroundings)
    (looks : Nat → Surroundings) :
    let b := ((Booth.fresh target now).run plan (s :: around)).actIn plan t
    let path := target.logFile
    let l := looksAt path b.now (fun i => i * Booth.settleInterval < seconds) looks
    ∃ last events result, l.End path last events result ∧ (History.isTooLong path = false → result = .ok path) ∧ ∀ n,
      let r := b.run plan ((List.range n).map looks)
      let told := b.asksIn plan ((List.range n).map looks)
      if n ≤ last then r.phase = .settling (.at (b.now + seconds)) (seen l.size n) ∧
        r.now = b.now + n * Booth.settleInterval ∧ told = []
      else r.phase = .done result ∧ r.now = b.now + last * Booth.settleInterval ∧ told = events := by
  intro b path l
  obtain ⟨htarget, m, hm, hopen, hfault⟩ := session_open_after_last hcloses hlast
  have hplain : ∀ f ∈ m.closeFault, f.isSystem = true := by
    rw [hfault]
    nofun
  obtain ⟨hact, -⟩ := Booth.actIn_between_nil plan hlast hm hopen hplain t
  have hb : b = _ := hact
  have hpath : b.target.logFile = path := by
    rw [hb]
    exact congrArg Target.logFile htarget
  have hphase : b.phase = .settling (.at (b.now + seconds)) none := by
    have hnow := Booth.closed_now ((Booth.fresh target now).run plan (s :: around)) m
    have hdeadline : Deadline.after b.now plan.flush = .at (b.now + seconds) := by
      rw [hflush]
      rfl
    rw [← hdeadline, hb]
    unfold Booth.afterLast
    rw [hfault]
    exact hnow ▸ rfl
  have hlooks : b.looks (.at (b.now + seconds)) looks = l := by
    have hahead : (fun i : Nat => (Deadline.at (b.now + seconds)).isAhead (b.now + i * Booth.settleInterval) = true) =
        fun i : Nat => i * Booth.settleInterval < seconds := by
      funext i
      rw [Deadline.isAhead, decide_eq_true_eq, add_lt_add_iff_left]
    rw [Booth.looks, hpath, hahead]
  -- Sooner or later a look would come too late.
  obtain ⟨n, -, hlate⟩ := Studio.actionsIn_eq_succ Booth.settleInterval_pos seconds
  have hstops : ¬l.GoesOn n := fun hgoes => absurd hlate (not_le_of_gt hgoes.inTime)
  obtain ⟨last, -, events, result, hend⟩ := Looks.End.exists path hstops
  refine ⟨last, events, result, hend, hend.of_fits, fun n => ?_⟩
  dsimp only
  split
  · next hn =>
    have hgoes : ∀ i < n, (b.looks (.at (b.now + seconds)) looks).GoesOn i := fun i hi =>
      hlooks ▸ hend.before i (hi.trans_le hn)
    obtain ⟨hwaits, hnone⟩ := Booth.waits_of_goesOn plan hphase hgoes
    exact ⟨hlooks ▸ hwaits.phase, hwaits.now, hnone⟩
  · next hn => exact Booth.done_of_end plan hphase (hlooks ▸ hpath ▸ hend) (Nat.lt_of_not_le hn)

end

/-- Recordings as above that wait a second for their transcripts. -/
def briefPlan : Plan := { patientPlan with settings.recorder.flushTimeout := .ofInt 1 }

theorem wait_fails_at_long_path :
    let s : Surroundings := { host.devices := [promptDevice] }
    s.host.nextDevice.closeFault = none ∧ briefPlan.flush = .finite 1 ∧
      ((Booth.fresh longTarget 0).run briefPlan (s :: List.replicate 12 s)).phase = .between 8 [] ∧
      ((((Booth.fresh longTarget 0).run briefPlan (s :: List.replicate 12 s)).actIn briefPlan s).actIn briefPlan s).phase =
        .done (.error (.fault (pathTooLong longTarget.logFile))) := by
  intro s
  have hcloses : s.host.nextDevice.closeFault = none := rfl
  have hflush : briefPlan.flush = .finite 1 := by decide +kernel
  have hlast : ((Booth.fresh longTarget 0).run briefPlan (s :: List.replicate 12 s)).phase = .between 8 [] := by
    decide +kernel
  have hrefuses : ∀ now, s.files.refuses longTarget.logFile now = true := refuses_replicate (by decide)
  clear_value s
  generalize List.replicate 12 s = around at hlast ⊢
  generalize longTarget = target at hlast hrefuses ⊢
  obtain ⟨last, events, result, hend, -, hruns⟩ := recording_waits_for_transcript hcloses hflush hlast s fun _ => s
  obtain ⟨rfl, rfl⟩ := hend.of_refused (by simp [looksAt]) (hrefuses _)
  have hfirst := hruns 1
  dsimp only at hfirst
  rw [if_neg (by decide), List.range_one, List.map_singleton, Booth.run_cons, Booth.run_nil] at hfirst
  exact ⟨hcloses, hflush, hlast, hfirst.1⟩

end Teletype.Recording
