import Teletype.Proofs.CommandLine.Outcome
import Teletype.Proofs.Recording.Budget
import Teletype.Proofs.Recording.Conduct
import Teletype.Proofs.Recording.Probing
import Teletype.Proofs.Terminal.Typing

/-! # What recordings let through

A recording turns what it meets into failures of its own: a shell that does not start, a step that is not ready, a session
that is not closed. But it types its texts as they come. The fault of a write that fails is the failure of the recording
as it is, whatever the device did before, and so is that of looking at a path which is too long. -/

namespace Teletype.Recording

open CommandLine (Outcome Site printed recordInTurn_alone runRecord runRecord_of_done studioAt)
open Files (History)
open Output (Line)

/-- How a recording to a path may end on a host, if its last write met this fault or none. -/
inductive EndsBy (h : Host) (path : String) : Option Fault → Except Failure String → Prop
  | settled : EndsBy h path none (.ok path)
  | unstarted (f : Fault) : EndsBy h path none (.error (.start f))
  | unready (name : String) (timeout : Number.Binary64) : EndsBy h path none (.error (.unready name timeout))
  | unclosed (id : String) (f : Fault) : EndsBy h path none (.error (.close (.refused id f)))
  | unwritten (f : Fault) : EndsBy h path (some f) (.error (.fault f))
  | tooLong (hlong : History.isTooLong path = true) : EndsBy h path none (.error (.fault (pathTooLong path)))
  | unopened (f : Fault) (hopening : h.nextFaults.opening = some f) (hother : f.isSystem = false) :
      EndsBy h path none (.error (.fault f))

namespace Booth

/-- What the phase of a booth that has begun says of the fault that its last write met. -/
def Explains (h : Host) (path : String) (fault : Option Fault) : Phase → Prop
  | .waiting => False
  | .between _ _ | .probing _ _ _ _ _ | .settling _ _ => fault = none
  | .failing f => EndsBy h path fault (.error f)
  | .done result => EndsBy h path fault result

/-- The booth of a recording that has begun on a host: its phase tells what its last write met, and closing its session
    fails at most as a system call does. -/
structure Explained (h : Host) (target : Target) (b : Booth) : Prop where
  phase : Explains h target.logFile b.line.terminal.lastFault? b.phase
  closing : ∀ m ∈ b.session.master, ∀ f ∈ m.closeFault, f.isSystem = true
  target : b.target = target

variable {plan : Plan} {target : Target} {h : Host} {b : Booth} {index : Nat} {step : Step} {rest : List Step}

/-! ### Typing -/

/-- Where the write is no failure, what comes next is explained. -/
theorem Explained.type (hb : b.Explained h target) (hopen : b.session.isOpen = true) (text : String) {next : Booth → Booth}
    (hnext : ∀ line : Line, line.terminal.lastFault? = none → Explained h target (next { b with line })) :
    (b.type text next).Explained h target := by
  have hlast := b.line.type_lastFault? text
  rw [type_of_isOpen hopen]
  cases hfault : (b.line.type text).1 with
  | none => exact hnext _ (hlast.trans hfault)
  | some f =>
    refine ⟨?_, hb.closing, hb.target⟩
    show EndsBy h target.logFile (b.line.type text).2.terminal.lastFault? _
    rw [hlast, hfault]
    exact .unwritten f

theorem Explained.typeCommand (hb : b.Explained h target) (hopen : b.session.isOpen = true)
    (hlast : b.line.terminal.lastFault? = none) (step : Step) {next : Booth → Booth}
    (hnext : ∀ line : Line, line.terminal.lastFault? = none → Explained h target (next { b with line })) :
    (b.typeCommand step next).Explained h target := by
  unfold Booth.typeCommand
  split
  · exact hnext b.line hlast
  · exact hb.type hopen _ hnext

/-- A step that has typed what it types is confirmed or not ready. -/
theorem Explained.decided (hb : b.Explained h target) {line : Line} (hlast : line.terminal.lastFault? = none)
    (gaveWay found : Bool) (index : Nat) (step : Step) (rest : List Step) :
    Explained h target (if found then goTo { b with line, gaveWay } (.between index rest)
      else fail { b with line, gaveWay } (unready step)) := by
  split
  · exact ⟨hlast, hb.closing, hb.target⟩
  · refine ⟨?_, hb.closing, hb.target⟩
    show EndsBy h target.logFile line.terminal.lastFault? _
    rw [hlast]
    exact .unready _ _

/-! ### Actions -/

theorem Explained.takeStep (hb : b.Explained h target) (hopen : b.session.isOpen = true)
    (hlast : b.line.terminal.lastFault? = none) (index : Nat) (step : Step) (rest : List Step) :
    (b.takeStep index step rest).Explained h target := by
  unfold Booth.takeStep
  dsimp only
  split
  · refine hb.type hopen _ fun line hline => ?_
    exact hb.decided ((line.quiet_waitFor _ _ _).lastFault?.trans hline) _ _ _ _ _
  · refine hb.typeCommand hopen hlast step fun line hline => ?_
    exact hb.decided ((line.quiet_waitForExit _).lastFault?.trans hline) _ _ _ _ _
  · exact hb.typeCommand hopen hlast step fun line hline => ⟨hline, hb.closing, hb.target⟩

theorem Explained.takeProbe {start : Nat} {deadline : Deadline} (hb : b.Explained h target) (hopen : b.session.isOpen = true)
    (hphase : b.phase = .probing index step start deadline rest) (plan : Plan) (host : Host) :
    (b.takeProbe plan host index step start deadline rest).1.Explained h target := by
  have hlast : b.line.terminal.lastFault? = none := by
    have hexplains := hb.phase
    rwa [hphase] at hexplains
  unfold Booth.takeProbe
  split
  · refine ⟨?_, hb.closing, hb.target⟩
    show EndsBy h target.logFile b.line.terminal.lastFault? _
    rw [hlast]
    exact .unready _ _
  · dsimp only
    refine hb.type hopen _ fun line hline => ?_
    have hwait (span : Span) := (line.quiet_waitFor (marker index) start span).lastFault?.trans hline
    unfold hear
    dsimp only
    split
    · exact ⟨hwait _, hb.closing, hb.target⟩
    · refine ⟨?_, hb.closing, hb.target⟩
      show Explains h target.logFile _ b.phase
      rw [hphase]
      exact hwait _

/-- A session that is closed types nothing more. -/
theorem Explained.closed (hb : b.Explained h target) (m : Master) {phase : Phase}
    (hphase : Explains h target.logFile b.line.terminal.lastFault? phase) : ((b.closed m).goTo phase).Explained h target := by
  refine ⟨?_, ?_, hb.target⟩
  · show Explains h target.logFile b.line.detach.terminal.lastFault? phase
    rwa [b.line.quiet_detach.lastFault?]
  · rintro _ ⟨⟩
    nofun

theorem Explained.look (hb : b.Explained h target) {deadline : Deadline} {last : Option Nat}
    (hphase : b.phase = .settling deadline last) (files : History) (host : Host) :
    (b.look files host deadline last).1.Explained h target := by
  have hlast : b.line.terminal.lastFault? = none := by
    have hexplains := hb.phase
    rwa [hphase] at hexplains
  have hdone {result : Except Failure String} (hends : EndsBy h target.logFile none result) :
      (b.finish result).Explained h target := ⟨hlast ▸ hends, hb.closing, hb.target⟩
  unfold Booth.look
  dsimp only
  rw [hb.target]
  split
  · split
    · next f hsize =>
      obtain ⟨hrefuses, rfl⟩ := History.size?_eq_error_iff.mp hsize
      exact hdone (.tooLong (History.isTooLong_of_refuses hrefuses))
    · split
      · exact hdone .settled
      · exact ⟨(Terminal.quiet_runAgenda _ _ _).lastFault?.trans hlast, hb.closing, rfl⟩
  · exact hdone .settled

theorem Explained.actIn (hb : b.Explained h target) (horderly : b.Orderly) (plan : Plan) (s : Surroundings) :
    (b.actIn plan s).Explained h target := by
  have hexplains := hb.phase
  have hopen := horderly.isOpen
  cases hphase : b.phase with
  | waiting =>
    rw [hphase] at hexplains
    exact hexplains.elim
  | between index steps =>
    rw [hphase] at hexplains hopen
    cases steps with
    | nil =>
      -- After the last step the session is closed, and what that meets is wrapped.
      obtain ⟨m, hm, hmopen⟩ := Session.isOpen_iff.mp hopen
      rw [(actIn_between_nil plan hphase hm hmopen (hb.closing m hm) s).1]
      refine hb.closed m ?_
      rw [show b.line.terminal.lastFault? = none from hexplains]
      unfold afterLast
      split
      · rfl
      · exact .unclosed _ _
    | cons step rest =>
      rw [actIn_takeStep plan hphase]
      exact hb.takeStep hopen hexplains index step rest
  | probing index step start deadline rest =>
    rw [hphase] at hopen
    rw [actIn_takeProbe plan hphase]
    exact hb.takeProbe hopen hphase plan s.host
  | failing failure =>
    rw [hphase] at hexplains hopen
    obtain ⟨m, hm, hmopen⟩ := Session.isOpen_iff.mp hopen
    rw [(actIn_failing plan hphase hm hmopen (hb.closing m hm) s).1]
    exact hb.closed m hexplains
  | settling deadline last =>
    rw [actIn_settling plan hphase]
    exact hb.look hphase s.files s.host
  | done result =>
    have hact : b.actIn plan s = b := congrArg (·.1) (act_done hphase)
    rwa [hact]

/-! ### Beginning -/

/-- A start fails by a failure of its own, unless opening a terminal fails in another way than a system call; there is no
    master then. -/
theorem start_of_error {e : Failure} {session : Session} {h₁ : Host}
    (hhome : (Shell.environment plan.settings.shell plan.environment).isOk = true)
    (hspawning : ∀ f ∈ h.nextFaults.spawning, f.refusesSpawn = true) (hstart : start plan h = (.error e, session, h₁)) :
    session.master = none ∧
      ((∃ f, e = .start f) ∨ ∃ f, h.nextFaults.opening = some f ∧ f.isSystem = false ∧ e = .fault f) := by
  unfold start at hstart
  dsimp only at hstart
  cases henvironment : Shell.environment plan.settings.shell plan.environment with
  | error f =>
    rw [henvironment] at hhome
    cases hhome
  | ok environment =>
    rw [henvironment] at hstart
    have hstarts := Session.start_starts { id := h.name.1, command := Shell.argv plan.settings.shell "", environment } h.name.2
    dsimp only at hstart
    rw [hstart] at hstarts
    cases hstarts with
    | unopened f hopening =>
      cases hsystem : f.isSystem with
      | true => exact ⟨rfl, Or.inl ⟨f, rfl⟩⟩
      | false => exact ⟨rfl, Or.inr ⟨f, hopening, hsystem, rfl⟩⟩
    | refused f => exact ⟨rfl, Or.inl ⟨f, rfl⟩⟩
    | broken f _ hbroken hother =>
      cases hother.symm.trans (hspawning f hbroken)

theorem begin_explained (hfaults : HasPlainFaults h)
    (hhome : (Shell.environment plan.settings.shell plan.environment).isOk = true)
    (hscript : (script plan.settings.recorder target).isOk = true) (now : Time) :
    ((fresh target now).begin plan h).1.Explained h target := by
  rcases start_cases plan h with ⟨e, session, h₁, _, hstart, -⟩ | ⟨session, h₁, _, master, hstart, hm, -⟩
  · obtain ⟨hnone, he⟩ := start_of_error hhome hfaults.spawning hstart
    rw [begin_of_error hstart]
    refine ⟨?_, fun m hmaster => ?_, rfl⟩
    · show EndsBy h target.logFile none (.error e)
      rcases he with ⟨f, rfl⟩ | ⟨f, hopening, hother, rfl⟩
      · exact .unstarted f
      · exact .unopened f hopening hother
    · have hmaster : session.master = some m := hmaster
      rw [hnone] at hmaster
      cases hmaster
  · cases hsteps : script plan.settings.recorder target with
    | error e =>
      rw [hsteps] at hscript
      cases hscript
    | ok steps =>
      rw [begin_of_scripted (b := fresh target now) hstart hsteps]
      refine ⟨Terminal.lastFault?_begin _ _, fun m hmaster f hf => ?_, rfl⟩
      have hmaster : session.master = some m := hmaster
      rw [hm] at hmaster
      cases hmaster
      exact hfaults.closing f hf

theorem run_explained (hfaults : HasPlainFaults h)
    (hhome : (Shell.environment plan.settings.shell plan.environment).isOk = true)
    (hscript : (script plan.settings.recorder target).isOk = true) (now : Time) (files : History) (around : List Surroundings) :
    ((fresh target now).run plan (⟨files, h⟩ :: around)).Explained h target := by
  have hbegin : ((fresh target now).actIn plan ⟨files, h⟩).Explained h target := begin_explained hfaults hhome hscript now
  have horderly : ((fresh target now).actIn plan ⟨files, h⟩).Orderly := by
    obtain ⟨_, hconducts⟩ := (fresh target now).act_conducts (orderly_fresh target now) plan files h
    exact hconducts.orderly
  have hstep (b : Booth) (s : Surroundings) (hb : b.Explained h target ∧ b.Orderly) :
      (b.actIn plan s).Explained h target ∧ (b.actIn plan s).Orderly := by
    obtain ⟨hexplained, horderly⟩ := hb
    obtain ⟨_, hconducts⟩ := b.act_conducts horderly plan s.files s.host
    exact ⟨hexplained.actIn horderly plan s, hconducts.orderly⟩
  exact (run_keeps hstep around ⟨hbegin, horderly⟩).1

end Booth

/-! ### Recordings -/

theorem recordInTurn_isDone {s : Settings} (hbounded : s.recorder.Bounded) (site : Site) (target : Target) :
    ∀ b ∈ ((studioAt site s).recordInTurn [target]).booths, b.isDone = true := by
  have hfresh : ∀ b ∈ ((studioAt site s).add (studioAt site s).latest target).booths,
      b.isDone = true ∨ ∃ target now, b = .fresh target now := by
    intro b hb
    exact Or.inr ⟨target, 0, List.mem_singleton.mp hb⟩
  have hwithin : AllWithin (studioAt site s).plan _ _ := allWithin_booths hbounded hfresh
  exact Studio.run_done hwithin le_rfl

/-- A recording ends with its transcript or by a failure of its own, but for these: the fault of a write that fails is its
    failure as it is, and so is that of looking at a path that is too long, or of opening a terminal in another way than a
    system call fails. It does end if its timeouts are finite and there is time between its probes. The command that makes
    the recording prints its failure only if that is its own. -/
theorem faults_of_writing_end_recordings (plan : Plan) (target : Target)
    (hhome : (Shell.environment plan.settings.shell plan.environment).isOk = true)
    (hscript : (script plan.settings.recorder target).isOk = true) :
    (∀ (now : Time) (s : Surroundings) (around : List Surroundings), HasPlainFaults s.host →
      let b := (Booth.fresh target now).run plan (s :: around)
      (plan.settings.recorder.Bounded → Studio.budget plan.settings.recorder ≤ (s :: around).length → b.isDone = true) ∧
      ∀ result, b.phase = .done result → EndsBy s.host target.logFile b.line.terminal.lastFault? result) ∧
    ∀ (site : Site) (o : Outcome), site.environment = plan.environment → HasPlainFaults { devices := site.devices } →
      let outcome := runRecord site plan.settings target o
      ∃ b, ((studioAt site plan.settings).recordInTurn [target]).booths = [b] ∧
        (plan.settings.recorder.Bounded → b.isDone = true) ∧ ∀ result, b.phase = .done result →
          EndsBy { devices := site.devices } target.logFile b.line.terminal.lastFault? result ∧
          ((∃ path, result = .ok path ∧ outcome.output = printed ["Transcript: " ++ path] ∧
              outcome.exitCode = o.exitCode ∧ outcome.errors = o.errors ∧ outcome.unhandled = o.unhandled) ∨
            ∃ f, result = .error f ∧
              (f.isOwn = true ∧ o.Prints outcome f ∨ f.isOwn = false ∧ o.EndedBy outcome f)) := by
  have hrun {now : Time} {s : Surroundings} {around : List Surroundings} {result : Except Failure String}
      (hfaults : HasPlainFaults s.host) (hdone : ((Booth.fresh target now).run plan (s :: around)).phase = .done result) :
      EndsBy s.host target.logFile ((Booth.fresh target now).run plan (s :: around)).line.terminal.lastFault? result := by
    have hexplains := (Booth.run_explained hfaults hhome hscript now s.files around).phase
    rw [hdone] at hexplains
    exact hexplains
  refine ⟨fun now s around hfaults => ⟨fun hbounded hlength => ?_, fun result => hrun hfaults⟩, fun site o henvironment hfaults => ?_⟩
  · exact Booth.isDone_iff.mpr ((Booth.fresh_done hbounded target now).run_done (s :: around) hlength).1
  · intro outcome
    have hplan : (⟨plan.settings, site.environment⟩ : Plan) = plan := by rw [henvironment]
    obtain ⟨b, hbooths, hb⟩ := recordInTurn_alone site plan.settings target
    refine ⟨b, hbooths, fun hbounded => ?_, fun result hdone => ⟨?_, runRecord_of_done hbooths o hdone⟩⟩
    · exact recordInTurn_isDone hbounded site target b (hbooths ▸ List.mem_singleton_self b)
    · rcases hb with rfl | ⟨first, around, hhost, rfl⟩
      · cases hdone
      · rw [hplan] at hdone ⊢
        rw [← hhost] at hfaults ⊢
        exact hrun hfaults hdone

/-- A device that takes nothing. -/
def deafDevice : Device where
  writeFault _ := some ⟨.system, "[Errno 5] Input/output error"⟩

theorem deaf_device_ends_recording :
    let s : Surroundings := { host.devices := [deafDevice] }
    let target : Target := { logFile := "log", ipcFile := "ipc" }
    let fault : Fault := ⟨.system, "[Errno 5] Input/output error"⟩
    HasPlainFaults s.host ∧ ((Booth.fresh target 0).run {} (s :: [s, s, s])).phase = .done (.error (.fault fault)) ∧
      EndsBy s.host target.logFile (some fault) (.error (.fault fault)) ∧ (Failure.fault fault).isOwn = false := by
  intro s target fault
  have hfaults : HasPlainFaults s.host := ⟨nofun, nofun⟩
  have hdone : ((Booth.fresh target 0).run {} (s :: [s, s, s])).phase = .done (.error (.fault fault)) := by decide +kernel
  have hlast : ((Booth.fresh target 0).run {} (s :: [s, s, s])).line.terminal.lastFault? = some fault := by decide +kernel
  have hscript : (script ({} : Plan).settings.recorder target).isOk = true := by decide +kernel
  clear_value s target
  generalize [s, s, s] = around at hdone hlast ⊢
  obtain ⟨hends, -⟩ := faults_of_writing_end_recordings {} target (by decide +kernel) hscript
  have hend := (hends 0 s around hfaults).2 _ hdone
  rw [hlast] at hend
  exact ⟨hfaults, hdone, hend, rfl⟩

end Teletype.Recording
