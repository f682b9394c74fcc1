import Mathlib.Data.String.Basic
import Teletype.Proofs.Recording.Looks
import Teletype.Proofs.Recording.Sequence

/-! # How a recording ends

A session that is started is closed once, with no watcher attached, and nothing goes over its line after
that. A failure of the script or of a step is the failure of the recording, whatever closing meets; after
the last step a fault of closing is. Otherwise the recording ends with its transcript, unless the system
refuses to look at that. -/

namespace Teletype.Recording

open Output (Line Happening Watcher)
open Files (History)

/-- How long a recording waits for its transcript. -/
def Plan.flush (plan : Plan) : Span := .ofNumber plan.settings.recorder.flushTimeout

namespace Booth
variable {plan : Plan} {b : Booth} {deadline : Deadline} {last : Option Nat}

/-! ### Closing -/

/-- The booth once its session is closed. -/
def closed (b : Booth) (m : Master) : Booth :=
  { b with session := b.session.shut m, line := b.line.detach.note .closed }

theorem closed_now (b : Booth) (m : Master) : (b.closed m).now = b.now := by
  show b.line.detach.now = b.line.now
  unfold Line.detach
  split <;> rfl

/-- What closing a session after a failure tells the operator, if it meets a fault. -/
def regret (b : Booth) (m : Master) : List Event :=
  m.closeFault.toList.map fun f => .told (.recordingNotClosed (.close (.refused b.session.id f)))

variable {m : Master}

/-- After a failure, a fault of closing is only told. -/
theorem actIn_failing (plan : Plan) {failure : Failure} (hphase : b.phase = .failing failure) (hm : b.session.master = some m)
    (hopen : m.isOpen = true) (hfault : ∀ f ∈ m.closeFault, f.isSystem) (s : Surroundings) :
    b.actIn plan s = (b.closed m).finish (.error failure) ∧
      b.asks plan s = .closingMaster m.handle :: b.regret m := by
  suffices h : (b.closeFailed s.host failure).1 = (b.closed m).finish (.error failure) ∧
      (b.closeFailed s.host failure).2.journal = s.host.journal ++ .closingMaster m.handle :: b.regret m by
    have hact : b.act plan s.files s.host = b.closeFailed s.host failure := act_failing hphase
    exact ⟨(congrArg (·.1) hact).trans h.1, asks_eq (hact ▸ h.2)⟩
  unfold closeFailed regret
  rw [close_of_open hm hopen]
  cases hf : m.closeFault with
  | none =>
    rw [Session.closing_of_none hf]
    exact ⟨rfl, rfl⟩
  | some f =>
    rw [Session.closing_of_fault hf (hfault f hf)]
    refine ⟨rfl, ?_⟩
    simp only [Host.tell, Host.note, List.append_assoc, Option.toList_some, List.map_cons, List.map_nil,
      List.cons_append, List.nil_append]

/-- What a recording does once the session of its last step is closed. -/
def afterLast (plan : Plan) (b : Booth) (m : Master) : Phase :=
  match m.closeFault with
  | none => .settling (.after b.now plan.flush) none
  | some f => .done (.error (.close (.refused b.session.id f)))

/-- After the last step, a fault of closing ends the recording. -/
theorem actIn_between_nil (plan : Plan) {index : Nat} (hphase : b.phase = .between index []) (hm : b.session.master = some m)
    (hopen : m.isOpen = true) (hfault : ∀ f ∈ m.closeFault, f.isSystem) (s : Surroundings) :
    b.actIn plan s = (b.closed m).goTo (b.afterLast plan m) ∧ b.asks plan s = [.closingMaster m.handle] := by
  suffices h : (b.closeDone plan s.host).1 = (b.closed m).goTo (b.afterLast plan m) ∧
      (b.closeDone plan s.host).2.journal = s.host.journal ++ [.closingMaster m.handle] by
    have hact : b.act plan s.files s.host = b.closeDone plan s.host := act_between_nil hphase
    exact ⟨(congrArg (·.1) hact).trans h.1, asks_eq (hact ▸ h.2)⟩
  have hnow := b.closed_now m
  unfold closeDone afterLast
  rw [close_of_open hm hopen]
  cases hf : m.closeFault with
  | none =>
    rw [Session.closing_of_none hf]
    exact ⟨hnow ▸ rfl, rfl⟩
  | some f =>
    rw [Session.closing_of_fault hf (hfault f hf)]
    exact ⟨rfl, rfl⟩

/-- The session of a booth is closed: no watcher was attached then, and nothing has gone over the line since. -/
def IsShut (b : Booth) : Prop :=
  ∃ before, b.line.past = before ++ [.closed] ∧ .closed ∉ before ∧ (Watcher.follow {} before).attached = false

theorem closed_isShut (hwatcher : b.line.watcher = .follow {} b.line.past) (hopen : .closed ∉ b.line.past) (m : Master) :
    (b.closed m).IsShut := by
  obtain ⟨hpast, hdetached⟩ := b.line.detach_goes
  refine ⟨b.line.detach.past, rfl, ?_, ?_⟩
  · rw [hpast]
    intro hclosed
    rcases List.mem_append.mp hclosed with h | h
    · exact hopen h
    · split at h
      · cases List.mem_singleton.mp h
      · cases h
  · rw [hpast, Watcher.follow_append, ← hwatcher, ← hdetached]
    unfold Line.detach
    split
    · rfl
    · next h => exact Bool.not_eq_true _ ▸ h

end Booth

/-! ### Sessions in use -/

/-- The session of a recording is in use. -/
def Phase.isBusy : Phase → Bool
  | .between _ _ | .probing _ _ _ _ _ | .failing _ => true
  | _ => false

/-- There is no step to take any more: all are taken, or there was a failure. -/
def Phase.isLast : Phase → Bool
  | .between _ [] | .failing _ => true
  | _ => false

/-- The session of a recording is closed. -/
def Phase.isOver : Phase → Bool
  | .settling _ _ | .done _ => true
  | _ => false

/-- A booth that uses a session, in a recording of these steps. -/
structure Uses (steps : List Step) (target : Target) (session : Session) (b : Booth) : Prop where
  follows : Follows steps target b
  session : b.session = session
  busy : b.phase.isBusy

section
variable {plan : Plan} {steps : List Step} {target : Target} {session : Session} {b : Booth} {m : Master}

theorem Uses.stillOpen (hb : Uses steps target session b) (hlast : b.phase.isLast) : .closed ∉ b.line.past := by
  have hplace := hb.follows.place
  generalize b.phase = phase at hplace hlast
  cases phase with
  | between index rest =>
    obtain ⟨k, -, -, htaken⟩ := hplace
    exact htaken.closed_notMem
  | failing f => exact hplace.1
  | waiting | probing | settling | done => cases hlast

theorem Booth.Brings.uses {k : Nat} {step : Step} {rest : List Step} {before part : List Happening} {r : Booth}
    (h : Brings k step rest before part b r) : r.session = b.session ∧ r.phase.isBusy := by
  obtain ⟨more, b', phase, hgoes, rfl, hreach⟩ := h
  refine ⟨hgoes.session, ?_⟩
  cases hreach <;> rfl

theorem Booth.takeProbe_asks (plan : Plan) (b : Booth) (h : Host) (index : Nat) (step : Step) (start : Nat)
    (deadline : Deadline) (rest : List Step) : ∃ events,
      (b.takeProbe plan h index step start deadline rest).2.journal = h.journal ++ events ∧ handled events = [] := by
  unfold takeProbe
  split
  · exact ⟨[.told _], rfl, rfl⟩
  · exact ⟨[], (List.append_nil _).symm, rfl⟩

/-- An action of a step uses the session, and asks for no handle. -/
theorem Uses.actIn (hb : Uses steps target session b) (hscript : script plan.settings.recorder target = .ok steps)
    (hlast : b.phase.isLast = false) (s : Surroundings) :
    Uses steps target session (b.actIn plan s) ∧ handled (b.asks plan s) = [] := by
  have hfollows := hb.follows.actIn hscript s
  have hbusy := hb.busy
  cases hphase : b.phase with
  | between index rest =>
    rw [hphase] at hlast
    cases rest with
    | nil => cases hlast
    | cons step rest =>
      have hact : b.act plan s.files s.host = (b.takeStep index step rest, s.host) := Booth.act_between hphase
      have hr : b.actIn plan s = b.takeStep index step rest := congrArg (·.1) hact
      have hbrings : Booth.Brings index step rest b.line.past [] b (b.actIn plan s) := by
        rw [hr]
        exact Booth.takeStep_brings hb.follows.watcher index step rest
      obtain ⟨hsession, hbusy⟩ := hbrings.uses
      have hasks : b.asks plan s = [] := Booth.asks_eq (by rw [hact, List.append_nil])
      exact ⟨⟨hfollows, hsession.trans hb.session, hbusy⟩, by rw [hasks]; rfl⟩
  | probing index step start deadline rest =>
    obtain ⟨k, before, part, rfl, rfl, -, hpast, -, hreach⟩ :
      Place steps target b.line.past (.probing index step start deadline rest) := hphase ▸ hb.follows.place
    have hact : b.act plan s.files s.host = b.takeProbe plan s.host (k + 1) step start deadline (steps.drop (k + 1)) :=
      Booth.act_probing hphase
    have hwatcher : b.line.watcher = .follow {} (before ++ part) := by rw [hb.follows.watcher, hpast]
    have hr : b.actIn plan s = _ := congrArg (·.1) hact
    have hbrings : Booth.Brings (k + 1) step (steps.drop (k + 1)) before part b (b.actIn plan s) := by
      rw [hr]
      exact Booth.takeProbe_brings hphase hwatcher (hphase ▸ hreach)
    obtain ⟨hsession, hbusy⟩ := hbrings.uses
    obtain ⟨events, hjournal, hnone⟩ := b.takeProbe_asks plan s.host (k + 1) step start deadline (steps.drop (k + 1))
    have hasks : b.asks plan s = events := Booth.asks_eq (hact ▸ hjournal)
    exact ⟨⟨hfollows, hsession.trans hb.session, hbusy⟩, hasks ▸ hnone⟩
  | failing f =>
    rw [hphase] at hlast
    cases hlast
  | waiting | settling | done =>
    rw [hphase] at hbusy
    cases hbusy

/-- When no step is left to take, the next action closes the session. -/
theorem Uses.closes (plan : Plan) (hb : Uses steps target session b) (hm : session.master = some m) (hopen : m.isOpen = true)
    (hfault : ∀ f ∈ m.closeFault, f.isSystem) (hlast : b.phase.isLast) (s : Surroundings) :
    (b.actIn plan s).IsShut ∧ (b.actIn plan s).phase.isOver ∧
      handled (b.asks plan s) = [.closingMaster m.handle] := by
  have hm' : b.session.master = some m := hb.session ▸ hm
  have hshut := Booth.closed_isShut hb.follows.watcher (hb.stillOpen hlast) m
  cases hphase : b.phase with
  | between index rest =>
    cases rest with
    | cons =>
      rw [hphase] at hlast
      cases hlast
    | nil =>
      obtain ⟨hact, hasks⟩ := Booth.actIn_between_nil plan hphase hm' hopen hfault s
      rw [hact, hasks]
      refine ⟨hshut, ?_, rfl⟩
      show (b.afterLast plan m).isOver
      unfold Booth.afterLast
      split <;> rfl
  | failing f =>
    obtain ⟨hact, hasks⟩ := Booth.actIn_failing plan hphase hm' hopen hfault s
    rw [hact, hasks]
    refine ⟨hshut, rfl, ?_⟩
    unfold Booth.regret
    cases m.closeFault <;> rfl
  | waiting | probing | settling | done =>
    rw [hphase] at hlast
    cases hlast

theorem Booth.look_asks (files : History) (b : Booth) (h : Host) (deadline : Deadline) (last : Option Nat) :
    (b.look files h deadline last).1.line.past = b.line.past ∧ (b.look files h deadline last).1.phase.isOver ∧
      ∃ events, (b.look files h deadline last).2.journal = h.journal ++ events ∧ handled events = [] := by
  unfold look
  dsimp only
  split
  · split
    · exact ⟨rfl, rfl, [], (List.append_nil _).symm, rfl⟩
    · split <;> exact ⟨rfl, rfl, [], (List.append_nil _).symm, rfl⟩
  · exact ⟨rfl, rfl, [.told _], rfl, rfl⟩

/-- Once its session is closed a recording leaves line and handles alone. -/
theorem Booth.IsShut.actIn (plan : Plan) (hb : b.IsShut) (hover : b.phase.isOver) (s : Surroundings) :
    (b.actIn plan s).IsShut ∧ (b.actIn plan s).phase.isOver ∧ handled (b.asks plan s) = [] := by
  cases hphase : b.phase with
  | settling deadline last =>
    obtain ⟨hpast, hstill, events, hjournal, hnone⟩ := b.look_asks s.files s.host deadline last
    have hact : b.act plan s.files s.host = b.look s.files s.host deadline last := act_settling hphase
    have hasks : b.asks plan s = events := asks_eq (hact ▸ hjournal)
    rw [actIn_settling plan hphase s, hasks]
    unfold IsShut
    rw [hpast]
    exact ⟨hb, hstill, hnone⟩
  | done result =>
    have hact : b.act plan s.files s.host = (b, s.host) := act_done hphase
    have hasks : b.asks plan s = [] := asks_eq (by rw [hact, List.append_nil])
    have hstays : b.actIn plan s = b := congrArg (·.1) hact
    rw [hstays, hasks]
    exact ⟨hb, hover, rfl⟩
  | waiting | between | probing | failing =>
    rw [hphase] at hover
    cases hover

theorem Booth.IsShut.run (plan : Plan) : ∀ (around : List Surroundings) {b : Booth}, b.IsShut → b.phase.isOver →
    (b.run plan around).IsShut ∧ (b.run plan around).phase.isOver ∧ handled (b.asksIn plan around) = []
  | [], b, hb, hover => ⟨hb, hover, rfl⟩
  | s :: around, b, hb, hover => by
    obtain ⟨hshut, hover, hnone⟩ := hb.actIn plan hover s
    obtain ⟨hshut', hover', hrest⟩ := Booth.IsShut.run plan around hshut hover
    refine ⟨hshut', hover', ?_⟩
    rw [Booth.asksIn, handled_append, hnone, hrest]
    rfl

/-- All along a recording its session is in use and open, until it has been closed once after the last
    step. -/
theorem Uses.run (hm : session.master = some m) (hopen : m.isOpen = true) (hfault : ∀ f ∈ m.closeFault, f.isSystem) :
    ∀ (around : List Surroundings) {b : Booth}, Uses steps target session b →
      (script plan.settings.recorder target = .ok steps ∨ b.phase.isLast) →
      (Uses steps target session (b.run plan around) ∧ handled (b.asksIn plan around) = []) ∨
      (b.run plan around).IsShut ∧ (b.run plan around).phase.isOver ∧
        handled (b.asksIn plan around) = [.closingMaster m.handle] ∧
        ∃ earlier t later, around = earlier ++ t :: later ∧ (b.run plan earlier).phase.isLast
  | [], b, hb, _ => Or.inl ⟨hb, rfl⟩
  | s :: around, b, hb, hsteps => by
    rw [Booth.run_cons, Booth.asksIn, handled_append]
    cases hlast : b.phase.isLast with
    | true =>
      right
      obtain ⟨hshut, hover, hclosed⟩ := hb.closes plan hm hopen hfault hlast s
      obtain ⟨hshut', hover', hnone⟩ := hshut.run plan around hover
      refine ⟨hshut', hover', ?_, [], s, around, rfl, hlast⟩
      rw [hclosed, hnone]
      rfl
    | false =>
      have hscript := hsteps.resolve_right (by simp [hlast])
      obtain ⟨huses, hnone⟩ := hb.actIn hscript hlast s
      rw [hnone, List.nil_append]
      rcases Uses.run hm hopen hfault around huses (Or.inl hscript) with h | ⟨hshut, hover, hclosed, earlier, t, later, hsplit, hend⟩
      · exact Or.inl h
      · exact Or.inr ⟨hshut, hover, hclosed, s :: earlier, t, later, congrArg (s :: ·) hsplit, hend⟩

end

/-! ### Recordings -/

/-- The faults that a host meets in a recording are those its calls can have: one that refuses the child, and
    one of a system call when the master is closed. -/
structure HasPlainFaults (h : Host) : Prop where
  spawning : ∀ f ∈ h.nextFaults.spawning, f.refusesSpawn
  closing : ∀ f ∈ h.nextDevice.closeFault, f.isSystem

/-- The looks at a transcript, from the time on at which a recording has closed its session. -/
def Plan.looks (plan : Plan) (path : String) (now : Time) (around : List Surroundings) : Looks :=
  looksAt path now (fun i => (Deadline.after now plan.flush).isAhead (now + i * Booth.settleInterval) = true)
    fun i => around.getD i {}

/-- Where a recording is after so many looks: as long as its wait goes on it is not over, and then it is over as that has
    ended. Unless it may wait without end it does not take as many looks as its span allows for. -/
inductive Settles (plan : Plan) (path : String) (now : Time) (around : List Surroundings) : Phase → Prop
  | going (last : Option Nat) (hgoes : ∀ i < around.length, (plan.looks path now around).GoesOn i)
      (hfewer : plan.flush ≠ .endless → around.length < Studio.actionsIn plan.flush (.finite Booth.settleInterval)) :
      Settles plan path now around (.settling (.after now plan.flush) last)
  | ended {last : Nat} {events : List Event} {result : Except Failure String} (hlast : last < around.length)
      (hend : (plan.looks path now around).End path last events result) : Settles plan path now around (.done result)

section
variable {plan : Plan} {target : Target} {session : Session} {b : Booth} {m : Master}

theorem run_refused {e : Failure} {h₁ : Host} {events : List Event} {s : Surroundings}
    (hstart : Booth.start plan s.host = (.error e, session, h₁)) (hjournal : h₁.journal = s.host.journal ++ events)
    (target : Target) (now : Time) (around : List Surroundings) :
    ((Booth.fresh target now).run plan (s :: around)).phase = .done (.error e) ∧
      ((Booth.fresh target now).run plan (s :: around)).line.past = [] ∧
      (Booth.fresh target now).asksIn plan (s :: around) = events := by
  have hact : (Booth.fresh target now).act plan s.files s.host = _ := Booth.begin_of_error hstart
  have hasks : (Booth.fresh target now).asks plan s = events := Booth.asks_eq (hact ▸ hjournal)
  have hbegin : (Booth.fresh target now).actIn plan s = _ := congrArg (·.1) hact
  have hdone : ((Booth.fresh target now).actIn plan s).phase = .done (.error e) := by
    rw [hbegin]
    rfl
  obtain ⟨hstays, hnone⟩ := Booth.run_of_done plan hdone around
  rw [Booth.run_cons, Booth.asksIn, hstays, hnone, hasks, List.append_nil]
  refine ⟨hdone, ?_, rfl⟩
  rw [hbegin]
  rfl

theorem Uses.begin (target : Target) (now : Time) {device : Device} {h₁ : Host} {s : Surroundings}
    (hstart : Booth.start plan s.host = (.ok device, session, h₁)) :
    ∃ steps, Uses steps target session ((Booth.fresh target now).actIn plan s) ∧
      (script plan.settings.recorder target = .ok steps ∨ ((Booth.fresh target now).actIn plan s).phase.isLast) ∧
      ((Booth.fresh target now).act plan s.files s.host).2 = h₁ := by
  cases hscript : script plan.settings.recorder target with
  | error e =>
    have hact : (Booth.fresh target now).act plan s.files s.host = _ := Booth.begin_of_unscripted hstart hscript
    unfold Booth.actIn
    rw [hact]
    exact ⟨[], ⟨(Follows.fresh target now).begin_opened rfl ⟨by simp, nofun⟩, rfl, rfl⟩, Or.inr rfl, rfl⟩
  | ok steps =>
    have hact : (Booth.fresh target now).act plan s.files s.host = _ := Booth.begin_of_scripted hstart hscript
    unfold Booth.actIn
    rw [hact]
    exact ⟨steps, ⟨(Follows.fresh target now).begin_opened rfl ⟨0, rfl, rfl, .begun⟩, rfl, rfl⟩, Or.inl rfl, rfl⟩

theorem settles_of_settling (hphase : b.phase = .settling (.after b.now plan.flush) none) (around : List Surroundings) :
    Settles plan b.target.logFile b.now around (b.run plan around).phase := by
  have haround : ((List.range around.length).map fun i => around.getD i {}) = around :=
    List.ext_getElem (by simp) fun i hi _ => by simp_all
  by_cases hgoes : ∀ i < around.length, (plan.looks b.target.logFile b.now around).GoesOn i
  · obtain ⟨hwaits, -⟩ := Booth.waits_of_goesOn plan hphase hgoes
    rw [haround] at hwaits
    rw [hwaits.phase]
    exact .going _ hgoes fun hend => Booth.lt_of_looks b.now hend fun i hi => (hgoes i hi).inTime
  · push Not at hgoes
    obtain ⟨i, hi, hstops⟩ := hgoes
    obtain ⟨last, hle, events, result, hend⟩ := Looks.End.exists b.target.logFile hstops
    have hover := Booth.done_of_end plan hphase hend (hle.trans_lt hi)
    rw [haround] at hover
    rw [hover.1]
    exact .ended (hle.trans_lt hi) hend

/-- A recording that has failed closes the session and is over, whether or not closing meets a fault. -/
theorem run_failing (plan : Plan) {failure : Failure} (hphase : b.phase = .failing failure) (hm : b.session.master = some m)
    (hopen : m.isOpen = true) (hfault : ∀ f ∈ m.closeFault, f.isSystem) (t : Surroundings) (more : List Surroundings) :
    (b.run plan (t :: more)).phase = .done (.error failure) ∧
      b.asks plan t = .closingMaster m.handle :: b.regret m := by
  obtain ⟨hact, hasks⟩ := Booth.actIn_failing plan hphase hm hopen hfault t
  have hdone : (b.actIn plan t).phase = .done (.error failure) := by
    rw [hact]
    rfl
  rw [Booth.run_cons, (Booth.run_of_done plan hdone more).1]
  exact ⟨hdone, hasks⟩

/-- A recording that has taken its last step closes the session and waits, unless closing meets a fault. -/
theorem run_between_nil (plan : Plan) {index : Nat} (hphase : b.phase = .between index []) (hm : b.session.master = some m)
    (hopen : m.isOpen = true) (hfault : ∀ f ∈ m.closeFault, f.isSystem) (t : Surroundings) (more : List Surroundings) :
    match m.closeFault with
    | some f => (b.run plan (t :: more)).phase = .done (.error (.close (.refused b.session.id f)))
    | none => Settles plan b.target.logFile b.now more (b.run plan (t :: more)).phase := by
  obtain ⟨hact, -⟩ := Booth.actIn_between_nil plan hphase hm hopen hfault t
  rw [Booth.run_cons, hact]
  unfold Booth.afterLast
  cases hf : m.closeFault with
  | some f =>
    dsimp only
    rw [(Booth.run_of_done plan rfl _).1]
    rfl
  | none =>
    have hwait := settles_of_settling (b := (b.closed m).goTo (.settling (.after b.now plan.flush) none))
      (by rw [← b.closed_now m]; rfl) more
    have hnow : ((b.closed m).goTo (.settling (.after b.now plan.flush) none)).now = b.now := b.closed_now m
    rw [hnow] at hwait
    exact hwait

end

/-- A session that does not start fails the recording by that failure, with no handle left open. A session that
    is started is open and in use up to the end of the steps, and then closed once, when no watcher is
    attached; nothing goes over its line after that. A failure of the script or of a step fails the
    recording, and a fault of closing is only told then. After the last step a fault of closing fails it
    before the transcript is looked at, and without one the recording settles. -/
theorem recording_releases_session (plan : Plan) (target : Target) (now : Time) (s : Surroundings)
    (around : List Surroundings) (hfaults : HasPlainFaults s.host) :
    let b := (Booth.fresh target now).run plan (s :: around)
    let asked := handled ((Booth.fresh target now).asksIn plan (s :: around))
    match Booth.start plan s.host with
    | (.error e, _, _) => b.phase = .done (.error e) ∧ b.line.past = [] ∧ (asked = [] ∨ ∃ master, asked =
        [.opened master (Host.subordinateOf master), .closed (Host.subordinateOf master), .closed master])
    | (.ok device, session, _) => ∃ master,
      (b.phase.isBusy ∧ asked = [.opened master (Host.subordinateOf master), .closed (Host.subordinateOf master)] ∨
        b.phase.isOver ∧ b.IsShut ∧ asked =
          [.opened master (Host.subordinateOf master), .closed (Host.subordinateOf master), .closingMaster master] ∧
        ∃ earlier t later, around = earlier ++ t :: later ∧
          ((Booth.fresh target now).run plan (s :: earlier)).phase.isLast) ∧
      (∀ e, script plan.settings.recorder target = .error e →
        ((Booth.fresh target now).run plan [s]).phase = .failing (.fault e.fault)) ∧
      (∀ failure, b.phase = .failing failure → ∀ t more,
        (b.run plan (t :: more)).phase = .done (.error failure) ∧
          b.asks plan t = .closingMaster master :: device.closeFault.toList.map fun f =>
            .told (.recordingNotClosed (.close (.refused session.id f)))) ∧
      ∀ index, b.phase = .between index [] → ∀ t more, match device.closeFault with
        | some f => (b.run plan (t :: more)).phase = .done (.error (.close (.refused session.id f)))
        | none => Settles plan target.logFile b.now more (b.run plan (t :: more)).phase := by
  intro b asked
  rcases Booth.start_cases plan s.host with
    ⟨e, session, h₁, events, hstart, -, hjournal, hhandled⟩ | ⟨session, h₁, events, master, hstart, hm, hjournal, hhandled⟩
  · obtain ⟨hdone, hpast, hasks⟩ := run_refused hstart hjournal target now around
    have hasked : asked = handled events := congrArg handled hasks
    rw [hstart, hasked]
    exact ⟨hdone, hpast, hhandled hfaults.spawning⟩
  · obtain ⟨steps, huses, hsteps, hhost⟩ := Uses.begin target now hstart
    have hasks : (Booth.fresh target now).asks plan s = events := Booth.asks_eq (hhost ▸ hjournal)
    have hasked : asked = handled events ++ handled (((Booth.fresh target now).actIn plan s).asksIn plan around) := by
      rw [← handled_append, ← hasks]
      rfl
    rw [hhandled] at hasked
    have hcases := huses.run hm rfl hfaults.closing around hsteps
    rw [← Booth.run_cons] at hcases
    -- A recording that has not come to its end yet still uses the session that was started.
    have hgoing : ∀ phase : Phase, b.phase = phase → phase.isOver = false → Uses steps target session b := by
      intro phase hphase hgoing
      rcases hcases with ⟨hb, -⟩ | ⟨-, hover, -⟩
      · exact hb
      · cases (hphase ▸ hgoing).symm.trans hover
    rw [hstart]
    refine ⟨master, ?_, fun e hscript => ?_, fun failure hphase t more => ?_, fun index hphase t more => ?_⟩
    · rw [hasked]
      rcases hcases with ⟨hb, hnone⟩ | ⟨hshut, hover, hclosed, earlier, t, later, hsplit, hlast⟩
      · left
        rw [hnone, List.append_nil]
        exact ⟨hb.busy, rfl⟩
      · right
        rw [hclosed]
        refine ⟨hover, hshut, rfl, earlier, t, later, hsplit, ?_⟩
        rw [Booth.run_cons]
        exact hlast
    · rw [Booth.run_cons, Booth.run_nil, Booth.actIn]
      show ((Booth.fresh target now).begin plan s.host).1.phase = _
      rw [Booth.begin_of_unscripted (b := .fresh target now) hstart hscript]
      rfl
    · obtain ⟨-, hsession, -⟩ := hgoing _ hphase rfl
      have hend := run_failing plan hphase (hsession ▸ hm) rfl hfaults.closing t more
      rw [Booth.regret, hsession] at hend
      exact hend
    · obtain ⟨hfollows, hsession, -⟩ := hgoing _ hphase rfl
      have hend := run_between_nil plan hphase (hsession ▸ hm) rfl hfaults.closing t more
      rw [hfollows.target, hsession] at hend
      exact hend

/-! ### A path that is too long -/

theorem refuses_replicate {n : Nat} (hn : 255 < n) (now : Time) :
    ({} : History).refuses (String.ofList (List.replicate n 'a')) now = true := by
  have hmem {c : Char} (hc : c ∈ (String.ofList (List.replicate n 'a')).toList) : c = 'a' := by
    rw [String.toList_ofList, List.mem_replicate] at hc
    exact hc.2
  have hother {name : String} (hname : name.toList.length < 3) : String.ofList (List.replicate n 'a') ≠ name := by
    rintro rfl
    rw [String.toList_ofList, List.length_replicate] at hname
    omega
  have hsize : ∀ k, String.utf8Len (List.replicate k 'a') = k := by
    intro k
    induction k with
    | zero => rfl
    | succ k ih => rw [List.replicate_succ, String.utf8Len_cons, ih]; rfl
  have hname : Files.IsName (String.ofList (List.replicate n 'a')) :=
    ⟨fun h => absurd (hmem h) (by decide), hother (by decide), hother (by decide), hother (by decide)⟩
  have hdirectory : (({} : History).treeAt now).node? [] = some .directory := by simp [History.treeAt, History.before,
    History.tree, Files.Tree.node?]
  rw [History.refuses_of_name hname (fun h => absurd (hmem h) (by decide)) hdirectory, History.isTooLong, hname.pathSteps_eq]
  simp [Files.stepLimit, String.utf8ByteSize_ofList, hsize, hn]

/-- A shell that answers every text with the next marker, and has exited already. -/
def promptDevice : Device where
  exitCode := some 0
  react before _ := { atOnce := [.output (marker (before.length + 1))] }

/-- Recordings without commands of their own, with all the time they need. -/
def patientPlan : Plan where
  settings.recorder := {
    screenCommand := "", recordCommand := "", loggerCommand := "", exitCommand := "",
    readyTimeout := .infinite false, loggerTimeout := .infinite false, exitTimeout := .infinite false,
    probeInterval := .infinite false, flushTimeout := .infinite false }

/-- A transcript at a path with a step of 300 bytes. -/
def longTarget : Target := { logFile := String.ofList (List.replicate 300 'a'), ipcFile := "ipc" }

/-- A recording to a path that is too long takes all its steps and closes its session without a fault, and
    fails nevertheless. -/
theorem recording_fails_at_long_path :
    let s : Surroundings := { host.devices := [promptDevice] }
    HasPlainFaults s.host ∧
      ((Booth.fresh longTarget 0).run patientPlan (s :: List.replicate 12 s)).phase = .between 8 [] ∧
      (((Booth.fresh longTarget 0).run patientPlan (s :: List.replicate 12 s)).run patientPlan [s, s]).phase =
        .done (.error (.fault (pathTooLong longTarget.logFile))) := by
  intro s
  have hfaults : HasPlainFaults s.host := ⟨nofun, nofun⟩
  have hstarts : (Booth.start patientPlan s.host).1.isOk = true := by decide +kernel
  have hphase : ((Booth.fresh longTarget 0).run patientPlan (s :: List.replicate 12 s)).phase = .between 8 [] := by
    decide +kernel
  have hrefuses : ∀ now, s.files.refuses longTarget.logFile now = true := refuses_replicate (by decide)
  have hflush : patientPlan.flush = .endless := by decide +kernel
  have hdevice : s.host.nextDevice.closeFault = none := rfl
  clear_value s
  generalize List.replicate 12 s = around at hphase ⊢
  refine ⟨hfaults, hphase, ?_⟩
  have hreleases := recording_releases_session patientPlan longTarget 0 s around hfaults
  obtain ⟨session, h₁, _, hstart, -⟩ := Booth.start_of_isOk hstarts
  rw [hstart] at hreleases
  obtain ⟨master, -, -, -, hend⟩ := hreleases
  have hsettles := hend 8 hphase s [s]
  rw [hdevice] at hsettles
  generalize (((Booth.fresh longTarget 0).run patientPlan (s :: around)).run patientPlan [s, s]).phase = phase at hsettles ⊢
  cases hsettles with
  | going last hgoes => exact absurd (hrefuses _) (hgoes 0 Nat.one_pos).taken
  | ended hlast hend =>
    have hin (now : Time) : (patientPlan.looks longTarget.logFile now [s]).inTime 0 := by
      unfold Plan.looks
      rw [hflush]
      rfl
    rw [(hend.of_refused (hin _) (hrefuses _)).2]

end Teletype.Recording
