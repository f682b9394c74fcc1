import Mathlib.Algebra.Order.Field.Basic
import Mathlib.Data.Rat.Cast.Order
import Teletype.Proofs.Output.Line
import Teletype.Proofs.Session.Basic
import Teletype.Recording.Studio

/-! # Runs of a booth

A booth acts by itself; only what it finds around it is up to others: the files over time and the host,
which other booths and callers change between its actions. So a recording is a run of its booth through
surroundings of any kind, and so is each of the recordings that a studio makes. -/

namespace Teletype.Recording

open Output (Line Happening Watcher typedIn)

/-- What a booth finds around it when it acts. -/
structure Surroundings where
  files : Files.History := {}
  host : Host := {}

deriving instance DecidableEq for Phase

namespace Booth

/-- A booth before its first action. -/
def fresh (target : Target) (now : Time) : Booth := { target, line := { now } }

/-- A booth after its next action. -/
def actIn (plan : Plan) (b : Booth) (s : Surroundings) : Booth := (b.act plan s.files s.host).1

/-- What the next action asks of the host and tells the operator. -/
def asks (plan : Plan) (b : Booth) (s : Surroundings) : List Event :=
  (b.act plan s.files s.host).2.journal.drop s.host.journal.length

/-- A booth after one action in each of the surroundings. -/
def run (plan : Plan) (b : Booth) (around : List Surroundings) : Booth := around.foldl (actIn plan) b

/-- All that the actions of a run ask of the host and tell the operator. -/
def asksIn (plan : Plan) (b : Booth) : List Surroundings → List Event
  | [] => []
  | s :: around => b.asks plan s ++ asksIn plan (b.actIn plan s) around

variable {plan : Plan} {b b₁ b₂ : Booth} {s : Surroundings} {around : List Surroundings}

theorem asks_eq {events : List Event} (h : (b.act plan s.files s.host).2.journal = s.host.journal ++ events) :
    b.asks plan s = events := by
  rw [asks, h, List.drop_left]

/-! ### Actions by phase -/

section
variable {files : Files.History} {h : Host} {index start : Nat} {step : Step} {rest : List Step} {deadline : Deadline}
  {last : Option Nat} {failure : Failure} {result : Except Failure String}

theorem act_between (hphase : b.phase = .between index (step :: rest)) :
    b.act plan files h = (b.takeStep index step rest, h) := by rw [act, hphase]

theorem act_between_nil (hphase : b.phase = .between index []) : b.act plan files h = b.closeDone plan h := by
  rw [act, hphase]

theorem act_probing (hphase : b.phase = .probing index step start deadline rest) :
    b.act plan files h = b.takeProbe plan h index step start deadline rest := by rw [act, hphase]

theorem act_failing (hphase : b.phase = .failing failure) : b.act plan files h = b.closeFailed h failure := by
  rw [act, hphase]

theorem act_settling (hphase : b.phase = .settling deadline last) : b.act plan files h = b.look files h deadline last := by
  rw [act, hphase]

theorem act_done (hphase : b.phase = .done result) : b.act plan files h = (b, h) := by
  rw [act, hphase]

theorem actIn_takeStep (plan : Plan) (hphase : b.phase = .between index (step :: rest)) (s : Surroundings) :
    b.actIn plan s = b.takeStep index step rest := congrArg (·.1) (act_between hphase)

theorem actIn_takeProbe (plan : Plan) (hphase : b.phase = .probing index step start deadline rest) (s : Surroundings) :
    b.actIn plan s = (b.takeProbe plan s.host index step start deadline rest).1 := congrArg (·.1) (act_probing hphase)

theorem actIn_settling (plan : Plan) (hphase : b.phase = .settling deadline last) (s : Surroundings) :
    b.actIn plan s = (b.look s.files s.host deadline last).1 := congrArg (·.1) (act_settling hphase)

end

/-! ### Runs -/

@[simp] theorem run_nil : b.run plan [] = b := rfl

@[simp] theorem run_cons : b.run plan (s :: around) = (b.actIn plan s).run plan around := rfl

/-- A recording that is over stays as it is, and asks for nothing. -/
theorem run_of_done (plan : Plan) {result : Except Failure String} (h : b.phase = .done result) :
    ∀ around : List Surroundings, b.run plan around = b ∧ b.asksIn plan around = []
  | [] => ⟨rfl, rfl⟩
  | s :: around => by
    have hact : b.act plan s.files s.host = (b, s.host) := act_done h
    have hstays : b.actIn plan s = b := congrArg (·.1) hact
    have hasks : b.asks plan s = [] := asks_eq (by rw [hact, List.append_nil])
    rw [run_cons, asksIn, hstays, hasks]
    exact run_of_done plan h around

theorem run_append (more : List Surroundings) : b.run plan (around ++ more) = (b.run plan around).run plan more :=
  List.foldl_append

theorem run_keeps {P : Booth → Prop} (hstep : ∀ (b : Booth) (s : Surroundings), P b → P (b.actIn plan s)) :
    ∀ (around : List Surroundings) {b : Booth}, P b → P (b.run plan around)
  | [], _, h => h
  | s :: around, b, h => run_keeps hstep around (hstep b s h)

/-! ### Typing -/

/-- A text that is typed while the session is open goes to the device, and its fault is passed on. -/
theorem type_of_isOpen (hopen : b.session.isOpen = true) (text : String) (next : Booth → Booth) :
    b.type text next = match (b.line.type text).1 with
      | some f => fail { b with line := (b.line.type text).2 } (.fault f)
      | none => next { b with line := (b.line.type text).2 } := by
  unfold type Session.writeRefusal?
  rw [if_pos hopen]
  generalize b.line.type text = typed
  obtain ⟨fault, line⟩ := typed
  cases fault <;> rfl

/-! ### Starting and closing -/

theorem start_cases (plan : Plan) (h : Host) :
    (∃ e session h₁ events, start plan h = (.error e, session, h₁) ∧ (∃ f, e = .start f ∨ e = .fault f) ∧
      h₁.journal = h.journal ++ events ∧
      ((∀ f ∈ h.nextFaults.spawning, f.refusesSpawn) → handled events = [] ∨ ∃ master, handled events =
        [.opened master (Host.subordinateOf master), .closed (Host.subordinateOf master), .closed master])) ∨
    ∃ session h₁ events master, start plan h = (.ok h.nextDevice, session, h₁) ∧
      session.master = some ⟨master, true, h.nextDevice.closeFault⟩ ∧ h₁.journal = h.journal ++ events ∧
      handled events = [.opened master (Host.subordinateOf master), .closed (Host.subordinateOf master)] := by
  unfold start
  dsimp only
  cases henv : Shell.environment plan.settings.shell plan.environment with
  | error e =>
    unfold Shell.environment at henv
    split at henv
    · next f _ =>
      cases henv
      exact Or.inl ⟨_, _, _, [], rfl, ⟨_, Or.inr rfl⟩, (List.append_nil _).symm, fun _ => Or.inl rfl⟩
    · cases henv
  | ok environment =>
    rcases Session.start_cases { id := h.name.1, command := Shell.argv plan.settings.shell "", environment } h.name.2
      with ⟨e, h₁, events, hstart, h⟩ | ⟨s₁, h₁, events, master, hstart, h⟩
    · exact Or.inl ⟨e, _, h₁, events, hstart, h⟩
    · exact Or.inr ⟨s₁, h₁, events, master, hstart, h⟩

/-- A start that is known not to fail is that of an open session on the next device. -/
theorem start_of_isOk {plan : Plan} {h : Host} (hok : (start plan h).1.isOk = true) :
    ∃ session h₁ master, start plan h = (.ok h.nextDevice, session, h₁) ∧
      session.master = some ⟨master, true, h.nextDevice.closeFault⟩ := by
  rcases start_cases plan h with ⟨e, _, _, _, hstart, -⟩ | ⟨session, h₁, _, master, hstart, hm, -⟩
  · rw [hstart] at hok
    cases hok
  · exact ⟨session, h₁, master, hstart, hm⟩

/-- A booth whose session is started on a device, with a watcher on its line. -/
def opened (b : Booth) (device : Device) (session : Session) : Booth :=
  { b with session, line := Line.attach { b.line with terminal := .begin device b.now, watcher := {} } }

theorem begin_of_error {e : Failure} {session : Session} {h h₁ : Host} (hstart : start plan h = (.error e, session, h₁)) :
    b.begin plan h = ({ b with session }.finish (.error e), h₁) := by
  simp only [begin, hstart]

theorem begin_of_unscripted {e : Text.Template.Error} {device : Device} {session : Session} {h h₁ : Host}
    (hstart : start plan h = (.ok device, session, h₁)) (hscript : script plan.settings.recorder b.target = .error e) :
    b.begin plan h = ((b.opened device session).fail (.fault e.fault), h₁) := by
  simp only [begin, opened, hstart, hscript]

theorem begin_of_scripted {steps : List Step} {device : Device} {session : Session} {h h₁ : Host}
    (hstart : start plan h = (.ok device, session, h₁)) (hscript : script plan.settings.recorder b.target = .ok steps) :
    b.begin plan h = ((b.opened device session).goTo (.between 1 steps), h₁) := by
  simp only [begin, opened, hstart, hscript]

/-- What goes over the line of a booth that is closed. -/
def parting (b : Booth) : List Happening :=
  (if b.line.watcher.attached then [.detached] else []) ++ if b.session.isOpen then [.closed] else []

theorem typedIn_parting (b : Booth) : typedIn b.parting = [] := by
  unfold parting
  split <;> split <;> rfl

theorem close_goes (b : Booth) (h : Host) : b.line.Goes b.parting (b.close h).2.1.line := by
  have hdetach := b.line.detach_goes
  cases hopen : b.session.isOpen with
  | true =>
    simp only [close, parting, hopen, if_true]
    exact hdetach.note fun _ => rfl
  | false =>
    simp only [close, parting, hopen, Bool.false_eq_true, if_false, List.append_nil]
    exact hdetach

theorem close_of_open {m : Master} (hm : b.session.master = some m) (hopen : m.isOpen = true) (h : Host) :
    b.close h = (b.session.closing m, { b with session := b.session.shut m, line := b.line.detach.note .closed },
      h.note (.closingMaster m.handle)) := by
  have hsession : b.session.isOpen = true := Session.isOpen_iff.mpr ⟨m, hm, hopen⟩
  simp only [close, hsession, Session.close_of_open hm hopen, if_true]

theorem close_of_not_isOpen (hsession : b.session.isOpen = false) (h : Host) :
    b.close h = (.error (.close (.notOpen b.session.id)), { b with line := b.line.detach }, h) := by
  simp only [close, hsession, Session.close_of_not_isOpen hsession, Bool.false_eq_true, if_false]

theorem settleInterval_pos : 0 < settleInterval := by decide +kernel

end Booth

/-- Actions that all come before the end of a span, an interval apart, are fewer than allowed for. -/
theorem Studio.lt_actionsIn {span interval : Rat} (hinterval : 0 < interval) {n : Nat} (h : n * interval < span) :
    n + 1 < Studio.actionsIn (.finite span) (.finite interval) := by
  have hquotient : ((n : Int) : Rat) < span / interval := (lt_div_iff₀ hinterval).mpr (by exact_mod_cast h)
  have hceil := Rat.lt_ceil_iff.mpr hquotient
  simp only [Studio.actionsIn, hinterval, if_true]
  omega

/-- All intervals but one of those allowed for reach up to the end of the span. -/
theorem Studio.actionsIn_eq_succ {interval : Rat} (hinterval : 0 < interval) (span : Rat) :
    ∃ n : Nat, Studio.actionsIn (.finite span) (.finite interval) = n + 1 ∧ span ≤ n * interval := by
  obtain ⟨n, hn⟩ : ∃ n, Studio.actionsIn (.finite span) (.finite interval) = n + 1 :=
    ⟨(span / interval).ceil.toNat + 1, by simp only [Studio.actionsIn, hinterval, if_true]⟩
  refine ⟨n, hn, ?_⟩
  by_contra hlate
  have hfewer := Studio.lt_actionsIn hinterval (lt_of_not_ge hlate)
  omega

/-! ### Booths in a studio -/

theorem Studio.nextFrom_eq_some : ∀ {booths : List Booth} {index i : Nat} {b : Booth},
    Studio.nextFrom index booths = some (i, b) → index ≤ i ∧ booths[i - index]? = some b
  | [], _, _, _, h => by cases h
  | c :: rest, index, i, b, h => by
    rw [Studio.nextFrom] at h
    have hlater : ∀ {i b}, Studio.nextFrom (index + 1) rest = some (i, b) →
        index ≤ i ∧ (c :: rest)[i - index]? = some b := by
      intro i b hrest
      obtain ⟨hle, hget⟩ := Studio.nextFrom_eq_some hrest
      have hsub : i - index = (i - (index + 1)) + 1 := by omega
      refine ⟨by omega, ?_⟩
      rw [hsub, List.getElem?_cons_succ]
      exact hget
    have hhere : index ≤ index ∧ (c :: rest)[index - index]? = some c := by simp
    split at h
    · split at h
      · cases h
      · cases h
        exact hhere
    · next hrest =>
      split at h
      · cases h
        exact hlater hrest
      · cases h
        exact hhere

/-- A step of a studio is an action of one booth, and the others stay. -/
theorem Studio.step_booth {s t : Studio} (h : s.step = some t) {i : Nat} {b : Booth} (hb : s.booths[i]? = some b) :
    t.plan = s.plan ∧ ∃ around : List Surroundings, t.booths[i]? = some (b.run s.plan around) := by
  obtain ⟨⟨j, c⟩, hnext, rfl⟩ := Option.map_eq_some_iff.mp h
  obtain ⟨-, hc⟩ := Studio.nextFrom_eq_some hnext
  rw [Nat.sub_zero] at hc
  refine ⟨rfl, ?_⟩
  by_cases hij : j = i
  · subst hij
    rw [hb] at hc
    cases hc
    obtain ⟨hlt, -⟩ := List.getElem?_eq_some_iff.mp hb
    exact ⟨[⟨s.history, s.host⟩], List.getElem?_set_self hlt⟩
  · refine ⟨[], ?_⟩
    show (s.booths.set j _)[i]? = some b
    rw [List.getElem?_set_ne hij]
    exact hb

/-- Whatever a studio does, each of its booths goes through a run of its own. -/
theorem Studio.run_booth : ∀ (fuel : Nat) {s : Studio} {i : Nat} {b : Booth}, s.booths[i]? = some b →
    ∃ around : List Surroundings, (s.run fuel).booths[i]? = some (b.run s.plan around)
  | 0, _, _, _, hb => ⟨[], hb⟩
  | fuel + 1, s, i, b, hb => by
    rw [Studio.run]
    cases hs : s.step with
    | none => exact ⟨[], hb⟩
    | some t =>
      obtain ⟨hplan, around, ht⟩ := Studio.step_booth hs hb
      obtain ⟨more, hrun⟩ := Studio.run_booth fuel ht
      refine ⟨around ++ more, ?_⟩
      rw [Booth.run_append, ← hplan]
      exact hplan ▸ hrun

/-- A booth that is alone in a studio goes through a run of its own, which begins with the studio as it is. -/
theorem Studio.run_alone : ∀ (fuel : Nat) {s : Studio} {b : Booth}, s.booths = [b] →
    (s.run fuel).booths = [b] ∨ ∃ around : List Surroundings, (s.run fuel).booths = [b.run s.plan (⟨s.history, s.host⟩ :: around)]
  | 0, _, _, hb => Or.inl hb
  | fuel + 1, s, b, hb => by
    rw [Studio.run]
    cases hs : s.step with
    | none => exact Or.inl hb
    | some t =>
      obtain ⟨⟨j, c⟩, hnext, ht⟩ := Option.map_eq_some_iff.mp hs
      obtain ⟨-, hc⟩ := Studio.nextFrom_eq_some hnext
      obtain ⟨rfl, rfl⟩ : j = 0 ∧ c = b := by
        rw [hb, Nat.sub_zero, List.getElem?_singleton] at hc
        split at hc
        · next hj => exact ⟨hj, (Option.some.inj hc).symm⟩
        · cases hc
      have hplan : t.plan = s.plan := by rw [← ht]
      have hbooths : t.booths = [c.actIn s.plan ⟨s.history, s.host⟩] := by
        rw [← ht]
        show s.booths.set 0 _ = _
        rw [hb]
        rfl
      right
      rcases Studio.run_alone fuel hbooths with hrest | ⟨around, hrest⟩
      · exact ⟨[], hrest⟩
      · rw [hplan] at hrest
        exact ⟨_ :: around, hrest⟩

end Teletype.Recording
