import Teletype.Proofs.Recording.Release
import Teletype.Proofs.Session.Holding

/-! # What recordings do to handles

A recording opens at most one terminal, when it starts its session, and whatever it does to a handle is done to one of
that. Its session is open as long as there are steps to take, and only then is a watcher attached and does anything go
over the line. -/

namespace Teletype

/-! ### Starting -/

/-- One terminal is opened, and this is the handle of its master. -/
abbrev Opens (events : List Event) (n : Nat) : Prop := handedOut events = [n, Host.subordinateOf n]

/-- Starting a session that is not open opens no terminal or one, whose master is open if the start succeeds. No master is
    closed as one of a session. -/
theorem Session.start_hands {s s' : Session} {h h' : Host} {r : Except Failure Device} (hs : s.isOpen = false)
    (hstart : s.start h = (r, s', h')) : ∃ events, h.Treats none events h' s'.openMaster? ∧
      (handedOut events = [] ∨ ∃ n, Opens events n) ∧
      (∀ n ∈ s'.openMaster?, Opens events n) ∧ s'.isOpen = r.toOption.isSome ∧
      ∀ n, .closingMaster n ∉ events := by
  have hstarts := s.start_starts h
  rw [hstart] at hstarts
  obtain ⟨events, htreats, -⟩ := hstarts.treats
  have hjournal := htreats.hands.journal
  have hnone := openMaster?_eq_none hs
  rw [hnone] at htreats
  refine ⟨events, htreats, ?_⟩
  cases hstarts with
  | unopened f hopening =>
    obtain rfl := List.append_cancel_left hjournal
    refine ⟨Or.inl ?_, fun n hn => (nomatch hnone ▸ hn), hs, fun n => ?_⟩
    · split <;> rfl
    · split <;> simp
  | refused f =>
    rw [attempted, List.append_assoc] at hjournal
    obtain rfl := List.append_cancel_left hjournal
    exact ⟨Or.inr ⟨_, rfl⟩, fun n hn => (nomatch hnone ▸ hn), hs, fun n => by simp [attempt]⟩
  | broken f =>
    obtain rfl := List.append_cancel_left hjournal
    exact ⟨Or.inr ⟨_, rfl⟩, fun n hn => (nomatch hnone ▸ hn), hs, fun n => by simp [attempt]⟩
  | connected =>
    obtain rfl := List.append_cancel_left hjournal
    refine ⟨Or.inr ⟨_, rfl⟩, fun n hn => ?_, rfl, fun n => by simp [attempt]⟩
    obtain ⟨m, hm, -, rfl⟩ := openMaster?_eq_some.mp hn
    cases hm
    rfl

/-- What is done for a session goes by the handles that the host has handed out, and so far. -/
theorem Host.Treats.of_host {h₀ h h' : Host} {master? master?' : Option Nat} {events : List Event}
    (ht : h.Treats master? events h' master?') (hjournal : h.journal = h₀.journal) (hopened : h.opened = h₀.opened) :
    h₀.Treats master? events h' master?' where
  hands := ⟨hjournal ▸ ht.hands.journal, ht.hands.nodup, hopened ▸ ht.hands.fresh, ht.hands.opened, hopened ▸ ht.hands.le⟩
  careful := ht.careful
  master := ht.master

theorem handedOut_told (events : List Event) (n : Notice) : handedOut (events ++ [.told n]) = handedOut events := by
  rw [handedOut_append]
  exact List.append_nil _

theorem closings_told (events : List Event) (n : Notice) : closings (events ++ [.told n]) = closings events := by
  rw [closings_append]
  exact List.append_nil _

/-- The operator may be told something afterwards. -/
theorem Host.Treats.tell {h h' : Host} {master? master?' : Option Nat} {events : List Event}
    (ht : h.Treats master? events h' master?') (n : Notice) :
    h.Treats master? (events ++ [.told n]) (h'.tell n) master?' := by
  have hhanded := handedOut_told events n
  refine ⟨⟨?_, hhanded ▸ ht.hands.nodup, hhanded ▸ ht.hands.fresh, fun master subordinate hevent => ?_, ht.hands.le⟩,
    ht.careful.append_one nofun, fun k hk => ?_⟩
  · show h'.journal ++ [.told n] = _
    rw [ht.hands.journal, List.append_assoc]
  · rcases List.mem_append.mp hevent with hevent | hevent
    · exact ht.hands.opened master subordinate hevent
    · cases List.mem_singleton.mp hevent
  · rw [hhanded, closings_told]
    exact ht.master k hk

namespace Recording.Booth

/-! ### Conduct -/

/-- The session of a recording is open exactly while there are steps to take, and a watcher is attached only then. -/
structure Orderly (b : Booth) : Prop where
  isOpen : b.session.isOpen = b.phase.isBusy
  attached : b.line.watcher.attached = true → b.phase.isBusy = true

/-- What an action does to handles, by these events: it does so to the open master of the session, or to the terminal
    that it opens when the recording begins, and nothing goes over the line but while the session is open. -/
structure Conducts (b : Booth) (h : Host) (events : List Event) (b' : Booth) (h' : Host) : Prop where
  treats : h.Treats b.session.openMaster? events h' b'.session.openMaster?
  orderly : b'.Orderly
  begun : b'.phase ≠ .waiting
  hands : handedOut events = [] ∨ b.phase = .waiting ∧ ∃ n, Opens events n
  master : ∀ n ∈ b'.session.openMaster?, n ∈ b.session.openMaster? ∨ Opens events n
  closes : ∀ n, .closingMaster n ∈ events → n ∈ b.session.openMaster?
  past : b'.line.past ≠ b.line.past → ∃ n, n ∈ b.session.openMaster? ∨ n ∈ b'.session.openMaster?

variable {b r : Booth} {h h' : Host} {step : Step} {m : Master}

theorem orderly_fresh (target : Target) (now : Time) : (fresh target now).Orderly := ⟨rfl, nofun⟩

theorem openMaster?_of_isOpen {s : Session} (hs : s.isOpen = true) : ∃ n, n ∈ s.openMaster? := by
  obtain ⟨m, hm, hopen⟩ := Session.isOpen_iff.mp hs
  exact ⟨m.handle, Session.openMaster?_eq_some.mpr ⟨m, hm, hopen, rfl⟩⟩

theorem Conducts.tell {events : List Event} (hc : b.Conducts h events r h') (n : Notice) :
    b.Conducts h (events ++ [.told n]) r (h'.tell n) := by
  have hhanded := handedOut_told events n
  refine ⟨hc.treats.tell n, hc.orderly, hc.begun, ?_, fun k hk => (hc.master k hk).imp_right hhanded.trans, fun k hk => ?_,
    hc.past⟩
  · rw [hhanded]
    exact hc.hands.imp_right fun ⟨hphase, k, hk⟩ => ⟨hphase, k, hhanded.trans hk⟩
  · rcases List.mem_append.mp hk with hk | hk
    · exact hc.closes k hk
    · cases List.mem_singleton.mp hk

/-! ### Within a step -/

/-- Whatever holds of the booth whether a fault breaks typing off or what comes next is done, holds after typing. -/
theorem type_keeps {p : Booth → Prop} {text : String} {next : Booth → Booth}
    (hfail : ∀ line f, p ({ b with line }.fail f)) (hnext : ∀ line, p (next { b with line })) : p (b.type text next) := by
  unfold type
  split
  · exact hfail b.line _
  · split
    · exact hfail _ _
    · exact hnext _

theorem typeCommand_keeps {p : Booth → Prop} {next : Booth → Booth} (hfail : ∀ line f, p ({ b with line }.fail f))
    (hnext : ∀ line, p (next { b with line })) : p (b.typeCommand step next) := by
  unfold typeCommand
  split
  · exact hnext b.line
  · exact type_keeps hfail hnext

/-- Taking a step leaves the session to itself, with something to do yet. -/
theorem takeStep_stays (b : Booth) (index : Nat) (step : Step) (rest : List Step) :
    (b.takeStep index step rest).session = b.session ∧ (b.takeStep index step rest).phase.isBusy = true := by
  let p (r : Booth) : Prop := r.session = b.session ∧ r.phase.isBusy = true
  have hfail (line : Output.Line) (f : Failure) : p ({ b with line }.fail f) := ⟨rfl, rfl⟩
  show p (b.takeStep index step rest)
  unfold takeStep
  dsimp only
  split
  · refine type_keeps hfail fun line => ?_
    unfold hear
    dsimp only
    split <;> exact ⟨rfl, rfl⟩
  · refine typeCommand_keeps hfail fun line => ?_
    dsimp only
    split <;> exact ⟨rfl, rfl⟩
  · exact typeCommand_keeps hfail fun line => ⟨rfl, rfl⟩

theorem takeProbe_stays (hphase : b.phase.isBusy = true) (plan : Plan) (h : Host) (index : Nat) (step : Step) (start : Nat)
    (deadline : Deadline) (rest : List Step) :
    (b.takeProbe plan h index step start deadline rest).1.session = b.session ∧
      (b.takeProbe plan h index step start deadline rest).1.phase.isBusy = true := by
  let p (r : Booth) : Prop := r.session = b.session ∧ r.phase.isBusy = true
  show p (b.takeProbe plan h index step start deadline rest).1
  unfold takeProbe
  split
  · exact ⟨rfl, rfl⟩
  · have hfail (line : Output.Line) (f : Failure) : p ({ b with line }.fail f) := ⟨rfl, rfl⟩
    dsimp only
    refine type_keeps hfail fun line => ?_
    unfold hear
    dsimp only
    split
    · exact ⟨rfl, rfl⟩
    · exact ⟨rfl, hphase⟩

/-- An action that leaves the session to itself does nothing to a handle. It may tell the operator something. -/
theorem conducts_quiet (hr : r.Orderly) (hbegun : r.phase ≠ .waiting) (hsession : r.session = b.session)
    (hpast : r.line.past = b.line.past ∨ b.session.isOpen = true) (hhost : h' = h ∨ ∃ n, h' = h.tell n) :
    ∃ events, b.Conducts h events r h' := by
  have hquiet : b.Conducts h [] r h := by
    refine ⟨?_, hr, hbegun, Or.inl rfl, fun n hn => Or.inl (hsession ▸ hn), nofun, fun hne => ?_⟩
    · rw [hsession]
      exact .refl h _
    · obtain ⟨n, hn⟩ := openMaster?_of_isOpen (hpast.resolve_left hne)
      exact ⟨n, Or.inl hn⟩
  rcases hhost with rfl | ⟨n, rfl⟩
  · exact ⟨_, hquiet⟩
  · exact ⟨_, hquiet.tell n⟩

/-- As long as there are steps to take the session is left to itself. -/
theorem conducts_stays (hopen : b.session.isOpen = true) (hr : r.session = b.session ∧ r.phase.isBusy = true)
    (hhost : h' = h ∨ ∃ n, h' = h.tell n) : ∃ events, b.Conducts h events r h' := by
  refine conducts_quiet ⟨by rw [hr.1, hopen, hr.2], fun _ => hr.2⟩ (fun hwaiting => ?_) hr.1 (Or.inr hopen) hhost
  rw [hwaiting] at hr
  cases hr.2

/-! ### Beginning -/

/-- The session of a booth that starts is a new one, which is started after the host has named it. -/
theorem start_hands {plan : Plan} {r : Except Failure Device} {s : Session} (hstart : Booth.start plan h = (r, s, h')) :
    ∃ events, h.Treats none events h' s.openMaster? ∧
      (handedOut events = [] ∨ ∃ n, Opens events n) ∧
      (∀ n ∈ s.openMaster?, Opens events n) ∧ s.isOpen = r.toOption.isSome ∧
      ∀ n, .closingMaster n ∉ events := by
  unfold Booth.start at hstart
  dsimp only at hstart
  split at hstart
  · cases hstart
    exact ⟨[], .refl _ none, Or.inl rfl, nofun, rfl, fun _ => List.not_mem_nil⟩
  · obtain ⟨events, htreats, hhands⟩ := Session.start_hands rfl hstart
    exact ⟨events, htreats.of_host rfl rfl, hhands⟩

theorem begin_conducts (hb : b.Orderly) (hphase : b.phase = .waiting) (plan : Plan) (h : Host) :
    ∃ events, b.Conducts h events (b.begin plan h).1 (b.begin plan h).2 := by
  have hclosed : b.session.isOpen = false := by rw [hb.isOpen, hphase]; rfl
  have hdetached : b.line.watcher.attached ≠ true := fun hattached => by
    have hbusy := hb.attached hattached
    rw [hphase] at hbusy
    cases hbusy
  generalize hstart : Booth.start plan h = started
  obtain ⟨r, s, h'⟩ := started
  obtain ⟨events, htreats, hhands, hmaster, hopen, hnone⟩ := start_hands hstart
  rw [← Session.openMaster?_eq_none hclosed] at htreats
  refine ⟨events, ?_⟩
  cases r with
  | error e =>
    rw [begin_of_error hstart]
    exact ⟨htreats, ⟨hopen, fun hattached => absurd hattached hdetached⟩, nofun, hhands.imp_right fun h => ⟨hphase, h⟩,
      fun n hn => Or.inr (hmaster n hn), fun n hn => absurd hn (hnone n), fun hpast => absurd rfl hpast⟩
  | ok device =>
    obtain ⟨n, hn⟩ := openMaster?_of_isOpen hopen
    cases hscript : script plan.settings.recorder b.target with
    | error e =>
      rw [begin_of_unscripted hstart hscript]
      exact ⟨htreats, ⟨hopen, fun _ => rfl⟩, nofun, hhands.imp_right fun h => ⟨hphase, h⟩,
        fun n hn => Or.inr (hmaster n hn), fun n hn => absurd hn (hnone n), fun _ => ⟨n, Or.inr hn⟩⟩
    | ok steps =>
      rw [begin_of_scripted hstart hscript]
      exact ⟨htreats, ⟨hopen, fun _ => rfl⟩, nofun, hhands.imp_right fun h => ⟨hphase, h⟩,
        fun n hn => Or.inr (hmaster n hn), fun n hn => absurd hn (hnone n), fun _ => ⟨n, Or.inr hn⟩⟩

/-! ### Ending -/

theorem detach_attached (l : Output.Line) : l.detach.watcher.attached = false := by
  unfold Output.Line.detach
  split
  · rfl
  · next hdetached => exact Bool.not_eq_true _ ▸ hdetached

/-- Closing an open session is done to its master, and leaves nothing to do with it. -/
theorem Conducts.closed (hm : b.session.master = some m) (hopen : m.isOpen = true) {phase : Phase}
    (hover : phase.isOver = true) : b.Conducts h [.closingMaster m.handle] ((b.closed m).goTo phase)
      (h.note (.closingMaster m.handle)) := by
  have hbusy : phase.isBusy = false := by cases phase <;> first | rfl | cases hover
  have hmaster : m.handle ∈ b.session.openMaster? := Session.openMaster?_eq_some.mpr ⟨m, hm, hopen, rfl⟩
  refine ⟨Session.treats_shut hm hopen h, ⟨hbusy.symm, ?_⟩, ?_, Or.inl rfl, nofun, fun n hn => ?_,
    fun _ => ⟨m.handle, Or.inl hmaster⟩⟩
  · intro hattached
    cases hattached.symm.trans (detach_attached b.line)
  · rintro rfl
    cases hover
  · cases List.mem_singleton.mp hn
    exact hmaster

theorem closeFailed_conducts (hm : b.session.master = some m) (hopen : m.isOpen = true) (h : Host) (failure : Failure) :
    ∃ events, b.Conducts h events (b.closeFailed h failure).1 (b.closeFailed h failure).2 := by
  unfold closeFailed
  rw [close_of_open hm hopen]
  cases b.session.closing m with
  | ok u => exact ⟨_, .closed hm hopen rfl⟩
  | error f =>
    cases f with
    | close reason => exact ⟨_, (Conducts.closed hm hopen rfl).tell _⟩
    | _ => exact ⟨_, .closed hm hopen rfl⟩

theorem closeDone_conducts (hm : b.session.master = some m) (hopen : m.isOpen = true) (plan : Plan) (h : Host) :
    ∃ events, b.Conducts h events (b.closeDone plan h).1 (b.closeDone plan h).2 := by
  unfold closeDone
  rw [close_of_open hm hopen]
  cases b.session.closing m with
  | ok u => exact ⟨_, .closed hm hopen rfl⟩
  | error f => exact ⟨_, .closed hm hopen rfl⟩

/-- Looking at the transcript is nothing to the session, which is closed. -/
theorem look_conducts (hb : b.Orderly) (hover : b.phase.isOver = true) (files : Files.History) (h : Host)
    (deadline : Deadline) (last : Option Nat) :
    ∃ events, b.Conducts h events (b.look files h deadline last).1 (b.look files h deadline last).2 := by
  have hidle : b.phase.isBusy = false := by
    cases hphase : b.phase <;> rw [hphase] at hover <;> first | rfl | cases hover
  have horderly {r : Booth} (hsession : r.session = b.session) (hwatcher : r.line.watcher = b.line.watcher)
      (hphase : r.phase.isBusy = false) : r.Orderly :=
    ⟨by rw [hsession, hb.isOpen, hidle, hphase], fun hattached => by
      rw [hwatcher] at hattached
      cases hidle.symm.trans (hb.attached hattached)⟩
  unfold look
  dsimp only
  split
  · split
    · exact conducts_quiet (horderly rfl rfl rfl) nofun rfl (Or.inl rfl) (Or.inl rfl)
    · split
      · exact conducts_quiet (horderly rfl rfl rfl) nofun rfl (Or.inl rfl) (Or.inl rfl)
      · exact conducts_quiet (horderly rfl rfl rfl) nofun rfl (Or.inl rfl) (Or.inl rfl)
  · exact conducts_quiet (horderly rfl rfl rfl) nofun rfl (Or.inl rfl) (Or.inr ⟨_, rfl⟩)

/-- Whatever a recording does to a handle in an action, it does to one of its own. -/
theorem act_conducts (hb : b.Orderly) (plan : Plan) (files : Files.History) (h : Host) :
    ∃ events, b.Conducts h events (b.act plan files h).1 (b.act plan files h).2 := by
  have hbusy (hphase : b.phase.isBusy = true) : ∃ m, b.session.master = some m ∧ m.isOpen = true :=
    Session.isOpen_iff.mp (hb.isOpen.trans hphase)
  cases hphase : b.phase with
  | waiting =>
    have hact : b.act plan files h = b.begin plan h := by rw [act, hphase]
    rw [hact]
    exact begin_conducts hb hphase plan h
  | between index steps =>
    cases steps with
    | nil =>
      obtain ⟨m, hm, hopen⟩ := hbusy (by rw [hphase]; rfl)
      rw [act_between_nil hphase]
      exact closeDone_conducts hm hopen plan h
    | cons step rest =>
      rw [act_between hphase]
      exact conducts_stays (by rw [hb.isOpen, hphase]; rfl) (b.takeStep_stays index step rest) (Or.inl rfl)
  | probing index step start deadline rest =>
    rw [act_probing hphase]
    refine conducts_stays (by rw [hb.isOpen, hphase]; rfl)
      (takeProbe_stays (by rw [hphase]; rfl) plan h index step start deadline rest) ?_
    unfold takeProbe
    split
    · exact Or.inr ⟨_, rfl⟩
    · exact Or.inl rfl
  | failing failure =>
    obtain ⟨m, hm, hopen⟩ := hbusy (by rw [hphase]; rfl)
    rw [act_failing hphase]
    exact closeFailed_conducts hm hopen h failure
  | settling deadline last =>
    rw [act_settling hphase]
    exact look_conducts hb (by rw [hphase]; rfl) files h deadline last
  | done result =>
    rw [act_done hphase]
    exact conducts_quiet hb (by rw [hphase]; intro h; cases h) rfl (Or.inl rfl) (Or.inl rfl)

end Recording.Booth

end Teletype
