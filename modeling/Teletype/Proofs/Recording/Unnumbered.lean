import Teletype.Proofs.Recording.Conduct

/-! # Recordings up to numbers

A recording goes by its device, by the faults it meets, by the settings and variables it finds when it begins, and by the
size of its transcript. The ids and handles that its host gives it are only passed on: two recordings that differ in these
alone do the same. -/

namespace Teletype

/-! ### Leaving numbers out -/

/-- The failure without the id of a session. -/
def Failure.unnumbered : Failure → Failure
  | .resize (.inactive _) => .resize (.inactive "")
  | .close (.notOpen _) => .close (.notOpen "")
  | .close (.refused _ f) => .close (.refused "" f)
  | f => f

namespace Session

/-- The session without its id, its handle and the id of its child. -/
def unnumbered (s : Session) : Session :=
  { s with id := "", master := s.master.map fun m => { m with handle := 0 }, child := s.child.map fun _ => 0 }

variable {s s' : Session} {m : Master}

theorem isOpen_unnumbered (s : Session) : s.unnumbered.isOpen = s.isOpen := by
  unfold isOpen unnumbered
  cases s.master <;> rfl

/-- A session with other numbers has a master that is the same but for its handle. -/
theorem master_of_unnumbered (hs : s'.unnumbered = s.unnumbered) (hm : s.master = some m) :
    ∃ m', s'.master = some m' ∧ m'.isOpen = m.isOpen ∧ m'.closeFault = m.closeFault := by
  have hmasters : s'.unnumbered.master = s.unnumbered.master := congrArg (·.master) hs
  simp only [unnumbered, hm, Option.map_some] at hmasters
  obtain ⟨m', hm', hsame⟩ := Option.map_eq_some_iff.mp hmasters
  rw [Master.mk.injEq] at hsame
  exact ⟨m', hm', hsame.2⟩

theorem shut_unnumbered (hs : s'.unnumbered = s.unnumbered) (m m' : Master) :
    (s'.shut m').unnumbered = (s.shut m).unnumbered := by
  have hfields := hs
  simp only [unnumbered, mk.injEq] at hfields
  obtain ⟨-, hcommand, henvironment, hcredential, hcolumns, hrows, -, -, hchild⟩ := hfields
  simp only [unnumbered, shut, hcommand, henvironment, hcredential, hcolumns, hrows, hchild, Option.map_some]

theorem closing_unnumbered (s s' : Session) {m' : Master} (hfault : m'.closeFault = m.closeFault) :
    (∃ u, s.closing m = .ok u ∧ s'.closing m' = .ok u) ∨
    (∃ reason reason', s.closing m = .error (.close reason) ∧ s'.closing m' = .error (.close reason') ∧
      (Failure.close reason').unnumbered = (Failure.close reason).unnumbered) ∨
    ∃ f, s.closing m = .error (.fault f) ∧ s'.closing m' = .error (.fault f) := by
  unfold closing
  rw [hfault]
  cases m.closeFault with
  | none => exact Or.inl ⟨(), rfl, rfl⟩
  | some f =>
    dsimp only
    cases f.isSystem with
    | true => exact Or.inr (Or.inl ⟨_, _, rfl, rfl, rfl⟩)
    | false => exact Or.inr (Or.inr ⟨f, rfl, rfl⟩)

theorem connected_unnumbered (hs : s'.unnumbered = s.unnumbered) {h h' : Host} (hdevice : h'.nextDevice = h.nextDevice) :
    (s'.connected h').unnumbered = (s.connected h).unnumbered := by
  have hfields := hs
  simp only [unnumbered, mk.injEq] at hfields
  obtain ⟨-, hcommand, henvironment, hcredential, hcolumns, hrows, -, -, -⟩ := hfields
  simp only [unnumbered, connected, hcommand, henvironment, hcredential, hcolumns, hrows, hdevice, Option.map_some]

/-- A start goes by the device and the faults that are ready for it. -/
theorem start_unnumbered (hs : s'.unnumbered = s.unnumbered) {h h' : Host} (hdevice : h'.nextDevice = h.nextDevice)
    (hfaults : h'.nextFaults = h.nextFaults) :
    (s'.start h').1 = (s.start h).1 ∧ (s'.start h').2.1.unnumbered = (s.start h).2.1.unnumbered := by
  have hstarts := s.start_starts h
  generalize s.start h = started at hstarts
  cases hstarts with
  | unopened f hopening =>
    rw [(Starts.unopened (s := s') f (hfaults ▸ hopening)).start_eq]
    exact ⟨rfl, hs⟩
  | refused f hopening hspawning hrefuses =>
    rw [(Starts.refused (s := s') f (hfaults ▸ hopening) (hfaults ▸ hspawning) hrefuses).start_eq]
    exact ⟨rfl, hs⟩
  | broken f hopening hspawning hother =>
    rw [(Starts.broken (s := s') f (hfaults ▸ hopening) (hfaults ▸ hspawning) hother).start_eq]
    exact ⟨rfl, hs⟩
  | connected hopening hspawning =>
    rw [(Starts.connected (s := s') (hfaults ▸ hopening) (hfaults ▸ hspawning)).start_eq, hdevice]
    exact ⟨rfl, connected_unnumbered hs hdevice⟩

end Session

namespace Recording

/-- The phase without the id of a session. -/
def Phase.unnumbered : Phase → Phase
  | .failing f => .failing f.unnumbered
  | .done (.error f) => .done (.error f.unnumbered)
  | phase => phase

/-- Phases with other numbers are the same, or have failed in the same way. -/
theorem Phase.of_unnumbered {phase phase' : Phase} (h : phase'.unnumbered = phase.unnumbered) : phase' = phase ∨
    ∃ f f', f'.unnumbered = f.unnumbered ∧
      (phase = .failing f ∧ phase' = .failing f' ∨ phase = .done (.error f) ∧ phase' = .done (.error f')) := by
  cases phase with
  | failing f =>
    cases phase' with
    | failing f' => exact Or.inr ⟨f, f', failing.inj h, Or.inl ⟨rfl, rfl⟩⟩
    | done result => cases result <;> cases h
    | waiting | between | probing | settling => cases h
  | done result =>
    cases phase' with
    | done result' =>
      cases result with
      | ok path =>
        cases result' with
        | ok path' => exact Or.inl h
        | error f' => cases h
      | error f =>
        cases result' with
        | ok path => cases h
        | error f' => exact Or.inr ⟨f, f', Except.error.inj (done.inj h), Or.inr ⟨rfl, rfl⟩⟩
    | waiting | between | probing | failing | settling => cases result <;> cases h
  | waiting | between | probing | settling =>
    cases phase' with
    | done result => cases result <;> cases h
    | waiting | between | probing | failing | settling => cases h <;> exact Or.inl rfl

namespace Booth

/-- The booth without the numbers that its host has given it. -/
def unnumbered (b : Booth) : Booth := { b with phase := b.phase.unnumbered, session := b.session.unnumbered }

/-- The booth with another session. -/
def on (b : Booth) (s : Session) : Booth := { b with session := s }

variable {b c : Booth} {s : Session} {step : Step} {m m' : Master}

theorem unnumbered_eq_iff : c.unnumbered = b.unnumbered ↔ c.target = b.target ∧ c.phase.unnumbered = b.phase.unnumbered ∧
    c.session.unnumbered = b.session.unnumbered ∧ c.line = b.line ∧ c.gaveWay = b.gaveWay := by
  simp only [unnumbered, Booth.mk.injEq]

/-- In the same phase a booth with other numbers differs in its session alone. -/
theorem eq_on (h : c.unnumbered = b.unnumbered) (hphase : c.phase = b.phase) : c = b.on c.session := by
  obtain ⟨htarget, -, -, hline, hgaveWay⟩ := unnumbered_eq_iff.mp h
  obtain ⟨target, phase, session, line, gaveWay⟩ := c
  simp only at htarget hphase hline hgaveWay
  subst htarget hphase hline hgaveWay
  rfl

theorem on_unnumbered (hs : s.unnumbered = b.session.unnumbered) : (b.on s).unnumbered = b.unnumbered :=
  unnumbered_eq_iff.mpr ⟨rfl, rfl, hs, rfl, rfl⟩

/-! ### Within a step -/

/-- What is typed is typed to any session that is open. -/
theorem type_on (hb : b.session.isOpen = true) (hs : s.isOpen = true) {text : String} {next : Booth → Booth}
    (hnext : ∀ line, next (on { b with line } s) = (next { b with line }).on s) :
    (b.on s).type text next = (b.type text next).on s := by
  have hb' : b.session.writeRefusal? = none := if_pos hb
  have hs' : (b.on s).session.writeRefusal? = none := if_pos hs
  have hline : (b.on s).line = b.line := rfl
  unfold type
  rw [hb', hs', hline]
  dsimp only
  split
  · rfl
  · exact hnext _

theorem typeCommand_on (hb : b.session.isOpen = true) (hs : s.isOpen = true) {next : Booth → Booth}
    (hnext : ∀ line, next (on { b with line } s) = (next { b with line }).on s) :
    (b.on s).typeCommand step next = (b.typeCommand step next).on s := by
  unfold typeCommand
  split
  · exact hnext b.line
  · exact type_on hb hs hnext

/-- So is what is heard, on any session. -/
theorem hear_on (b : Booth) (s : Session) (index start : Nat) (span : Span) {next : Bool → Booth → Booth}
    (hnext : ∀ found b₁, next found (b₁.on s) = (next found b₁).on s) :
    (b.on s).hear index start span next = (b.hear index start span next).on s := by
  let wait := b.line.waitFor (marker index) start span
  exact hnext wait.found { b with line := wait.line, gaveWay := b.gaveWay || wait.gaveWay }

theorem takeStep_on (hb : b.session.isOpen = true) (hs : s.isOpen = true) (index : Nat) (step : Step) (rest : List Step) :
    (b.on s).takeStep index step rest = (b.takeStep index step rest).on s := by
  unfold takeStep
  dsimp only
  split
  · refine type_on hb hs fun line => hear_on _ s index _ _ fun found b₁ => ?_
    cases found <;> rfl
  · refine typeCommand_on hb hs fun line => ?_
    dsimp only [on]
    split <;> rfl
  · exact typeCommand_on hb hs fun line => rfl

theorem takeProbe_on (hb : b.session.isOpen = true) (hs : s.isOpen = true) (plan : Plan) (h h' : Host) (index : Nat)
    (step : Step) (start : Nat) (deadline : Deadline) (rest : List Step) :
    ((b.on s).takeProbe plan h' index step start deadline rest).1 =
      (b.takeProbe plan h index step start deadline rest).1.on s := by
  have hline : (b.on s).line = b.line := rfl
  have hnow : (b.on s).now = b.now := rfl
  unfold takeProbe
  rw [hline, hnow]
  split
  · rfl
  · dsimp only
    refine type_on hb hs fun line => hear_on _ s index start _ fun found b₁ => ?_
    cases found <;> rfl

/-! ### Beginning and ending -/

theorem start_unnumbered (plan : Plan) {h h' : Host} (hdevice : h'.nextDevice = h.nextDevice)
    (hfaults : h'.nextFaults = h.nextFaults) : (start plan h').1 = (start plan h).1 ∧
      (start plan h').2.1.unnumbered = (start plan h).2.1.unnumbered := by
  unfold start
  dsimp only
  split
  · exact ⟨rfl, rfl⟩
  · next environment _ =>
    let session (id : String) : Session := { id, command := Shell.argv plan.settings.shell "", environment }
    have hsession : (session h'.name.1).unnumbered = (session h.name.1).unnumbered := rfl
    have hdevice' : h'.name.2.nextDevice = h.name.2.nextDevice := hdevice
    exact Session.start_unnumbered hsession hdevice' hfaults

theorem begin_unnumbered (hbc : c.unnumbered = b.unnumbered) (plan : Plan) {h h' : Host}
    (hdevice : h'.nextDevice = h.nextDevice) (hfaults : h'.nextFaults = h.nextFaults) :
    (c.begin plan h').1.unnumbered = (b.begin plan h).1.unnumbered := by
  obtain ⟨hresult, hsession⟩ := start_unnumbered plan hdevice hfaults
  obtain ⟨htarget, -, -, hline, hgaveWay⟩ := unnumbered_eq_iff.mp hbc
  generalize hstart : start plan h = started at hresult hsession
  generalize hstart' : start plan h' = started' at hresult hsession
  obtain ⟨r, s, h₁⟩ := started
  obtain ⟨r', s', h₁'⟩ := started'
  obtain rfl : r' = r := hresult
  cases r' with
  | error e =>
    rw [begin_of_error hstart, begin_of_error hstart']
    exact unnumbered_eq_iff.mpr ⟨htarget, rfl, hsession, hline, hgaveWay⟩
  | ok device =>
    have hopened : (c.opened device s').line = (b.opened device s).line := by
      unfold opened now
      rw [hline]
    cases hscript : script plan.settings.recorder b.target with
    | error e =>
      rw [begin_of_unscripted hstart hscript, begin_of_unscripted hstart' (htarget ▸ hscript)]
      exact unnumbered_eq_iff.mpr ⟨htarget, rfl, hsession, hopened, hgaveWay⟩
    | ok steps =>
      rw [begin_of_scripted hstart hscript, begin_of_scripted hstart' (htarget ▸ hscript)]
      exact unnumbered_eq_iff.mpr ⟨htarget, rfl, hsession, hopened, hgaveWay⟩

/-- Once their sessions are closed, two booths differ as before if they go on to the same. -/
theorem closed_unnumbered (hbc : c.unnumbered = b.unnumbered) (m m' : Master) {phase phase' : Phase}
    (hphase : phase'.unnumbered = phase.unnumbered) :
    ((c.closed m').goTo phase').unnumbered = ((b.closed m).goTo phase).unnumbered := by
  obtain ⟨htarget, -, hsession, hline, hgaveWay⟩ := unnumbered_eq_iff.mp hbc
  refine unnumbered_eq_iff.mpr ⟨htarget, hphase, Session.shut_unnumbered hsession m m', ?_, hgaveWay⟩
  show c.line.detach.note .closed = b.line.detach.note .closed
  rw [hline]

theorem closeFailed_unnumbered (hbc : c.unnumbered = b.unnumbered) (hopen : b.session.isOpen = true) (h h' : Host)
    {failure failure' : Failure} (hfailure : failure'.unnumbered = failure.unnumbered) :
    (c.closeFailed h' failure').1.unnumbered = (b.closeFailed h failure).1.unnumbered := by
  obtain ⟨m, hm, hmopen⟩ := Session.isOpen_iff.mp hopen
  obtain ⟨m', hm', hopen', hfault⟩ := Session.master_of_unnumbered (unnumbered_eq_iff.mp hbc).2.2.1 hm
  have hphase : (Phase.done (.error failure')).unnumbered = (Phase.done (.error failure)).unnumbered :=
    congrArg (fun f => Phase.done (.error f)) hfailure
  unfold closeFailed
  rw [close_of_open hm hmopen, close_of_open hm' (hopen'.trans hmopen)]
  rcases b.session.closing_unnumbered c.session hfault with
    ⟨u, hb, hc⟩ | ⟨reason, reason', hb, hc, -⟩ | ⟨f, hb, hc⟩ <;> rw [hb, hc]
  · exact closed_unnumbered hbc m m' hphase
  · exact closed_unnumbered hbc m m' hphase
  · exact closed_unnumbered hbc m m' rfl

theorem closeDone_unnumbered (hbc : c.unnumbered = b.unnumbered) (hopen : b.session.isOpen = true) (plan : Plan)
    (h h' : Host) : (c.closeDone plan h').1.unnumbered = (b.closeDone plan h).1.unnumbered := by
  obtain ⟨m, hm, hmopen⟩ := Session.isOpen_iff.mp hopen
  obtain ⟨m', hm', hopen', hfault⟩ := Session.master_of_unnumbered (unnumbered_eq_iff.mp hbc).2.2.1 hm
  have hline : c.line = b.line := (unnumbered_eq_iff.mp hbc).2.2.2.1
  unfold closeDone
  rw [close_of_open hm hmopen, close_of_open hm' (hopen'.trans hmopen)]
  rcases b.session.closing_unnumbered c.session hfault with
    ⟨u, hb, hc⟩ | ⟨reason, reason', hb, hc, hreason⟩ | ⟨f, hb, hc⟩ <;> rw [hb, hc]
  · refine closed_unnumbered hbc m m' ?_
    unfold now
    rw [hline]
  · exact closed_unnumbered hbc m m' (congrArg (fun f => Phase.done (.error f)) hreason)
  · exact closed_unnumbered hbc m m' rfl

theorem look_on {files files' : Files.History}
    (hsize : files'.size? b.target.logFile b.now = files.size? b.target.logFile b.now) (s : Session) (h h' : Host)
    (deadline : Deadline) (last : Option Nat) :
    ((b.on s).look files' h' deadline last).1 = (b.look files h deadline last).1.on s := by
  have htarget : (b.on s).target = b.target := rfl
  have hnow : (b.on s).now = b.now := rfl
  unfold look
  dsimp only
  rw [htarget, hnow, hsize]
  split
  · split
    · rfl
    · split <;> rfl
  · rfl

theorem look_session (files : Files.History) (b : Booth) (h : Host) (deadline : Deadline) (last : Option Nat) :
    (b.look files h deadline last).1.session = b.session := by
  have hsame : ((b.on b.session).look files h deadline last).1 = (b.look files h deadline last).1.on b.session :=
    look_on rfl b.session h h deadline last
  exact congrArg (·.session) hsame

/-- Two recordings that differ only in numbers do the same next, if they find the same device, faults, settings and
    variables, and their transcripts have one size. -/
theorem act_unnumbered (hb : b.Orderly) (hbc : c.unnumbered = b.unnumbered) (plan : Plan) {files files' : Files.History}
    {h h' : Host} (hdevice : h'.nextDevice = h.nextDevice) (hfaults : h'.nextFaults = h.nextFaults)
    (hsize : files'.size? b.target.logFile b.now = files.size? b.target.logFile b.now) :
    (c.act plan files' h').1.unnumbered = (b.act plan files h).1.unnumbered := by
  obtain ⟨-, hphases, hsession, -, -⟩ := unnumbered_eq_iff.mp hbc
  rcases Phase.of_unnumbered hphases with hphase | ⟨f, f', hf, ⟨hfailing, hfailing'⟩ | ⟨hdone, hdone'⟩⟩
  · have hc := eq_on hbc hphase
    have hopen (hbusy : b.phase.isBusy = true) : b.session.isOpen = true ∧ c.session.isOpen = true := by
      rw [← Session.isOpen_unnumbered c.session, hsession, Session.isOpen_unnumbered, hb.isOpen]
      exact ⟨hbusy, hbusy⟩
    cases hphase' : b.phase with
    | waiting =>
      have hact : b.act plan files h = b.begin plan h := by rw [act, hphase']
      have hact' : c.act plan files' h' = c.begin plan h' := by rw [act, hphase, hphase']
      rw [hact, hact']
      exact begin_unnumbered hbc plan hdevice hfaults
    | between index steps =>
      obtain ⟨hbopen, hcopen⟩ := hopen (by rw [hphase']; rfl)
      cases steps with
      | nil =>
        rw [act_between_nil hphase', act_between_nil (hphase.trans hphase')]
        exact closeDone_unnumbered hbc hbopen plan h h'
      | cons step rest =>
        rw [act_between hphase', act_between (hphase.trans hphase'), hc]
        dsimp only
        rw [takeStep_on hbopen hcopen]
        exact on_unnumbered (by rw [hsession, (b.takeStep_stays index step rest).1])
    | probing index step start deadline rest =>
      obtain ⟨hbopen, hcopen⟩ := hopen (by rw [hphase']; rfl)
      have hstays := takeProbe_stays (by rw [hphase']; rfl) plan h index step start deadline rest
      rw [act_probing hphase', act_probing (hphase.trans hphase'), hc, takeProbe_on hbopen hcopen plan h h']
      exact on_unnumbered (by rw [hsession, hstays.1])
    | failing f =>
      obtain ⟨hbopen, -⟩ := hopen (by rw [hphase']; rfl)
      rw [act_failing hphase', act_failing (hphase.trans hphase')]
      exact closeFailed_unnumbered hbc hbopen h h' rfl
    | settling deadline last =>
      rw [act_settling hphase', act_settling (hphase.trans hphase'), hc, look_on hsize _ h h']
      exact on_unnumbered (by rw [hsession, look_session])
    | done result =>
      rw [act_done hphase', act_done (hphase.trans hphase')]
      exact hbc
  · rw [act_failing hfailing, act_failing hfailing']
    exact closeFailed_unnumbered hbc (hb.isOpen.trans (by rw [hfailing]; rfl)) h h' hf
  · rw [act_done hdone, act_done hdone']
    exact hbc

end Booth

end Recording

end Teletype
