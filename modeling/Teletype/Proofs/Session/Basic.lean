import Teletype.Session.Basic

/-! # Starting, resizing and closing a session

A start opens the two sides of a terminal. It ends with the subordinate side closed, and if the host
refuses the child with the master closed too. Resizing a session asks the host once, if the session is
active and the size fits. Closing a session asks the host for its master once; a session that is not open
asks for nothing. -/

namespace Teletype

/-! ### Handles -/

/-- The host is asked to open or to close something. -/
def Event.isHandling : Event → Bool
  | .opened _ _ | .closed _ | .closingMaster _ => true
  | _ => false

/-- What of this is about opening and closing. -/
def handled (events : List Event) : List Event := events.filter Event.isHandling

theorem handled_append (p q : List Event) : handled (p ++ q) = handled p ++ handled q := List.filter_append ..

namespace Host

/-- The device of the next terminal. -/
def nextDevice (h : Host) : Device := h.devices.headD {}

/-- The faults that are ready once that device is there. -/
def nextFaults (h : Host) : Faults := h.faults.updated h.nextDevice.faults

/-- The host once that device is there. -/
def advance (h : Host) : Host := { h with devices := h.devices.drop 1, faults := h.nextFaults }

variable {h : Host} {f : Fault}

theorem openTerminal_of_some (hf : h.nextFaults.opening = some f) :
    h.openTerminal = (.error f, { h.advance with faults := { h.nextFaults with opening := none } }) := by
  unfold openTerminal
  unfold nextFaults nextDevice at hf
  dsimp only
  rw [hf]
  rfl

theorem openTerminal_of_none (hf : h.nextFaults.opening = none) :
    h.openTerminal = (.ok (masterHandle h.opened, h.nextDevice),
      { h.advance with opened := h.opened + 1 }.note
        (.opened (masterHandle h.opened) (subordinateOf (masterHandle h.opened)))) := by
  unfold openTerminal
  unfold nextFaults nextDevice at hf
  dsimp only
  rw [hf]
  rfl

theorem spawn_of_some (hf : h.faults.spawning = some f) (x : Spawn) :
    h.spawn x = (.error f, { h.note (.spawning x) with faults := { h.faults with spawning := none } }) := by
  unfold spawn
  dsimp only [note]
  rw [hf]

theorem spawn_of_none (hf : h.faults.spawning = none) (x : Spawn) :
    h.spawn x = (.ok (childId h.spawned), { h.note (.spawning x) with spawned := h.spawned + 1 }) := by
  unfold spawn
  dsimp only [note]
  rw [hf]

theorem resize_of_some (hf : h.faults.resizing = some f) (handle : Nat) (columns rows : Int) :
    h.resize handle columns rows = (some f,
      { h.note (.resizing handle columns rows) with faults := { h.faults with resizing := none } }) := by
  unfold resize
  dsimp only [note]
  rw [hf]

theorem resize_of_none (hf : h.faults.resizing = none) (handle : Nat) (columns rows : Int) :
    h.resize handle columns rows = (none, h.note (.resizing handle columns rows)) := by
  unfold resize
  dsimp only [note]
  rw [hf]

end Host

namespace Session
variable {s : Session} {m : Master}

/-! ### Starting -/

/-- What a start asks of the host until it knows whether there is a child. -/
def attempt (s : Session) (master : Nat) : List Event :=
  [.opened master (Host.subordinateOf master), .spawning (s.spawnOn (Host.subordinateOf master)),
    .closed (Host.subordinateOf master)]

/-- The host once a start knows whether there is a child. -/
def attempted (s : Session) (h : Host) : Host :=
  { h.advance with opened := h.opened + 1, journal := h.journal ++ s.attempt (Host.masterHandle h.opened) }

/-- The session once it has a terminal and a child. -/
def connected (s : Session) (h : Host) : Session :=
  { s with
    status := .active
    master := some ⟨Host.masterHandle h.opened, true, h.nextDevice.closeFault⟩
    child := some (Host.childId h.spawned) }

/-- How a start can go: the host opens no terminal; it refuses the child; the child fails to start in another
    way, which leaves the master open; or there is a child. -/
inductive Starts (s : Session) (h : Host) : Started → Prop
  | unopened (f : Fault) (hopening : h.nextFaults.opening = some f) : Starts s h
      (.error (if f.isSystem then .start f else .fault f), s,
        { h.advance with
          faults := { h.nextFaults with opening := none }
          journal := h.journal ++ if f.isSystem then [.told (.terminalNotOpened f)] else [] })
  | refused (f : Fault) (hopening : h.nextFaults.opening = none) (hspawning : h.nextFaults.spawning = some f)
      (hrefuses : f.refusesSpawn = true) : Starts s h
      (.error (.start f), s,
        { s.attempted h with
          faults := { h.nextFaults with spawning := none }
          journal := (s.attempted h).journal ++ [.closed (Host.masterHandle h.opened), .told (.shellNotStarted f)] })
  | broken (f : Fault) (hopening : h.nextFaults.opening = none) (hspawning : h.nextFaults.spawning = some f)
      (hother : f.refusesSpawn = false) : Starts s h
      (.error (.fault f), s, { s.attempted h with faults := { h.nextFaults with spawning := none } })
  | connected (hopening : h.nextFaults.opening = none) (hspawning : h.nextFaults.spawning = none) : Starts s h
      (.ok h.nextDevice, s.connected h, { s.attempted h with spawned := h.spawned + 1 })

theorem Starts.start_eq {h : Host} {started : Started} (hstarts : Starts s h started) : s.start h = started := by
  cases hstarts with
  | unopened f hopening =>
    unfold start
    rw [Host.openTerminal_of_some hopening]
    dsimp only
    cases f.isSystem with
    | true => rfl
    | false =>
      simp only [Bool.false_eq_true, if_false, List.append_nil]
      rfl
  | refused f hopening hspawning hrefuses =>
    unfold start
    rw [Host.openTerminal_of_none hopening]
    dsimp only [connect]
    rw [Host.spawn_of_some hspawning]
    dsimp only
    rw [if_pos hrefuses]
    simp only [Host.tell, Host.note, attempted, attempt, List.append_assoc, List.cons_append, List.nil_append]
    rfl
  | broken f hopening hspawning hother =>
    unfold start
    rw [Host.openTerminal_of_none hopening]
    dsimp only [connect]
    rw [Host.spawn_of_some hspawning]
    dsimp only
    rw [if_neg (by rw [hother]; exact Bool.false_ne_true)]
    simp only [Host.note, attempted, attempt, List.append_assoc, List.cons_append, List.nil_append]
    rfl
  | connected hopening hspawning =>
    unfold start
    rw [Host.openTerminal_of_none hopening]
    dsimp only [connect]
    rw [Host.spawn_of_none hspawning]
    simp only [Host.note, attempted, attempt, List.append_assoc, List.cons_append, List.nil_append]
    rfl

theorem start_starts (s : Session) (h : Host) : Starts s h (s.start h) := by
  cases hopening : h.nextFaults.opening with
  | some f =>
    have hstarts := Starts.unopened (s := s) f hopening
    rwa [hstarts.start_eq]
  | none =>
    cases hspawning : h.nextFaults.spawning with
    | none =>
      have hstarts := Starts.connected (s := s) hopening hspawning
      rwa [hstarts.start_eq]
    | some f =>
      cases hrefuses : f.refusesSpawn with
      | true =>
        have hstarts := Starts.refused (s := s) f hopening hspawning hrefuses
        rwa [hstarts.start_eq]
      | false =>
        have hstarts := Starts.broken (s := s) f hopening hspawning hrefuses
        rwa [hstarts.start_eq]

/-- A start that fails leaves the session as it was, and no handle open if the host only refused the child.
    One that succeeds leaves it with the master of a terminal, which is open. -/
theorem start_cases (s : Session) (h : Host) :
    (∃ e h₁ events, s.start h = (.error e, s, h₁) ∧ (∃ f, e = .start f ∨ e = .fault f) ∧
      h₁.journal = h.journal ++ events ∧
      ((∀ f ∈ h.nextFaults.spawning, f.refusesSpawn) → handled events = [] ∨ ∃ master, handled events =
        [.opened master (Host.subordinateOf master), .closed (Host.subordinateOf master), .closed master])) ∨
    ∃ s₁ h₁ events master, s.start h = (.ok h.nextDevice, s₁, h₁) ∧
      s₁.master = some ⟨master, true, h.nextDevice.closeFault⟩ ∧ h₁.journal = h.journal ++ events ∧
      handled events = [.opened master (Host.subordinateOf master), .closed (Host.subordinateOf master)] := by
  have hstarts := s.start_starts h
  generalize s.start h = started at hstarts
  cases hstarts with
  | unopened f hopening =>
    refine Or.inl ⟨_, _, _, rfl, ⟨f, ?_⟩, rfl, fun _ => Or.inl ?_⟩
    · split
      · exact Or.inl rfl
      · exact Or.inr rfl
    · split <;> rfl
  | refused f hopening hspawning hrefuses =>
    exact Or.inl ⟨_, _, _, rfl, ⟨f, Or.inl rfl⟩, List.append_assoc .., fun _ => Or.inr ⟨_, rfl⟩⟩
  | broken f hopening hspawning hother =>
    refine Or.inl ⟨_, _, _, rfl, ⟨f, Or.inr rfl⟩, rfl, fun hrefuses => ?_⟩
    rw [hrefuses f hspawning] at hother
    cases hother
  | connected hopening hspawning => exact Or.inr ⟨_, _, _, _, rfl, rfl, rfl, rfl⟩

/-! ### Resizing -/

/-- How a session can be given a size: it is not active; its rows or, failing these, its columns do not fit; the host has
    a fault for it; or the session has the size. -/
inductive Resizes (s : Session) (h : Host) (columns rows : Int) : Except Failure Unit × Session × Host → Prop
  | inactive (hstatus : s.status ≠ .active ∨ s.master = none) :
      Resizes s h columns rows (.error (.resize (.inactive s.id)), s, h)
  | misfit (m : Master) (n : Int) (hstatus : s.status = .active) (hm : s.master = some m)
      (hn : n = rows ∨ fits rows = true ∧ n = columns) (hmisfit : fits n = false) :
      Resizes s h columns rows (.error (.resize (.refused (misfit n))), s, h)
  | refused (m : Master) (f : Fault) (hstatus : s.status = .active) (hm : s.master = some m) (hrows : fits rows = true)
      (hcolumns : fits columns = true) (hfault : h.faults.resizing = some f) :
      Resizes s h columns rows (.error (if f.isSystem then .resize (.refused f) else .fault f), s,
        { h.note (.resizing m.handle columns rows) with faults := { h.faults with resizing := none } })
  | resized (m : Master) (hstatus : s.status = .active) (hm : s.master = some m) (hrows : fits rows = true)
      (hcolumns : fits columns = true) (hfault : h.faults.resizing = none) :
      Resizes s h columns rows (.ok (), { s with columns, rows }, h.note (.resizing m.handle columns rows))

theorem resize_resizes (s : Session) (h : Host) (columns rows : Int) : Resizes s h columns rows (s.resize h columns rows) := by
  unfold resize
  split
  · next m hstatus hm =>
    cases hrows : fits rows with
    | false => exact .misfit m rows hstatus hm (Or.inl rfl) hrows
    | true =>
      cases hcolumns : fits columns with
      | false => exact .misfit m columns hstatus hm (Or.inr ⟨hrows, rfl⟩) hcolumns
      | true =>
        cases hfault : h.faults.resizing with
        | some f =>
          rw [Host.resize_of_some hfault]
          exact .refused m f hstatus hm hrows hcolumns hfault
        | none =>
          rw [Host.resize_of_none hfault]
          exact .resized m hstatus hm hrows hcolumns hfault
  · next hnone =>
    refine .inactive ?_
    by_cases hstatus : s.status = .active
    · exact Or.inr (Option.eq_none_iff_forall_ne_some.mpr fun m hm => hnone m hstatus hm)
    · exact Or.inl hstatus

theorem fits_iff {n : Int} : fits n = true ↔ 0 ≤ n ∧ n ≤ 65535 := by
  simp [fits]

/-! ### Closing -/

/-- How the closing of a master ends. -/
def closing (s : Session) (m : Master) : Except Failure Unit :=
  match m.closeFault with
  | none => .ok ()
  | some f => .error (if f.isSystem then .close (.refused s.id f) else .fault f)

theorem closing_of_none (hm : m.closeFault = none) : s.closing m = .ok () := by
  rw [closing, hm]

theorem closing_of_fault {f : Fault} (hm : m.closeFault = some f) (hf : f.isSystem = true) :
    s.closing m = .error (.close (.refused s.id f)) := by
  simp only [closing, hm, hf, if_true]

/-- The session once its master is closed, whether or not this has met a fault. -/
def shut (s : Session) (m : Master) : Session :=
  { s with status := .closed, master := some { m with isOpen := false, closeFault := none } }

theorem close_of_open (hm : s.master = some m) (hopen : m.isOpen = true) (h : Host) :
    s.close h = (s.closing m, s.shut m, h.note (.closingMaster m.handle)) := by
  unfold close closing
  rw [hm]
  dsimp only
  rw [if_pos hopen]
  cases m.closeFault <;> rfl

theorem close_of_not_isOpen (hs : s.isOpen = false) (h : Host) :
    s.close h = (.error (.close (.notOpen s.id)), s, h) := by
  unfold close
  unfold isOpen at hs
  split
  · next m hm =>
    rw [hm] at hs
    rw [if_neg (by simpa using hs)]
  · rfl

theorem isOpen_iff : s.isOpen = true ↔ ∃ m, s.master = some m ∧ m.isOpen = true := by
  unfold isOpen
  cases s.master <;> simp

end Session

end Teletype
