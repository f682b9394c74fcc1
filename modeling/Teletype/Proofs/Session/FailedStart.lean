import Teletype.Proofs.Session.Indifference
import Teletype.Proofs.Session.Ledger

/-! # A start that fails changes nothing

A manager closes the session before only when all that can fail has succeeded. A start that fails, whatever the
reason, leaves every session and every handle as it was, and what is done afterwards goes as if the start had not
been tried: only the numbers of later terminals and sessions may be others. -/

namespace Teletype

/-! ### Stores that go on in the same way -/

namespace Store

/-- Two stores are the same once the circumstances of a turn are given. -/
def Ahead (st st' : Store) : Prop := ∀ c, st'.under c = st.under c

section
variable {st st' : Store}

theorem Ahead.symm (h : Ahead st st') : Ahead st' st := fun c => (h c).symm

theorem ahead_under (st : Store) (c : Circumstances) : Ahead st (st.under c) := by
  intro c'
  have hmanagers : ((st.under c).under c').managers = (st.under c').managers := by
    refine List.ext_getElem? fun m => ?_
    simp [under, Function.comp_def]
  exact congrArg (fun managers => ({ st.under c' with managers } : Store)) hmanagers

theorem Ahead.turn (h : Ahead st st') (t : Turn) : st'.turn t = st.turn t :=
  congrArg (fun st => st.perform t.operation) (h t.circumstances)

theorem Ahead.after (h : Ahead st st') (turns : List Turn) : Ahead (st.after turns) (st'.after turns) := by
  cases turns with
  | nil => exact h
  | cons t turns =>
    rw [after_cons, after_cons, h.turn]
    exact fun _ => rfl

theorem Ahead.current_eq (h : Ahead st st') (c : Circumstances) (m : Nat) : st'.current? m = st.current? m := by
  have hunder (st : Store) : (st.under c).current? m = st.current? m := by
    unfold Store.current?
    rw [manager?_under]
    cases st.manager? m <;> rfl
  rw [← hunder st, ← hunder st', h c]

theorem Ahead.entry_eq (h : Ahead st st') (c : Circumstances) (k : Nat) : st'.entry? k = st.entry? k :=
  congrArg (fun st => st.entry? k) (h c)

theorem Ahead.count (h : Ahead st st') (c : Circumstances) : st'.managers.length = st.managers.length := by
  have hlengths := congrArg (fun st => st.managers.length) (h c)
  simpa [under] using hlengths

theorem Ahead.deed (h : Ahead st st') (t : Turn) : st'.deed t = st.deed t := by
  have hjournal : st'.host.journal = st.host.journal := congrArg (fun st => st.host.journal) (h t.circumstances)
  have hinquiry : st'.inquiry = st.inquiry := congrArg (fun st => st.inquiry) (h t.circumstances)
  unfold Store.deed
  rw [h.turn, hjournal, hinquiry]

end

end Store

namespace Renumbering
variable {g : Renumbering} {st st' st₁ st₁' : Store}

theorem Alike.ahead (h : g.Alike st st') (h₁ : st.Ahead st₁) (h₁' : st'.Ahead st₁') (c : Circumstances) :
    g.Alike st₁ st₁' where
  current := by
    intro m
    rw [h₁.current_eq c, h₁'.current_eq c]
    exact h.current m
  entry := by
    intro k
    rw [h₁.entry_eq c, h₁'.entry_eq c]
    exact h.entry k
  deed := by
    intro t ht
    rw [h₁.deed, h₁'.deed]
    exact h.deed t (h₁.count c ▸ ht)

/-- A store that is the same up to nothing can stand for the first. -/
theorem Alike.of_none (h : g.Alike st st') (h₁ : none.Alike st st₁) (hcount : st₁.managers.length = st.managers.length) :
    g.Alike st₁ st' where
  current := by
    intro m
    rw [h₁.current m, h.current m]
    cases st.current? m <;> simp
  entry := by
    intro k
    have hsame := h₁.entry k
    rw [none_index] at hsame
    rw [hsame, h.entry k]
    cases st.entry? k <;> simp
  deed := by
    intro t ht
    rw [hcount] at ht
    have hsame := h₁.deed t ht
    rw [none_turn] at hsame
    have hdeed : st₁.deed t = st.deed t := by
      obtain ⟨hreply, hevents, hannounced, hasked⟩ := hsame
      have hreply := answers_none hreply
      have hevent : none.event = fun e => e := funext none_event
      rw [hevent, List.map_id'] at hevents
      generalize st₁.deed t = d at *
      obtain ⟨reply, events, announced, asked⟩ := d
      dsimp only at *
      rw [hreply, hevents, hannounced, hasked]
    rw [hdeed]
    exact h.deed t ht

end Renumbering

/-! ### Stores that are left alone -/

namespace Store

/-- All that there was is as it was. There may be more written down, more numbers given and more sessions. -/
structure Spares (st st' : Store) : Prop where
  now : st'.now = st.now
  environment : st'.environment = st.environment
  managers : st'.managers = st.managers
  entries : st.entries <+: st'.entries
  spawned : st'.host.spawned = st.host.spawned
  opened : st.host.opened ≤ st'.host.opened
  named : st.host.named ≤ st'.host.named

end Store

/-- The numbers after those of one store are moved beyond those of another. -/
def Renumbering.beyond (st st' : Store) : Renumbering where
  sessions := ⟨st.entries.length, st'.entries.length - st.entries.length⟩
  terminals := ⟨st.host.opened, st'.host.opened - st.host.opened⟩
  names := ⟨st.host.named, st'.host.named - st.host.named⟩

namespace Store

/-- The store before anything was written down. -/
def cleared (st : Store) : Store := { st with host := { st.host with journal := [] }, inquiry := {} }

/-- What is written down in a store. -/
def writing (st : Store) : Leftover .none := ⟨[], rfl, st.host.journal, st.inquiry⟩

theorem writing_store (st : Store) : st.writing.store st.cleared = st := by
  obtain ⟨⟨opened, spawned, named, devices, faults, journal⟩, now, environment, managers, entries, ⟨announced, asked⟩⟩ := st
  have hshift (n : Nat) : Shift.apply ⟨0, 0⟩ n = n := Shift.apply_zero 0 n
  have hmanagers : managers.map Renumbering.none.manager = managers := by
    rw [funext Renumbering.none_manager, List.map_id']
  have hentries : Renumbering.none.sessions.insert [] Renumbering.none.entry entries = entries := by
    rw [funext Renumbering.none_entry]
    exact List.map_id' entries
  simp only [Leftover.store, Leftover.host, writing, cleared, hmanagers, hentries, List.map_nil, List.append_nil]
  simp only [Renumbering.none, hshift]

variable {st st' : Store}

/-- What a store has that leaves another alone. -/
def rest (st st' : Store) : Leftover (.beyond st st') where
  entries := st'.entries.drop st.entries.length
  count := List.length_drop
  journal := st'.host.journal
  inquiry := st'.inquiry

/-- A store that leaves another alone is that with other numbers for what comes next, and with what it has in addition. -/
theorem Spares.ahead (h : Spares st st') (hn : st.Numbered) : Ahead ((rest st st').store st.cleared) st' := by
  have hshift {n n' : Nat} (hle : n ≤ n') : Shift.apply ⟨n, n' - n⟩ n = n' := by
    rw [Shift.apply_of_le (Nat.le_refl n)]
    exact Nat.add_sub_cancel' hle
  have hmanagers : st.managers.map (Renumbering.beyond st st').manager = st'.managers := by
    rw [h.managers]
    conv => rhs; rw [← List.map_id' st.managers]
    refine List.map_congr_left fun manager hmanager => Renumbering.manager_eq_self fun k hk => ?_
    obtain ⟨m, hm⟩ := List.mem_iff_getElem?.mp hmanager
    exact Shift.apply_of_lt (hn.current hm hk)
  have hold : st.entries.map (Renumbering.beyond st st').entry = st.entries := by
    conv => rhs; rw [← List.map_id' st.entries]
    refine List.map_congr_left fun e he => Renumbering.entry_eq_self ?_ fun master hmaster => ?_
    · obtain ⟨n, hlt, hid⟩ := hn.ids e he
      rw [hid, Renumbering.id_nameAfter]
      exact congrArg Host.nameAfter (Shift.apply_of_lt hlt)
    · obtain ⟨n, hlt, hhandle⟩ := hn.masters e he master hmaster
      rw [hhandle, Renumbering.handle_masterHandle]
      exact congrArg Host.masterHandle (Shift.apply_of_lt hlt)
  have hentries : (Renumbering.beyond st st').sessions.insert (st'.entries.drop st.entries.length)
      (Renumbering.beyond st st').entry st.entries = st'.entries := by
    show (st.entries.take st.entries.length).map _ ++ st'.entries.drop st.entries.length ++
      (st.entries.drop st.entries.length).map _ = st'.entries
    rw [List.take_length, List.drop_length, hold, List.map_nil, List.append_nil, append_drop_cancel h.entries]
  have hterminals : (Renumbering.beyond st st').terminals.apply st.host.opened = st'.host.opened := hshift h.opened
  have hnames : (Renumbering.beyond st st').names.apply st.host.named = st'.host.named := hshift h.named
  have hstore : (rest st st').store st.cleared =
      { st' with host := { st'.host with faults := st.host.faults, devices := st.host.devices } } := by
    simp only [Leftover.store, Leftover.host, cleared, hterminals, hnames, hmanagers, hentries, rest, List.map_nil,
      List.append_nil, h.now, h.environment, h.spawned]
  rw [hstore]
  exact fun c => rfl

/-- What is done to a store that leaves another alone goes as with the other, up to numbers. -/
theorem Spares.alike (h : Spares st st') (hn : st.Numbered) (c : Circumstances) {later : List Turn}
    (hlater : ∀ t ∈ later, t.operation.StartsWithin st.managers.length) :
    (Renumbering.beyond st st').Alike (st.after later) (st'.after (later.map (Renumbering.beyond st st').turn)) := by
  have hpast : (Renumbering.beyond st st').Past st.cleared := ⟨Nat.le_refl _, Nat.le_refl _, Nat.le_refl _⟩
  have hnone : Renumbering.none.Past st.cleared := ⟨Nat.zero_le _, Nat.zero_le _, Nat.zero_le _⟩
  have hturn : Renumbering.none.turn = fun t => t := funext Renumbering.none_turn
  -- Both stores are the cleared one with something in addition: the first with what is written in it, under the
  -- same numbers, and the second with all that it has in addition, under other numbers.
  have hcleared : st.writing.store (st.cleared.after later) = st.after later := by
    have hafter := st.writing.after_store hnone hlater
    rwa [hturn, List.map_id', writing_store, eq_comm] at hafter
  have hgrows := st.cleared.after_grows later
  have hfirst : Renumbering.none.Alike (st.cleared.after later) (st.after later) :=
    hcleared ▸ st.writing.store_alike (hnone.mono hgrows)
  have hsecond := (rest st st').store_alike (hpast.mono hgrows)
  rw [← (rest st st').after_store hpast hlater] at hsecond
  have hcount : (st.after later).managers.length = (st.cleared.after later).managers.length := by
    rw [← hcleared]
    exact List.length_map ..
  exact (hsecond.of_none hfirst hcount).ahead (fun _ => rfl) ((h.ahead hn).after _) c

/-! ### Starts that fail -/

end Store

/-- The handles that an event is about. -/
def Event.handles : Event → List Nat
  | .opened master subordinate => [master, subordinate]
  | .spawning x => x.streams
  | .closed n | .closingMaster n => [n]
  | .resizing n _ _ => [n]
  | .told _ => []

/-- What is asked of a host only concerns handles that it had not given before, and these are closed again. -/
structure Host.Undone (h : Host) (events : List Event) : Prop where
  fresh : ∀ event ∈ events, ∀ n ∈ event.handles, masterHandle h.opened ≤ n
  closed : handedOut events ⊆ closings events

theorem Host.undone_told (h : Host) (notices : List Notice) : h.Undone (notices.map .told) where
  fresh := by
    intro event hevent n hn
    obtain ⟨notice, -, rfl⟩ := List.mem_map.mp hevent
    cases hn
  closed := by
    intro n hn
    obtain ⟨master, subordinate, hevent, -⟩ := mem_handedOut.mp hn
    simp at hevent

theorem Host.Undone.append {h : Host} {p q : List Event} (hp : h.Undone p) (hq : h.Undone q) : h.Undone (p ++ q) where
  fresh := by
    intro event hevent
    rcases List.mem_append.mp hevent with hevent | hevent
    · exact hp.fresh event hevent
    · exact hq.fresh event hevent
  closed := by
    rw [handedOut_append, closings_append]
    exact List.append_subset.mpr
      ⟨List.subset_append_of_subset_left _ hp.closed, List.subset_append_of_subset_right _ hq.closed⟩

theorem Event.handles_of_closings {event : Event} {n : Nat} (hn : n ∈ event.closings) : n ∈ event.handles := by
  cases event with
  | closed | closingMaster => exact hn
  | opened | spawning | resizing | told => cases hn

/-- What is undone does not change what is held. -/
theorem Host.Undone.held_iff {h : Host} {events : List Event} (hu : h.Undone events) (hi : h.Issued) (n : Nat) :
    IsHeld (h.journal ++ events) n ↔ IsHeld h.journal n := by
  unfold IsHeld
  rw [handedOut_append, closings_append, List.mem_append, List.mem_append]
  constructor
  · rintro ⟨hhanded | hhanded, hopen⟩
    · exact ⟨hhanded, fun hclosed => hopen (Or.inl hclosed)⟩
    · exact absurd (Or.inr (hu.closed hhanded)) hopen
  · rintro ⟨hhanded, hopen⟩
    refine ⟨Or.inl hhanded, fun hclosed => ?_⟩
    rcases hclosed with hclosed | hclosed
    · exact hopen hclosed
    · obtain ⟨event, hevent, hn⟩ := List.mem_flatMap.mp hclosed
      have hge := hu.fresh event hevent n (Event.handles_of_closings hn)
      have hlt := hi.below n hhanded
      omega

/-- A start of a session that fails as ordinary faults let it leaves no handle open. -/
theorem Session.Starts.undone {s s' : Session} {h h' : Host} {f : Failure} (hstarts : Starts s h (.error f, s', h'))
    (ho : h.Ordinary) : h'.spawned = h.spawned ∧ ∃ events, h'.journal = h.journal ++ events ∧ h.Undone events := by
  cases hstarts with
  | unopened f hopening =>
    refine ⟨rfl, _, rfl, ?_⟩
    split
    · exact h.undone_told [.terminalNotOpened f]
    · exact h.undone_told []
  | refused f hopening hspawning hrefuses =>
    refine ⟨rfl, _, List.append_assoc .., ?_, ?_⟩
    · intro event hevent n hn
      simp only [Session.attempt, List.cons_append, List.nil_append, List.mem_cons, List.not_mem_nil, or_false] at hevent
      rcases hevent with rfl | rfl | rfl | rfl | rfl <;>
        simp [Event.handles, Session.spawnOn, Host.subordinateOf] at hn <;> omega
    · intro n hn
      simp [handedOut, closings, Session.attempt, Event.handedOut, Event.closings] at hn ⊢
      exact hn.symm
  | broken f hopening hspawning hother =>
    rw [ho.nextFaults.spawning f hspawning] at hother
    cases hother

namespace Store
variable {st st' : Store}

/-- With ordinary faults a session that is replaced is always closed or left alone. -/
theorem closeReplaced_ok (hsound : ∀ e ∈ st.entries, e.session.Sound) (previous : Option Nat) :
    (st.closeReplaced previous).1 = .ok () := by
  by_cases hidle : ∀ k e, previous = some k → st.entry? k = some e → e.session.isActive = false
  · rw [closeReplaced_of_idle hidle]
  · push Not at hidle
    obtain ⟨k, e, rfl, he, hactive⟩ := hidle
    have hactive : e.session.isActive = true := by simpa using hactive
    have hs := hsound e (mem_of_entry he)
    obtain ⟨m, hm, hopen⟩ := Session.isOpen_iff.mp (hs.active_iff.mp (by simpa [Session.isActive] using hactive))
    rw [closeReplaced_of_active he hactive hm hopen (hs.closing m hm)]

/-- A start that fails leaves alone all that there was, and what it asked of the host is undone. -/
theorem start_spares (hr : st.Regular) {m : Nat} {manager : Manager} (hm : st.manager? m = some manager)
    {restricted : Bool} {command : String} {f : Failure} (hfails : st.start m restricted command = (.error f, st')) :
    Spares st st' ∧ ∃ events, st'.host.journal = st.host.journal ++ events ∧ st.host.Undone events := by
  have hinquired : Spares st (st.inquired manager restricted) :=
    ⟨rfl, rfl, rfl, List.prefix_refl _, rfl, Nat.le_refl _, Nat.le_refl _⟩
  have hbegins := start_begins hm restricted command
  rw [hfails] at hbegins
  generalize hresult : ((.error f, st') : Except Failure Nat × Store) = result at hbegins
  cases hbegins with
  | unresolved f hgranted | homeless credential f hgranted henvironment =>
    cases hresult
    exact ⟨hinquired, _, rfl, st.host.undone_told _⟩
  | unstarted credential environment f s h hgranted henvironment hstarts =>
    cases hresult
    have ho : (st.inquired manager restricted).host.name.2.Ordinary := ⟨hr.ordinary.faults, hr.ordinary.devices⟩
    obtain ⟨hspawned, events, hjournal, hundone⟩ := hstarts.undone ho
    obtain ⟨-, hopened, hnamed⟩ := starts_grow hstarts
    refine ⟨⟨rfl, rfl, rfl, List.prefix_append _ _, hspawned, hopened, ?_⟩,
      (manager.notices restricted).map .told ++ events, ?_, ?_⟩
    · exact Nat.le_trans (Nat.le_succ _) (Nat.le_of_eq hnamed.symm)
    · exact hjournal.trans (List.append_assoc ..)
    · exact (st.host.undone_told _).append ⟨hundone.fresh, hundone.closed⟩
  | started credential environment device s h r st'' hgranted henvironment hstarts hreplaced =>
    -- A start that gets to the session before does not fail: closing that meets ordinary faults only.
    have ho : (st.inquired manager restricted).host.name.2.Ordinary := ⟨hr.ordinary.faults, hr.ordinary.devices⟩
    have hsound := (hstarts.sound ho (Session.sound_fresh _ _ _ _)).1
    have hall : ∀ e ∈ st.entries ++ [⟨s, .begin device st.now, []⟩], e.session.Sound := by
      intro e he
      rcases List.mem_append.mp he with he | he
      · exact hr.sound e he
      · obtain rfl := List.mem_singleton.mp he
        exact hsound
    have hok : r = .ok () := by
      have hclosed : ((((st.inquired manager restricted).joined ⟨s, .begin device st.now, []⟩ h).appoint m manager
        st.entries.length).closeReplaced manager.current).1 = .ok () := closeReplaced_ok hall manager.current
      rwa [hreplaced] at hclosed
    rw [hok] at hresult
    cases hresult

/-- However a start of a manager fails, with ordinary faults: every manager keeps its session and every session stays
    as it is, nothing is asked of the host for a handle that it had given before, the same handles are held, and all
    that is done afterwards goes as if the start had not been tried, up to the numbers of what is made later. -/
theorem failed_start_changes_nothing (managers : List Manager) (turns : List Turn)
    (hturns : ∀ t ∈ turns, t.circumstances.Ordinary) (c : Circumstances) (hc : c.Ordinary) (m : Nat) (restricted : Bool)
    (command : String) (f : Failure)
    (hfails : (((founded managers).after turns).turn ⟨c, .start m restricted command⟩).1 = .error f) :
    let st := (founded managers).after turns
    let t : Turn := ⟨c, .start m restricted command⟩
    let st' := (st.turn t).2
    let g := Renumbering.beyond st st'
    (∀ n, st'.current? n = st.current? n) ∧
    (∀ k e, st.entry? k = some e → st'.entry? k = some e) ∧
    (∀ event ∈ (st.deed t).events, ∀ n ∈ event.handles, n ∉ handedOut st.host.journal) ∧
    (∀ n, IsHeld st'.host.journal n ↔ IsHeld st.host.journal n) ∧
    ∀ later : List Turn, (∀ t ∈ later, t.operation.StartsWithin managers.length) →
      g.Alike (st.after later) (st'.after (later.map g.turn)) := by
  intro st t st' g
  have hr : st.Regular := (regular_founded managers).after hturns
  have hn : st.Numbered := (numbered_founded managers).after turns
  -- The store in the circumstances of the start is what the start finds.
  have hstart : (st.under c).start m restricted command = (.error f, st') := by
    refine Prod.ext ?_ rfl
    rw [turn_start] at hfails
    cases hresult : ((st.under c).start m restricted command).1 with
    | error f' =>
      rw [hresult] at hfails
      cases hfails
      rfl
    | ok k =>
      rw [hresult] at hfails
      cases hfails
  cases hm : (st.under c).manager? m with
  | none =>
    unfold start at hstart
    rw [hm] at hstart
    cases hstart
  | some manager =>
    obtain ⟨hspares, events, hjournal, hundone⟩ := start_spares (hr.under hc) hm hstart
    have hahead := ahead_under st c
    refine ⟨fun n => ?_, fun k e he => ?_, fun event hevent n hn' hhanded => ?_, fun n => ?_, fun later hlater => ?_⟩
    · rw [← hahead.current_eq c, current?, current?, manager?, manager?, hspares.managers]
    · obtain ⟨more, hmore⟩ := hspares.entries
      rw [entry_eq, ← hmore]
      exact (List.getElem?_append_left (List.getElem?_eq_some_iff.mp he).1).trans he
    · have hevents : (st.deed t).events = events := by
        show st'.host.journal.drop st.host.journal.length = events
        rw [hjournal]
        exact List.drop_left
      rw [hevents] at hevent
      have hge := hundone.fresh event hevent n hn'
      have hlt := (hn.under c).issued.below n hhanded
      omega
    · rw [hjournal]
      exact hundone.held_iff (hn.under c).issued n
    · have hcount : (st.under c).managers.length = managers.length :=
        List.length_mapIdx.trans ((after_grows (founded managers) turns).count.trans (List.length_map _))
      have halike := hspares.alike (hn.under c) c fun x hx => hcount.symm ▸ hlater x hx
      exact halike.ahead (hahead.symm.after later) (fun _ => rfl) c

/-- A host that refuses the child once. -/
def refusing : Circumstances where
  faults := { spawning := some ⟨.noSuchFile, "No such file or directory"⟩ }
  database := fun _ => Identity.Tables.database {}

theorem refusing_ordinary : refusing.Ordinary where
  faults := ⟨nofun, by rintro x ⟨⟩; rfl, nofun⟩
  devices := fun _ h => absurd h List.not_mem_nil

theorem refused_start_keeps_active_session :
    let managers : List Manager := [{ database := Identity.Tables.database {} }]
    let turns : List Turn := [⟨{ refusing with faults := {} }, .start 0 false ""⟩]
    let st := (founded managers).after turns
    let t : Turn := ⟨refusing, .start 0 false ""⟩
    let st' := (st.turn t).2
    (∀ t ∈ turns, t.circumstances.Ordinary) ∧ refusing.Ordinary ∧
      (st.turn t).1 = .error (.start ⟨.noSuchFile, "No such file or directory"⟩) ∧ st'.current? 0 = some 0 ∧
      (st'.entry? 0).map (·.session.status) = some .active ∧ (∀ n, IsHeld st'.host.journal n ↔ IsHeld st.host.journal n) ∧
      (Renumbering.beyond st st').Alike st st' := by
  intro managers turns st t st'
  have hturns : ∀ t ∈ turns, t.circumstances.Ordinary := by
    intro t ht
    obtain rfl := List.mem_singleton.mp ht
    exact ⟨Faults.ordinary_empty, fun _ h => absurd h List.not_mem_nil⟩
  have hfails : (st.turn t).1 = .error (.start ⟨.noSuchFile, "No such file or directory"⟩) := by decide +kernel
  have hcurrent : st.current? 0 = some 0 := by decide +kernel
  have hstatus : (st.entry? 0).map (·.session.status) = some .active := by decide +kernel
  obtain ⟨hcurrents, hentries, -, hheld, halike⟩ :=
    failed_start_changes_nothing managers turns hturns refusing refusing_ordinary 0 false "" _ hfails
  obtain ⟨e, he, hactive⟩ := Option.map_eq_some_iff.mp hstatus
  refine ⟨hturns, refusing_ordinary, hfails, (hcurrents 0).trans hcurrent, ?_, hheld, ?_⟩
  · rw [hentries 0 e he, Option.map_some, hactive]
  · exact halike [] fun _ h => absurd h List.not_mem_nil

end Store

end Teletype
