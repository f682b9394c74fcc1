import Teletype.Proofs.Identity.Resolution
import Teletype.Proofs.Session.Numbering

/-! # Other numbers

Sessions, terminals and names are numbered as they come. A renumbering moves all numbers from some on; a store with
other numbers may have more sessions in between, and more written down from before. What is done to a host, to a
session and to the parts of a store goes through a renumbering. -/

namespace Teletype

/-! ### Shifts -/

/-- Numbers from a bound on are moved up. -/
structure Shift where
  bound : Nat
  more : Nat

namespace Shift
variable {s : Shift} {n k : Nat}

def apply (s : Shift) (n : Nat) : Nat := if n < s.bound then n else n + s.more

theorem apply_of_lt (h : n < s.bound) : s.apply n = n := if_pos h

theorem apply_of_le (h : s.bound ≤ n) : s.apply n = n + s.more := if_neg (Nat.not_lt.mpr h)

theorem apply_succ (h : s.bound ≤ n) : s.apply (n + 1) = s.apply n + 1 := by
  rw [apply_of_le h, apply_of_le (Nat.le_succ_of_le h)]
  omega

theorem apply_zero (bound n : Nat) : Shift.apply ⟨bound, 0⟩ n = n := ite_self n

variable {α β : Type}

/-- A list whose members are changed, with more of them from the bound on. -/
def insert (s : Shift) (extra : List β) (f : α → β) (l : List α) : List β :=
  (l.take s.bound).map f ++ extra ++ (l.drop s.bound).map f

variable {extra : List β} {f : α → β} {l : List α}

theorem insert_append (h : s.bound ≤ l.length) (a : α) : s.insert extra f (l ++ [a]) = s.insert extra f l ++ [f a] := by
  unfold insert
  rw [List.take_append_of_le_length h, List.drop_append_of_le_length h, List.map_append, List.map_singleton,
    List.append_assoc, List.append_assoc, List.append_assoc]

theorem length_insert (hextra : extra.length = s.more) (h : s.bound ≤ l.length) :
    (s.insert extra f l).length = s.apply l.length := by
  rw [apply_of_le h]
  simp only [insert, List.length_append, List.length_map, List.length_take, List.length_drop]
  omega

theorem getElem?_insert (hextra : extra.length = s.more) (h : s.bound ≤ l.length) (k : Nat) :
    (s.insert extra f l)[s.apply k]? = l[k]?.map f := by
  have hlength : ((l.take s.bound).map f).length = s.bound := by rw [List.length_map, List.length_take_of_le h]
  unfold insert
  rcases Nat.lt_or_ge k s.bound with hk | hk
  · rw [apply_of_lt hk, List.append_assoc, List.getElem?_append_left (by omega), List.getElem?_map, List.getElem?_take_of_lt hk]
  · have hlength' : ((l.take s.bound).map f ++ extra).length = s.bound + s.more := by rw [List.length_append, hlength, hextra]
    rw [apply_of_le hk, List.getElem?_append_right (by omega), hlength', List.getElem?_map, List.getElem?_drop]
    congr 2
    omega

theorem set_insert (hextra : extra.length = s.more) (h : s.bound ≤ l.length) (k : Nat) (a : α) :
    (s.insert extra f l).set (s.apply k) (f a) = s.insert extra f (l.set k a) := by
  have hlength : ((l.take s.bound).map f).length = s.bound := by rw [List.length_map, List.length_take_of_le h]
  unfold insert
  rcases Nat.lt_or_ge k s.bound with hk | hk
  · rw [apply_of_lt hk, List.append_assoc, List.set_append_left _ _ (by omega), List.take_set, List.drop_set, if_pos hk,
      List.map_set, ← List.append_assoc]
  · have hlength' : ((l.take s.bound).map f ++ extra).length = s.bound + s.more := by rw [List.length_append, hlength, hextra]
    rw [apply_of_le hk, List.set_append_right _ _ (by omega), hlength', List.take_set_of_le hk, List.drop_set,
      if_neg (Nat.not_lt.mpr hk), List.map_set]
    congr 2
    omega

end Shift

/-! ### Renumbering -/

/-- Other numbers for sessions, terminals and names. -/
structure Renumbering where
  sessions : Shift
  terminals : Shift
  names : Shift

namespace Renumbering
variable (g : Renumbering)

def index (k : Nat) : Nat := g.sessions.apply k

/-- Every terminal has two handles. -/
def handle (n : Nat) : Nat := Shift.apply ⟨Host.masterHandle g.terminals.bound, 2 * g.terminals.more⟩ n

/-- A name stands for its number; other texts stay. -/
def id (s : String) : String :=
  if Host.nameAfter (Host.namesBefore s) = s then Host.nameAfter (g.names.apply (Host.namesBefore s)) else s

def failure : Failure → Failure
  | .resize (.inactive s) => .resize (.inactive (g.id s))
  | .close (.notOpen s) => .close (.notOpen (g.id s))
  | .close (.refused s f) => .close (.refused (g.id s) f)
  | f => f

def outcome {α β : Type} (f : α → β) : Except Failure α → Except Failure β
  | .ok a => .ok (f a)
  | .error e => .error (g.failure e)

def notice : Notice → Notice
  | .replacing s => .replacing (g.id s)
  | .replacedNotClosed f => .replacedNotClosed (g.failure f)
  | .recordingNotClosed f => .recordingNotClosed (g.failure f)
  | n => n

def spawn (x : Spawn) : Spawn := { x with streams := x.streams.map g.handle }

def event : Event → Event
  | .opened master subordinate => .opened (g.handle master) (g.handle subordinate)
  | .spawning x => .spawning (g.spawn x)
  | .closed n => .closed (g.handle n)
  | .resizing n columns rows => .resizing (g.handle n) columns rows
  | .closingMaster n => .closingMaster (g.handle n)
  | .told n => .told (g.notice n)

def master (m : Master) : Master := { m with handle := g.handle m.handle }

def session (s : Session) : Session := { s with id := g.id s.id, master := s.master.map g.master }

def entry (e : Entry) : Entry := { e with session := g.session e.session }

def manager (x : Manager) : Manager := { x with current := x.current.map g.index }

def operation : Operation → Operation
  | .startSession k => .startSession (g.index k)
  | .resizeSession k columns rows => .resizeSession (g.index k) columns rows
  | .close k => .close (g.index k)
  | .write k text answers => .write (g.index k) text answers
  | .scope k => .scope (g.index k)
  | .handle k => .handle (g.index k)
  | .stream k => .stream (g.index k)
  | .sameStream k => .sameStream (g.index k)
  | .child k => .child (g.index k)
  | .exitCode k => .exitCode (g.index k)
  | .childExits k code => .childExits (g.index k) code
  | .waitForExit k span exit => .waitForExit (g.index k) span exit
  | op => op

def turn (t : Turn) : Turn := { t with operation := g.operation t.operation }

/-- A number that an operation answers with is a handle if that is what it asks for. -/
def reply : Operation → Reply → Reply
  | .handle _, .number (some (.ofNat n)) | .stream _, .number (some (.ofNat n)) => .number (some (g.handle n))
  | _, .session k => .session (g.index k)
  | _, r => r

/-- The second answer to an operation is the first up to numbers, and so is an id that is quoted in a fault. -/
def Answers (op : Operation) (r r' : Except Failure Reply) : Prop :=
  r' = g.outcome (g.reply op) r ∨ ∃ kind before id after, r = .error (.fault ⟨kind, before ++ id ++ after⟩) ∧
    r' = .error (.fault ⟨kind, before ++ g.id id ++ after⟩)

variable {g}

theorem reply_nothing (op : Operation) : g.reply op .nothing = .nothing := by
  cases op <;> rfl

theorem handle_masterHandle (n : Nat) : g.handle (Host.masterHandle n) = Host.masterHandle (g.terminals.apply n) := by
  unfold handle Shift.apply Host.masterHandle
  dsimp only
  split <;> split <;> omega

theorem handle_subordinateOf (n : Nat) : g.handle (Host.subordinateOf (Host.masterHandle n)) =
    Host.subordinateOf (Host.masterHandle (g.terminals.apply n)) := by
  unfold handle Shift.apply Host.subordinateOf Host.masterHandle
  dsimp only
  split <;> split <;> omega

theorem id_nameAfter (n : Nat) : g.id (Host.nameAfter n) = Host.nameAfter (g.names.apply n) := by
  rw [id, Host.namesBefore_nameAfter, if_pos rfl]

end Renumbering

namespace Renumbering
variable {g : Renumbering}

/-- What has only numbers that stay is itself what it becomes. -/
theorem entry_eq_self {e : Entry} (hid : g.id e.session.id = e.session.id)
    (hmaster : ∀ m ∈ e.session.master, g.handle m.handle = m.handle) : g.entry e = e := by
  obtain ⟨⟨id, command, environment, credential, columns, rows, status, master, child⟩, terminal, written⟩ := e
  cases master with
  | none => simp only [entry, session, Option.map_none, hid]
  | some m => simp only [entry, session, Renumbering.master, Option.map_some, hid, hmaster m rfl]

theorem manager_eq_self {manager : Manager} (hcurrent : ∀ k ∈ manager.current, g.index k = k) :
    g.manager manager = manager := by
  obtain ⟨settings, database, announce, current⟩ := manager
  cases current with
  | none => rfl
  | some k => simp only [Renumbering.manager, Option.map_some, hcurrent k rfl]

/-- All numbers stay. -/
def none : Renumbering := ⟨⟨0, 0⟩, ⟨0, 0⟩, ⟨0, 0⟩⟩

@[simp] theorem none_index (k : Nat) : none.index k = k := Shift.apply_zero 0 k

@[simp] theorem none_handle (n : Nat) : none.handle n = n := Shift.apply_zero _ n

@[simp] theorem none_id (s : String) : none.id s = s := by
  unfold id
  split
  · next hname => exact (congrArg Host.nameAfter (Shift.apply_zero 0 _)).trans hname
  · rfl

@[simp] theorem none_failure (f : Failure) : none.failure f = f := by
  unfold failure
  split <;> simp only [none_id]

@[simp] theorem none_event (e : Event) : none.event e = e := by
  cases e with
  | told n => cases n <;> simp [event, notice]
  | spawning x =>
    have hhandle : none.handle = fun n => n := funext none_handle
    simp [event, spawn, hhandle]
  | opened | closed | resizing | closingMaster => simp [event]

@[simp] theorem none_entry (e : Entry) : none.entry e = e := entry_eq_self (none_id _) fun m _ => none_handle m.handle

@[simp] theorem none_manager (manager : Manager) : none.manager manager = manager := manager_eq_self fun k _ => none_index k

@[simp] theorem none_turn (t : Turn) : none.turn t = t := by
  obtain ⟨c, op⟩ := t
  cases op <;> simp [turn, operation]

@[simp] theorem none_reply (op : Operation) (r : Reply) : none.reply op r = r := by
  unfold reply
  split <;> simp

theorem answers_none {op : Operation} {r r' : Except Failure Reply} (h : none.Answers op r r') : r' = r := by
  rcases h with h | ⟨kind, before, id, after, hr, hr'⟩
  · rw [h]
    cases r <;> simp [outcome]
  · rw [hr, hr', none_id]

end Renumbering

/-! ### A store with other numbers and with more in it -/

/-- What a store has in addition to another: sessions, and what was written down earlier. -/
structure Leftover (g : Renumbering) where
  entries : List Entry
  count : entries.length = g.sessions.more
  journal : List Event
  inquiry : Inquiry

/-- All numbers that are to be given are beyond the bounds from which numbers are moved. -/
structure Renumbering.Past (g : Renumbering) (st : Store) : Prop where
  sessions : g.sessions.bound ≤ st.entries.length
  terminals : g.terminals.bound ≤ st.host.opened
  names : g.names.bound ≤ st.host.named

theorem Renumbering.Past.mono {g : Renumbering} {st st' : Store} (hp : g.Past st) (h : Store.Grows st st') : g.Past st' where
  sessions := Nat.le_trans hp.sessions h.entries
  terminals := Nat.le_trans hp.terminals h.opened
  names := Nat.le_trans hp.names h.named

namespace Leftover
variable {g : Renumbering} (l : Leftover g)

def host (h : Host) : Host :=
  { h with
    opened := g.terminals.apply h.opened
    named := g.names.apply h.named
    journal := l.journal ++ h.journal.map g.event }

def store (st : Store) : Store :=
  { st with
    host := l.host st.host
    managers := st.managers.map g.manager
    entries := g.sessions.insert l.entries g.entry st.entries
    inquiry := ⟨l.inquiry.announced ++ st.inquiry.announced, l.inquiry.asked ++ st.inquiry.asked⟩ }

/-- What an operation comes to in the store with other numbers, if it comes to this in the one store. -/
def result {α β : Type} (f : α → β) (r : Except Failure α × Store) : Except Failure β × Store :=
  (g.outcome f r.1, l.store r.2)

/-! ### On a host -/

section
variable (h : Host)

theorem host_note (e : Event) : (l.host h).note (g.event e) = l.host (h.note e) := by
  simp only [host, Host.note, List.map_append, List.append_assoc, List.map_singleton]

theorem host_tell (n : Notice) : (l.host h).tell (g.notice n) = l.host (h.tell n) := l.host_note h (.told n)

theorem host_name (hnames : g.names.bound ≤ h.named) : (l.host h).name = (g.id h.name.1, l.host h.name.2) := by
  rw [Host.name_eq, Host.name_eq]
  dsimp only
  rw [Renumbering.id_nameAfter]
  simp only [host, Shift.apply_succ hnames]

theorem host_resize (n : Nat) (columns rows : Int) : (l.host h).resize (g.handle n) columns rows =
    ((h.resize n columns rows).1, l.host (h.resize n columns rows).2) := by
  cases hfault : h.faults.resizing <;> simp [Host.resize, Host.note, host, Renumbering.event, hfault]

/-- A host with more in its journal. -/
theorem host_written (events : List Event) : l.host { h with journal := h.journal ++ events } =
    { l.host h with journal := (l.host h).journal ++ events.map g.event } := by
  simp only [host, List.map_append, List.append_assoc]

/-! ### On a session -/

variable {h : Host} {s : Session}

theorem attempt_session (s : Session) (n : Nat) : (g.session s).attempt (Host.masterHandle (g.terminals.apply n)) =
    (s.attempt (Host.masterHandle n)).map g.event := by
  simp only [Session.attempt, Session.spawnOn, List.map_cons, List.map_nil, Renumbering.event, Renumbering.spawn,
    Renumbering.handle_masterHandle, Renumbering.handle_subordinateOf]
  rfl

theorem attempted_session (hterminals : g.terminals.bound ≤ h.opened) (s : Session) :
    (g.session s).attempted (l.host h) = l.host (s.attempted h) := by
  have hopened : (l.host h).opened = g.terminals.apply h.opened := rfl
  unfold Session.attempted
  rw [hopened, attempt_session]
  simp only [host, Host.advance, Host.nextFaults, Host.nextDevice, Shift.apply_succ hterminals, List.map_append, List.append_assoc]

theorem connected_session (h : Host) (s : Session) : (g.session s).connected (l.host h) = g.session (s.connected h) := by
  have hopened : (l.host h).opened = g.terminals.apply h.opened := rfl
  unfold Session.connected
  rw [hopened, ← Renumbering.handle_masterHandle]
  rfl

/-- A start goes the same way with other numbers. -/
theorem starts {r : Except Failure Device} {s' : Session} {h' : Host} (hterminals : g.terminals.bound ≤ h.opened)
    (hstarts : Session.Starts s h (r, s', h')) :
    Session.Starts (g.session s) (l.host h) (g.outcome (fun device => device) r, g.session s', l.host h') := by
  have hattempted := l.attempted_session hterminals s
  -- The events of a start that are not about a terminal are the same with all numbers.
  have hsame (j : Host) {r : Except Failure Device} {events : List Event} (hevents : events.map g.event = events)
      (hto : Session.Starts (g.session s) (l.host h) (g.outcome (fun device => device) r, g.session s,
        { l.host j with journal := (l.host j).journal ++ events })) :
      Session.Starts (g.session s) (l.host h) (g.outcome (fun device => device) r, g.session s,
        l.host { j with journal := j.journal ++ events }) := by
    rw [host_written, hevents]
    exact hto
  cases hstarts with
  | unopened f hopening =>
    have hstarts := Session.Starts.unopened (s := g.session s) (h := l.host h) f hopening
    refine hsame { h.advance with faults := { h.nextFaults with opening := none } } (by split <;> rfl) ?_
    cases hf : f.isSystem <;> rw [hf] at hstarts <;> exact hstarts
  | refused f hopening hspawning hrefuses =>
    have hstarts := Session.Starts.refused (s := g.session s) (h := l.host h) f hopening hspawning hrefuses
    have hmaster : g.handle (Host.masterHandle h.opened) = Host.masterHandle (l.host h).opened := Renumbering.handle_masterHandle _
    rw [hattempted, ← hmaster] at hstarts
    have hwritten := l.host_written { s.attempted h with faults := { h.nextFaults with spawning := none } }
      [.closed (Host.masterHandle h.opened), .told (.shellNotStarted f)]
    exact Eq.mpr (congrArg (fun h' => Session.Starts (g.session s) (l.host h) (.error (.start f), g.session s, h')) hwritten) hstarts
  | broken f hopening hspawning hother =>
    have hstarts := Session.Starts.broken (s := g.session s) (h := l.host h) f hopening hspawning hother
    rw [hattempted] at hstarts
    exact hstarts
  | connected hopening hspawning =>
    have hstarts := Session.Starts.connected (s := g.session s) (h := l.host h) hopening hspawning
    rw [hattempted, connected_session] at hstarts
    exact hstarts

theorem isOpen_session (s : Session) : (g.session s).isOpen = s.isOpen := by
  unfold Session.isOpen Renumbering.session
  cases s.master <;> rfl

theorem close_session (s : Session) (h : Host) : (g.session s).close (l.host h) =
    (g.outcome (fun u => u) (s.close h).1, g.session (s.close h).2.1, l.host (s.close h).2.2) := by
  cases hopen : s.isOpen with
  | false =>
    rw [Session.close_of_not_isOpen ((isOpen_session s).trans hopen), Session.close_of_not_isOpen hopen]
    rfl
  | true =>
    obtain ⟨m, hm, hmopen⟩ := Session.isOpen_iff.mp hopen
    have hmaster : (g.session s).master = some (g.master m) := congrArg (Option.map g.master) hm
    rw [Session.close_of_open hmaster hmopen, Session.close_of_open hm hmopen]
    refine Prod.ext ?_ (Prod.ext rfl (l.host_note h (.closingMaster m.handle)))
    show (g.session s).closing (g.master m) = g.outcome _ (s.closing m)
    unfold Session.closing
    have hfault : (g.master m).closeFault = m.closeFault := rfl
    rw [hfault]
    cases m.closeFault with
    | none => rfl
    | some f => cases hf : f.isSystem <;> simp [Renumbering.outcome, Renumbering.failure, Renumbering.session, hf]

theorem resize_session (s : Session) (h : Host) (columns rows : Int) : (g.session s).resize (l.host h) columns rows =
    (g.outcome (fun u => u) (s.resize h columns rows).1, g.session (s.resize h columns rows).2.1,
      l.host (s.resize h columns rows).2.2) := by
  have hstatus : (g.session s).status = s.status := rfl
  have hmaster : (g.session s).master = s.master.map g.master := rfl
  unfold Session.resize
  rw [hstatus, hmaster]
  cases s.status with
  | pending | closed => rfl
  | active =>
    cases s.master with
    | none => rfl
    | some m =>
      dsimp only [Option.map_some]
      split
      · rfl
      · split
        · rfl
        · have hhandle : (g.master m).handle = g.handle m.handle := rfl
          rw [hhandle, host_resize]
          generalize h.resize m.handle columns rows = r
          obtain ⟨fault, h'⟩ := r
          cases fault with
          | none => rfl
          | some f => cases hf : f.isSystem <;> simp [Renumbering.outcome, Renumbering.failure, hf]

/-- The same is written, and only the id that a refusal quotes is another. -/
theorem write_session (s : Session) (text : String) (answers : List Answer) :
    (g.session s).write text answers = s.write text answers ∨
      s.write text answers = ([], some ⟨.system, "PTY session " ++ s.id ++ " is not open"⟩) ∧
      (g.session s).write text answers = ([], some ⟨.system, "PTY session " ++ g.id s.id ++ " is not open"⟩) := by
  unfold Session.write Session.writeRefusal?
  rw [isOpen_session]
  cases s.isOpen with
  | true => exact Or.inl rfl
  | false => exact Or.inr ⟨rfl, rfl⟩

end

/-! ### In a store -/

section
variable {st : Store}

theorem manager?_store (st : Store) (m : Nat) : (l.store st).manager? m = (st.manager? m).map g.manager := List.getElem?_map ..

theorem entry_store (hp : g.Past st) (k : Nat) : Store.entry? (l.store st) (g.index k) = (st.entry? k).map g.entry :=
  Shift.getElem?_insert l.count hp.sessions k

theorem setEntry_store (hp : g.Past st) (h : Host) (k : Nat) (e : Entry) :
    ((l.store st).withHost (l.host h)).setEntry (g.index k) (g.entry e) = l.store ((st.withHost h).setEntry k e) := by
  have hset := Shift.set_insert (f := g.entry) l.count hp.sessions k e
  unfold Store.setEntry Store.withHost store
  exact congrArg (fun entries => ({ l.store st with host := l.host h, entries } : Store)) hset

theorem joined_store (hp : g.Past st) (h : Host) (e : Entry) :
    (l.store st).joined (g.entry e) (l.host h) = l.store (st.joined e h) :=
  congrArg (fun entries => ({ l.store st with host := l.host h, entries } : Store)) (Shift.insert_append hp.sessions e).symm

theorem length_store (hp : g.Past st) : (l.store st).entries.length = g.index st.entries.length :=
  Shift.length_insert l.count hp.sessions

theorem appoint_store (st : Store) (m : Nat) (manager : Manager) (k : Nat) :
    (l.store st).appoint m (g.manager manager) (g.index k) = l.store (st.appoint m manager k) := by
  have hset : (st.managers.map g.manager).set m (g.manager { manager with current := some k }) =
      (st.managers.set m { manager with current := some k }).map g.manager := List.map_set.symm
  exact congrArg (fun managers => ({ l.store st with managers } : Store)) hset

/-- The notices of a look-up quote no ids, and neither does its failure. -/
theorem resolve_quotes_no_id (db : Identity.Database) (user : String) :
    (∀ n ∈ (Identity.resolve db user).notices, g.notice n = n) ∧
      ∀ f, (Identity.resolve db user).result = .error f → g.failure f = f := by
  have hresolves := Identity.resolve_resolves db user
  generalize Identity.resolve db user = r at hresolves
  cases hresolves with
  | stopped =>
    unfold Identity.Resolution.stopped
    split
    · refine ⟨fun n hn => ?_, fun f hf => ?_⟩
      · obtain rfl := List.mem_singleton.mp hn
        rfl
      · cases hf
        rfl
    · refine ⟨fun n hn => absurd hn List.not_mem_nil, fun f hf => ?_⟩
      cases hf
      rfl
  | refused =>
    refine ⟨fun n hn => ?_, fun f hf => ?_⟩
    · obtain rfl := List.mem_singleton.mp hn
      rfl
    · cases hf
      rfl
  | found => exact ⟨fun n hn => absurd hn List.not_mem_nil, nofun⟩

theorem failure_granted {manager : Manager} {restricted : Bool} {f : Failure} (hf : manager.granted restricted = .error f) :
    g.failure f = f := by
  unfold Manager.granted at hf
  split at hf
  · dsimp only at hf
    split at hf
    · cases hf
      rfl
    · cases hresult : (Identity.resolve manager.database manager.settings.runAsUser).result with
      | error f' =>
        rw [hresult] at hf
        cases hf
        exact (resolve_quotes_no_id _ _).2 f hresult
      | ok credential =>
        rw [hresult] at hf
        cases hf
  · cases hf

theorem inquired_store (st : Store) (manager : Manager) (restricted : Bool) :
    (l.store st).inquired (g.manager manager) restricted = l.store (st.inquired manager restricted) := by
  have hnotices : ((manager.notices restricted).map Event.told).map g.event = (manager.notices restricted).map Event.told := by
    have hquiet : ∀ n ∈ manager.notices restricted, g.notice n = n := by
      intro n hn
      unfold Manager.notices at hn
      split at hn
      · dsimp only at hn
        split at hn
        · cases hn
        · exact (resolve_quotes_no_id _ _).1 n hn
      · cases hn
    rw [List.map_map]
    exact List.map_congr_left fun n hn => congrArg Event.told (hquiet n hn)
  have hhost := l.host_written st.host ((manager.notices restricted).map Event.told)
  rw [hnotices] at hhost
  unfold Store.inquired
  have hsame : (g.manager manager).inquiry restricted = manager.inquiry restricted ∧
      (g.manager manager).notices restricted = manager.notices restricted := ⟨rfl, rfl⟩
  rw [hsame.1, hsame.2]
  simp only [store, hhost, List.append_assoc]

end

end Leftover

end Teletype
