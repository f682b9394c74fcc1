import Teletype.Session.Operation
import Teletype.Proofs.Session.Basic

/-! # What managers do to sessions

A manager that starts a session resolves a credential if the shell is restricted, makes the environment, makes a
session and starts it. Only when that is up does the manager turn to it and close the session before it, if it is
active. Closing and resizing a session change nothing but that session, or nothing at all. -/

namespace Teletype

/-! ### Credentials -/

namespace Manager

/-- What is announced and asked when a manager looks up the restricted user. -/
def inquiry (manager : Manager) (restricted : Bool) : Inquiry :=
  if restricted then
    let user := manager.settings.runAsUser
    match manager.announce user with
    | some _ => ⟨[user], []⟩
    | none => ⟨[user], (Identity.resolve manager.database user).asked⟩
  else {}

/-- What the operator is told when a manager looks up the restricted user. -/
def notices (manager : Manager) (restricted : Bool) : List Notice :=
  if restricted then
    let user := manager.settings.runAsUser
    match manager.announce user with
    | some _ => []
    | none => (Identity.resolve manager.database user).notices
  else []

/-- The credential that a manager's next session gets. -/
def granted (manager : Manager) (restricted : Bool) : Except Failure (Option Credential) :=
  if restricted then
    let user := manager.settings.runAsUser
    match manager.announce user with
    | some f => .error (.fault f)
    | none => (Identity.resolve manager.database user).result.map some
  else .ok none

end Manager

namespace Store

/-- The store once a manager has looked up the restricted user. -/
def inquired (st : Store) (manager : Manager) (restricted : Bool) : Store :=
  { st with
    host := { st.host with journal := st.host.journal ++ (manager.notices restricted).map .told }
    inquiry := ⟨st.inquiry.announced ++ (manager.inquiry restricted).announced,
      st.inquiry.asked ++ (manager.inquiry restricted).asked⟩ }

theorem foldl_tell (notices : List Notice) : ∀ h : Host,
    notices.foldl Host.tell h = { h with journal := h.journal ++ notices.map .told } := by
  induction notices with
  | nil => exact fun h => congrArg (fun journal => { h with journal }) (List.append_nil _).symm
  | cons n notices ih =>
    intro h
    rw [List.foldl_cons, ih]
    simp only [Host.tell, Host.note, List.append_assoc, List.map_cons, List.cons_append, List.nil_append]

theorem credential_eq (st : Store) (manager : Manager) (restricted : Bool) :
    st.credential manager restricted = (manager.granted restricted, st.inquired manager restricted) := by
  unfold credential inquired Manager.granted Manager.inquiry Manager.notices
  cases restricted with
  | false => simp
  | true =>
    dsimp only [if_true]
    cases manager.announce manager.settings.runAsUser with
    | some f => simp
    | none => simp [foldl_tell, withHost]

/-! ### Sessions that are made -/

/-- The session that is made next. -/
def fresh (st : Store) (command : List String) (environment : Environment) (credential : Option Credential) : Session :=
  { id := st.host.name.1, command, environment, credential }

/-- The store with one more entry, on a host. -/
def joined (st : Store) (e : Entry) (h : Host) : Store := { st with host := h, entries := st.entries ++ [e] }

/-- The store whose manager has turned to a session. -/
def appoint (st : Store) (m : Nat) (manager : Manager) (k : Nat) : Store :=
  { st with managers := st.managers.set m { manager with current := some k } }

theorem create_eq (st : Store) (command : List String) (environment : Environment) (credential : Option Credential) :
    st.create command environment credential = (st.entries.length,
      st.joined ⟨st.fresh command environment credential, {}, []⟩ st.host.name.2) := rfl

theorem entry_eq (st : Store) (k : Nat) : st.entry? k = st.entries[k]? := rfl

theorem entry_joined (st : Store) (e : Entry) (h : Host) : Store.entry? (st.joined e h) st.entries.length = some e := by
  simp [entry_eq, joined]

theorem setEntry_joined (st : Store) (e e' : Entry) (h h' : Host) :
    ((st.joined e h).withHost h').setEntry st.entries.length e' = st.joined e' h' := by
  simp [setEntry, joined, withHost]

theorem startSession_of_error {st : Store} {s₀ s : Session} {h₀ h : Host} {f : Failure}
    (hstarts : Session.Starts s₀ h₀ (.error f, s, h)) :
    (st.joined ⟨s₀, {}, []⟩ h₀).startSession st.entries.length = (.error f, st.joined ⟨s, {}, []⟩ h) := by
  have hstart : s₀.start (st.joined ⟨s₀, {}, []⟩ h₀).host = (.error f, s, h) := hstarts.start_eq
  unfold startSession
  rw [entry_joined]
  dsimp only
  rw [hstart]
  dsimp only
  rw [setEntry_joined]

theorem startSession_of_ok {st : Store} {s₀ s : Session} {h₀ h : Host} {device : Device}
    (hstarts : Session.Starts s₀ h₀ (.ok device, s, h)) :
    (st.joined ⟨s₀, {}, []⟩ h₀).startSession st.entries.length =
      (.ok (), st.joined ⟨s, .begin device st.now, []⟩ h) := by
  have hstart : s₀.start (st.joined ⟨s₀, {}, []⟩ h₀).host = (.ok device, s, h) := hstarts.start_eq
  unfold startSession
  rw [entry_joined]
  dsimp only
  rw [hstart]
  dsimp only
  rw [setEntry_joined]
  rfl

/-! ### Closing -/

section
variable {st : Store} {k : Nat} {e : Entry} {m : Master}

theorem setEntry_self (he : st.entry? k = some e) : st.setEntry k e = st := by
  unfold setEntry
  unfold entry? at he
  obtain ⟨hk, he⟩ := List.getElem?_eq_some_iff.mp he
  rw [← he, List.set_getElem_self]

theorem closeSession_of_open (he : st.entry? k = some e) (hm : e.session.master = some m) (hopen : m.isOpen = true) :
    st.closeSession k = (e.session.closing m,
      (st.withHost (st.host.note (.closingMaster m.handle))).setEntry k { e with session := e.session.shut m }) := by
  unfold closeSession
  rw [he]
  dsimp only
  rw [Session.close_of_open hm hopen]

theorem closeSession_of_not_isOpen (he : st.entry? k = some e) (hopen : e.session.isOpen = false) :
    st.closeSession k = (.error (.close (.notOpen e.session.id)), st) := by
  unfold closeSession
  rw [he]
  dsimp only
  rw [Session.close_of_not_isOpen hopen]
  exact congrArg (Prod.mk _) (setEntry_self he)

theorem closeSession_of_none (he : st.entry? k = none) : st.closeSession k = (.ok (), st) := by
  unfold closeSession
  rw [he]

/-- What closing a session in favour of another tells the operator, if it meets a fault. -/
def regret (s : Session) (m : Master) : List Event :=
  m.closeFault.toList.map fun f => .told (.replacedNotClosed (.close (.refused s.id f)))

/-- A session that is not active is left alone when another takes its place. -/
theorem closeReplaced_of_idle {previous : Option Nat}
    (hidle : ∀ k e, previous = some k → st.entry? k = some e → e.session.isActive = false) :
    st.closeReplaced previous = (.ok (), st) := by
  unfold closeReplaced
  cases previous with
  | none => rfl
  | some k =>
    cases he : st.entry? k with
    | none => simp [he]
    | some e => simp [he, hidle k e rfl he]

/-- An active session is closed when another takes its place; a fault of closing is only told. -/
theorem closeReplaced_of_active (he : st.entry? k = some e) (hactive : e.session.isActive = true)
    (hm : e.session.master = some m) (hopen : m.isOpen = true) (hfault : ∀ f ∈ m.closeFault, f.isSystem = true) :
    st.closeReplaced (some k) = (.ok (),
      (st.withHost { st.host with
        journal := st.host.journal ++ [.told (.replacing e.session.id), .closingMaster m.handle] ++ regret e.session m }).setEntry
          k { e with session := e.session.shut m }) := by
  have hclose : (st.withHost (st.host.tell (.replacing e.session.id))).closeSession k = _ := closeSession_of_open he hm hopen
  unfold closeReplaced regret
  simp only [Option.bind_some, he, Option.map_some, hactive, if_true]
  rw [hclose]
  cases hf : m.closeFault with
  | none =>
    rw [Session.closing_of_none hf]
    simp [withHost, setEntry, Host.tell, Host.note]
  | some f =>
    rw [Session.closing_of_fault hf (hfault f hf)]
    simp [withHost, setEntry, Host.tell, Host.note]

end

/-! ### Resizing -/

/-- The session after its host was asked for a size: it has that size unless there was a fault. -/
def resized (s : Session) (fault : Option Fault) (columns rows : Int) : Session :=
  if fault.isNone then { s with columns, rows } else s

/-- A session is resized by asking the host, or nothing happens. -/
theorem resizeSession_cases {st : Store} {k : Nat} {e : Entry} (he : st.entry? k = some e) (columns rows : Int) :
    (∃ f, st.resizeSession k columns rows = (.error f, st)) ∨
    ∃ m r, e.session.status = .active ∧ e.session.master = some m ∧
      st.resizeSession k columns rows = (r, (st.withHost (st.host.resize m.handle columns rows).2).setEntry k
        { e with session := resized e.session (st.host.resize m.handle columns rows).1 columns rows }) := by
  have hsame : (st.withHost st.host).setEntry k { e with session := e.session } = st := setEntry_self he
  have hresizes := e.session.resize_resizes st.host columns rows
  unfold resizeSession
  rw [he]
  dsimp only
  generalize e.session.resize st.host columns rows = result at hresizes
  cases hresizes with
  | inactive | misfit => exact Or.inl ⟨_, congrArg (Prod.mk _) hsame⟩
  | refused m f hstatus hm hrows hcolumns hfault =>
    refine Or.inr ⟨m, .error (if f.isSystem then .resize (.refused f) else .fault f), hstatus, hm, ?_⟩
    rw [Host.resize_of_some hfault]
    rfl
  | resized m hstatus hm hrows hcolumns hfault =>
    refine Or.inr ⟨m, .ok (), hstatus, hm, ?_⟩
    rw [Host.resize_of_none hfault]
    rfl

/-! ### Starts -/

/-- How the start of a session by a manager can go. -/
inductive Begins (st : Store) (m : Nat) (manager : Manager) (restricted : Bool) (command : String) :
    Except Failure Nat × Store → Prop
  | unresolved (f : Failure) (hgranted : manager.granted restricted = .error f) :
      Begins st m manager restricted command (.error f, st.inquired manager restricted)
  | homeless (credential : Option Credential) (f : Failure) (hgranted : manager.granted restricted = .ok credential)
      (henvironment : Shell.environment manager.settings st.environment = .error f) :
      Begins st m manager restricted command (.error f, st.inquired manager restricted)
  | unstarted (credential : Option Credential) (environment : Environment) (f : Failure) (s : Session) (h : Host)
      (hgranted : manager.granted restricted = .ok credential)
      (henvironment : Shell.environment manager.settings st.environment = .ok environment)
      (hstarts : Session.Starts ((st.inquired manager restricted).fresh (Shell.argv manager.settings command) environment credential)
        (st.inquired manager restricted).host.name.2 (.error f, s, h)) :
      Begins st m manager restricted command (.error f, (st.inquired manager restricted).joined ⟨s, {}, []⟩ h)
  | started (credential : Option Credential) (environment : Environment) (device : Device) (s : Session) (h : Host)
      (r : Except Failure Unit) (st' : Store)
      (hgranted : manager.granted restricted = .ok credential)
      (henvironment : Shell.environment manager.settings st.environment = .ok environment)
      (hstarts : Session.Starts ((st.inquired manager restricted).fresh (Shell.argv manager.settings command) environment credential)
        (st.inquired manager restricted).host.name.2 (.ok device, s, h))
      (hreplaced : (((st.inquired manager restricted).joined ⟨s, .begin device st.now, []⟩ h).appoint m manager
        st.entries.length).closeReplaced manager.current = (r, st')) :
      Begins st m manager restricted command (r.map fun _ => st.entries.length, st')

theorem start_begins {st : Store} {m : Nat} {manager : Manager} (hm : st.manager? m = some manager) (restricted : Bool)
    (command : String) : Begins st m manager restricted command (st.start m restricted command) := by
  unfold start
  rw [hm]
  dsimp only
  rw [credential_eq]
  cases hgranted : manager.granted restricted with
  | error f => exact .unresolved f hgranted
  | ok credential =>
    have hsame : (st.inquired manager restricted).environment = st.environment := rfl
    dsimp only
    rw [hsame]
    cases henvironment : Shell.environment manager.settings st.environment with
    | error f => exact .homeless credential f hgranted henvironment
    | ok environment =>
      dsimp only
      rw [create_eq]
      dsimp only
      have hstarts := Session.start_starts
        ((st.inquired manager restricted).fresh (Shell.argv manager.settings command) environment credential)
        (st.inquired manager restricted).host.name.2
      generalize Session.start _ _ = started at hstarts
      obtain ⟨r, s, h⟩ := started
      cases r with
      | error f =>
        rw [startSession_of_error hstarts]
        exact .unstarted credential environment f s h hgranted henvironment hstarts
      | ok device =>
        rw [startSession_of_ok hstarts]
        dsimp only
        generalize hreplaced : Store.closeReplaced _ _ = replaced
        obtain ⟨r, st'⟩ := replaced
        have hbegins := Begins.started credential environment device s h r st' hgranted henvironment hstarts hreplaced
        cases r <;> exact hbegins

end Store

end Teletype
