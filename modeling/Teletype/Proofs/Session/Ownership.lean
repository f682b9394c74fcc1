import Teletype.Proofs.Session.Replacement
import Teletype.Proofs.Session.Separation

/-! # Managers stay apart

Every session belongs to the manager that has started it, or to none if it was made by hand, and every handle to the
one for whom it was opened. Whatever is done for one manager, in whatever order and with whatever faults, leaves the
others the sessions that they have turned to and all their sessions as they are, and is done to handles of its own. -/

namespace Teletype

/-- Who has what: each session, and each handle that was handed out, belongs to a manager or to none. -/
structure Owners where
  sessions : List (Option Nat) := []
  handles : List (Nat × Option Nat) := []

namespace Owners

/-- For whom an operation is done: its manager, or the one that the session belongs to which it is one on. -/
def party (o : Owners) (op : Operation) : Option Nat := op.manager? <|> op.session?.bind fun k => (o.sessions[k]?).join

/-- Who has what after a turn: the sessions that it makes, and the handles that it gets by starting one, belong to the
    one for whom it is done. -/
def turn (o : Owners) (st : Store) (t : Turn) : Owners where
  sessions := o.sessions ++ List.replicate ((st.turn t).2.entries.length - st.entries.length) (o.party t.operation)
  handles := o.handles ++
    if t.operation.makesSession then (handedOut (st.deed t).events).map fun n => (n, o.party t.operation) else []

/-- Who has what after one turn after the other. -/
def after (o : Owners) : Store → List Turn → Owners
  | _, [] => o
  | st, t :: turns => (o.turn st t).after (st.turn t).2 turns

/-- What managers have turned to is theirs, and the open master of a session belongs to the one that the session
    belongs to. -/
structure Hold (o : Owners) (st : Store) : Prop where
  sessions : o.sessions.length = st.entries.length
  handles : o.handles.map Prod.fst = handedOut st.host.journal
  current : ∀ m k, st.current? m = some k → o.sessions[k]? = some (some m)
  masters : ∀ k n, st.openMaster? k = some n → ∃ p, o.sessions[k]? = some p ∧ (n, p) ∈ o.handles

section
variable {o : Owners} {op : Operation} {m k : Nat}

theorem party_of_manager (h : op.manager? = some m) (o : Owners) : o.party op = some m := by
  rw [party, h]
  rfl

theorem party_of_session (h : op.session? = some k) (o : Owners) : o.party op = (o.sessions[k]?).join := by
  cases op <;> cases h <;> rfl

end

end Owners

namespace Store

/-- Sessions are active only as long as their masters are open, and these are held, each by one session. -/
structure Apart (st : Store) : Prop where
  lively : st.Lively
  numbered : st.Numbered
  keeps : st.host.Keeps (Sum.elim st.openMaster? Empty.elim)

section
variable {st st' : Store} {o : Owners} {k : Nat}

/-! ### Managers -/

theorem current_under (st : Store) (c : Circumstances) (m : Nat) : (st.under c).current? m = st.current? m := by
  rw [current?, manager?_under, Option.bind_map, current?]
  rfl

theorem current_congr (h : st'.managers = st.managers) (m : Nat) : st'.current? m = st.current? m := by
  rw [current?, manager?, h, current?, manager?]

theorem closeReplaced_managers (st : Store) (previous : Option Nat) : (st.closeReplaced previous).2.managers = st.managers :=
  (calms_closeReplaced st previous).managers

/-- Managers stay with their sessions, but for one that turns to a session that its operation has made. -/
theorem perform_current (st : Store) (op : Operation) (n : Nat) : (st.perform op).2.current? n = st.current? n ∨
    op.manager? = some n ∧ (st.perform op).2.current? n = some st.entries.length := by
  cases hop : op.makesSession with
  | false => exact Or.inl (current_congr (perform_calms st hop).managers n)
  | true =>
    cases op with
    | create command environment => exact Or.inl rfl
    | startSession k =>
      refine Or.inl (current_congr ?_ n)
      show (st.startSession k).2.managers = st.managers
      unfold startSession
      split
      · rfl
      · split <;> rfl
    | start m restricted command =>
      show (st.start m restricted command).2.current? n = _ ∨ some m = some n ∧ (st.start m restricted command).2.current? n = _
      cases hm : st.manager? m with
      | none =>
        unfold start
        rw [hm]
        exact Or.inl rfl
      | some manager =>
        have hbegins := start_begins hm restricted command
        generalize st.start m restricted command = result at hbegins
        cases hbegins with
        | unresolved | homeless | unstarted => exact Or.inl rfl
        | started credential environment device s h r st' hgranted henvironment hstarts hreplaced =>
          have hmanagers : st'.managers = st.managers.set m { manager with current := some st.entries.length } := by
            have hsame := closeReplaced_managers (((st.inquired manager restricted).joined
              ⟨s, .begin device st.now, []⟩ h).appoint m manager st.entries.length) manager.current
            rw [hreplaced] at hsame
            exact hsame
          have hlength : m < st.managers.length := (List.getElem?_eq_some_iff.mp hm).1
          show st'.current? n = _ ∨ _ ∧ st'.current? n = _
          rw [current?, manager?, hmanagers, List.getElem?_set, if_pos hlength]
          by_cases hmn : m = n
          · rw [if_pos hmn]
            exact Or.inr ⟨congrArg some hmn, rfl⟩
          · rw [if_neg hmn]
            exact Or.inl rfl
    | _ => cases hop

theorem turn_current (st : Store) (t : Turn) (n : Nat) : (st.turn t).2.current? n = st.current? n ∨
    t.operation.manager? = some n ∧ (st.turn t).2.current? n = some st.entries.length := by
  have h := perform_current (st.under t.circumstances) t.operation n
  rwa [current_under] at h

/-! ### Handles -/

/-- Terminals are opened only by operations that are there to start a session. -/
theorem perform_handedOut (st : Store) {op : Operation} (hop : op.makesSession = false) :
    handedOut (st.perform op).2.host.journal = handedOut st.host.journal := by
  refine (perform_moves st op).keep (p := fun st' => handedOut st'.host.journal = handedOut st.host.journal) ?_ rfl
  intro st₁ st₂ hmove hsame
  rw [← hsame]
  cases hmove with
  | joined hmakes | appointed hmakes | started hmakes =>
    rw [hop] at hmakes
    cases hmakes
  | told | closed => exact (handedOut_append _ _).trans (List.append_nil _)
  | inquired | used | passed => rfl
  | resized k e m columns rows =>
    show handedOut (st₁.host.resize m.handle columns rows).2.journal = _
    rw [(resize_leaves st₁.host m.handle columns rows).1, handedOut_append]
    exact List.append_nil _

theorem deed_handedOut (st : Store) {t : Turn} (hop : t.operation.makesSession = false) :
    handedOut (st.deed t).events = [] := by
  have hsame : handedOut (st.turn t).2.host.journal = handedOut st.host.journal :=
    perform_handedOut (st.under t.circumstances) hop
  rw [journal_turn, handedOut_append] at hsame
  exact List.append_right_eq_self.mp hsame

theorem deed_events {events : List Event} {t : Turn} (h : (st.turn t).2.host.journal = st.host.journal ++ events) :
    (st.deed t).events = events := by
  rw [journal_turn] at h
  exact List.append_cancel_left h

/-! ### Turns -/

theorem touches_under (st : Store) (c : Circumstances) (op : Operation) : op.Touches (st.under c) = op.Touches st := by
  funext k
  simp only [Operation.Touches, current_under]
  rfl

theorem turn_confined (hl : st.Lively) (t : Turn) : Confined (t.operation.Touches st) st (st.turn t).2 := by
  have hunder : (st.under t.circumstances).Lively := hl
  have h := (perform_tends hunder t.operation).confined
  rw [touches_under] at h
  exact ⟨h.others, h.lively, h.handles⟩

theorem turn_written (hl : st.Lively) (t : Turn) (k : Nat) : (st.turn t).2.writtenAt k = st.writtenAt k ∨
    t.operation.session? = some k ∧ ∃ n, st.openMaster? k = some n := by
  have hunder : (st.under t.circumstances).Lively := hl
  exact perform_written hunder t.operation k

theorem apart_founded (managers : List Manager) : (founded managers).Apart where
  lively := fun k e he => by simp [entry_eq, founded] at he
  numbered := numbered_founded managers
  keeps :=
    { issued := (numbered_founded managers).issued
      careful := .nil _
      held := by
        rintro (k | k) n hn
        · cases hn
        · exact k.elim
      apart := by
        rintro (k | k) j n hn
        · cases hn
        · exact k.elim }

/-- What holders have is left alone by what becomes ready. -/
theorem keeps_under {ι : Type} {master? : ι → Option Nat} (h : st.host.Keeps master?) (c : Circumstances) :
    (st.under c).host.Keeps master? :=
  h.quiet (.of_nil (List.append_nil _).symm rfl rfl) (List.forall_mem_nil _)

theorem turn_keeps {κ : Type} {others : κ → Option Nat} (hl : st.Lively)
    (h : st.host.Keeps (Sum.elim st.openMaster? others)) (t : Turn) :
    (st.turn t).2.host.Keeps (Sum.elim (st.turn t).2.openMaster? others) := by
  have hunder : (st.under t.circumstances).Lively := hl
  exact (perform_tends hunder t.operation).keeps (keeps_under h t.circumstances)

theorem Apart.turn (h : st.Apart) (t : Turn) : (st.turn t).2.Apart where
  lively := (turn_confined h.lively t).lively h.lively
  numbered := h.numbered.turn t
  keeps := turn_keeps h.lively h.keeps t

end

end Store

/-! ### What belongs to whom -/

namespace Owners

section
variable {st : Store} {o : Owners} {t : Turn} {k n : Nat} {p : Option Nat}

theorem sessions_turn (h : o.sessions[k]? = some p) : (o.turn st t).sessions[k]? = some p :=
  (List.getElem?_append_left (List.getElem?_eq_some_iff.mp h).1).trans h

/-- Sessions that are touched belong to the one for whom the operation is done. -/
theorem Hold.touched (ho : o.Hold st) (hk : t.operation.Touches st k) (h : o.sessions[k]? = some p) :
    p = o.party t.operation := by
  rcases hk with hsession | ⟨m, hm, hcurrent⟩ | rfl
  · rw [party_of_session hsession, h]
    rfl
  · rw [ho.current m k hcurrent] at h
    rw [party_of_manager hm]
    exact (Option.some.inj h).symm
  · rw [← ho.sessions, List.getElem?_eq_none (Nat.le_refl _)] at h
    cases h

/-- So do those that are there afterwards. -/
theorem Hold.touched_turn (ho : o.Hold st) (hk : t.operation.Touches st k) (hlt : k < (st.turn t).2.entries.length) :
    (o.turn st t).sessions[k]? = some (o.party t.operation) := by
  by_cases hold : k < o.sessions.length
  · have h : o.sessions[k]? = some o.sessions[k] := List.getElem?_eq_getElem hold
    rw [sessions_turn h, ho.touched hk h]
  · have hge : o.sessions.length ≤ k := Nat.le_of_not_lt hold
    refine (List.getElem?_append_right hge).trans ?_
    rw [List.getElem?_replicate, if_pos]
    rw [ho.sessions] at hge ⊢
    omega

/-- What a turn is handed belongs to the one for whom it is done. -/
theorem mem_handles_turn (hn : n ∈ handedOut (st.deed t).events) : (n, o.party t.operation) ∈ (o.turn st t).handles := by
  cases hop : t.operation.makesSession with
  | false =>
    rw [st.deed_handedOut hop] at hn
    cases hn
  | true =>
    refine List.mem_append_right _ ?_
    rw [if_pos hop]
    exact List.mem_map.mpr ⟨n, hn, rfl⟩

theorem mem_handles_of_mem {x : Nat × Option Nat} (hx : x ∈ o.handles) : x ∈ (o.turn st t).handles := List.mem_append_left _ hx

theorem hold_founded (managers : List Manager) : Hold {} (Store.founded managers) where
  sessions := rfl
  handles := rfl
  current := by
    intro m k hk
    obtain ⟨manager, hm, hcurrent⟩ := Option.bind_eq_some_iff.mp hk
    have hlt := (Store.numbered_founded managers).current hm hcurrent
    cases hlt
  masters := nofun

theorem Hold.turn (ho : o.Hold st) (h : st.Apart) (t : Turn) : (o.turn st t).Hold (st.turn t).2 := by
  have hgrows := (st.turn_grows t).entries
  have hconfined := Store.turn_confined h.lively t
  refine ⟨?_, ?_, fun m k hk => ?_, fun k n hn => ?_⟩
  · show (o.sessions ++ _).length = _
    rw [List.length_append, List.length_replicate, ho.sessions]
    omega
  · show (o.handles ++ _).map Prod.fst = _
    rw [List.map_append, ho.handles, Store.journal_turn, handedOut_append]
    split
    · rw [List.map_map]
      exact congrArg _ (List.map_id _)
    · next hop => rw [st.deed_handedOut (by simpa using hop), List.map_nil]
  · rcases st.turn_current t m with hsame | ⟨hm, hnew⟩
    · rw [hsame] at hk
      exact sessions_turn (ho.current m k hk)
    · obtain ⟨manager, hmanager, hcurrent⟩ := Option.bind_eq_some_iff.mp hk
      have hlt := (h.turn t).numbered.current hmanager hcurrent
      cases hnew.symm.trans hk
      rw [ho.touched_turn (Or.inr (Or.inr rfl)) hlt, party_of_manager hm]
  · obtain ⟨events, hjournal, -, hmasters⟩ := hconfined.handles
    rcases hmasters k n hn with hold | ⟨hk, hnew⟩
    · obtain ⟨p, hp, hmem⟩ := ho.masters k n hold
      exact ⟨p, sessions_turn hp, mem_handles_of_mem hmem⟩
    · obtain ⟨e, he, -⟩ := Option.bind_eq_some_iff.mp hn
      rw [← Store.deed_events hjournal] at hnew
      exact ⟨_, ho.touched_turn hk (List.getElem?_eq_some_iff.mp he).1, mem_handles_turn hnew⟩

theorem Hold.after (ho : o.Hold st) (h : st.Apart) (turns : List Turn) :
    (o.after st turns).Hold (st.after turns) ∧ (st.after turns).Apart := by
  induction turns generalizing o st with
  | nil => exact ⟨ho, h⟩
  | cons t turns ih => exact ih (ho.turn h t) (h.turn t)

end

end Owners

namespace Store

/-- Whatever has been done with managers and their sessions, and whatever faults are met: an operation leaves every
    other manager the session that it has turned to, and all sessions of others as they are. Whatever it does to a handle
    is done to one that was opened for the same one as the operation is done for, and while that is held; what it writes
    goes to the open master of a session, which is such a handle. No handle belongs to two, and none is closed twice. -/
theorem managers_stay_apart (managers : List Manager) (turns : List Turn) (t : Turn) :
    let st := (founded managers).after turns
    let st' := (st.turn t).2
    let o := Owners.after {} (founded managers) turns
    let o' := o.turn st t
    let party := o.party t.operation
    (∀ m, some m ≠ party → st'.current? m = st.current? m) ∧
    (∀ k p, o.sessions[k]? = some p → p ≠ party → st'.entry? k = st.entry? k) ∧
    (∀ event ∈ (st.deed t).events, ∀ n ∈ event.targets, (n, party) ∈ o'.handles) ∧
    (∀ k, st'.writtenAt k ≠ st.writtenAt k →
      ∃ n, st.openMaster? k = some n ∧ IsHeld st.host.journal n ∧ (n, party) ∈ o.handles) ∧
    o'.Hold st' ∧ (o'.handles.map Prod.fst).Nodup ∧ IsCareful st'.host.journal ∧ (closings st'.host.journal).Nodup := by
  intro st st' o o' party
  obtain ⟨ho, h⟩ := (Owners.hold_founded managers).after (apart_founded managers) turns
  have ho' : o'.Hold st' := ho.turn h t
  have h' : st'.Apart := h.turn t
  have hconfined := turn_confined h.lively t
  refine ⟨fun m hm => ?_, fun k p hk hp => ?_, fun event hevent n hn => ?_, fun k hk => ?_, ho', ?_, h'.keeps.careful,
    h'.keeps.careful.closings_nodup⟩
  · rcases st.turn_current t m with hsame | ⟨hmanager, -⟩
    · exact hsame
    · exact absurd (Owners.party_of_manager hmanager o).symm hm
  · exact hconfined.others k fun htouched => hp (ho.touched htouched hk)
  · obtain ⟨events, hjournal, htargets, -⟩ := hconfined.handles
    rw [deed_events hjournal] at hevent
    rcases htargets event hevent n hn with hnew | ⟨k, htouched, hmaster⟩
    · rw [← deed_events hjournal] at hnew
      exact Owners.mem_handles_turn hnew
    · obtain ⟨p, hp, hmem⟩ := ho.masters k n hmaster
      rw [ho.touched htouched hp] at hmem
      exact Owners.mem_handles_of_mem hmem
  · rcases turn_written h.lively t k with hsame | ⟨hsession, n, hn⟩
    · exact absurd hsame hk
    · obtain ⟨p, hp, hmem⟩ := ho.masters k n hn
      rw [ho.touched (Or.inl hsession) hp] at hmem
      exact ⟨n, hn, h.keeps.held (Sum.inl k) n hn, hmem⟩
  · rw [ho'.handles]
    exact h'.numbered.issued.nodup

end Store

end Teletype
