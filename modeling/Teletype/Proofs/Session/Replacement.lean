import Teletype.Proofs.Session.Ledger

/-! # A manager's sessions

Of the sessions that a manager has started only the one it has turned to can be active. A start that ends well
closes the one before it, if it is active, and the operator is told when that meets a fault. -/

namespace Teletype

namespace Store

section
variable {st st' : Store} {k : Nat} {e e' : Entry}

/-- The session of this index is active. -/
def IsActiveAt (st : Store) (k : Nat) : Prop := ∃ e, st.entry? k = some e ∧ e.session.status = .active

/-- Managers stay with their sessions, and no session becomes active. -/
structure Calms (st st' : Store) : Prop where
  managers : st'.managers = st.managers
  count : st'.entries.length = st.entries.length
  active : ∀ k, st'.IsActiveAt k → st.IsActiveAt k

theorem Calms.refl (st : Store) : Calms st st := ⟨rfl, rfl, fun _ h => h⟩

theorem Calms.trans {st'' : Store} (h₁ : Calms st st') (h₂ : Calms st' st'') : Calms st st'' :=
  ⟨h₂.managers.trans h₁.managers, h₂.count.trans h₁.count, fun k h => h₁.active k (h₂.active k h)⟩

theorem entry_setEntry (he : st.entry? k = some e) (h : Host) (e' : Entry) (n : Nat) :
    Store.entry? ((st.withHost h).setEntry k e') n = if k = n then some e' else st.entry? n := by
  have hk : k < st.entries.length := (List.getElem?_eq_some_iff.mp he).1
  show (st.entries.set k e')[n]? = _
  rw [List.getElem?_set, if_pos hk]
  rfl

theorem Calms.setEntry (he : st.entry? k = some e) (h : Host)
    (hactive : e'.session.status = .active → e.session.status = .active) :
    Calms st ((st.withHost h).setEntry k e') where
  managers := rfl
  count := List.length_set ..
  active := by
    rintro n ⟨x, hx, hxactive⟩
    rw [entry_setEntry he] at hx
    split at hx
    · next hkn =>
      obtain rfl := Option.some.inj hx
      exact ⟨e, hkn ▸ he, hactive hxactive⟩
    · exact ⟨x, hx, hxactive⟩

theorem Move.calms {op : Operation} (hop : op.makesSession = false) (hmove : Move op st st') : Calms st st' := by
  cases hmove with
  | told | inquired | passed => exact ⟨rfl, rfl, fun _ h => h⟩
  | joined hmakes | appointed hmakes | started hmakes =>
    rw [hop] at hmakes
    cases hmakes
  | closed k e m he hm hopen => exact .setEntry he _ nofun
  | resized k e m columns rows he hactive hm => exact .setEntry he _ fun _ => hactive
  | used k e he terminal written => exact .setEntry he st.host id

theorem perform_calms (st : Store) {op : Operation} (hop : op.makesSession = false) : Calms st (st.perform op).2 :=
  (perform_moves st op).keep (fun hmove h => h.trans (hmove.calms hop)) (.refl st)

/-- Closing the session before another is no start, so what it is made of leaves the managers alone. -/
theorem calms_closeReplaced (st : Store) (previous : Option Nat) : Calms st (st.closeReplaced previous).2 := by
  have hmoves : Moves (.stop 0) st (st.closeReplaced previous).2 := moves_closeReplaced st previous
  exact hmoves.keep (fun hmove h => h.trans (hmove.calms rfl)) (.refl st)

/-- How a start ends in a store with ordinary faults. If it fails, the managers stay with their sessions and no
    session changes; there may be one more, which is pending. If not, the manager has turned to a new session, and
    the one before it, if it was active, is closed and the operator told of it. -/
inductive StartEnds (st : Store) (m : Nat) (manager : Manager) : Except Failure Nat × Store → Prop
  | failed (f : Failure) (st' : Store) (hmanagers : st'.managers = st.managers)
      (hentries : st'.entries = st.entries ∨ ∃ e, e.session.status = .pending ∧ st'.entries = st.entries ++ [e]) :
      StartEnds st m manager (.error f, st')
  | alone (e : Entry) (st' : Store) (hactive : e.session.status = .active)
      (hidle : ∀ k, manager.current = some k → ¬st.IsActiveAt k)
      (hmanagers : st'.managers = st.managers.set m { manager with current := some st.entries.length })
      (hentries : st'.entries = st.entries ++ [e]) :
      StartEnds st m manager (.ok st.entries.length, st')
  | replaced (e : Entry) (st' : Store) (k : Nat) (previous : Entry) (master : Master) (events : List Event)
      (hactive : e.session.status = .active) (hcurrent : manager.current = some k) (hprevious : st.entry? k = some previous)
      (hwas : previous.session.status = .active) (hm : previous.session.master = some master)
      (hmanagers : st'.managers = st.managers.set m { manager with current := some st.entries.length })
      (hentries : st'.entries = (st.entries.set k { previous with session := previous.session.shut master }) ++ [e])
      (hjournal : st'.host.journal = events ++ [.told (.replacing previous.session.id), .closingMaster master.handle] ++
        regret previous.session master) :
      StartEnds st m manager (.ok st.entries.length, st')

theorem start_ends (hr : st.Regular) (hn : st.Numbered) {m : Nat} {manager : Manager} (hm : st.manager? m = some manager)
    (restricted : Bool) (command : String) :
    StartEnds st m manager (st.start m restricted command) := by
  have hbegins := start_begins hm restricted command
  generalize st.start m restricted command = result at hbegins
  cases hbegins with
  | unresolved f hgranted | homeless credential f hgranted henvironment => exact .failed f _ rfl (Or.inl rfl)
  | unstarted credential environment f s h hgranted henvironment hstarts =>
    refine .failed f _ rfl (Or.inr ⟨_, ?_, rfl⟩)
    cases hstarts <;> rfl
  | started credential environment device s h r st' hgranted henvironment hstarts hreplaced =>
    have hactive : s.status = .active := by cases hstarts; rfl
    -- The session before is closed in a store that has the new one already; the entries before that are as they were.
    generalize hmid : ((st.inquired manager restricted).joined ⟨s, .begin device st.now, []⟩ h).appoint m manager
      st.entries.length = mid at hreplaced
    have hentry (k : Nat) (hk : k < st.entries.length) : mid.entry? k = st.entry? k := by
      rw [← hmid]
      exact List.getElem?_append_left hk
    by_cases hwas : ∃ k, manager.current = some k ∧ st.IsActiveAt k
    · obtain ⟨k, hk, previous, hprevious, hprev⟩ := hwas
      have hsound := hr.sound previous (mem_of_entry hprevious)
      obtain ⟨master, hmaster, hopen⟩ := Session.isOpen_iff.mp (hsound.active_iff.mp hprev)
      have hclosed := closeReplaced_of_active ((hentry k (hn.current hm hk)).trans hprevious)
        (by rw [Session.isActive, hprev]; rfl) hmaster hopen (hsound.closing master hmaster)
      rw [hk, hclosed] at hreplaced
      cases hreplaced
      rw [← hmid]
      refine .replaced ⟨s, .begin device st.now, []⟩ _ k previous master h.journal hactive hk hprevious hprev hmaster rfl ?_ rfl
      exact List.set_append_left _ _ (hn.current hm hk)
    · have hidle : ∀ k, manager.current = some k → ¬st.IsActiveAt k := fun k hk hat => hwas ⟨k, hk, hat⟩
      have hkept : mid.closeReplaced manager.current = _ := closeReplaced_of_idle (by
        intro k e hk he
        rw [hentry k (hn.current hm hk)] at he
        cases hstatus : e.session.isActive with
        | false => rfl
        | true => exact absurd ⟨e, he, by simpa [Session.isActive] using hstatus⟩ (hidle k hk))
      rw [hkept] at hreplaced
      cases hreplaced
      rw [← hmid]
      exact .alone ⟨s, .begin device st.now, []⟩ _ hactive hidle rfl rfl

end

/-! ### What a manager has started -/

/-- The session that an operation answers with, if it is a start of this manager. -/
def started? (m : Nat) : Operation → Except Failure Reply → Option Nat
  | .start n _ _, .ok (.session k) => if n = m then some k else none
  | _, _ => none

/-- The sessions that a manager's starts answer with, in the turns from a store on. -/
def returned (m : Nat) : Store → List Turn → List Nat
  | _, [] => []
  | st, t :: turns => (started? m t.operation (st.turn t).1).toList ++ returned m (st.turn t).2 turns

/-- Of the sessions that a manager owns only the one that it has turned to can be active. -/
def Custody (st : Store) (owned : Nat → List Nat) : Prop :=
  ∀ m manager k, st.manager? m = some manager → k ∈ owned m →
    k < st.entries.length ∧ (st.IsActiveAt k → manager.current = some k)

section
variable {st st' : Store} {owned : Nat → List Nat} {m : Nat} {manager : Manager}

theorem custody_founded (managers : List Manager) : (founded managers).Custody fun _ => [] :=
  fun _ _ _ _ h => absurd h List.not_mem_nil

theorem Custody.calm (hc : st.Custody owned) (h : Calms st st') : st'.Custody owned := by
  intro m manager k hm hk
  rw [manager?, h.managers] at hm
  rw [h.count]
  obtain ⟨hlt, hcurrent⟩ := hc m manager k hm hk
  exact ⟨hlt, fun hat => hcurrent (h.active k hat)⟩

theorem Custody.under (hc : st.Custody owned) (c : Circumstances) : (st.under c).Custody owned := by
  intro m manager k hm hk
  rw [manager?_under] at hm
  obtain ⟨x, hx, rfl⟩ := Option.map_eq_some_iff.mp hm
  exact hc m x k hx hk

/-- A manager turns to the session after the last, and the one that it had turned to is not active any more. -/
theorem Custody.turned (hc : st.Custody owned) (hm : st.manager? m = some manager)
    (hmanagers : st'.managers = st.managers.set m { manager with current := some st.entries.length })
    (hcount : st'.entries.length = st.entries.length + 1)
    (hactive : ∀ k < st.entries.length, st'.IsActiveAt k → st.IsActiveAt k ∧ manager.current ≠ some k) :
    st'.Custody fun n => owned n ++ if n = m then [st.entries.length] else [] := by
  have hlength : m < st.managers.length := (List.getElem?_eq_some_iff.mp hm).1
  intro n x k hx hk
  rw [manager?, hmanagers, List.getElem?_set, if_pos hlength] at hx
  rw [hcount]
  have hold {y : Manager} (hy : st.manager? n = some y) (hkn : k ∈ owned n) : k < st.entries.length + 1 ∧
      (st'.IsActiveAt k → y.current = some k ∧ manager.current ≠ some k) := by
    obtain ⟨hlt, hcurrent⟩ := hc n y k hy hkn
    exact ⟨Nat.lt_succ_of_lt hlt, fun hat => ⟨hcurrent (hactive k hlt hat).1, (hactive k hlt hat).2⟩⟩
  -- What was owned before can be active only at other managers, and what is new is what the manager turns to.
  rcases List.mem_append.mp hk with hk | hk
  · split at hx
    · next hmn =>
      obtain ⟨hlt, hcurrent⟩ := hold (hmn ▸ hm) hk
      exact ⟨hlt, fun hat => absurd (hcurrent hat).1 (hcurrent hat).2⟩
    · obtain ⟨hlt, hcurrent⟩ := hold hx hk
      exact ⟨hlt, fun hat => (hcurrent hat).1⟩
  · split at hk
    · next hnm =>
      rw [if_pos hnm.symm] at hx
      obtain rfl := Option.some.inj hx
      obtain rfl := List.mem_singleton.mp hk
      exact ⟨Nat.lt_succ_self _, fun _ => rfl⟩
    · cases hk

theorem Custody.startEnds (hc : st.Custody owned) (hm : st.manager? m = some manager) {result : Except Failure Nat × Store}
    (hends : StartEnds st m manager result) :
    result.2.Custody fun n => owned n ++ if n = m then result.1.toOption.toList else [] := by
  cases hends with
  | failed f st' hmanagers hentries =>
    have hkept : Custody st' owned := by
      intro n x k hx hk
      rw [manager?, hmanagers] at hx
      obtain ⟨hlt, hcurrent⟩ := hc n x k hx hk
      rcases hentries with hentries | ⟨e, hpending, hentries⟩
      · rw [hentries]
        refine ⟨hlt, ?_⟩
        rintro ⟨y, hy, hactive⟩
        rw [entry_eq, hentries] at hy
        exact hcurrent ⟨y, hy, hactive⟩
      · rw [hentries, List.length_append]
        refine ⟨Nat.lt_add_right _ hlt, ?_⟩
        rintro ⟨y, hy, hactive⟩
        rw [entry_eq, hentries, List.getElem?_append_left hlt] at hy
        exact hcurrent ⟨y, hy, hactive⟩
    have hnone (n : Nat) : (if n = m then (Except.error f : Except Failure Nat).toOption.toList else []) = [] := by
      split <;> rfl
    simpa only [hnone, List.append_nil] using hkept
  | alone e st' hactive hidle hmanagers hentries =>
    refine hc.turned hm hmanagers (by rw [hentries, List.length_append, List.length_singleton]) ?_
    rintro k hlt ⟨y, hy, hyactive⟩
    rw [entry_eq, hentries, List.getElem?_append_left hlt] at hy
    have hat : st.IsActiveAt k := ⟨y, hy, hyactive⟩
    exact ⟨hat, fun hk => hidle k hk hat⟩
  | replaced e st' k previous master events hactive hcurrent hprevious hwas hmaster hmanagers hentries hjournal =>
    refine hc.turned hm hmanagers (by rw [hentries, List.length_append, List.length_set, List.length_singleton]) ?_
    rintro n hlt ⟨y, hy, hyactive⟩
    rw [entry_eq, hentries, List.getElem?_append_left (by rwa [List.length_set]), List.getElem?_set] at hy
    split at hy
    · next hkn =>
      rw [if_pos (hkn ▸ hlt)] at hy
      obtain rfl := Option.some.inj hy
      cases hyactive
    · next hkn =>
      refine ⟨⟨y, hy, hyactive⟩, fun hn => hkn ?_⟩
      rw [hcurrent] at hn
      exact Option.some.inj hn

theorem Custody.turn (hc : st.Custody owned) (hr : st.Regular) (hn : st.Numbered) {t : Turn}
    (hordinary : t.circumstances.Ordinary) (hop : t.operation.isManaged = true) :
    (st.turn t).2.Custody fun m => owned m ++ (started? m t.operation (st.turn t).1).toList := by
  obtain ⟨c, op⟩ := t
  have hunder := hc.under c
  cases hmakes : op.makesSession with
  | false =>
    have hnone (m : Nat) : (started? m op ((st.turn ⟨c, op⟩).1)).toList = [] := by
      cases op <;> first | rfl | cases hmakes
    simp only [hnone, List.append_nil]
    exact hunder.calm (perform_calms _ hmakes)
  | true =>
    cases op with
    | start m restricted command =>
      rw [turn_start]
      cases hm : (st.under c).manager? m with
      | none =>
        have hstart : (st.under c).start m restricted command = (.ok 0, st.under c) := by
          unfold start
          rw [hm]
        rw [hstart]
        intro n manager k hx hk
        rcases List.mem_append.mp hk with hk | hk
        · exact hunder n manager k hx hk
        · have hne : m ≠ n := by
            rintro rfl
            rw [hm] at hx
            cases hx
          simp [started?, Except.map, hne] at hk
      | some manager =>
        have hresult := hunder.startEnds hm (start_ends (hr.under hordinary) (hn.under c) hm restricted command)
        have hsame (n : Nat) (r : Except Failure Nat) : (started? n (.start m restricted command) (r.map Reply.session)).toList =
            if n = m then r.toOption.toList else [] := by
          cases r with
          | error f => simp [started?, Except.map, Except.toOption]
          | ok k =>
            by_cases hmn : m = n
            · simp [started?, Except.map, Except.toOption, hmn]
            · simp [started?, Except.map, hmn, Ne.symm hmn]
        simp only [hsame]
        exact hresult
    | create | startSession => cases hop
    | _ => cases hmakes

theorem custody_after (turns : List Turn) (hc : st.Custody owned) (hb : st.Balanced) (hr : st.Regular) (hn : st.Numbered)
    (hturns : ∀ t ∈ turns, t.circumstances.Ordinary ∧ t.operation.isManaged = true) :
    (st.after turns).Balanced ∧ (st.after turns).Custody fun m => owned m ++ returned m st turns := by
  induction turns generalizing st owned with
  | nil =>
    simp only [returned, List.append_nil]
    exact ⟨hb, hc⟩
  | cons t turns ih =>
    obtain ⟨hordinary, hop⟩ := hturns t List.mem_cons_self
    have hrest := ih (hc.turn hr hn hordinary hop) (hb.turn hr hordinary hop) (hr.turn hordinary) (hn.turn t)
      fun x hx => hturns x (List.mem_cons_of_mem t hx)
    simp only [List.append_assoc] at hrest
    exact hrest

end

/-! ### The whole run -/

/-- A manager has turned to a session that is active, and the one before it is closed, whatever its closing has met:
    a fault is only told. -/
structure TakesPlace (st : Store) (m n k : Nat) (previous : Entry) : Prop where
  current : st.current? m = some n
  active : st.IsActiveAt n
  closed : ∃ master, previous.session.master = some master ∧
    st.entry? k = some { previous with session := previous.session.shut master } ∧
    ∃ events, st.host.journal = events ++ [.told (.replacing previous.session.id), .closingMaster master.handle] ++
      regret previous.session master

theorem StartEnds.takesPlace {st : Store} {m k : Nat} {manager : Manager} {previous : Entry}
    {result : Except Failure Nat × Store} (hends : StartEnds st m manager result) (hm : st.manager? m = some manager)
    (hk : manager.current = some k) (hprevious : st.entry? k = some previous) (hactive : previous.session.status = .active) :
    (∃ f, result.1 = .error f ∧ result.2.current? m = some k ∧ Store.entry? result.2 k = some previous) ∨
      ∃ n, result.1 = .ok n ∧ result.2.TakesPlace m n k previous := by
  have hlt : k < st.entries.length := (List.getElem?_eq_some_iff.mp hprevious).1
  have hlength : m < st.managers.length := (List.getElem?_eq_some_iff.mp hm).1
  cases hends with
  | failed f st' hmanagers hentries =>
    refine Or.inl ⟨f, rfl, ?_, ?_⟩
    · rw [current?, manager?, hmanagers]
      exact Option.bind_eq_some_iff.mpr ⟨manager, hm, hk⟩
    · rcases hentries with hentries | ⟨e, -, hentries⟩
      · rwa [entry_eq, hentries]
      · rwa [entry_eq, hentries, List.getElem?_append_left hlt]
  | alone e st' _ hidle hmanagers hentries => exact absurd ⟨previous, hprevious, hactive⟩ (hidle k hk)
  | replaced e st' n before master events heactive hcurrent hbefore hwas hmaster hmanagers hentries hjournal =>
    obtain rfl : k = n := Option.some.inj (hk.symm.trans hcurrent)
    obtain rfl : previous = before := Option.some.inj (hprevious.symm.trans hbefore)
    refine Or.inr ⟨st.entries.length, rfl, ?_, ⟨e, ?_, heactive⟩, master, hmaster, ?_, events, hjournal⟩
    · rw [current?, manager?, hmanagers, List.getElem?_set, if_pos rfl, if_pos hlength]
      rfl
    · rw [entry_eq, hentries, List.getElem?_append_right (Nat.le_of_eq (List.length_set ..)), List.length_set, Nat.sub_self]
      rfl
    · rw [entry_eq, hentries, List.getElem?_append_left (by rwa [List.length_set]), List.getElem?_set, if_pos rfl, if_pos hlt]

/-- However managers start, stop and resize their sessions, and however these are closed, resized and used directly,
    every handle is accounted for, and of the sessions that a manager has started only its current one can be active.
    The next start either fails, and then an active session of the manager stays as it is, or closes that session. -/
theorem sessions_account_for_handles (managers : List Manager) (turns : List Turn)
    (hturns : ∀ t ∈ turns, t.circumstances.Ordinary ∧ t.operation.isManaged = true) :
    let st := (founded managers).after turns
    st.Accounted ∧
    (∀ m < managers.length, ∀ k ∈ returned m (founded managers) turns, st.IsActiveAt k → st.current? m = some k) ∧
    ∀ c : Circumstances, c.Ordinary → ∀ m restricted command k previous, st.current? m = some k →
      st.entry? k = some previous → previous.session.status = .active →
      let result := st.turn ⟨c, .start m restricted command⟩
      (∃ f, result.1 = .error f ∧ result.2.current? m = some k ∧ Store.entry? result.2 k = some previous) ∨
        ∃ n, result.1 = .ok (.session n) ∧ result.2.TakesPlace m n k previous := by
  intro st
  have hr : st.Regular := (regular_founded managers).after fun t ht => (hturns t ht).1
  have hn : st.Numbered := (numbered_founded managers).after turns
  obtain ⟨hb, hc⟩ := custody_after turns (custody_founded managers) (balanced_founded managers) (regular_founded managers)
    (numbered_founded managers) hturns
  refine ⟨hb.accounted hr hn, fun m hm k hk hactive => ?_, ?_⟩
  · have hfounded : (founded managers).manager? m = some { managers[m] with current := none } := by
      simp [manager?, founded, hm]
    obtain ⟨manager, hmanager, -⟩ := (after_grows _ turns).manager? hfounded
    rw [current?, hmanager]
    exact (hc m manager k hmanager (List.mem_append_right _ hk)).2 hactive
  · intro c hordinary m restricted command k previous hk hprevious hactive
    obtain ⟨manager, hm, hcurrent⟩ := Option.bind_eq_some_iff.mp hk
    have hunder : (st.under c).manager? m = some { manager with database := c.database m, announce := c.announce m } := by
      rw [manager?_under, hm]
      rfl
    have hends := start_ends (hr.under hordinary) (hn.under c) hunder restricted command
    dsimp only
    rw [turn_start]
    rcases hends.takesPlace hunder hcurrent hprevious hactive with ⟨f, hf, hkept⟩ | ⟨n, hn, hplace⟩
    · exact Or.inl ⟨f, by rw [hf]; rfl, hkept⟩
    · exact Or.inr ⟨n, by rw [hn]; rfl, hplace⟩

/-- A terminal that is there once and whose closing fails as a system call does. -/
def stubborn : Circumstances where
  devices := [{ closeFault := some ⟨.system, "Input/output error"⟩ }]
  database := fun _ => Identity.Tables.database {}

theorem stubborn_ordinary : stubborn.Ordinary where
  faults := Faults.ordinary_empty
  devices := by
    intro d hd
    obtain rfl := List.mem_singleton.mp hd
    exact ⟨Faults.ordinary_empty, by rintro x ⟨⟩; rfl⟩

theorem stubborn_session_replaced :
    let turns : List Turn := [⟨stubborn, .start 0 false ""⟩]
    let st := (founded [{ database := Identity.Tables.database {} }]).after turns
    (∀ t ∈ turns, t.circumstances.Ordinary ∧ t.operation.isManaged = true) ∧ st.Accounted ∧
    ∃ previous, st.entry? 0 = some previous ∧ (st.turn ⟨stubborn, .start 0 false ""⟩).2.TakesPlace 0 1 0 previous := by
  intro turns st
  have hturns : ∀ t ∈ turns, t.circumstances.Ordinary ∧ t.operation.isManaged = true := by
    intro t ht
    obtain rfl := List.mem_singleton.mp ht
    exact ⟨stubborn_ordinary, rfl⟩
  obtain ⟨haccounted, -, hreplaces⟩ := sessions_account_for_handles [{ database := Identity.Tables.database {} }] turns hturns
  have hcurrent : st.current? 0 = some 0 := by decide +kernel
  have hstatus : (st.entry? 0).map (·.session.status) = some .active := by decide +kernel
  have hsecond : (st.turn ⟨stubborn, .start 0 false ""⟩).1.toOption = some (.session 1) := by decide +kernel
  obtain ⟨previous, hprevious, hactive⟩ := Option.map_eq_some_iff.mp hstatus
  refine ⟨hturns, haccounted, previous, hprevious, ?_⟩
  rcases hreplaces stubborn stubborn_ordinary 0 false "" 0 previous hcurrent hprevious hactive with
    ⟨f, hf, -⟩ | ⟨n, hn, hplace⟩
  · rw [hf] at hsecond
    cases hsecond
  · rw [hn] at hsecond
    cases hsecond
    exact hplace

end Store

end Teletype
