import Teletype.Proofs.Session.Windows

/-! # Resizing

A session is active only while a manager has turned to it. What an operation that gives a window a size answers, what it
asks of the host and what becomes of all sessions is known from the session that it is for. -/

namespace Teletype

namespace Store

section
variable {st st' : Store} {k : Nat}

/-! ### Active sessions -/

/-- Every active session is one that a manager has turned to. -/
def Led (st : Store) : Prop := ∀ k, st.IsActiveAt k → ∃ m, st.current? m = some k

theorem led_founded (managers : List Manager) : (founded managers).Led := by
  rintro k ⟨e, he, -⟩
  cases he

theorem Led.calm (h : st.Led) (hcalms : Calms st st') : st'.Led := by
  intro k hk
  obtain ⟨m, hm⟩ := h k (hcalms.active k hk)
  exact ⟨m, (current_congr hcalms.managers m).trans hm⟩

/-- An entry that is not active joins. -/
theorem Led.append (h : st.Led) {e : Entry} (hidle : e.session.status ≠ .active) (hmanagers : st'.managers = st.managers)
    (hentries : st'.entries = st.entries ++ [e]) : st'.Led := by
  rintro k ⟨x, hx, hactive⟩
  rw [entry_of_append hentries] at hx
  split at hx
  · cases hx
    exact absurd hactive hidle
  · obtain ⟨m, hm⟩ := h k ⟨x, hx, hactive⟩
    exact ⟨m, (current_congr hmanagers m).trans hm⟩

/-- A session that has been closed is not active, whatever its closing has met. -/
theorem not_isActiveAt_closeSession (hcoherent : ∀ e, st.entry? k = some e → e.session.Coherent) :
    ¬(st.closeSession k).2.IsActiveAt k := by
  cases he : st.entry? k with
  | none =>
    rw [closeSession_of_none he]
    rintro ⟨e, he', -⟩
    rw [he] at he'
    cases he'
  | some e =>
    cases hcoherent e he with
    | active hstatus m hm hopen hchild =>
      rw [closeSession_of_open he hm hopen]
      rintro ⟨e', he', hactive⟩
      rw [entry_setEntry he, if_pos rfl] at he'
      cases he'
      cases hactive
    | pending hstatus hm =>
      rw [closeSession_of_not_isOpen he (by rw [Session.isOpen, hm]; rfl)]
      rintro ⟨e', he', hactive⟩
      cases he.symm.trans he'
      rw [hstatus] at hactive
      cases hactive
    | closed hstatus m hm hopen =>
      rw [closeSession_of_not_isOpen he (by rw [Session.isOpen, hm, Option.map_some, hopen]; rfl)]
      rintro ⟨e', he', hactive⟩
      cases he.symm.trans he'
      rw [hstatus] at hactive
      cases hactive

theorem not_isActiveAt_closeReplaced (hcoherent : ∀ e, st.entry? k = some e → e.session.Coherent) :
    ¬(st.closeReplaced (some k)).2.IsActiveAt k := by
  intro hafter
  obtain ⟨e, he, hactive⟩ := (calms_closeReplaced st (some k)).active k hafter
  have hclosed : ¬IsActiveAt ((st.withHost (st.host.tell (.replacing e.session.id))).closeSession k).2 k :=
    not_isActiveAt_closeSession hcoherent
  have hisActive : e.session.isActive = true := by rw [Session.isActive, hactive]; rfl
  unfold closeReplaced at hafter
  simp only [Option.bind_some, he, Option.map_some, hisActive, if_true] at hafter
  generalize Store.closeSession (st.withHost (st.host.tell (.replacing e.session.id))) k = result at hafter hclosed
  obtain ⟨r, st'⟩ := result
  split at hafter
  · next hresult =>
    cases hresult
    exact hclosed hafter
  · next hresult =>
    cases hresult
    exact hclosed hafter
  · next hresult =>
    cases hresult
    exact hclosed hafter

/-- A manager that starts a session turns to it, and the one before it is closed by then. -/
theorem Led.start (h : st.Led) (hst : st.Manned) (m : Nat) (restricted : Bool) (command : String) :
    (st.start m restricted command).2.Led := by
  cases hm : st.manager? m with
  | none =>
    unfold Store.start
    rw [hm]
    exact h
  | some manager =>
    have hbegins := start_begins hm restricted command
    generalize st.start m restricted command = result at hbegins
    cases hbegins with
    | unresolved | homeless => exact h
    | unstarted credential environment f s host hgranted henvironment hstarts =>
      refine h.append (e := ⟨s, {}, []⟩) ?_ rfl rfl
      cases hstarts <;> exact nofun
    | started credential environment device s host r st' hgranted henvironment hstarts hreplaced =>
      generalize hmid : ((st.inquired manager restricted).joined ⟨s, .begin device st.now, []⟩ host).appoint m manager
        st.entries.length = mid at hreplaced
      have hcalms := calms_closeReplaced mid manager.current
      have hnot {j : Nat} (hcoherent : ∀ e, mid.entry? j = some e → e.session.Coherent) (hj : manager.current = some j) :
          ¬st'.IsActiveAt j := by
        have hclosed := not_isActiveAt_closeReplaced hcoherent
        rwa [← hj, hreplaced] at hclosed
      rw [hreplaced] at hcalms
      have hmanagers : mid.managers = st.managers.set m { manager with current := some st.entries.length } := hmid ▸ rfl
      have hentries : mid.entries = st.entries ++ [⟨s, .begin device st.now, []⟩] := hmid ▸ rfl
      have hlength : m < st.managers.length := (List.getElem?_eq_some_iff.mp hm).1
      have hcurrent (n : Nat) : st'.current? n = if m = n then some st.entries.length else st.current? n := by
        rw [current_congr hcalms.managers, current?, manager?, hmanagers, List.getElem?_set, if_pos hlength]
        split <;> rfl
      intro k hk
      obtain ⟨x, hx, hactive⟩ := hcalms.active k hk
      rw [entry_of_append hentries] at hx
      split at hx
      · next hnew => exact ⟨m, by rw [hcurrent, if_pos rfl, hnew]⟩
      · next hold =>
        obtain ⟨n, hn⟩ := h k ⟨x, hx, hactive⟩
        refine ⟨n, ?_⟩
        rw [hcurrent]
        split
        · next hmn =>
          subst hmn
          rw [current?, hm] at hn
          refine absurd hk (hnot ?_ hn)
          intro e he
          rw [entry_of_append hentries, if_neg hold] at he
          exact hst.coherent e (mem_of_entry he)
        · exact hn

/-- Whatever an operation does, if it does not start a session by itself. -/
theorem Led.turn (h : st.Led) (hst : st.Manned) {t : Turn} (hop : ∀ k, t.operation ≠ .startSession k) :
    (st.turn t).2.Led := by
  obtain ⟨c, op⟩ := t
  have hunder : (st.under c).Led := by
    intro k hk
    obtain ⟨m, hm⟩ := h k hk
    exact ⟨m, (current_under st c m).trans hm⟩
  have hmanned : (st.under c).Manned := ⟨hst.coherent, hst.children⟩
  cases hmakes : op.makesSession with
  | false => exact hunder.calm (perform_calms _ hmakes)
  | true =>
    cases op with
    | start m restricted command => exact hunder.start hmanned m restricted command
    | create command environment =>
      exact hunder.append (e := ⟨(st.under c).fresh command environment none, {}, []⟩) nofun rfl rfl
    | startSession k => exact absurd rfl (hop k)
    | _ => cases hmakes

theorem Led.after (h : st.Led) (hst : st.Manned) {turns : List Turn}
    (hturns : ∀ t ∈ turns, ∀ k, t.operation ≠ .startSession k) : (st.after turns).Led := by
  induction turns generalizing st with
  | nil => exact h
  | cons t turns ih =>
    exact ih (h.turn hst (hturns t List.mem_cons_self)) (hst.turn t) fun t ht => hturns t (List.mem_cons_of_mem _ ht)

end

/-! ### How a resize ends -/

/-- The operation is to give the window of a session this size. A manager gives it to the session that it has turned to,
    if there is one. -/
inductive Sizes (st : Store) (columns rows : Int) : Operation → Option Nat → Prop
  | manager (m : Nat) : Sizes st columns rows (.resize m columns rows) (st.current? m)
  | session (k : Nat) (hk : k < st.entries.length) : Sizes st columns rows (.resizeSession k columns rows) (some k)

/-- How such an operation ends, in a store whose host has this fault ready for a size: what it answers, what it asks of the
    host, and what the sessions are afterwards. -/
inductive ResizeEnds (st : Store) (fault : Option Fault) (columns rows : Int) :
    Option Nat → Except Failure Reply → List Event → (Nat → Option Session) → Prop
  | homeless : ResizeEnds st fault columns rows none (.error (.resize .noSession)) [] st.session?
  | inactive (k : Nat) (s : Session) (hs : st.session? k = some s) (hstatus : s.status ≠ .active) :
      ResizeEnds st fault columns rows (some k) (.error (.resize (.inactive s.id))) [] st.session?
  | misfit (k : Nat) (s : Session) (n : Int) (hs : st.session? k = some s) (hstatus : s.status = .active)
      (hn : n = rows ∨ n = columns) (hmisfit : n < 0 ∨ 65535 < n) :
      ResizeEnds st fault columns rows (some k) (.error (.resize (.refused (Session.misfit n)))) [] st.session?
  | refused (k : Nat) (s : Session) (m : Master) (f : Fault) (hs : st.session? k = some s) (hstatus : s.status = .active)
      (hm : s.master = some m) (hcolumns : 0 ≤ columns ∧ columns ≤ 65535) (hrows : 0 ≤ rows ∧ rows ≤ 65535)
      (hfault : fault = some f) :
      ResizeEnds st fault columns rows (some k) (.error (.resize (.refused f))) [.resizing m.handle columns rows] st.session?
  | resized (k : Nat) (s : Session) (m : Master) (hs : st.session? k = some s) (hstatus : s.status = .active)
      (hcurrent : ∃ n, st.current? n = some k) (hm : s.master = some m) (hcolumns : 0 ≤ columns ∧ columns ≤ 65535)
      (hrows : 0 ≤ rows ∧ rows ≤ 65535) (hfault : fault = none) :
      ResizeEnds st fault columns rows (some k) (.ok .nothing) [.resizing m.handle columns rows]
        (Function.update st.session? k (some { s with columns, rows }))

section
variable {st : Store} {k : Nat} {e e' : Entry} {columns rows : Int} {c : Circumstances}

theorem session?_setEntry (he : st.entry? k = some e) (h : Host) (e' : Entry) :
    ((st.withHost h).setEntry k e').session? = Function.update st.session? k (some e'.session) := by
  funext n
  rw [session?, entry_setEntry he, Function.update_apply]
  by_cases hkn : k = n
  · rw [if_pos hkn, if_pos hkn.symm]
    rfl
  · rw [if_neg hkn, if_neg (Ne.symm hkn)]
    rfl

theorem session?_setEntry_self (he : st.entry? k = some e) (h : Host) :
    ((st.withHost h).setEntry k e).session? = st.session? := by
  rw [session?_setEntry he, ← session?_of_entry he, Function.update_eq_self]

/-- A session that is given a size, in a store where only sessions of managers are active. -/
theorem resizeSession_ends (hl : st.Led) (hst : st.Manned) (hfaults : ∀ f ∈ c.faults.resizing, f.isSystem = true)
    (hk : k < st.entries.length) (columns rows : Int) :
    let result := done ((st.under c).resizeSession k columns rows)
    ∃ events, result.2.host.journal = st.host.journal ++ events ∧
      ResizeEnds st c.faults.resizing columns rows (some k) result.1 events result.2.session? := by
  have he : Store.entry? (st.under c) k = some st.entries[k] := List.getElem?_eq_getElem hk
  have hs : st.session? k = some st.entries[k].session := session?_of_entry he
  have hresizes := st.entries[k].session.resize_resizes (st.under c).host columns rows
  unfold resizeSession
  rw [he]
  dsimp only
  generalize st.entries[k].session.resize (st.under c).host columns rows = result at hresizes
  have hkept (h : Host) : (((st.under c).withHost h).setEntry k st.entries[k]).session? = st.session? :=
    session?_setEntry_self he h
  cases hresizes with
  | inactive hstatus =>
    refine ⟨[], (List.append_nil _).symm, (hkept (st.under c).host) ▸ .inactive k _ hs ?_⟩
    rcases hstatus with hstatus | hnone
    · exact hstatus
    · -- An active session has a master.
      rcases coherent_of_session hst hs with ⟨hpending, -⟩ | ⟨-, m, hm, -⟩ | ⟨hclosed, -⟩
      · rw [hpending]
        exact nofun
      · cases hnone.symm.trans hm
      · rw [hclosed]
        exact nofun
  | misfit m n hstatus hm hn hmisfit =>
    refine ⟨[], (List.append_nil _).symm, (hkept (st.under c).host) ▸ .misfit k _ n hs hstatus ?_ ?_⟩
    · exact hn.imp id And.right
    · have hout : ¬(0 ≤ n ∧ n ≤ 65535) := fun hfits => by rw [Session.fits_iff.mpr hfits] at hmisfit; cases hmisfit
      omega
  | refused m f hstatus hm hrows hcolumns hfault =>
    have hsystem : f.isSystem = true := hfaults f hfault
    rw [if_pos hsystem]
    refine ⟨_, rfl, (hkept _) ▸ ?_⟩
    exact .refused k _ m f hs hstatus hm (Session.fits_iff.mp hcolumns) (Session.fits_iff.mp hrows) hfault
  | resized m hstatus hm hrows hcolumns hfault =>
    have hsession := session?_setEntry he ((st.under c).host.note (.resizing m.handle columns rows))
      { st.entries[k] with session := { st.entries[k].session with columns, rows } }
    refine ⟨_, rfl, hsession ▸ ?_⟩
    have hcurrent := hl k ⟨_, he, hstatus⟩
    exact .resized k _ m hs hstatus hcurrent hm (Session.fits_iff.mp hcolumns) (Session.fits_iff.mp hrows) hfault

theorem turn_resizeEnds (hl : st.Led) (hst : st.Manned) (hn : st.Numbered) {op : Operation} {target : Option Nat}
    (hop : Sizes st columns rows op target) (hfaults : ∀ f ∈ c.faults.resizing, f.isSystem = true) :
    ResizeEnds st c.faults.resizing columns rows target (st.turn ⟨c, op⟩).1 (st.deed ⟨c, op⟩).events
      (st.turn ⟨c, op⟩).2.session? := by
  cases hop with
  | session k hk =>
    obtain ⟨events, hjournal, hends⟩ := resizeSession_ends hl hst hfaults hk columns rows
    rwa [← deed_events (t := ⟨c, .resizeSession k columns rows⟩) hjournal] at hends
  | manager m =>
    have hturn : st.turn ⟨c, .resize m columns rows⟩ = done ((st.under c).resize m columns rows) := rfl
    have hcurrent : ((st.under c).manager? m).bind (·.current) = st.current? m := current_under st c m
    unfold resize at hturn
    rw [hcurrent] at hturn
    cases hm : st.current? m with
    | none =>
      rw [hm] at hturn
      have hjournal : (st.turn ⟨c, .resize m columns rows⟩).2.host.journal = st.host.journal ++ [] := by
        rw [hturn, List.append_nil]
        rfl
      rw [deed_events hjournal, hturn]
      exact .homeless
    | some k =>
      rw [hm] at hturn
      obtain ⟨manager, hmanager, hk⟩ := Option.bind_eq_some_iff.mp hm
      obtain ⟨events, hjournal, hends⟩ := resizeSession_ends hl hst hfaults (hn.current hmanager hk) columns rows
      rw [deed_events (hturn ▸ hjournal), hturn]
      exact hends

end

/-- Whatever is done with managers and their sessions, and whatever the host has ready, as long as no session is started by
    itself: what each session says of its window is what the terminal of its master was given last, and no other session
    has that terminal. A size is given only to an active session to which a manager has turned, and only if columns and rows
    fit: the host is asked for it once. If that fails the answer tells so, all sessions are as they were, and the host was
    asked for nothing unless it was the host that failed. -/
theorem windows_mirror_terminals (managers : List Manager) (turns : List Turn)
    (hturns : ∀ t ∈ turns, ∀ k, t.operation ≠ .startSession k) :
    let st := (founded managers).after turns
    let given := (founded managers).givenIn turns
    (∀ k s, st.session? k = some s → (s.columns, s.rows) = (s.master.map fun m => lastSize given m.handle).getD (0, 0)) ∧
    (∀ i j s s' m m', st.session? i = some s → st.session? j = some s' → s.master = some m → s'.master = some m' →
      m.handle = m'.handle → i = j) ∧
    ∀ (c : Circumstances) op target columns rows, Sizes st columns rows op target →
      (∀ f ∈ c.faults.resizing, f.isSystem = true) →
        ResizeEnds st c.faults.resizing columns rows target (st.turn ⟨c, op⟩).1 (st.deed ⟨c, op⟩).events
          (st.turn ⟨c, op⟩).2.session? := by
  intro st given
  have hnumbered := (numbered_founded managers).after turns
  have hmanned := (manned_founded managers).after turns
  have hled := (led_founded managers).after (manned_founded managers) hturns
  have hmirrors : st.Mirrors given := (mirrors_founded managers).after (numbered_founded managers) hturns
  refine ⟨fun k s hs => ?_, fun i j s s' m m' hs hs' hm hm' hhandle => ?_, fun c op target columns rows hop hfaults =>
    turn_resizeEnds hled hmanned hnumbered hop hfaults⟩
  · have hsize := hmirrors.mirror.sizes s.pane (List.mem_of_getElem? (getElem?_panes_of_session hs))
    rw [Session.pane, Option.map_map] at hsize
    exact hsize
  · refine hmirrors.mirror.apart (n := m.handle) (getElem?_panes_of_session hs) (getElem?_panes_of_session hs') ?_ ?_
    · rw [Session.pane, hm]
      rfl
    · rw [Session.pane, hm', hhandle]
      rfl

/-- A host that has a fault ready for a size. -/
def jammed : Circumstances where
  faults := { resizing := some ⟨.system, "Inappropriate ioctl for device"⟩ }
  database := fun _ => Identity.Tables.database {}

theorem replaced_session_keeps_size :
    let turns : List Turn := [untroubled (.start 0 false ""), untroubled (.resize 0 80 24), ⟨jammed, .resize 0 132 50⟩,
      untroubled (.start 0 false "")]
    let st := (founded [{ database := Identity.Tables.database {} }]).after turns
    (∃ s, st.session? 0 = some s ∧ s.status = .closed ∧ (s.columns, s.rows) = (80, 24)) ∧
      (∃ s, st.session? 1 = some s ∧ s.status = .active ∧ (s.columns, s.rows) = (0, 0)) ∧
      ResizeEnds st jammed.faults.resizing 100 30 (some 1) (st.turn ⟨jammed, .resize 0 100 30⟩).1
        (st.deed ⟨jammed, .resize 0 100 30⟩).events (st.turn ⟨jammed, .resize 0 100 30⟩).2.session? := by
  intro turns st
  obtain ⟨hsizes, -, hresize⟩ := windows_mirror_terminals [{ database := Identity.Tables.database {} }] turns (by
    intro t ht
    simp only [turns, List.mem_cons, List.not_mem_nil, or_false] at ht
    rcases ht with rfl | rfl | rfl | rfl <;> exact nofun)
  have hcurrent : st.current? 0 = some 1 := by decide +kernel
  refine ⟨⟨_, rfl, rfl, hsizes 0 _ rfl⟩, ⟨_, rfl, rfl, hsizes 1 _ rfl⟩, ?_⟩
  rw [← hcurrent]
  refine hresize jammed _ _ 100 30 (.manager 0) ?_
  rintro f ⟨⟩
  rfl

end Store

end Teletype
