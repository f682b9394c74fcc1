import Teletype.Proofs.Session.FailedSpawn

/-! # The life of a session

A session is pending until it is started, active until its master is closed, and closed from then on. Whatever is done
with it keeps to this course, but for one thing: a start does not ask what the session has come to. It succeeds whenever
the host opens a terminal and spawns a child. So it brings back a session that was closed, and gives one that is active
another master and another child; the master that this had before is never closed. -/

namespace Teletype

/-! ### The course of a life -/

/-- How far a session has come. -/
def Status.stage : Status → Nat
  | .pending => 0
  | .active => 1
  | .closed => 2

theorem Status.stage_eq_zero {status : Status} : status.stage = 0 ↔ status = .pending := by
  cases status <;> simp [stage]

namespace Session

/-- A session and what it is later: it has not gone back, and once started it has kept its master and its child. -/
structure Ages (s s' : Session) : Prop where
  stage : s.status.stage ≤ s'.status.stage
  keeps : s.status ≠ .pending → s'.child = s.child ∧ s'.master.map (·.handle) = s.master.map (·.handle)

/-- What becomes of a session that is not started: it may get another size, and its master may be closed, which the
    journal tells. -/
inductive Fares (journal : List Event) (s : Session) : Session → Prop
  | kept (columns rows : Int) : Fares journal s { s with columns, rows }
  | shut (columns rows : Int) (m : Master) (hm : s.master = some m) (hopen : m.isOpen = true)
      (hclosing : m.handle ∈ closings journal) : Fares journal s { s.shut m with columns, rows }

/-- A session has what its status says. -/
inductive Coherent (s : Session) : Prop
  | pending (hstatus : s.status = .pending) (hm : s.master = none)
  | active (hstatus : s.status = .active) (m : Master) (hm : s.master = some m) (hopen : m.isOpen = true)
      (hchild : s.child.isSome = true)
  | closed (hstatus : s.status = .closed) (m : Master) (hm : s.master = some m) (hopen : m.isOpen = false)
      (hchild : s.child.isSome = true)

section
variable {s s' s'' : Session} {m : Master} {journal journal' : List Event}

theorem Ages.refl (s : Session) : Ages s s := ⟨Nat.le_refl _, fun _ => ⟨rfl, rfl⟩⟩

theorem Ages.trans (h₁ : Ages s s') (h₂ : Ages s' s'') : Ages s s'' where
  stage := Nat.le_trans h₁.stage h₂.stage
  keeps := by
    intro hs
    have hs' : s'.status ≠ .pending := fun hpending =>
      hs (Status.stage_eq_zero.mp (Nat.le_zero.mp (Status.stage_eq_zero.mpr hpending ▸ h₁.stage)))
    exact ⟨(h₂.keeps hs').1.trans (h₁.keeps hs).1, (h₂.keeps hs').2.trans (h₁.keeps hs).2⟩

theorem Fares.mono (hle : closings journal ⊆ closings journal') (h : s.Fares journal s') : s.Fares journal' s' := by
  cases h with
  | kept columns rows => exact .kept columns rows
  | shut columns rows m hm hopen hclosing => exact .shut columns rows m hm hopen (hle hclosing)

theorem Fares.resized (h : s.Fares journal s') (fault : Option Fault) (columns rows : Int) :
    s.Fares journal (Store.resized s' fault columns rows) := by
  unfold Store.resized
  split
  · cases h with
    | kept => exact .kept columns rows
    | shut _ _ m hm hopen hclosing => exact .shut columns rows m hm hopen hclosing
  · exact h

theorem Fares.closed (h : s.Fares journal s') (hm : s'.master = some m) (hopen : m.isOpen = true)
    (hclosing : m.handle ∈ closings journal') : s.Fares journal' (s'.shut m) := by
  cases h with
  | kept columns rows => exact .shut columns rows m hm hopen hclosing
  | shut columns rows m' _ _ _ =>
    -- A master that is closed is not closed again.
    cases hm
    cases hopen

theorem Fares.ages (h : s.Fares journal s') (hs : s.Coherent) : s.Ages s' ∧ s'.status.stage ≤ s.status.stage + 1 := by
  cases h with
  | kept => exact ⟨⟨Nat.le_refl _, fun _ => ⟨rfl, rfl⟩⟩, Nat.le_succ _⟩
  | shut columns rows m hm hopen =>
    cases hs with
    | pending hstatus hnone =>
      rw [hnone] at hm
      cases hm
    | active hstatus =>
      refine ⟨⟨?_, fun _ => ⟨rfl, ?_⟩⟩, ?_⟩
      · rw [hstatus]
        exact Nat.le_succ 1
      · rw [hm]
        rfl
      · rw [hstatus]
        exact Nat.le_refl 2
    | closed hstatus m' hm' hclosed =>
      rw [hm'] at hm
      cases hm
      rw [hclosed] at hopen
      cases hopen

/-- An open master stays the session's own until it is closed. -/
theorem Fares.openMaster (h : s.Fares journal s') : ∀ n ∈ s.openMaster?, n ∈ s'.openMaster? ∨ n ∈ closings journal := by
  intro n hn
  cases h with
  | kept => exact Or.inl hn
  | shut columns rows m hm hopen hclosing =>
    obtain ⟨m', hm', -, rfl⟩ := openMaster?_eq_some.mp hn
    rw [hm] at hm'
    cases hm'
    exact Or.inr hclosing

theorem Coherent.fares (hs : s.Coherent) (h : s.Fares journal s') : s'.Coherent := by
  cases h with
  | kept columns rows =>
    cases hs with
    | pending hstatus hm => exact .pending hstatus hm
    | active hstatus m hm hopen hchild => exact .active hstatus m hm hopen hchild
    | closed hstatus m hm hopen hchild => exact .closed hstatus m hm hopen hchild
  | shut columns rows m hm hopen =>
    cases hs with
    | pending hstatus hnone =>
      rw [hnone] at hm
      cases hm
    | active _ _ _ _ hchild | closed _ _ _ _ hchild => exact .closed rfl _ rfl rfl hchild

theorem Coherent.isOpen_of_pending (hs : s.Coherent) (hpending : s.status = .pending) : s.isOpen = false := by
  cases hs with
  | pending _ hm =>
    rw [isOpen, hm]
    rfl
  | active hstatus | closed hstatus =>
    rw [hpending] at hstatus
    cases hstatus

/-- A start leaves the children to which it gave numbers before, and gives its own the next one. -/
theorem Starts.child {h h' : Host} {r : Except Failure Device} (hstarts : Starts s h (r, s', h')) :
    h.spawned ≤ h'.spawned ∧ (s' = s ∨ s' = s.connected h ∧ h'.spawned = h.spawned + 1) := by
  cases hstarts with
  | unopened | refused | broken => exact ⟨Nat.le_refl _, Or.inl rfl⟩
  | connected => exact ⟨Nat.le_succ _, Or.inr ⟨rfl, rfl⟩⟩

end

end Session

namespace Store

/-- The session of an index. -/
def session? (st : Store) (k : Nat) : Option Session := (st.entry? k).map (·.session)

/-- Every session has what its status says, and its child is one that the host has spawned. -/
structure Manned (st : Store) : Prop where
  coherent : ∀ e ∈ st.entries, e.session.Coherent
  children : ∀ e ∈ st.entries, ∀ c ∈ e.session.child, ∃ n < st.host.spawned, c = Host.childId n

section
variable {st st' : Store} {k : Nat} {e e' : Entry} {s : Session} {h : Host}

theorem session?_of_entry (he : st.entry? k = some e) : st.session? k = some e.session := by
  rw [session?, he]
  rfl

theorem session?_congr (hentry : st'.entry? k = st.entry? k) : st'.session? k = st.session? k := by
  rw [session?, hentry, session?]

theorem session?_eq_some : st.session? k = some s ↔ ∃ e, st.entry? k = some e ∧ e.session = s := Option.map_eq_some_iff

theorem closings_subset (h : Grows st st') : closings st.host.journal ⊆ closings st'.host.journal := by
  obtain ⟨events, hjournal⟩ := h.journal
  rw [← hjournal, closings_append]
  exact List.subset_append_left _ _

/-! ### What every session has -/

theorem manned_founded (managers : List Manager) : (founded managers).Manned :=
  ⟨fun _ h => absurd h List.not_mem_nil, fun _ h => absurd h List.not_mem_nil⟩

theorem Manned.setEntry (hst : st.Manned) (hspawned : st.host.spawned ≤ h.spawned) (hcoherent : e'.session.Coherent)
    (hchild : ∀ c ∈ e'.session.child, ∃ n < h.spawned, c = Host.childId n) : ((st.withHost h).setEntry k e').Manned where
  coherent := by
    intro x hx
    rcases List.mem_or_eq_of_mem_set hx with hx | rfl
    · exact hst.coherent x hx
    · exact hcoherent
  children := by
    intro x hx c hc
    rcases List.mem_or_eq_of_mem_set hx with hx | rfl
    · obtain ⟨n, hlt, hn⟩ := hst.children x hx c hc
      exact ⟨n, Nat.lt_of_lt_of_le hlt hspawned, hn⟩
    · exact hchild c hc

theorem resize_spawned (h : Host) (handle : Nat) (columns rows : Int) : (h.resize handle columns rows).2.spawned = h.spawned := by
  unfold Host.resize
  dsimp only
  split <;> rfl

theorem Move.manned {op : Operation} (hmove : Move op st st') (hst : st.Manned) : st'.Manned := by
  cases hmove with
  | told | inquired | appointed | passed => exact ⟨hst.coherent, hst.children⟩
  | joined hop command environment credential =>
    refine ⟨fun x hx => ?_, fun x hx c hc => ?_⟩
    · rcases List.mem_append.mp hx with hx | hx
      · exact hst.coherent x hx
      · obtain rfl := List.mem_singleton.mp hx
        exact .pending rfl rfl
    · rcases List.mem_append.mp hx with hx | hx
      · exact hst.children x hx c hc
      · obtain rfl := List.mem_singleton.mp hx
        cases hc
  | started hop k e he hpending r s h hstarts terminal =>
    have hmem := mem_of_entry he
    obtain ⟨hle, rfl | ⟨rfl, hspawned⟩⟩ := hstarts.child
    · refine hst.setEntry hle (hst.coherent e hmem) fun c hc => ?_
      obtain ⟨n, hlt, hn⟩ := hst.children e hmem c hc
      exact ⟨n, Nat.lt_of_lt_of_le hlt hle, hn⟩
    · refine hst.setEntry hle (.active rfl _ rfl rfl rfl) ?_
      rintro _ ⟨⟩
      exact ⟨st.host.spawned, hspawned ▸ Nat.lt_succ_self _, rfl⟩
  | closed k e m he hm hopen =>
    have hclosed : e.session.Fares (st.host.note (.closingMaster m.handle)).journal (e.session.shut m) := by
      refine .shut e.session.columns e.session.rows m hm hopen ?_
      exact List.mem_flatMap.mpr ⟨_, List.mem_append_right _ (List.mem_singleton_self _), List.mem_singleton_self _⟩
    exact hst.setEntry (Nat.le_refl _) ((hst.coherent e (mem_of_entry he)).fares hclosed) (hst.children e (mem_of_entry he))
  | resized k e m columns rows he hactive hm =>
    have hkept : e.session.Fares [] e.session := .kept e.session.columns e.session.rows
    have hfares := hkept.resized (st.host.resize m.handle columns rows).1 columns rows
    have hspawned := resize_spawned st.host m.handle columns rows
    refine hst.setEntry (Nat.le_of_eq hspawned.symm) ((hst.coherent e (mem_of_entry he)).fares hfares) ?_
    rw [hspawned]
    unfold Store.resized
    split <;> exact hst.children e (mem_of_entry he)
  | used k e he terminal written =>
    exact hst.setEntry (h := st.host) (Nat.le_refl _) (hst.coherent e (mem_of_entry he)) (hst.children e (mem_of_entry he))

theorem Manned.turn (hst : st.Manned) (t : Turn) : (st.turn t).2.Manned :=
  (perform_moves _ t.operation).keep Move.manned ⟨hst.coherent, hst.children⟩

theorem Manned.after (hst : st.Manned) (turns : List Turn) : (st.after turns).Manned := by
  induction turns generalizing st with
  | nil => exact hst
  | cons t turns ih => exact ih (hst.turn t)

/-! ### What an operation does with a session -/

/-- The session of this index is what this one has become without being started. -/
def Carries (st : Store) (k : Nat) (s : Session) : Prop := ∃ s', st.session? k = some s' ∧ s.Fares st.host.journal s'

theorem carries_of_entry (hs : st.session? k = some s) (hentry : st'.entry? k = st.entry? k) : st'.Carries k s :=
  ⟨s, (session?_congr hentry).trans hs, .kept s.columns s.rows⟩

theorem Carries.congr (hc : st.Carries k s) (hentry : st'.entry? k = st.entry? k) (hgrows : Grows st st') : st'.Carries k s := by
  obtain ⟨s', hs', hfares⟩ := hc
  exact ⟨s', (session?_congr hentry).trans hs', hfares.mono (closings_subset hgrows)⟩

theorem Carries.setEntry (hc : st.Carries k s) {j : Nat} (he : st.entry? j = some e) (hgrows : Grows st ((st.withHost h).setEntry j e'))
    (hfares : s.Fares st.host.journal e.session → s.Fares h.journal e'.session) :
    ((st.withHost h).setEntry j e').Carries k s := by
  have hentry := entry_setEntry he h e' k
  by_cases hjk : j = k
  · subst hjk
    rw [if_pos rfl] at hentry
    obtain ⟨s', hs', hkept⟩ := hc
    rw [session?_of_entry he] at hs'
    cases hs'
    exact ⟨e'.session, session?_of_entry hentry, hfares hkept⟩
  · rw [if_neg hjk] at hentry
    exact hc.congr hentry hgrows

/-- Operations that are not there to start a session leave each to what it is, or close it. -/
theorem Move.carries {op : Operation} (hop : op.makesSession = false) (hmove : Move op st st') (hc : st.Carries k s) :
    st'.Carries k s := by
  have hgrows := hmove.grows
  cases hmove with
  | joined hmakes | appointed hmakes | started hmakes =>
    rw [hop] at hmakes
    cases hmakes
  | told | inquired | passed => exact hc.congr rfl hgrows
  | closed j e m he hm hopen =>
    refine hc.setEntry he hgrows fun hfares => hfares.closed hm hopen ?_
    exact List.mem_flatMap.mpr ⟨_, List.mem_append_right _ (List.mem_singleton_self _), List.mem_singleton_self _⟩
  | resized j e m columns rows he hactive hm =>
    exact hc.setEntry he hgrows fun hfares => (hfares.mono (closings_subset hgrows)).resized _ columns rows
  | used j e he terminal written => exact hc.setEntry he hgrows fun hfares => hfares

theorem Moves.carries {op : Operation} (hop : op.makesSession = false) (hmoves : Moves op st st') (hc : st.Carries k s) :
    st'.Carries k s := hmoves.keep (fun hmove => hmove.carries hop) hc

theorem carries_of_append (hs : st.session? k = some s) (hentries : st'.entries = st.entries ++ [e]) : st'.Carries k s := by
  obtain ⟨x, hx, -⟩ := session?_eq_some.mp hs
  have hlt : k < st.entries.length := (List.getElem?_eq_some_iff.mp hx).1
  refine carries_of_entry hs ?_
  rw [entry_of_append hentries, if_neg (Nat.ne_of_lt hlt)]

/-- A manager that starts a session does nothing to another but to close it. -/
theorem carries_start (hs : st.session? k = some s) (m : Nat) (restricted : Bool) (command : String) :
    (st.start m restricted command).2.Carries k s := by
  cases hm : st.manager? m with
  | none =>
    unfold start
    rw [hm]
    exact carries_of_entry hs rfl
  | some manager =>
    have hbegins := start_begins hm restricted command
    generalize st.start m restricted command = result at hbegins
    cases hbegins with
    | unresolved | homeless => exact carries_of_entry hs rfl
    | unstarted => exact carries_of_append hs rfl
    | started credential environment device s' h r st' hgranted henvironment hstarts hreplaced =>
      have hmoves : Moves (.stop m) _ _ := moves_closeReplaced (((st.inquired manager restricted).joined
        ⟨s', .begin device st.now, []⟩ h).appoint m manager st.entries.length) manager.current
      rw [hreplaced] at hmoves
      exact hmoves.carries rfl (carries_of_append hs rfl)

/-- A start of a session fails and leaves it as it is, or succeeds because the host has no fault for it. -/
theorem startSession_session (hs : st.session? k = some s) :
    (∃ f, (st.startSession k).1 = .error f) ∧ (st.startSession k).2.session? k = some s ∧
        (st.host.nextFaults.opening.isSome = true ∨ st.host.nextFaults.spawning.isSome = true) ∨
      (st.startSession k).1 = .ok () ∧ (st.startSession k).2.session? k = some (s.connected st.host) ∧
        (st.startSession k).2.host.journal = st.host.journal ++ s.attempt (Host.masterHandle st.host.opened) ∧
        st.host.nextFaults.opening = none ∧ st.host.nextFaults.spawning = none := by
  obtain ⟨e, he, rfl⟩ := session?_eq_some.mp hs
  have hset (s : Session) (h : Host) (terminal : Terminal) :
      ((st.withHost h).setEntry k { e with session := s, terminal }).session? k = some s :=
    session?_of_entry ((entry_setEntry he h _ k).trans (if_pos rfl))
  have hstarts := e.session.start_starts st.host
  unfold startSession
  rw [he]
  dsimp only
  generalize e.session.start st.host = started at hstarts
  cases hstarts with
  | unopened f hopening => exact Or.inl ⟨⟨_, rfl⟩, hset _ _ _, Or.inl (by rw [hopening]; rfl)⟩
  | refused f hopening hspawning | broken f hopening hspawning =>
    exact Or.inl ⟨⟨_, rfl⟩, hset _ _ _, Or.inr (by rw [hspawning]; rfl)⟩
  | connected hopening hspawning => exact Or.inr ⟨rfl, hset _ _ _, rfl, hopening, hspawning⟩

theorem startSession_entry {j : Nat} (hjk : j ≠ k) : Store.entry? (st.startSession j).2 k = st.entry? k := by
  unfold startSession
  split
  · rfl
  · next e he =>
    split <;> exact (entry_setEntry he _ _ k).trans (if_neg hjk)

/-- Whatever is done, a session is left as it is or closed, unless it is started with success. -/
theorem perform_session (hs : st.session? k = some s) (op : Operation) : (st.perform op).2.Carries k s ∨
    op = .startSession k ∧ (st.perform op).1 = .ok .nothing ∧ (st.perform op).2.session? k = some (s.connected st.host) := by
  cases hop : op.makesSession with
  | false => exact Or.inl ((perform_moves st op).carries hop (carries_of_entry hs rfl))
  | true =>
    cases op with
    | create command environment => exact Or.inl (carries_of_append hs rfl)
    | start m restricted command => exact Or.inl (carries_start hs m restricted command)
    | startSession j =>
      by_cases hjk : j = k
      · subst hjk
        rcases startSession_session hs with ⟨-, hsame, -⟩ | ⟨hok, hconnected, -⟩
        · exact Or.inl ⟨s, hsame, .kept s.columns s.rows⟩
        · refine Or.inr ⟨rfl, ?_, hconnected⟩
          show (st.startSession j).1.map _ = _
          rw [hok]
          rfl
      · exact Or.inl (carries_of_entry hs (startSession_entry hjk))
    | _ => cases hop

/-! ### What a turn does with a session -/

/-- The turn starts the session of this index, with success, although that was started before. -/
def Restarts (k : Nat) (st : Store) (t : Turn) : Prop :=
  t.operation = .startSession k ∧ (st.turn t).1 = .ok .nothing ∧ ∃ s, st.session? k = some s ∧ s.status ≠ .pending

/-- In this turn the session of this index goes on with its life, by one stage at most. -/
def GoesOn (k : Nat) (st : Store) (t : Turn) : Prop :=
  ∃ s s', st.session? k = some s ∧ (st.turn t).2.session? k = some s' ∧ s.Ages s' ∧ s'.status.stage ≤ s.status.stage + 1

theorem coherent_of_session (hst : st.Manned) (hs : st.session? k = some s) : s.Coherent := by
  obtain ⟨e, he, rfl⟩ := session?_eq_some.mp hs
  exact hst.coherent e (mem_of_entry he)

/-- The terminal and the child that a session gets by a start are none that it had. -/
theorem connected_ne (hn : st.Numbered) (hst : st.Manned) (hs : st.session? k = some s) (c : Circumstances) :
    (s.connected (st.under c).host).child ≠ s.child ∧
      (s.connected (st.under c).host).master.map (·.handle) ≠ s.master.map (·.handle) := by
  obtain ⟨e, he, rfl⟩ := session?_eq_some.mp hs
  refine ⟨fun hchild => ?_, fun hhandle => ?_⟩
  · obtain ⟨n, hlt, hn⟩ := hst.children e (mem_of_entry he) _ hchild.symm
    have hnext : Host.childId (st.under c).host.spawned = Host.childId n := hn
    exact Nat.ne_of_gt hlt (Nat.add_left_cancel hnext)
  · obtain ⟨m, hm, hmaster⟩ := Option.map_eq_some_iff.mp hhandle.symm
    obtain ⟨n, hlt, hn⟩ := hn.masters e (mem_of_entry he) m hm
    have hnext : Host.masterHandle st.host.opened = Host.masterHandle n := hmaster.symm.trans hn
    unfold Host.masterHandle at hnext
    omega

/-- A restart goes as any start does: what the session has come to makes no difference. -/
theorem Restarts.connects {t : Turn} (h : Restarts k st t) (hs : st.session? k = some s) :
    (st.turn t).2.session? k = some (s.connected (st.under t.circumstances).host) ∧
      (st.turn t).2.host.journal = st.host.journal ++ s.attempt (Host.masterHandle st.host.opened) ∧
      ∀ j, j ≠ k → Store.entry? (st.turn t).2 j = st.entry? j := by
  obtain ⟨hop, hok, -⟩ := h
  have hunder : (st.under t.circumstances).session? k = some s := hs
  have hturn : st.turn t = done ((st.under t.circumstances).startSession k) := by
    rw [turn, hop]
    rfl
  rw [hturn] at hok ⊢
  rcases startSession_session hunder with ⟨⟨f, hf⟩, -⟩ | ⟨-, hconnected, hjournal, -⟩
  · have herror : (done ((st.under t.circumstances).startSession k)).1 = .error f := congrArg (Except.map fun _ => Reply.nothing) hf
    rw [herror] at hok
    cases hok
  · exact ⟨hconnected, hjournal, fun j hj => startSession_entry hj.symm⟩

/-- A turn that is no restart takes a session on by one stage at most, and an open master stays its own or is closed. -/
theorem turn_ages {t : Turn} (hst : st.Manned) (hs : st.session? k = some s) (hno : ¬Restarts k st t) :
    ∃ s', (st.turn t).2.session? k = some s' ∧ s.Ages s' ∧ s'.status.stage ≤ s.status.stage + 1 ∧
      ∀ n ∈ s.openMaster?, n ∈ s'.openMaster? ∨ n ∈ closings (st.turn t).2.host.journal := by
  have hcoherent := coherent_of_session hst hs
  have hunder : (st.under t.circumstances).session? k = some s := hs
  rcases perform_session hunder t.operation with ⟨s', hs', hfares⟩ | ⟨hop, hok, hconnected⟩
  · exact ⟨s', hs', (hfares.ages hcoherent).1, (hfares.ages hcoherent).2, hfares.openMaster⟩
  · have hpending : s.status = .pending := by
      by_contra hstarted
      exact hno ⟨hop, hok, s, hs, hstarted⟩
    refine ⟨_, hconnected, ⟨?_, fun hstarted => absurd hpending hstarted⟩, ?_, fun n hn => ?_⟩
    · rw [hpending]
      exact Nat.zero_le _
    · rw [hpending]
      exact Nat.le_refl 1
    · rw [Session.openMaster?_eq_none (hcoherent.isOpen_of_pending hpending)] at hn
      cases hn

/-- A session goes on with its life in every turn but those that restart it. -/
theorem goesOn_iff (hn : st.Numbered) (hst : st.Manned) (hs : st.session? k = some s) (t : Turn) :
    GoesOn k st t ↔ ¬Restarts k st t := by
  constructor
  · rintro ⟨x, s', hx, hs', hages, -⟩ hrestarts
    obtain ⟨hconnected, -⟩ := hrestarts.connects hs
    obtain ⟨-, -, y, hy, hstarted⟩ := hrestarts
    rw [hs] at hx hy
    cases hx
    cases hy
    rw [hconnected] at hs'
    cases hs'
    exact (connected_ne hn hst hs t.circumstances).1 (hages.keeps hstarted).1
  · intro hno
    obtain ⟨s', hs', hages, hstage, -⟩ := turn_ages hst hs hno
    exact ⟨s, s', hs, hs', hages, hstage⟩

/-- A restart gives the session another master and another child, and nobody closes an open master that it had. -/
theorem Restarts.loses {t : Turn} (h : Restarts k st t) (ha : st.Apart) (hst : st.Manned) (hs : st.session? k = some s) :
    ∃ s', (st.turn t).2.session? k = some s' ∧ s'.status = .active ∧ s'.child ≠ s.child ∧
      s'.master.map (·.handle) ≠ s.master.map (·.handle) ∧ ∀ n ∈ s.openMaster?, (st.turn t).2.Lost n := by
  obtain ⟨hconnected, hjournal, hothers⟩ := h.connects hs
  obtain ⟨hchild, hhandle⟩ := connected_ne ha.numbered hst hs t.circumstances
  refine ⟨_, hconnected, rfl, hchild, hhandle, fun n hn => ?_⟩
  obtain ⟨e, he, rfl⟩ := session?_eq_some.mp hs
  have hmaster : n ∈ st.openMaster? k := by rwa [openMaster?_of_entry he]
  have hheld : IsHeld st.host.journal n := ha.keeps.held (Sum.inl k) n hmaster
  have hbelow := ha.numbered.issued.below n hheld.1
  refine ⟨⟨?_, ?_⟩, fun j hj => ?_⟩
  · rw [hjournal, handedOut_append]
    exact List.mem_append_left _ hheld.1
  · rw [hjournal, closings_append, List.mem_append]
    rintro (hclosed | hclosed)
    · exact hheld.2 hclosed
    · obtain rfl : n = Host.subordinateOf (Host.masterHandle st.host.opened) := by
        simpa [closings, Session.attempt, Event.closings] using hclosed
      exact Nat.lt_asymm hbelow (Nat.lt_succ_self _)
  · by_cases hjk : j = k
    · subst hjk
      obtain ⟨e', he', hsame⟩ := session?_eq_some.mp hconnected
      rw [openMaster?_of_entry he', hsame] at hj
      exact Nat.ne_of_lt hbelow (Option.some.inj hj).symm
    · rw [openMaster?_congr (hothers j hjk)] at hj
      exact hjk (Sum.inl.inj (ha.keeps.apart (Sum.inl j) (Sum.inl k) n hj hmaster))

/-! ### Runs -/

/-- This holds of every turn of a run, in the store as it is then. -/
def Throughout (p : Store → Turn → Prop) : Store → List Turn → Prop
  | _, [] => True
  | st, t :: turns => p st t ∧ Throughout p (st.turn t).2 turns

/-- A session goes on with its life through a run as long as no turn restarts it. -/
theorem throughout_goesOn_iff (hn : st.Numbered) (hst : st.Manned) (hs : st.session? k = some s) (turns : List Turn) :
    Throughout (GoesOn k) st turns ↔ Throughout (fun st t => ¬Restarts k st t) st turns := by
  induction turns generalizing st s with
  | nil => exact Iff.rfl
  | cons t turns ih =>
    have hfirst := goesOn_iff hn hst hs t
    constructor
    · rintro ⟨hgoes, hrest⟩
      have hno := hfirst.mp hgoes
      obtain ⟨s', hs', -⟩ := turn_ages hst hs hno
      exact ⟨hno, (ih (hn.turn t) (hst.turn t) hs').mp hrest⟩
    · rintro ⟨hno, hrest⟩
      obtain ⟨s', hs', -⟩ := turn_ages hst hs hno
      exact ⟨hfirst.mpr hno, (ih (hn.turn t) (hst.turn t) hs').mpr hrest⟩

theorem after_ages {turns : List Turn} (hst : st.Manned) (hs : st.session? k = some s)
    (hno : Throughout (fun st t => ¬Restarts k st t) st turns) :
    ∃ s', (st.after turns).session? k = some s' ∧ s.Ages s' ∧
      ∀ n ∈ s.openMaster?, n ∈ s'.openMaster? ∨ n ∈ closings (st.after turns).host.journal := by
  induction turns generalizing st s with
  | nil => exact ⟨s, hs, .refl s, fun n hn => Or.inl hn⟩
  | cons t turns ih =>
    obtain ⟨hfirst, hrest⟩ := hno
    obtain ⟨s', hs', hages, -, hmaster⟩ := turn_ages hst hs hfirst
    obtain ⟨s'', hs'', hages', hmaster'⟩ := ih (hst.turn t) hs' hrest
    refine ⟨s'', hs'', hages.trans hages', fun n hn => ?_⟩
    rcases hmaster n hn with hopen | hclosed
    · exact hmaster' n hopen
    · exact Or.inr (closings_subset (after_grows _ turns) hclosed)

end

/-- Whatever has been done before: as long as a session is not restarted, its life goes on from one stage to the next, it
    keeps its master and its child from its start on, and an open master is its own until it is closed. But a start does
    not ask whether the session has been started: it succeeds if the host opens a terminal and spawns a child. A restart
    makes the session active with another master and another child, and an open master that it had before is held by
    nobody and never closed. -/
theorem restarts_break_the_life_of_a_session (managers : List Manager) (turns : List Turn) (k : Nat) (s : Session)
    (hs : ((founded managers).after turns).session? k = some s) :
    let st := (founded managers).after turns
    (∀ more, Throughout (GoesOn k) st more ↔ Throughout (fun st t => ¬Restarts k st t) st more) ∧
    (∀ more, Throughout (GoesOn k) st more → ∃ s', (st.after more).session? k = some s' ∧ s.Ages s' ∧
      ∀ n ∈ s.openMaster?, n ∈ s'.openMaster? ∨ n ∈ closings (st.after more).host.journal) ∧
    (∀ c, (st.turn ⟨c, .startSession k⟩).1 = .ok .nothing ↔
      (st.under c).host.nextFaults.opening = none ∧ (st.under c).host.nextFaults.spawning = none) ∧
    ∀ t, Restarts k st t → ∃ s', (st.turn t).2.session? k = some s' ∧ s'.status = .active ∧ s'.child ≠ s.child ∧
      s'.master.map (·.handle) ≠ s.master.map (·.handle) ∧
      ∀ n ∈ s.openMaster?, ∀ later, ((st.turn t).2.after later).Lost n := by
  intro st
  obtain ⟨-, hapart⟩ := (Owners.hold_founded managers).after (apart_founded managers) turns
  have hmanned : st.Manned := (manned_founded managers).after turns
  have hgoesOn (more : List Turn) := throughout_goesOn_iff hapart.numbered hmanned hs more
  refine ⟨hgoesOn, fun more hmore => after_ages hmanned hs ((hgoesOn more).mp hmore), fun c => ?_, fun t ht => ?_⟩
  · have hunder : (st.under c).session? k = some s := hs
    have hturn : (st.turn ⟨c, .startSession k⟩).1 = ((st.under c).startSession k).1.map fun _ => .nothing := rfl
    rw [hturn]
    rcases startSession_session hunder with ⟨⟨f, hf⟩, -, hfault⟩ | ⟨hok, -, -, hfaults⟩
    · rw [hf]
      constructor
      · rintro ⟨⟩
      · rintro ⟨hopening, hspawning⟩
        rw [hopening, hspawning] at hfault
        simp at hfault
    · rw [hok]
      exact ⟨fun _ => hfaults, fun _ => rfl⟩
  · obtain ⟨s', hs', hactive, hchild, hhandle, hlost⟩ := ht.loses hapart hmanned hs
    refine ⟨s', hs', hactive, hchild, hhandle, fun n hn later => ?_⟩
    exact (hlost n hn).after (hapart.turn t).lively (hapart.turn t).numbered later

/-- A turn in which nothing goes wrong. -/
def untroubled (op : Operation) : Turn := ⟨{ database := fun _ => Identity.Tables.database {} }, op⟩

theorem started_again_loses_master :
    let turns := [untroubled (.create ["sh"] []), untroubled (.startSession 0)]
    let st := (founded []).after turns
    ∃ s, st.session? 0 = some s ∧ s.status = .active ∧ s.openMaster? = some 100 ∧ s.child = some 4001 ∧
      ∃ s', (st.turn (untroubled (.startSession 0))).2.session? 0 = some s' ∧ s'.status = .active ∧ s'.child ≠ some 4001 ∧
        ∀ later, ((st.turn (untroubled (.startSession 0))).2.after later).Lost 100 := by
  intro turns st
  obtain ⟨-, -, -, hrestarts⟩ := restarts_break_the_life_of_a_session [] turns 0 _ rfl
  obtain ⟨s', hs', hactive, hchild, -, hlost⟩ := hrestarts (untroubled (.startSession 0)) ⟨rfl, rfl, _, rfl, nofun⟩
  exact ⟨_, rfl, rfl, rfl, rfl, s', hs', hactive, hchild, hlost 100 rfl⟩

end Store

end Teletype
