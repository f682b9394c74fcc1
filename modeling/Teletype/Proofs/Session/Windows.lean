import Teletype.Proofs.Session.Lifecycle

/-! # Sizes of windows

The host is asked for a size once, for the master of a session that is active, and only if rows and columns fit. The
session has the size from then on if the host had no fault for it. So what a session says of its window is at any time
what its terminal was given last, whatever else has become of it. -/

namespace Teletype

/-! ### Sizes that the host was asked for -/

/-- A size for the window of the terminal with this master. -/
structure Sizing where
  handle : Nat
  columns : Int
  rows : Int
  deriving DecidableEq, Repr

/-- The sizes that the host is asked for. -/
def Event.sizings : Event → List Sizing
  | .resizing handle columns rows => [⟨handle, columns, rows⟩]
  | _ => []

/-- All sizes asked for, in order. -/
def sizings (events : List Event) : List Sizing := events.flatMap Event.sizings

@[simp] theorem sizings_append (p q : List Event) : sizings (p ++ q) = sizings p ++ sizings q := List.flatMap_append

/-- The size that the window of a terminal was given last, in columns and rows. A new window has no size. -/
def lastSize (given : List Sizing) (handle : Nat) : Int × Int :=
  match given.reverse.find? (·.handle == handle) with
  | some z => (z.columns, z.rows)
  | none => (0, 0)

theorem lastSize_concat (given : List Sizing) (z : Sizing) (handle : Nat) :
    lastSize (given ++ [z]) handle = if z.handle = handle then (z.columns, z.rows) else lastSize given handle := by
  unfold lastSize
  rw [List.reverse_concat, List.find?_cons]
  by_cases hz : z.handle = handle
  · rw [if_pos hz, hz, beq_self_eq_true]
  · rw [if_neg hz, beq_false_of_ne hz]

theorem lastSize_of_forall_ne {given : List Sizing} {handle : Nat} (h : ∀ z ∈ given, z.handle ≠ handle) :
    lastSize given handle = (0, 0) := by
  have hnone : given.reverse.find? (·.handle == handle) = none :=
    List.find?_eq_none.mpr fun z hz => by simpa using h z (List.mem_reverse.mp hz)
  rw [lastSize, hnone]

/-! ### Windows of sessions -/

/-- What a session says of its window: the handle of its master, and the window's columns and rows. -/
structure Pane where
  handle : Option Nat := none
  columns : Int := 0
  rows : Int := 0
  deriving DecidableEq, Repr

def Session.pane (s : Session) : Pane := ⟨s.master.map (·.handle), s.columns, s.rows⟩

namespace Store

/-- What all sessions say of their windows. -/
def panes (st : Store) : List Pane := st.entries.map fun e => e.session.pane

/-- Neither has a session another window, nor was the host asked for a size. -/
structure Still (st st' : Store) : Prop where
  panes : st'.panes = st.panes
  sizings : sizings st'.host.journal = sizings st.host.journal

section
variable {st st' st'' : Store} {k : Nat} {e e' : Entry} {h : Host} {s : Session}

theorem Still.refl (st : Store) : Still st st := ⟨rfl, rfl⟩

theorem Still.trans (h₁ : Still st st') (h₂ : Still st' st'') : Still st st'' :=
  ⟨h₂.panes.trans h₁.panes, h₂.sizings.trans h₁.sizings⟩

theorem panes_setEntry (st : Store) (h : Host) (k : Nat) (e : Entry) :
    ((st.withHost h).setEntry k e).panes = st.panes.set k e.session.pane := List.map_set

theorem panes_joined (st : Store) (e : Entry) (h : Host) : (st.joined e h).panes = st.panes ++ [e.session.pane] :=
  List.map_append

theorem getElem?_panes (he : st.entry? k = some e) : st.panes[k]? = some e.session.pane := by
  have he : st.entries[k]? = some e := he
  rw [panes, List.getElem?_map, he]
  rfl

/-- An entry that keeps its window takes the place of another on a host that was asked for no size. -/
theorem Still.setEntry (he : st.entry? k = some e) (hpane : e'.session.pane = e.session.pane)
    (hsizings : Teletype.sizings h.journal = Teletype.sizings st.host.journal) :
    Still st ((st.withHost h).setEntry k e') where
  panes := by
    obtain ⟨hk, hkept⟩ := List.getElem?_eq_some_iff.mp (getElem?_panes he)
    rw [panes_setEntry, hpane, ← hkept, List.set_getElem_self]
  sizings := hsizings

theorem still_tell (st : Store) (n : Notice) : Still st (st.withHost (st.host.tell n)) :=
  ⟨rfl, (sizings_append _ _).trans (List.append_nil _)⟩

theorem still_inquired (st : Store) (manager : Manager) (restricted : Bool) : Still st (st.inquired manager restricted) := by
  refine ⟨rfl, ?_⟩
  have hnone (notices : List Notice) : sizings (notices.map Event.told) = [] := by
    rw [sizings, List.flatMap_map]
    exact List.flatMap_eq_nil_iff.mpr fun n _ => rfl
  show sizings (st.host.journal ++ _) = _
  rw [sizings_append, hnone, List.append_nil]

theorem still_closeSession (st : Store) (k : Nat) : Still st (st.closeSession k).2 := by
  cases he : st.entry? k with
  | none => rw [closeSession_of_none he]; exact .refl st
  | some e =>
    cases hopen : e.session.isOpen with
    | false => rw [closeSession_of_not_isOpen he hopen]; exact .refl st
    | true =>
      obtain ⟨m, hm, hmopen⟩ := Session.isOpen_iff.mp hopen
      rw [closeSession_of_open he hm hmopen]
      refine .setEntry he ?_ ((sizings_append _ _).trans (List.append_nil _))
      rw [Session.pane, Session.pane, hm]
      rfl

theorem still_closeReplaced (st : Store) (previous : Option Nat) : Still st (st.closeReplaced previous).2 := by
  unfold closeReplaced
  split
  · exact .refl st
  · next k s _ =>
    split
    · have hclose := (still_tell st (.replacing s.id)).trans (still_closeSession _ k)
      dsimp only
      split
      · next hclosed =>
        rw [hclosed] at hclose
        exact hclose.trans (still_tell _ _)
      · next hclosed =>
        rw [hclosed] at hclose
        exact hclose
      · next hclosed =>
        rw [hclosed] at hclose
        exact hclose
    · exact .refl st

theorem still_onTerminal (st : Store) (k : Nat) (f : Terminal → Terminal) : Still st (st.onTerminal k f) := by
  unfold onTerminal
  split
  · exact .refl st
  · next e he => exact Still.setEntry (h := st.host) he rfl rfl

theorem still_waitForExit (st : Store) (k : Nat) (span : Span) : Still st (st.waitForExit k span).2 := by
  unfold waitForExit
  split
  · exact .refl st
  · next e he =>
    split
    · have hentry : Still st ((st.withHost st.host).setEntry k
          { e with terminal := (e.terminal.waitForExit st.now span).2.1 }) :=
        .setEntry he rfl rfl
      exact ⟨hentry.panes, hentry.sizings⟩
    · exact .refl st

theorem still_observe (st : Store) (k : Nat) (f : Entry → Except Fault Reply) : Still st (st.observe k f).2 := by
  unfold observe
  split <;> exact .refl st

end

end Store

namespace Session

/-- A start asks for no size and leaves the window without one. A master that the session gets is that of the terminal
    opened next. -/
theorem Starts.pane {s s' : Session} {h h' : Host} {r : Except Failure Device} (hstarts : Starts s h (r, s', h')) :
    sizings h'.journal = sizings h.journal ∧ s'.columns = s.columns ∧ s'.rows = s.rows ∧
      (s'.master = s.master ∨ s'.master.map (·.handle) = some (Host.masterHandle h.opened)) := by
  have hquiet {events : List Event} (hnone : sizings events = []) : sizings (h.journal ++ events) = sizings h.journal := by
    rw [sizings_append, hnone, List.append_nil]
  cases hstarts with
  | unopened f hopening => exact ⟨hquiet (by split <;> rfl), rfl, rfl, Or.inl rfl⟩
  | refused f hopening hspawning hrefuses =>
    refine ⟨?_, rfl, rfl, Or.inl rfl⟩
    show sizings (h.journal ++ s.attempt (Host.masterHandle h.opened) ++ _) = _
    rw [List.append_assoc]
    exact hquiet rfl
  | broken f hopening hspawning hother => exact ⟨hquiet rfl, rfl, rfl, Or.inl rfl⟩
  | connected hopening hspawning => exact ⟨hquiet rfl, rfl, rfl, Or.inr rfl⟩

end Session

/-! ### Windows that mirror their terminals -/

/-- Every window has the size that its terminal was given last, and no two have a terminal in common. -/
structure Mirror (panes : List Pane) (given : List Sizing) : Prop where
  sizes : ∀ p ∈ panes, (p.columns, p.rows) = (p.handle.map (lastSize given)).getD (0, 0)
  apart : ∀ {i j : Nat} {p q : Pane} {n : Nat}, panes[i]? = some p → panes[j]? = some q → p.handle = some n →
    q.handle = some n → i = j

namespace Mirror
variable {panes : List Pane} {given : List Sizing}

/-- A window without a size joins, whose terminal is new if it has one. -/
theorem joined (h : Mirror panes given) {handle : Option Nat} (hpanes : ∀ n ∈ handle, ∀ p ∈ panes, p.handle ≠ some n)
    (hgiven : ∀ n ∈ handle, ∀ z ∈ given, z.handle ≠ n) : Mirror (panes ++ [⟨handle, 0, 0⟩]) given where
  sizes := by
    intro p hp
    rcases List.mem_append.mp hp with hp | hp
    · exact h.sizes p hp
    · obtain rfl := List.mem_singleton.mp hp
      cases hn : handle with
      | none => rfl
      | some n => exact (lastSize_of_forall_ne (hgiven n hn)).symm
  apart := by
    intro i j p q n hp hq hpn hqn
    -- Only the window at the end can have the new terminal.
    have hplace {i : Nat} {p : Pane} (hp : (panes ++ [⟨handle, 0, 0⟩])[i]? = some p) (hpn : p.handle = some n) :
        panes[i]? = some p ∧ handle ≠ some n ∨ i = panes.length ∧ handle = some n := by
      rw [List.getElem?_append] at hp
      split at hp
      · exact Or.inl ⟨hp, fun hn => hpanes n hn p (List.mem_of_getElem? hp) hpn⟩
      · next hge =>
        obtain ⟨hi, rfl⟩ := List.getElem?_eq_some_iff.mp hp
        have hi : i - panes.length < 1 := hi
        exact Or.inr ⟨by omega, by simpa using hpn⟩
    rcases hplace hp hpn with ⟨hp, hold⟩ | ⟨rfl, hnew⟩ <;> rcases hplace hq hqn with ⟨hq, hold'⟩ | ⟨rfl, hnew'⟩
    · exact h.apart hp hq hpn hqn
    · exact absurd hnew' hold
    · exact absurd hnew hold'
    · rfl

/-- A window has the size that its terminal is given. -/
theorem resized (h : Mirror panes given) {k : Nat} {p : Pane} {z : Sizing} (hp : panes[k]? = some p)
    (hz : p.handle = some z.handle) : Mirror (panes.set k ⟨z.handle, z.columns, z.rows⟩) (given ++ [z]) := by
  have hk : k < panes.length := (List.getElem?_eq_some_iff.mp hp).1
  have hplace {j : Nat} {q : Pane} (hq : (panes.set k ⟨z.handle, z.columns, z.rows⟩)[j]? = some q) :
      j = k ∧ q = ⟨z.handle, z.columns, z.rows⟩ ∨ j ≠ k ∧ panes[j]? = some q := by
    rw [List.getElem?_set, if_pos hk] at hq
    split at hq
    · next hkj => exact Or.inl ⟨hkj.symm, (Option.some.inj hq).symm⟩
    · next hkj => exact Or.inr ⟨fun hjk => hkj hjk.symm, hq⟩
  refine ⟨fun q hq => ?_, fun {i j q q' n} hq hq' hqn hqn' => ?_⟩
  · obtain ⟨j, hj⟩ := List.mem_iff_getElem?.mp hq
    rcases hplace hj with ⟨-, rfl⟩ | ⟨hjk, hq⟩
    · exact ((lastSize_concat given z z.handle).trans (if_pos rfl)).symm
    · rw [h.sizes q (List.mem_of_getElem? hq)]
      cases hqn : q.handle with
      | none => rfl
      | some n =>
        have hother : z.handle ≠ n := fun hzn => hjk (h.apart hq hp hqn (hzn ▸ hz))
        exact ((lastSize_concat given z n).trans (if_neg hother)).symm
  · -- The window that gets a size keeps its terminal.
    have hbefore {i : Nat} {q : Pane} (hq : (panes.set k ⟨z.handle, z.columns, z.rows⟩)[i]? = some q)
        (hqn : q.handle = some n) : ∃ q₀, panes[i]? = some q₀ ∧ q₀.handle = some n := by
      rcases hplace hq with ⟨rfl, rfl⟩ | ⟨-, hq⟩
      · exact ⟨p, hp, hz.trans hqn⟩
      · exact ⟨q, hq, hqn⟩
    obtain ⟨p₁, hp₁, hn₁⟩ := hbefore hq hqn
    obtain ⟨p₂, hp₂, hn₂⟩ := hbefore hq' hqn'
    exact h.apart hp₁ hp₂ hn₁ hn₂

end Mirror

/-! ### What a turn does to windows -/

/-- What becomes of the windows of all sessions, and the sizes that the host is asked for: there are none; there is one more
    window, without a size, of a session that has no master or that of the next terminal; the host has a fault for the one
    size; or the window of the session whose master it is for has that size. -/
inductive Reframes (h : Host) (panes : List Pane) : List Pane → List Sizing → Prop
  | kept : Reframes h panes panes []
  | joined (handle : Option Nat) (hhandle : ∀ n ∈ handle, n = Host.masterHandle h.opened) :
      Reframes h panes (panes ++ [⟨handle, 0, 0⟩]) []
  | refused (z : Sizing) (hfault : h.faults.resizing.isNone = false) : Reframes h panes panes [z]
  | resized (k : Nat) (p : Pane) (z : Sizing) (hp : panes[k]? = some p) (hz : p.handle = some z.handle)
      (hfault : h.faults.resizing.isNone = true) : Reframes h panes (panes.set k ⟨z.handle, z.columns, z.rows⟩) [z]

namespace Store

section
variable {st st' : Store} {op : Operation} {k : Nat} {e : Entry}

/-- The store comes from another by an operation that does this to windows. -/
def Reframed (st st' : Store) : Prop :=
  ∃ asked, sizings st'.host.journal = sizings st.host.journal ++ asked ∧ Reframes st.host st.panes st'.panes asked

theorem Still.reframed (h : Still st st') : Reframed st st' :=
  ⟨[], h.sizings.trans (List.append_nil _).symm, h.panes ▸ .kept⟩

theorem reframed_resizeSession (st : Store) (k : Nat) (columns rows : Int) :
    Reframed st (st.resizeSession k columns rows).2 := by
  cases he : st.entry? k with
  | none =>
    unfold resizeSession
    rw [he]
    exact (Still.refl st).reframed
  | some e =>
    have hresizes := e.session.resize_resizes st.host columns rows
    unfold resizeSession
    rw [he]
    dsimp only
    generalize e.session.resize st.host columns rows = result at hresizes
    cases hresizes with
    | inactive | misfit => exact (Still.setEntry he rfl rfl).reframed
    | refused m f hstatus hm hrows hcolumns hfault =>
      refine ⟨[⟨m.handle, columns, rows⟩], sizings_append _ _, ?_⟩
      have hsame : ((st.withHost st.host).setEntry k e).panes = st.panes := (Still.setEntry he rfl rfl).panes
      exact (panes_setEntry st _ k e).trans ((panes_setEntry st st.host k e).symm.trans hsame) ▸
        .refused _ (by rw [hfault]; rfl)
    | resized m hstatus hm hrows hcolumns hfault =>
      refine ⟨[⟨m.handle, columns, rows⟩], sizings_append _ _, ?_⟩
      have hp : e.session.pane.handle = some m.handle := by rw [Session.pane, hm]; rfl
      have hset := panes_setEntry st (st.host.note (.resizing m.handle columns rows)) k
        { e with session := { e.session with columns, rows } }
      have hpane : Session.pane { e.session with columns, rows } = ⟨m.handle, columns, rows⟩ := by rw [Session.pane, hm]; rfl
      rw [hpane] at hset
      exact hset ▸ .resized k e.session.pane ⟨m.handle, columns, rows⟩ (getElem?_panes he) hp (by rw [hfault]; rfl)

theorem reframed_start (st : Store) (m : Nat) (restricted : Bool) (command : String) :
    Reframed st (st.start m restricted command).2 := by
  cases hm : st.manager? m with
  | none =>
    unfold start
    rw [hm]
    exact (Still.refl st).reframed
  | some manager =>
    have hinquired := still_inquired st manager restricted
    -- The session that is made has no window before its start, and one without size after it.
    have hjoined {credential : Option Credential} {environment : Environment} {r : Except Failure Device} {s : Session}
        {h : Host} (terminal : Terminal)
        (hstarts : Session.Starts ((st.inquired manager restricted).fresh (Shell.argv manager.settings command)
          environment credential) (st.inquired manager restricted).host.name.2 (r, s, h)) :
        Reframed st ((st.inquired manager restricted).joined ⟨s, terminal, []⟩ h) := by
      obtain ⟨hsizings, hcolumns, hrows, hmaster⟩ := hstarts.pane
      refine ⟨[], (hsizings.trans hinquired.sizings).trans (List.append_nil _).symm, ?_⟩
      have hpane : s.pane = ⟨s.master.map (·.handle), 0, 0⟩ := by rw [Session.pane, hcolumns, hrows]; rfl
      rw [panes_joined, hpane, hinquired.panes]
      refine .joined _ ?_
      rcases hmaster with hmaster | hmaster
      · rw [hmaster]
        exact nofun
      · rw [hmaster]
        rintro _ ⟨⟩
        rfl
    have hbegins := start_begins hm restricted command
    generalize st.start m restricted command = result at hbegins
    cases hbegins with
    | unresolved f hgranted | homeless credential f hgranted henvironment => exact hinquired.reframed
    | unstarted credential environment f s h hgranted henvironment hstarts => exact hjoined {} hstarts
    | started credential environment device s h r st' hgranted henvironment hstarts hreplaced =>
      obtain ⟨asked, hsizings, hreframes⟩ := hjoined (.begin device st.now) hstarts
      have hclosed := still_closeReplaced (((st.inquired manager restricted).joined
        ⟨s, .begin device st.now, []⟩ h).appoint m manager st.entries.length) manager.current
      rw [hreplaced] at hclosed
      exact ⟨asked, hclosed.sizings.trans hsizings, hclosed.panes.symm ▸ hreframes⟩

/-- Every operation that does not start a session by itself does this to windows. -/
theorem perform_reframed (st : Store) (hop : ∀ k, op ≠ .startSession k) : Reframed st (st.perform op).2 := by
  cases op with
  | start m restricted command => exact reframed_start st m restricted command
  | startSession k => exact absurd rfl (hop k)
  | create command environment =>
    exact ⟨[], (List.append_nil _).symm, panes_joined st _ _ ▸ .joined none nofun⟩
  | resizeSession k columns rows => exact reframed_resizeSession st k columns rows
  | resize m columns rows =>
    show Reframed st (st.resize m columns rows).2
    unfold resize
    split
    · exact (Still.refl st).reframed
    · exact reframed_resizeSession st _ columns rows
  | stop m =>
    show Reframed st (st.stop m).2
    unfold stop
    split
    · exact (Still.refl st).reframed
    · exact (still_closeSession st _).reframed
  | close k => exact (still_closeSession st k).reframed
  | scope k =>
    show Reframed st (st.leave k).2
    unfold leave
    split
    · split
      · exact (still_closeSession st k).reframed
      · exact (Still.refl st).reframed
    · exact (Still.refl st).reframed
  | write k text answers =>
    show Reframed st (st.write k text answers).2
    unfold write
    split
    · exact (Still.refl st).reframed
    · next e he =>
      have hstill : Still st ((st.withHost st.host).setEntry k
          { e with written := e.written ++ (e.session.write text answers).1 }) := .setEntry he rfl rfl
      exact hstill.reframed
  | handle k | stream k | sameStream k | child k | exitCode k => exact (still_observe st k _).reframed
  | childExits k code => exact (still_onTerminal st k fun t => (t.advance st.now).apply st.now (.exit code)).reframed
  | waitForExit k span exit => exact ((still_onTerminal st k _).trans (still_waitForExit _ k span)).reframed
  | setEnvironment entries => exact (Still.refl st).reframed

theorem turn_reframes (st : Store) {t : Turn} (hop : ∀ k, t.operation ≠ .startSession k) :
    Reframes (st.under t.circumstances).host st.panes (st.turn t).2.panes (sizings (st.deed t).events) := by
  obtain ⟨asked, hsizings, hreframes⟩ := perform_reframed (st.under t.circumstances) hop
  have hsame : sizings (st.turn t).2.host.journal = sizings st.host.journal ++ asked := hsizings
  rw [journal_turn, sizings_append] at hsame
  rw [List.append_cancel_left hsame]
  exact hreframes

end

/-! ### Runs -/

/-- The sizes that a turn has given to windows: those that the host was asked for, unless it had a fault ready. -/
def given (st : Store) (t : Turn) : List Sizing :=
  if t.circumstances.faults.resizing.isNone then sizings (st.deed t).events else []

/-- The sizes that one turn after the other has given to windows. -/
def givenIn : Store → List Turn → List Sizing
  | _, [] => []
  | st, t :: turns => st.given t ++ givenIn (st.turn t).2 turns

/-- The windows mirror their terminals, and only terminals that were opened were given sizes. -/
structure Mirrors (st : Store) (given : List Sizing) : Prop where
  mirror : Mirror st.panes given
  masters : ∀ z ∈ given, st.host.IsMaster z.handle

section
variable {st : Store} {given : List Sizing} {n : Nat} {p : Pane}

theorem mirrors_founded (managers : List Manager) : (founded managers).Mirrors [] :=
  ⟨⟨fun _ h => absurd h List.not_mem_nil, (nomatch ·)⟩, fun _ h => absurd h List.not_mem_nil⟩

theorem getElem?_panes_of_session {k : Nat} {s : Session} (hs : st.session? k = some s) : st.panes[k]? = some s.pane := by
  obtain ⟨e, he, rfl⟩ := session?_eq_some.mp hs
  exact getElem?_panes he

theorem isMaster_of_pane (hn : st.Numbered) (hp : p ∈ st.panes) (hhandle : p.handle = some n) : st.host.IsMaster n := by
  obtain ⟨e, he, rfl⟩ := List.mem_map.mp hp
  obtain ⟨m, hm, rfl⟩ := Option.map_eq_some_iff.mp hhandle
  exact hn.masters e he m hm

theorem Mirrors.turn (h : st.Mirrors given) (hn : st.Numbered) {t : Turn} (hop : ∀ k, t.operation ≠ .startSession k) :
    (st.turn t).2.Mirrors (given ++ st.given t) := by
  have hmasters : ∀ z ∈ given, (st.turn t).2.host.IsMaster z.handle :=
    fun z hz => (h.masters z hz).mono (st.turn_grows t).opened
  -- A terminal that is opened next is neither that of a window nor one that was given a size.
  have hfresh {handle : Nat} (hmaster : st.host.IsMaster handle) : handle ≠ Host.masterHandle st.host.opened := by
    obtain ⟨n, hlt, rfl⟩ := hmaster
    unfold Host.masterHandle
    omega
  have hreframes := st.turn_reframes hop
  unfold Store.given
  generalize sizings (st.deed t).events = asked at hreframes ⊢
  generalize hpanes : (st.turn t).2.panes = panes at hreframes
  cases hreframes with
  | kept =>
    rw [ite_self, List.append_nil]
    exact ⟨hpanes ▸ h.mirror, hmasters⟩
  | joined handle hhandle =>
    rw [ite_self, List.append_nil]
    refine ⟨hpanes ▸ h.mirror.joined ?_ ?_, hmasters⟩
    · rintro n hnext p hp hhandle'
      exact hfresh (isMaster_of_pane hn hp hhandle') (hhandle n hnext)
    · rintro n hnext z hz rfl
      exact hfresh (h.masters z hz) (hhandle _ hnext)
  | refused z hfault =>
    have hready : t.circumstances.faults.resizing.isNone = false := hfault
    rw [hready, if_neg Bool.false_ne_true, List.append_nil]
    exact ⟨hpanes ▸ h.mirror, hmasters⟩
  | resized k p z hp hz hfault =>
    have hready : t.circumstances.faults.resizing.isNone = true := hfault
    rw [if_pos hready]
    refine ⟨hpanes ▸ h.mirror.resized hp hz, fun z' hz' => ?_⟩
    rcases List.mem_append.mp hz' with hz' | hz'
    · exact hmasters z' hz'
    · obtain rfl := List.mem_singleton.mp hz'
      exact (isMaster_of_pane hn (List.mem_of_getElem? hp) hz).mono (st.turn_grows t).opened

theorem Mirrors.after (h : st.Mirrors given) (hn : st.Numbered) {turns : List Turn}
    (hturns : ∀ t ∈ turns, ∀ k, t.operation ≠ .startSession k) : (st.after turns).Mirrors (given ++ st.givenIn turns) := by
  induction turns generalizing st given with
  | nil => rwa [givenIn, List.append_nil]
  | cons t turns ih =>
    rw [givenIn, ← List.append_assoc]
    exact ih (h.turn hn (hturns t List.mem_cons_self)) (hn.turn t) fun t ht => hturns t (List.mem_cons_of_mem _ ht)

end

end Store

end Teletype
