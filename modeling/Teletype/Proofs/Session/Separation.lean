import Teletype.Proofs.Session.Holding

/-! # What is done for a session concerns that session

An operation is done for the session that it is one on, or for the one that its manager has turned to and a new one.
All other sessions stay as they are, and whatever an operation does to a handle is done to the open master of a session
that it is done for, or to a handle that it has just been given. -/

namespace Teletype

open Relation (ReflTransGen)

namespace Store

/-- The open master of the session of an index. -/
def openMaster? (st : Store) (k : Nat) : Option Nat := (st.entry? k).bind fun e => e.session.openMaster?

/-- All sessions are active only as long as their masters are open. -/
def Lively (st : Store) : Prop := ∀ k e, st.entry? k = some e → e.session.Lively

/-- What was written to the session of an index. -/
def writtenAt (st : Store) (k : Nat) : List Text.Bytes := ((st.entry? k).map (·.written)).getD []

/-- One thing that is done for the sessions of these indices: nothing is done to a handle, or a session joins that is
    not open, or a session is treated. It is written to only where that is what happens. -/
inductive Treats (writes : Bool) (mine : Nat → Prop) (st st' : Store) : Prop
  | quiet (events : List Event) (hhands : st.host.HandsOut events st'.host) (htargets : ∀ event ∈ events, event.targets = [])
      (hentries : st'.entries = st.entries)
  | joined (e : Entry) (hmine : mine st.entries.length) (hhands : st.host.HandsOut [] st'.host)
      (hidle : e.session.isOpen = false) (hlively : e.session.Lively) (hwritten : e.written = [])
      (hentries : st'.entries = st.entries ++ [e])
  | treated (k : Nat) (e e' : Entry) (events : List Event) (hmine : mine k) (he : st.entry? k = some e)
      (htreats : st.host.Treats e.session.openMaster? events st'.host e'.session.openMaster?)
      (hlively : e.session.Lively → e'.session.Lively) (hwritten : writes = false → e'.written = e.written)
      (hentries : st'.entries = st.entries.set k e')

/-- Any number of such things. -/
abbrev Tends (writes : Bool) (mine : Nat → Prop) : Store → Store → Prop := ReflTransGen (Treats writes mine)

section
variable {writes : Bool} {mine : Nat → Prop} {st st' st'' : Store} {k : Nat} {e e' : Entry}

theorem openMaster?_of_entry (he : st.entry? k = some e) : st.openMaster? k = e.session.openMaster? := by
  rw [openMaster?, he, Option.bind_some]

theorem openMaster?_congr (h : st'.entry? k = st.entry? k) : st'.openMaster? k = st.openMaster? k := by
  rw [openMaster?, h, openMaster?]

theorem entry_of_set (hentries : st'.entries = st.entries.set k e') (he : st.entry? k = some e) (n : Nat) :
    st'.entry? n = if k = n then some e' else st.entry? n := by
  have hk : k < st.entries.length := (List.getElem?_eq_some_iff.mp he).1
  rw [entry_eq, hentries, List.getElem?_set, if_pos hk]
  rfl

theorem entry_of_append (hentries : st'.entries = st.entries ++ [e]) (n : Nat) :
    st'.entry? n = if n = st.entries.length then some e else st.entry? n := by
  rw [entry_eq, hentries, entry_eq, List.getElem?_append]
  split
  · next hlt => rw [if_neg (Nat.ne_of_lt hlt)]
  · next hge =>
    split
    · next heq => rw [heq, Nat.sub_self]; rfl
    · next hne => rw [List.getElem?_eq_none (by simp; omega), List.getElem?_eq_none (by omega)]

/-! ### What is left alone -/

/-- From one store to another only the sessions of these indices change. Whatever is done to a handle is done to the
    open master of one of them, or to a handle that is handed out meanwhile, and no other master becomes theirs. -/
structure Confined (mine : Nat → Prop) (st st' : Store) : Prop where
  others : ∀ k, ¬mine k → st'.entry? k = st.entry? k
  lively : st.Lively → st'.Lively
  handles : ∃ events, st'.host.journal = st.host.journal ++ events ∧
    (∀ event ∈ events, ∀ n ∈ event.targets, n ∈ handedOut events ∨ ∃ k, mine k ∧ n ∈ st.openMaster? k) ∧
    ∀ k, ∀ n ∈ st'.openMaster? k, n ∈ st.openMaster? k ∨ mine k ∧ n ∈ handedOut events

theorem Confined.refl (mine : Nat → Prop) (st : Store) : Confined mine st st where
  others := fun _ _ => rfl
  lively := fun h => h
  handles := ⟨[], (List.append_nil _).symm, List.forall_mem_nil _, fun _ _ hn => Or.inl hn⟩

theorem Confined.trans (h₁ : Confined mine st st') (h₂ : Confined mine st' st'') : Confined mine st st'' where
  others := fun k hk => (h₂.others k hk).trans (h₁.others k hk)
  lively := fun h => h₂.lively (h₁.lively h)
  handles := by
    obtain ⟨p, hp, htargets, hmasters⟩ := h₁.handles
    obtain ⟨q, hq, htargets', hmasters'⟩ := h₂.handles
    refine ⟨p ++ q, by rw [hq, hp, List.append_assoc], fun event hevent n hn => ?_, fun k n hn => ?_⟩
    · rw [handedOut_append, List.mem_append]
      rcases List.mem_append.mp hevent with hevent | hevent
      · exact (htargets event hevent n hn).imp_left Or.inl
      · rcases htargets' event hevent n hn with hnew | ⟨k, hk, hn⟩
        · exact Or.inl (Or.inr hnew)
        · rcases hmasters k n hn with hold | ⟨-, hnew⟩
          · exact Or.inr ⟨k, hk, hold⟩
          · exact Or.inl (Or.inl hnew)
    · rw [handedOut_append, List.mem_append]
      rcases hmasters' k n hn with hn | ⟨hk, hnew⟩
      · exact (hmasters k n hn).imp_right fun ⟨hk, hnew⟩ => ⟨hk, Or.inl hnew⟩
      · exact Or.inr ⟨hk, Or.inr hnew⟩

theorem Treats.confined (h : Treats writes mine st st') : Confined mine st st' := by
  cases h with
  | quiet events hhands htargets hentries =>
    have hsame (k : Nat) : st'.entry? k = st.entry? k := by rw [entry_eq, hentries, entry_eq]
    refine ⟨fun k _ => hsame k, fun h k e he => h k e (hsame k ▸ he), events, hhands.journal, ?_, ?_⟩
    · intro event hevent n hn
      rw [htargets event hevent] at hn
      cases hn
    · intro k n hn
      rw [openMaster?_congr (hsame k)] at hn
      exact Or.inl hn
  | joined e hmine hhands hidle hlively hwritten hentries =>
    have hentry := entry_of_append hentries
    refine ⟨fun k hk => ?_, fun h k e' he => ?_, [], hhands.journal, List.forall_mem_nil _, fun k n hn => ?_⟩
    · rw [hentry, if_neg (fun heq : k = _ => hk (heq ▸ hmine))]
    · rw [hentry] at he
      split at he
      · cases he
        exact hlively
      · exact h k e' he
    · rw [openMaster?, hentry] at hn
      split at hn
      · rw [Option.bind_some, Session.openMaster?_eq_none hidle] at hn
        cases hn
      · exact Or.inl hn
  | treated k e e' events hmine he htreats hlively hwritten hentries =>
    have hentry := entry_of_set hentries he
    refine ⟨fun n hn => ?_, fun h n x hx => ?_, events, htreats.hands.journal, fun event hevent n hn => ?_, fun j n hn => ?_⟩
    · rw [hentry, if_neg (fun heq : k = n => hn (heq ▸ hmine))]
    · rw [hentry] at hx
      split at hx
      · cases hx
        exact hlively (h k e he)
      · exact h n x hx
    · refine (htreats.careful.target hevent hn).symm.imp_right fun hn => ⟨k, hmine, ?_⟩
      rwa [openMaster?_of_entry he]
    · rw [openMaster?, hentry] at hn
      split at hn
      · next hk =>
        subst hk
        rw [Option.bind_some] at hn
        rw [openMaster?_of_entry he]
        rcases htreats.master n hn with ⟨hold, -⟩ | ⟨hnew, -⟩
        · exact Or.inl hold
        · exact Or.inr ⟨hmine, hnew⟩
      · exact Or.inl hn

theorem Tends.confined (h : Tends writes mine st st') : Confined mine st st' := by
  induction h with
  | refl => exact .refl mine st
  | tail _ hlast ih => exact ih.trans hlast.confined

/-- What is done for sessions leaves other holders of handles theirs. -/
theorem Treats.keeps {κ : Type} {others : κ → Option Nat} (h : Treats writes mine st st')
    (hk : st.host.Keeps (Sum.elim st.openMaster? others)) : st'.host.Keeps (Sum.elim st'.openMaster? others) := by
  cases h with
  | quiet events hhands htargets hentries =>
    have hsame : st'.openMaster? = st.openMaster? := by
      funext k
      exact openMaster?_congr (by rw [entry_eq, hentries, entry_eq])
    rw [hsame]
    exact hk.quiet hhands htargets
  | joined e hmine hhands hidle hlively hwritten hentries =>
    have hsame : st'.openMaster? = st.openMaster? := by
      funext k
      rw [openMaster?, entry_of_append hentries, openMaster?]
      split
      · next heq =>
        rw [heq, Option.bind_some, Session.openMaster?_eq_none hidle, entry_eq, List.getElem?_eq_none (Nat.le_refl _)]
        rfl
      · rfl
    rw [hsame]
    exact hk.quiet hhands (List.forall_mem_nil _)
  | treated k e e' events hmine he htreats hlively hwritten hentries =>
    have hentry := entry_of_set hentries he
    have hnow : st'.openMaster? k = e'.session.openMaster? := openMaster?_of_entry (by rw [hentry, if_pos rfl])
    have htreat : st.host.Treats (st.openMaster? k) events st'.host (st'.openMaster? k) := by
      rw [hnow, openMaster?_of_entry he]
      exact htreats
    refine hk.treat (Sum.inl k) (fun j hj => ?_) htreat
    cases j with
    | inl j =>
      have hkj : ¬k = j := fun heq => hj (heq ▸ rfl)
      exact openMaster?_congr (by rw [hentry, if_neg hkj])
    | inr j => rfl

theorem Tends.keeps {κ : Type} {others : κ → Option Nat} (h : Tends writes mine st st')
    (hk : st.host.Keeps (Sum.elim st.openMaster? others)) : st'.host.Keeps (Sum.elim st'.openMaster? others) := by
  induction h with
  | refl => exact hk
  | tail _ hlast ih => exact hlast.keeps ih

theorem Treats.written (h : Treats writes mine st st') (hwrites : writes = false) (k : Nat) :
    st'.writtenAt k = st.writtenAt k := by
  cases h with
  | quiet events hhands htargets hentries => rw [writtenAt, entry_eq, hentries, writtenAt, entry_eq]
  | joined e hmine hhands hidle hlively hwritten hentries =>
    rw [writtenAt, entry_of_append hentries, writtenAt]
    split
    · next heq =>
      rw [heq, entry_eq, List.getElem?_eq_none (Nat.le_refl _)]
      exact hwritten
    · rfl
  | treated n e e' events hmine he htreats hlively hwritten hentries =>
    rw [writtenAt, entry_of_set hentries he, writtenAt]
    split
    · next heq =>
      subst heq
      rw [he]
      exact hwritten hwrites
    · rfl

theorem Tends.written (h : Tends writes mine st st') (hwrites : writes = false) (k : Nat) :
    st'.writtenAt k = st.writtenAt k := by
  induction h with
  | refl => rfl
  | tail _ hlast ih => exact (hlast.written hwrites k).trans ih

/-! ### What operations are made of -/

/-- A session is treated on a host, and its entry changes. -/
theorem Treats.setEntry {h : Host} {events : List Event} (hmine : mine k) (he : st.entry? k = some e)
    (htreats : st.host.Treats e.session.openMaster? events h e'.session.openMaster?)
    (hlively : e.session.Lively → e'.session.Lively) (hwritten : writes = false → e'.written = e.written) :
    Treats writes mine st ((st.withHost h).setEntry k e') :=
  .treated k e e' events hmine he htreats hlively hwritten rfl

theorem tends_told (st : Store) (n : Notice) : Treats writes mine st (st.withHost (st.host.tell n)) :=
  .quiet [.told n] (.of_nil rfl rfl rfl) (fun event hevent => by rw [List.mem_singleton.mp hevent]; rfl) rfl

theorem tends_inquired (st : Store) (manager : Manager) (restricted : Bool) :
    Treats writes mine st (st.inquired manager restricted) := by
  refine .quiet ((manager.notices restricted).map .told) (.of_nil rfl ?_ rfl) ?_ rfl
  · simp [handedOut, List.flatMap_map, Event.handedOut]
  · intro event hevent
    obtain ⟨notice, -, rfl⟩ := List.mem_map.mp hevent
    rfl

/-- A session whose entry changes in other respects keeps what it has. -/
theorem tends_used (hmine : mine k) (he : st.entry? k = some e) (hsession : e'.session = e.session)
    (hwritten : writes = false → e'.written = e.written) : Treats writes mine st (st.setEntry k e') := by
  refine .treated k e e' [] hmine he ?_ (fun h => hsession ▸ h) hwritten rfl
  rw [hsession]
  exact .refl st.host _

theorem tends_closeSession (hmine : mine k) : Tends writes mine st (st.closeSession k).2 := by
  cases he : st.entry? k with
  | none => rw [closeSession_of_none he]
  | some e =>
    cases hopen : e.session.isOpen with
    | false => rw [closeSession_of_not_isOpen he hopen]
    | true =>
      obtain ⟨m, hm, hmopen⟩ := Session.isOpen_iff.mp hopen
      rw [closeSession_of_open he hm hmopen]
      exact .single (.setEntry hmine he (Session.treats_shut hm hmopen st.host) (fun _ hactive => nomatch hactive) fun _ => rfl)

theorem tends_closeReplaced {previous : Option Nat} (hmine : ∀ k, previous = some k → mine k) :
    Tends writes mine st (st.closeReplaced previous).2 := by
  unfold closeReplaced
  split
  · exact .refl
  · next k s hprevious =>
    have hk : mine k := by
      obtain ⟨k', hk', hsome⟩ := Option.bind_eq_some_iff.mp hprevious
      obtain ⟨e, -, hpair⟩ := Option.map_eq_some_iff.mp hsome
      cases hpair
      exact hmine k hk'
    split
    · have hclose : Tends writes mine st ((st.withHost (st.host.tell (.replacing s.id))).closeSession k).2 :=
        .head (tends_told _ _) (tends_closeSession hk)
      dsimp only
      split
      · next hclosed =>
        rw [hclosed] at hclose
        exact hclose.tail (tends_told _ _)
      · next hclosed =>
        rw [hclosed] at hclose
        exact hclose
      · next hclosed =>
        rw [hclosed] at hclose
        exact hclose
    · exact .refl

theorem tends_resizeSession (hl : st.Lively) (hmine : mine k) (columns rows : Int) :
    Tends writes mine st (st.resizeSession k columns rows).2 := by
  cases he : st.entry? k with
  | none =>
    unfold resizeSession
    rw [he]
  | some e =>
    rcases resizeSession_cases he columns rows with ⟨f, hresize⟩ | ⟨m, r, hactive, hm, hresize⟩
    · rw [hresize]
    · rw [hresize]
      have hopen := hl k e he hactive
      refine .single (.setEntry hmine he (Session.treats_resized hm hactive (hl k e he) st.host columns rows)
        (fun _ _ => ?_) fun _ => rfl)
      show (Store.resized e.session _ columns rows).isOpen = true
      unfold Store.resized
      split <;> exact hopen

theorem tends_startSession (hmine : mine k) : Tends writes mine st (st.startSession k).2 := by
  unfold startSession
  cases he : st.entry? k with
  | none => exact .refl
  | some e =>
    have hstarts := e.session.start_starts st.host
    dsimp only
    generalize e.session.start st.host = started at hstarts
    obtain ⟨r, s, h⟩ := started
    obtain ⟨events, htreats, hlively⟩ := hstarts.treats
    cases r with
    | error f => exact .single (.setEntry hmine he htreats hlively fun _ => rfl)
    | ok device =>
      have hbegun : Treats writes mine st ((st.withHost h).setEntry k { e with session := s, terminal := .begin device st.now }) :=
        .setEntry hmine he htreats hlively fun _ => rfl
      exact .single hbegun

theorem tends_joined (st : Store) (hmine : mine st.entries.length) (command : List String) (environment : Environment)
    (credential : Option Credential) :
    Treats writes mine st (st.joined ⟨st.fresh command environment credential, {}, []⟩ st.host.name.2) := by
  have hlively : (st.fresh command environment credential).Lively := nofun
  exact .joined _ hmine (.of_nil (List.append_nil _).symm rfl rfl) rfl hlively rfl rfl

theorem tends_start {m : Nat} (hnew : mine st.entries.length) (hcurrent : ∀ k, st.current? m = some k → mine k)
    (restricted : Bool) (command : String) : Tends writes mine st (st.start m restricted command).2 := by
  cases hm : st.manager? m with
  | none =>
    unfold start
    rw [hm]
  | some manager =>
    have hinquired : Tends writes mine st (st.inquired manager restricted) := .single (tends_inquired st manager restricted)
    have hbegins := start_begins hm restricted command
    -- A session that is made and then started is one that joins as it is after its start.
    have hjoined {credential : Option Credential} {environment : Environment} {r : Except Failure Device} {s : Session}
        {h : Host} (terminal : Terminal)
        (hstarts : Session.Starts ((st.inquired manager restricted).fresh (Shell.argv manager.settings command)
          environment credential) (st.inquired manager restricted).host.name.2 (r, s, h)) :
        Tends writes mine st ((st.inquired manager restricted).joined ⟨s, terminal, []⟩ h) := by
      obtain ⟨events, htreats, hlively⟩ := hstarts.treats
      have hmade := hinquired.tail
        (tends_joined (st.inquired manager restricted) hnew (Shell.argv manager.settings command) environment credential)
      refine hmade.tail (.treated st.entries.length _ ⟨s, terminal, []⟩ events hnew (entry_joined _ _ _) htreats hlively
        (fun _ => rfl) ?_)
      simp [joined, inquired]
    generalize st.start m restricted command = result at hbegins
    cases hbegins with
    | unresolved f hgranted | homeless credential f hgranted henvironment => exact hinquired
    | unstarted credential environment f s h hgranted henvironment hstarts => exact hjoined {} hstarts
    | started credential environment device s h r st' hgranted henvironment hstarts hreplaced =>
      have happointed : Tends writes mine st (((st.inquired manager restricted).joined ⟨s, .begin device st.now, []⟩ h).appoint
          m manager st.entries.length) :=
        (hjoined (.begin device st.now) hstarts).tail
          (.quiet [] (.of_nil (List.append_nil _).symm rfl rfl) (List.forall_mem_nil _) rfl)
      have hprevious (k : Nat) (hk : manager.current = some k) : mine k :=
        hcurrent k (Option.bind_eq_some_iff.mpr ⟨manager, hm, hk⟩)
      have hclosed := happointed.trans (tends_closeReplaced hprevious)
      rw [hreplaced] at hclosed
      exact hclosed

theorem tends_onTerminal (hmine : mine k) (f : Terminal → Terminal) : Tends writes mine st (st.onTerminal k f) := by
  unfold onTerminal
  split
  · exact .refl
  · next e he => exact .single (tends_used hmine he rfl fun _ => rfl)

theorem tends_passed (st : Store) (now : Time) (environment : Environment) :
    Treats writes mine st { st with now, environment } :=
  .quiet [] (.of_nil (List.append_nil _).symm rfl rfl) (List.forall_mem_nil _) rfl

theorem tends_waitForExit (hmine : mine k) (span : Span) : Tends writes mine st (st.waitForExit k span).2 := by
  unfold waitForExit
  split
  · exact .refl
  · next e he =>
    split
    · have hused : Treats writes mine st (st.setEntry k { e with terminal := (e.terminal.waitForExit st.now span).2.1 }) :=
        tends_used hmine he rfl fun _ => rfl
      exact .tail (.single hused) (tends_passed _ _ _)
    · exact .refl

theorem tends_observe (st : Store) (k : Nat) (f : Entry → Except Fault Reply) :
    Tends writes mine st (st.observe k f).2 := by
  unfold observe
  split <;> exact .refl

end

end Store

/-! ### Whom operations are done for -/

namespace Operation

/-- The manager that an operation is one of. -/
def manager? : Operation → Option Nat
  | .start m _ _ | .stop m | .resize m _ _ => some m
  | _ => none

/-- The session that an operation is one on. -/
def session? : Operation → Option Nat
  | .startSession k | .resizeSession k _ _ | .close k | .write k _ _ | .scope k | .handle k | .stream k | .sameStream k
  | .child k | .exitCode k | .childExits k _ | .waitForExit k _ _ => some k
  | .start .. | .stop _ | .resize .. | .create .. | .setEnvironment _ => none

/-- The operation is there to write to a session. -/
def writes : Operation → Bool
  | .write .. => true
  | _ => false

/-- The operation is done for the session of this index: it is one on that, or one of the manager that has turned to
    it, or the session is yet to be made. -/
def Touches (op : Operation) (st : Store) (k : Nat) : Prop :=
  op.session? = some k ∨ (∃ m, op.manager? = some m ∧ st.current? m = some k) ∨ k = st.entries.length

end Operation

namespace Store

/-- Every operation does what it does for the sessions that it touches. -/
theorem perform_tends {st : Store} (hl : st.Lively) (op : Operation) :
    Tends op.writes (op.Touches st) st (st.perform op).2 := by
  cases op with
  | start m restricted command =>
    exact tends_start (Or.inr (Or.inr rfl)) (fun k hk => Or.inr (Or.inl ⟨m, rfl, hk⟩)) restricted command
  | stop m =>
    show Tends _ _ st (st.stop m).2
    unfold stop
    split
    · exact .refl
    · next k hk => exact tends_closeSession (Or.inr (Or.inl ⟨m, rfl, hk⟩))
  | resize m columns rows =>
    show Tends _ _ st (st.resize m columns rows).2
    unfold resize
    split
    · exact .refl
    · next k hk => exact tends_resizeSession hl (Or.inr (Or.inl ⟨m, rfl, hk⟩)) columns rows
  | create command environment => exact .single (tends_joined st (Or.inr (Or.inr rfl)) command environment none)
  | startSession k => exact tends_startSession (Or.inl rfl)
  | resizeSession k columns rows => exact tends_resizeSession hl (Or.inl rfl) columns rows
  | close k => exact tends_closeSession (Or.inl rfl)
  | write k text answers =>
    show Tends _ _ st (st.write k text answers).2
    unfold write
    split
    · exact .refl
    · next e he => exact .single (tends_used (Or.inl rfl) he rfl nofun)
  | scope k =>
    show Tends _ _ st (st.leave k).2
    unfold leave
    split
    · split
      · exact tends_closeSession (Or.inl rfl)
      · exact .refl
    · exact .refl
  | handle k | stream k | sameStream k | child k | exitCode k => exact tends_observe st k _
  | childExits k code => exact tends_onTerminal (Or.inl rfl) fun t => (t.advance st.now).apply st.now (.exit code)
  | waitForExit k span exit => exact (tends_onTerminal (Or.inl rfl) _).trans (tends_waitForExit (Or.inl rfl) span)
  | setEnvironment entries => exact .single (tends_passed st st.now _)

/-- A session is written to only by an operation that is there for it, and only while its master is open. -/
theorem perform_written {st : Store} (hl : st.Lively) (op : Operation) (k : Nat) :
    (st.perform op).2.writtenAt k = st.writtenAt k ∨ op.session? = some k ∧ ∃ n, st.openMaster? k = some n := by
  cases hwrites : op.writes with
  | false => exact Or.inl ((perform_tends hl op).written hwrites k)
  | true =>
    cases op with
    | write j text answers =>
      show (st.write j text answers).2.writtenAt k = _ ∨ _
      cases he : st.entry? j with
      | none =>
        unfold write
        rw [he]
        exact Or.inl rfl
      | some e =>
        by_cases hjk : j = k
        · subst hjk
          cases hopen : e.session.isOpen with
          | true =>
            obtain ⟨m, hm, hmopen⟩ := Session.isOpen_iff.mp hopen
            refine Or.inr ⟨rfl, m.handle, ?_⟩
            rw [openMaster?_of_entry he]
            exact Session.openMaster?_eq_some.mpr ⟨m, hm, hmopen, rfl⟩
          | false =>
            have hnone : e.session.write text answers = ([], some ⟨.system, "PTY session " ++ e.session.id ++ " is not open"⟩) := by
              rw [Session.write, Session.writeRefusal?, hopen]
              rfl
            unfold write
            rw [he]
            dsimp only
            rw [hnone, List.append_nil]
            exact Or.inl (congrArg (writtenAt · j) (setEntry_self he))
        · left
          unfold write
          rw [he]
          dsimp only
          rw [writtenAt, writtenAt, entry_of_set rfl he, if_neg hjk]
    | _ => cases hwrites

end Store

end Teletype
