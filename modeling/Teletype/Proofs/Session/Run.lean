import Mathlib.Logic.Relation
import Teletype.Proofs.Session.Manager

/-! # Runs of a store

A store does one operation after the other. What its surroundings have ready for an operation may be anything:
faults, devices, what the identity databases answer, and what announcing a user meets. Every operation is made
of moves, each of which changes one thing, so what every move keeps is kept by every run. -/

namespace Teletype

open Relation (ReflTransGen)

/-! ### Operations in their circumstances -/

/-- What the surroundings have ready for one operation: faults, the devices of the terminals that are opened next,
    and for each manager what its lookups find and what announcing a user meets. -/
structure Circumstances where
  faults : Faults := {}
  devices : List Device := []
  database : Nat → Identity.Database
  announce : Nat → String → Option Fault := fun _ _ => none

/-- An operation in its circumstances. -/
structure Turn where
  circumstances : Circumstances
  operation : Operation

namespace Operation

/-- The operation is there to make or start a session. -/
def makesSession : Operation → Bool
  | .start .. | .create .. | .startSession _ => true
  | _ => false

/-- The operation is one of a manager, or one on a session that does not start it. -/
def isManaged : Operation → Bool
  | .create .. | .startSession _ => false
  | _ => true

end Operation

namespace Store

/-- A store whose managers have not started anything yet. -/
def founded (managers : List Manager) : Store :=
  { managers := managers.map fun manager => { manager with current := none } }

/-- The store in these circumstances. -/
def under (st : Store) (c : Circumstances) : Store :=
  { st with
    host := { st.host with faults := c.faults, devices := c.devices }
    managers := st.managers.mapIdx fun m manager => { manager with database := c.database m, announce := c.announce m } }

/-- Does an operation in its circumstances. -/
def turn (st : Store) (t : Turn) : Except Failure Reply × Store := (st.under t.circumstances).perform t.operation

/-- The store after one operation after the other. -/
def after (st : Store) (turns : List Turn) : Store := turns.foldl (fun st t => (st.turn t).2) st

@[simp] theorem after_cons (st : Store) (t : Turn) (turns : List Turn) :
    st.after (t :: turns) = (st.turn t).2.after turns := rfl

/-- The session that a manager has turned to. -/
def current? (st : Store) (m : Nat) : Option Nat := (st.manager? m).bind (·.current)

theorem turn_start (st : Store) (c : Circumstances) (m : Nat) (restricted : Bool) (command : String) :
    st.turn ⟨c, .start m restricted command⟩ = (((st.under c).start m restricted command).1.map Reply.session,
      ((st.under c).start m restricted command).2) := rfl

theorem manager?_under (st : Store) (c : Circumstances) (m : Nat) :
    (st.under c).manager? m =
      (st.manager? m).map fun manager => { manager with database := c.database m, announce := c.announce m } := by
  simp [manager?, under]

/-! ### Moves -/

/-- One thing that an operation changes. Sessions are made, started and turned to only by operations that are there
    for it, and a manager's operation starts a session only while it is pending. -/
inductive Move (op : Operation) : Store → Store → Prop
  | told {st : Store} (n : Notice) : Move op st (st.withHost (st.host.tell n))
  | inquired {st : Store} (i : Inquiry) :
      Move op st { st with inquiry := ⟨st.inquiry.announced ++ i.announced, st.inquiry.asked ++ i.asked⟩ }
  | joined (hop : op.makesSession = true) {st : Store} (command : List String) (environment : Environment)
      (credential : Option Credential) :
      Move op st (st.joined ⟨st.fresh command environment credential, {}, []⟩ st.host.name.2)
  | appointed (hop : op.makesSession = true) {st : Store} (m : Nat) (manager : Manager) (k : Nat)
      (hm : st.manager? m = some manager) (hk : k < st.entries.length) : Move op st (st.appoint m manager k)
  | started (hop : op.makesSession = true) {st : Store} (k : Nat) (e : Entry) (he : st.entry? k = some e)
      (hpending : op.isManaged = true → e.session.status = .pending) (r : Except Failure Device) (s : Session) (h : Host)
      (hstarts : Session.Starts e.session st.host (r, s, h)) (terminal : Terminal) :
      Move op st ((st.withHost h).setEntry k { e with session := s, terminal })
  | closed {st : Store} (k : Nat) (e : Entry) (m : Master) (he : st.entry? k = some e) (hm : e.session.master = some m)
      (hopen : m.isOpen = true) : Move op st
        ((st.withHost (st.host.note (.closingMaster m.handle))).setEntry k { e with session := e.session.shut m })
  | resized {st : Store} (k : Nat) (e : Entry) (m : Master) (columns rows : Int) (he : st.entry? k = some e)
      (hactive : e.session.status = .active) (hm : e.session.master = some m) : Move op st
        ((st.withHost (st.host.resize m.handle columns rows).2).setEntry k
          { e with session := Store.resized e.session (st.host.resize m.handle columns rows).1 columns rows })
  | used {st : Store} (k : Nat) (e : Entry) (he : st.entry? k = some e) (terminal : Terminal) (written : List Text.Bytes) :
      Move op st (st.setEntry k { e with terminal, written })
  | passed {st : Store} (now : Time) (environment : Environment) : Move op st { st with now, environment }

/-- Any number of moves. -/
abbrev Moves (op : Operation) : Store → Store → Prop := ReflTransGen (Move op)

section
variable {op : Operation} {st st' : Store} {k : Nat} {e : Entry}

theorem Move.moves (h : Move op st st') : Moves op st st' := .single h

theorem moves_inquired (st : Store) (manager : Manager) (restricted : Bool) :
    Moves op st (st.inquired manager restricted) := by
  have htold : ∀ (notices : List Notice) (st : Store),
      Moves op st (st.withHost { st.host with journal := st.host.journal ++ notices.map .told }) := by
    intro notices
    induction notices with
    | nil =>
      intro st
      rw [List.map_nil, List.append_nil]
      exact .refl
    | cons n notices ih =>
      intro st
      have hrest := ih (st.withHost (st.host.tell n))
      simp only [withHost, Host.tell, Host.note, List.append_assoc, List.cons_append, List.nil_append] at hrest
      exact .head (.told n) hrest
  exact (htold (manager.notices restricted) st).tail (.inquired (manager.inquiry restricted))

theorem moves_closeSession (st : Store) (k : Nat) : Moves op st (st.closeSession k).2 := by
  cases he : st.entry? k with
  | none => rw [closeSession_of_none he]
  | some e =>
    cases hopen : e.session.isOpen with
    | false => rw [closeSession_of_not_isOpen he hopen]
    | true =>
      obtain ⟨m, hm, hmopen⟩ := Session.isOpen_iff.mp hopen
      rw [closeSession_of_open he hm hmopen]
      exact (Move.closed k e m he hm hmopen).moves

theorem moves_closeReplaced (st : Store) (previous : Option Nat) : Moves op st (st.closeReplaced previous).2 := by
  unfold closeReplaced
  split
  · exact .refl
  · next k s _ =>
    split
    · have hclose : Moves op st ((st.withHost (st.host.tell (.replacing s.id))).closeSession k).2 :=
        .head (.told _) (moves_closeSession _ k)
      dsimp only
      split
      · next hclosed =>
        rw [hclosed] at hclose
        exact hclose.tail (.told _)
      · next hclosed =>
        rw [hclosed] at hclose
        exact hclose
      · next hclosed =>
        rw [hclosed] at hclose
        exact hclose
    · exact .refl

theorem moves_resizeSession (st : Store) (k : Nat) (columns rows : Int) :
    Moves op st (st.resizeSession k columns rows).2 := by
  cases he : st.entry? k with
  | none =>
    unfold resizeSession
    rw [he]
  | some e =>
    rcases resizeSession_cases he columns rows with ⟨f, hresize⟩ | ⟨m, r, hactive, hm, hresize⟩
    · rw [hresize]
    · rw [hresize]
      exact (Move.resized k e m columns rows he hactive hm).moves

theorem moves_start (st : Store) (m : Nat) (restricted : Bool) (command : String) :
    Moves (.start m restricted command) st (st.start m restricted command).2 := by
  cases hm : st.manager? m with
  | none =>
    unfold start
    rw [hm]
  | some manager =>
    have hinquired : Moves (.start m restricted command) st (st.inquired manager restricted) :=
      moves_inquired st manager restricted
    have hbegins := start_begins hm restricted command
    -- A session that is made and then started is one that joins as it is after its start.
    have hjoined {credential : Option Credential} {environment : Environment} {r : Except Failure Device} {s : Session}
        {h : Host} (terminal : Terminal)
        (hstarts : Session.Starts ((st.inquired manager restricted).fresh (Shell.argv manager.settings command)
          environment credential) (st.inquired manager restricted).host.name.2 (r, s, h)) :
        Moves (.start m restricted command) st ((st.inquired manager restricted).joined ⟨s, terminal, []⟩ h) := by
      have hmove : Move (.start m restricted command) (((st.inquired manager restricted).joined
          ⟨(st.inquired manager restricted).fresh (Shell.argv manager.settings command) environment credential, {}, []⟩
          (st.inquired manager restricted).host.name.2)) _ :=
        .started rfl _ _ (entry_joined _ _ _) (fun _ => rfl) r s h hstarts terminal
      rw [setEntry_joined] at hmove
      exact (hinquired.tail (.joined rfl _ _ _)).tail hmove
    generalize st.start m restricted command = result at hbegins
    cases hbegins with
    | unresolved f hgranted | homeless credential f hgranted henvironment => exact hinquired
    | unstarted credential environment f s h hgranted henvironment hstarts => exact hjoined {} hstarts
    | started credential environment device s h r st' hgranted henvironment hstarts hreplaced =>
      have happointed := (hjoined (.begin device st.now) hstarts).tail
        (.appointed rfl m manager st.entries.length hm (by simp [joined, inquired]))
      have hclosed := happointed.trans (moves_closeReplaced _ manager.current)
      rw [hreplaced] at hclosed
      exact hclosed

theorem moves_onTerminal (st : Store) (k : Nat) (f : Terminal → Terminal) : Moves op st (st.onTerminal k f) := by
  unfold onTerminal
  split
  · exact .refl
  · next e he => exact (Move.used k e he (f e.terminal) e.written).moves

theorem moves_waitForExit (st : Store) (k : Nat) (span : Span) : Moves op st (st.waitForExit k span).2 := by
  unfold waitForExit
  split
  · exact .refl
  · next e he =>
    split
    · exact (Move.used k e he _ e.written).moves.tail (.passed _ _)
    · exact .refl

theorem moves_observe (st : Store) (k : Nat) (f : Entry → Except Fault Reply) : Moves op st (st.observe k f).2 := by
  unfold observe
  split <;> exact .refl

end

/-- Every operation is made of moves. -/
theorem perform_moves (st : Store) (op : Operation) : Moves op st (st.perform op).2 := by
  cases op with
  | start m restricted command => exact moves_start st m restricted command
  | stop m =>
    show Moves _ st (st.stop m).2
    unfold stop
    split
    · exact .refl
    · exact moves_closeSession st _
  | resize m columns rows =>
    show Moves _ st (st.resize m columns rows).2
    unfold resize
    split
    · exact .refl
    · exact moves_resizeSession st _ columns rows
  | create command environment => exact (Move.joined rfl command environment none).moves
  | startSession k =>
    show Moves _ st (st.startSession k).2
    unfold startSession
    cases he : st.entry? k with
    | none => exact .refl
    | some e =>
      have hstarts := e.session.start_starts st.host
      dsimp only
      generalize e.session.start st.host = started at hstarts
      obtain ⟨r, s, h⟩ := started
      have hmove (terminal : Terminal) :
          Move (.startSession k) st ((st.withHost h).setEntry k { e with session := s, terminal }) :=
        .started rfl k e he (by intro hop; cases hop) r s h hstarts terminal
      cases r with
      | error f => exact (hmove e.terminal).moves
      | ok device => exact (hmove (.begin device st.now)).moves
  | resizeSession k columns rows => exact moves_resizeSession st k columns rows
  | close k => exact moves_closeSession st k
  | write k text answers =>
    show Moves _ st (st.write k text answers).2
    unfold write
    split
    · exact .refl
    · next e he => exact (Move.used k e he e.terminal _).moves
  | scope k =>
    show Moves _ st (st.leave k).2
    unfold leave
    split
    · split
      · exact moves_closeSession st k
      · exact .refl
    · exact .refl
  | handle k | stream k | sameStream k | child k | exitCode k => exact moves_observe st k _
  | childExits k code => exact moves_onTerminal st k fun t => (t.advance st.now).apply st.now (.exit code)
  | waitForExit k span exit => exact (moves_onTerminal st k _).trans (moves_waitForExit _ k span)
  | setEnvironment entries => exact (Move.passed st.now _).moves

/-! ### What moves keep -/

/-- Whatever every move keeps, every operation keeps. -/
theorem Moves.keep {op : Operation} {p : Store → Prop} (hmove : ∀ {st st' : Store}, Move op st st' → p st → p st')
    {st st' : Store} (h : Moves op st st') (hst : p st) : p st' := by
  induction h with
  | refl => exact hst
  | tail _ hlast ih => exact hmove hlast ih

/-- What is written down stays written down, no number is given again, and managers keep their settings. -/
structure Grows (st st' : Store) : Prop where
  settings : st'.managers.map (·.settings) = st.managers.map (·.settings)
  journal : st.host.journal <+: st'.host.journal
  announced : st.inquiry.announced <+: st'.inquiry.announced
  asked : st.inquiry.asked <+: st'.inquiry.asked
  entries : st.entries.length ≤ st'.entries.length
  opened : st.host.opened ≤ st'.host.opened
  named : st.host.named ≤ st'.host.named

namespace Grows
variable {st st' st'' : Store}

theorem refl (st : Store) : Grows st st :=
  ⟨rfl, List.prefix_refl _, List.prefix_refl _, List.prefix_refl _, Nat.le_refl _, Nat.le_refl _, Nat.le_refl _⟩

theorem trans (h₁ : Grows st st') (h₂ : Grows st' st'') : Grows st st'' where
  settings := h₂.settings.trans h₁.settings
  journal := h₁.journal.trans h₂.journal
  announced := h₁.announced.trans h₂.announced
  asked := h₁.asked.trans h₂.asked
  entries := Nat.le_trans h₁.entries h₂.entries
  opened := Nat.le_trans h₁.opened h₂.opened
  named := Nat.le_trans h₁.named h₂.named

/-- A host that has more in its journal and more terminals open, and an entry that is replaced. -/
theorem setEntry {h : Host} (hjournal : st.host.journal <+: h.journal) (hopened : st.host.opened ≤ h.opened)
    (hnamed : h.named = st.host.named) (k : Nat) (e : Entry) : Grows st ((st.withHost h).setEntry k e) :=
  ⟨rfl, hjournal, List.prefix_refl _, List.prefix_refl _, Nat.le_of_eq (List.length_set ..).symm, hopened,
    Nat.le_of_eq hnamed.symm⟩

theorem count (h : Grows st st') : st'.managers.length = st.managers.length := by
  have hlengths := congrArg List.length h.settings
  rwa [List.length_map, List.length_map] at hlengths

/-- A manager is there later, too, and has the same settings. -/
theorem manager? (h : Grows st st') {m : Nat} {manager : Manager} (hm : st.manager? m = some manager) :
    ∃ manager', st'.manager? m = some manager' ∧ manager'.settings = manager.settings := by
  have hsettings : (st'.managers.map (·.settings))[m]? = some manager.settings := by
    have hm : st.managers[m]? = some manager := hm
    rw [h.settings, List.getElem?_map, hm]
    rfl
  rw [List.getElem?_map] at hsettings
  exact Option.map_eq_some_iff.mp hsettings

end Grows

theorem starts_grow {s s' : Session} {h h' : Host} {r : Except Failure Device} (hstarts : Session.Starts s h (r, s', h')) :
    h.journal <+: h'.journal ∧ h.opened ≤ h'.opened ∧ h'.named = h.named := by
  cases hstarts with
  | unopened => exact ⟨List.prefix_append _ _, Nat.le_refl _, rfl⟩
  | refused => exact ⟨(List.prefix_append _ _).trans (List.prefix_append _ _), Nat.le_succ _, rfl⟩
  | broken | connected => exact ⟨List.prefix_append _ _, Nat.le_succ _, rfl⟩

/-- What resizing leaves behind on a host: one event, and no other number. -/
theorem resize_leaves (h : Host) (handle : Nat) (columns rows : Int) :
    (h.resize handle columns rows).2.journal = h.journal ++ [.resizing handle columns rows] ∧
      (h.resize handle columns rows).2.opened = h.opened ∧ (h.resize handle columns rows).2.named = h.named := by
  unfold Host.resize
  dsimp only
  split <;> exact ⟨rfl, rfl, rfl⟩

theorem Move.grows {op : Operation} {st st' : Store} (h : Move op st st') : Grows st st' := by
  cases h with
  | told n => exact { Grows.refl st with journal := List.prefix_append _ _ }
  | inquired i => exact { Grows.refl st with announced := List.prefix_append _ _, asked := List.prefix_append _ _ }
  | joined hop command environment credential =>
    exact { Grows.refl st with entries := by simp [Store.joined], named := Nat.le_succ _ }
  | appointed hop m manager k hm hk =>
    refine { Grows.refl st with settings := ?_ }
    obtain ⟨hlt, rfl⟩ := List.getElem?_eq_some_iff.mp hm
    show (st.managers.set m _).map _ = _
    rw [List.map_set, ← List.getElem_map (fun x : Manager => x.settings) (h := by rwa [List.length_map]), List.set_getElem_self]
  | passed => exact { Grows.refl st with }
  | started hop k e he hpending r s h hstarts terminal =>
    obtain ⟨hjournal, hopened, hnamed⟩ := starts_grow hstarts
    exact .setEntry hjournal hopened hnamed _ _
  | closed =>
    refine .setEntry (List.prefix_append _ _) ?_ ?_ _ _
    · exact Nat.le_refl _
    · rfl
  | resized k e m columns rows =>
    obtain ⟨hjournal, hopened, hnamed⟩ := resize_leaves st.host m.handle columns rows
    exact .setEntry (hjournal ▸ List.prefix_append _ _) (Nat.le_of_eq hopened.symm) hnamed _ _
  | used k e he terminal written => exact Grows.setEntry (h := st.host) (List.prefix_refl _) (Nat.le_refl _) rfl _ _

theorem Moves.grows {op : Operation} {st st' : Store} (h : Moves op st st') : Grows st st' :=
  h.keep (fun hmove hgrows => hgrows.trans hmove.grows) (.refl st)

theorem perform_grows (st : Store) (op : Operation) : Grows st (st.perform op).2 := (perform_moves st op).grows

/-! ### What a turn does -/

/-- What a turn does: what it answers, what it asks of the host and tells the operator, whom it announces, and what
    it asks the identity database. -/
structure Deed where
  reply : Except Failure Reply
  events : List Event
  announced : List String
  asked : List Identity.Question

/-- What a turn does to a store. -/
def deed (st : Store) (t : Turn) : Deed where
  reply := (st.turn t).1
  events := (st.turn t).2.host.journal.drop st.host.journal.length
  announced := (st.turn t).2.inquiry.announced.drop st.inquiry.announced.length
  asked := (st.turn t).2.inquiry.asked.drop st.inquiry.asked.length

theorem turn_grows (st : Store) (t : Turn) : Grows st (st.turn t).2 := by
  have h := perform_grows (st.under t.circumstances) t.operation
  refine ⟨h.settings.trans ?_, h.journal, h.announced, h.asked, h.entries, h.opened, h.named⟩
  refine List.ext_getElem? fun m => ?_
  simp [under, Function.comp_def]

theorem after_grows (st : Store) (turns : List Turn) : Grows st (st.after turns) := by
  induction turns generalizing st with
  | nil => exact .refl st
  | cons t turns ih => exact (st.turn_grows t).trans (ih (st.turn t).2)

theorem append_drop_cancel {α : Type} {l l' : List α} (h : l <+: l') : l ++ l'.drop l.length = l' := by
  obtain ⟨more, rfl⟩ := h
  rw [List.drop_left]

theorem journal_turn (st : Store) (t : Turn) : (st.turn t).2.host.journal = st.host.journal ++ (st.deed t).events :=
  (append_drop_cancel (st.turn_grows t).journal).symm

theorem announced_turn (st : Store) (t : Turn) :
    (st.turn t).2.inquiry.announced = st.inquiry.announced ++ (st.deed t).announced :=
  (append_drop_cancel (st.turn_grows t).announced).symm

theorem asked_turn (st : Store) (t : Turn) : (st.turn t).2.inquiry.asked = st.inquiry.asked ++ (st.deed t).asked :=
  (append_drop_cancel (st.turn_grows t).asked).symm

end Store

end Teletype
