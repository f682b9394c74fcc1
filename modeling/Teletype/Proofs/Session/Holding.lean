import Mathlib.Data.List.Induction
import Teletype.Proofs.Session.Ledger

/-! # Each open handle has one holder

Whatever faults a host meets, something is done to a handle only while that is held, so no handle is closed twice.
Sessions that are open have one open master each, and no two of them the same. What is done for one session
concerns its own master and the terminals that are opened for it, and leaves the other holders theirs. -/

namespace Teletype

/-! ### Careful events -/

/-- The handles that something is done to. -/
def Event.targets : Event → List Nat
  | .spawning x => x.streams
  | .closed n | .closingMaster n => [n]
  | .resizing n _ _ => [n]
  | .opened _ _ | .told _ => []

theorem Event.targets_of_closings {event : Event} {n : Nat} (hn : n ∈ event.closings) : n ∈ event.targets := by
  cases event with
  | closed | closingMaster => exact hn
  | opened | spawning | resizing | told => cases hn

/-- Whatever is done to a handle is done while it is held: the handle was handed out before or is one of those
    held from the start, and it has not been closed since. -/
def Careful (own : Nat → Prop) (events : List Event) : Prop :=
  ∀ before event after, events = before ++ event :: after → ∀ n ∈ event.targets,
    (own n ∨ n ∈ handedOut before) ∧ n ∉ closings before

/-- A journal tells of what was done to handles that were held. -/
def IsCareful (journal : List Event) : Prop := Careful (fun _ => False) journal

namespace Careful
variable {own own' : Nat → Prop} {p q events : List Event} {event : Event}

theorem nil (own : Nat → Prop) : Careful own [] := by
  intro before event after h
  cases before <;> cases h

theorem of_append (h : Careful own (p ++ q)) : Careful own p := by
  intro before event after hp
  refine h before event (after ++ q) ?_
  rw [hp, List.append_assoc, List.cons_append]

/-- Careful events may be followed by others that keep to what is held then. -/
theorem append (hp : Careful own p) (hq : Careful own' q)
    (hown : ∀ n, own' n → (own n ∨ n ∈ handedOut p) ∧ n ∉ closings p)
    (hfresh : ∀ n ∈ handedOut q, n ∉ closings p) : Careful own (p ++ q) := by
  intro before event after hsplit n hn
  rcases List.append_eq_append_iff.mp hsplit with ⟨more, rfl, hq'⟩ | ⟨more, hp', hmore⟩
  · obtain ⟨hheld, hopen⟩ := hq more event after hq' n hn
    rw [handedOut_append, closings_append, List.mem_append, List.mem_append]
    rcases hheld with hheld | hheld
    · obtain ⟨hheld, hopen'⟩ := hown n hheld
      exact ⟨hheld.imp_right Or.inl, fun hclosed => hclosed.elim hopen' hopen⟩
    · have hmem : n ∈ handedOut q := by
        rw [hq', handedOut_append]
        exact List.mem_append_left _ hheld
      exact ⟨Or.inr (Or.inr hheld), fun hclosed => hclosed.elim (hfresh n hmem) hopen⟩
  · cases more with
    | nil =>
      rw [List.append_nil] at hp'
      obtain ⟨hheld, hopen⟩ := hq [] event after hmore.symm n hn
      rcases hheld with hheld | hheld
      · rw [← hp']
        exact hown n hheld
      · cases hheld
    | cons first more =>
      cases hmore
      exact hp before event more hp' n hn

theorem append_one (hp : Careful own p) (hevent : ∀ n ∈ event.targets, (own n ∨ n ∈ handedOut p) ∧ n ∉ closings p) :
    Careful own (p ++ [event]) := by
  intro before event' after hsplit n hn
  rcases List.append_eq_append_iff.mp hsplit with ⟨more, rfl, hone⟩ | ⟨more, hp', hone⟩
  · cases more with
    | nil =>
      cases hone
      rw [List.append_nil]
      exact hevent n hn
    | cons first more => cases more <;> cases hone
  · cases more with
    | nil =>
      cases hone
      rw [List.append_nil] at hp'
      subst hp'
      exact hevent n hn
    | cons first more =>
      cases hone
      exact hp before event' more hp' n hn

/-- Events that do nothing to a handle are careful. -/
theorem of_targets (h : ∀ event ∈ events, event.targets = []) : Careful own events := by
  intro before event after hsplit n hn
  rw [h event (hsplit ▸ List.mem_append_right _ List.mem_cons_self)] at hn
  cases hn

theorem target (h : Careful own events) (hevent : event ∈ events) {n : Nat} (hn : n ∈ event.targets) :
    own n ∨ n ∈ handedOut events := by
  obtain ⟨before, after, rfl⟩ := List.append_of_mem hevent
  refine (h before event after rfl n hn).1.imp_right fun hmem => ?_
  rw [handedOut_append]
  exact List.mem_append_left _ hmem

theorem closing (h : Careful own events) {n : Nat} (hn : n ∈ closings events) : own n ∨ n ∈ handedOut events := by
  obtain ⟨event, hevent, hn⟩ := List.mem_flatMap.mp hn
  exact h.target hevent (Event.targets_of_closings hn)

end Careful

theorem IsCareful.closed {journal : List Event} (h : IsCareful journal) {n : Nat} (hn : n ∈ closings journal) :
    n ∈ handedOut journal := (Careful.closing h hn).resolve_left id

/-- No handle is closed twice where it is closed only while it is held. -/
theorem IsCareful.closings_nodup {journal : List Event} (h : IsCareful journal) : (closings journal).Nodup := by
  induction journal using List.reverseRecOn with
  | nil => exact List.nodup_nil
  | append_singleton journal event ih =>
    rw [closings_append, List.nodup_append]
    refine ⟨ih (Careful.of_append h), ?_, ?_⟩
    · cases event <;> simp [closings, Event.closings]
    · rintro n hn _ hn' rfl
      have hclosed : n ∈ event.closings := by simpa [closings] using hn'
      exact (h journal event [] rfl n (Event.targets_of_closings hclosed)).2 hn

/-! ### Holders -/

/-- The handle of a session's master, if that is open. -/
def Session.openMaster? (s : Session) : Option Nat := if s.isOpen then s.master.map (·.handle) else none

theorem Session.openMaster?_eq_some {s : Session} {n : Nat} :
    s.openMaster? = some n ↔ ∃ m, s.master = some m ∧ m.isOpen = true ∧ m.handle = n := by
  unfold openMaster? isOpen
  cases s.master <;> simp

theorem Session.openMaster?_eq_none {s : Session} (h : s.isOpen = false) : s.openMaster? = none := by
  rw [openMaster?, h]
  rfl

/-- A session is active only as long as its master is open. -/
def Session.Lively (s : Session) : Prop := s.status = .active → s.isOpen = true

/-- A host keeps the open masters of these holders: each is held, and by one holder. -/
structure Host.Keeps {ι : Type} (h : Host) (master? : ι → Option Nat) : Prop where
  issued : h.Issued
  careful : IsCareful h.journal
  held : ∀ i, ∀ n ∈ master? i, IsHeld h.journal n
  apart : ∀ i j n, n ∈ master? i → n ∈ master? j → i = j

/-- What was done for a holder of this master, if it is open, and what its open master is then: nothing was done to
    the handles of others, nor to a handle that is not held, and what it has then was not closed. -/
structure Host.Treats (h : Host) (master? : Option Nat) (events : List Event) (h' : Host) (master?' : Option Nat) :
    Prop where
  hands : h.HandsOut events h'
  careful : Careful (· ∈ master?) events
  master : ∀ n ∈ master?', n ∈ master? ∧ (n ∈ closings events → n ∈ handedOut events) ∨
    n ∈ handedOut events ∧ n ∉ closings events

namespace Host
variable {ι : Type} {h h' : Host} {master? master?' : ι → Option Nat} {events : List Event}

/-- Handles that are handed out later were not handed out before. -/
theorem HandsOut.notMem (hhands : h.HandsOut events h') (hi : h.Issued) {n : Nat} (hn : n ∈ handedOut events) :
    n ∉ handedOut h.journal := by
  intro hold
  have hlt := hi.below n hold
  have hle := (hhands.fresh n hn).1
  omega

/-- Where nothing happens, a holder keeps what it has. -/
theorem Treats.refl (h : Host) (master? : Option Nat) : h.Treats master? [] h master? where
  hands := .of_nil (List.append_nil _).symm rfl rfl
  careful := .nil _
  master := fun _ hn => Or.inl ⟨hn, nofun⟩

/-- What is done for one holder leaves all others what they hold. -/
theorem Keeps.treat (hk : h.Keeps master?) (i : ι) (hothers : ∀ j, j ≠ i → master?' j = master? j)
    (ht : h.Treats (master? i) events h' (master?' i)) : h'.Keeps master?' := by
  have hfresh {n : Nat} (hn : n ∈ handedOut events) : n ∉ handedOut h.journal := ht.hands.notMem hk.issued hn
  have hheld {n : Nat} (hn : IsHeld h.journal n) (hopen : n ∉ closings events) : IsHeld h'.journal n := by
    unfold IsHeld
    rw [ht.hands.journal, handedOut_append, closings_append, List.mem_append, List.mem_append]
    exact ⟨Or.inl hn.1, fun hclosed => hclosed.elim hn.2 hopen⟩
  have hother {j : ι} {n : Nat} (hj : j ≠ i) (hn : n ∈ master? j) : n ∉ closings events := by
    intro hclosed
    rcases ht.careful.closing hclosed with hmine | hnew
    · exact hj (hk.apart j i n hn hmine)
    · exact hfresh hnew (hk.held j n hn).1
  have hmaster {n : Nat} (hn : n ∈ master?' i) : IsHeld h'.journal n ∧ (n ∈ master? i ∨ n ∉ handedOut h.journal) := by
    rcases ht.master n hn with ⟨hold, hopen⟩ | ⟨hnew, hopen⟩
    · have hkept := hk.held i n hold
      exact ⟨hheld hkept fun hclosed => hfresh (hopen hclosed) hkept.1, Or.inl hold⟩
    · refine ⟨⟨?_, ?_⟩, Or.inr (hfresh hnew)⟩
      · rw [ht.hands.journal, handedOut_append]
        exact List.mem_append_right _ hnew
      · rw [ht.hands.journal, closings_append, List.mem_append]
        exact fun hclosed => hclosed.elim (fun hclosed => hfresh hnew (hk.careful.closed hclosed)) hopen
  refine ⟨ht.hands.issued hk.issued, ?_, ?_, ?_⟩
  · show IsCareful h'.journal
    rw [ht.hands.journal]
    refine Careful.append hk.careful ht.careful (fun n hn => ?_) (fun n hn hclosed => ?_)
    · exact ⟨Or.inr (hk.held i n hn).1, (hk.held i n hn).2⟩
    · exact hfresh hn (hk.careful.closed hclosed)
  · intro j n hn
    by_cases hj : j = i
    · subst hj
      exact (hmaster hn).1
    · rw [hothers j hj] at hn
      exact hheld (hk.held j n hn) (hother hj hn)
  · intro j j' n hn hn'
    have hone {j : ι} (hj : j ≠ i) (hmine : n ∈ master?' i) (hn : n ∈ master?' j) : False := by
      rw [hothers j hj] at hn
      rcases (hmaster hmine).2 with hold | hnew
      · exact hj (hk.apart j i n hn hold)
      · exact hnew (hk.held j n hn).1
    by_cases hj : j = i
    · by_cases hj' : j' = i
      · exact hj.trans hj'.symm
      · exact (hone hj' (hj ▸ hn) hn').elim
    · by_cases hj' : j' = i
      · exact (hone hj (hj' ▸ hn') hn).elim
      · rw [hothers j hj] at hn
        rw [hothers j' hj'] at hn'
        exact hk.apart j j' n hn hn'

/-- What is done to no handle leaves all holders what they hold. -/
theorem Keeps.quiet (hk : h.Keeps master?) (hhands : h.HandsOut events h') (htargets : ∀ event ∈ events, event.targets = []) :
    h'.Keeps master? where
  issued := hhands.issued hk.issued
  careful := by
    have hcareful : IsCareful events := .of_targets htargets
    unfold IsCareful
    rw [hhands.journal]
    refine Careful.append hk.careful hcareful (fun n hn => hn.elim) (fun n hn hclosed => ?_)
    exact hhands.notMem hk.issued hn (hk.careful.closed hclosed)
  held := by
    intro i n hn
    obtain ⟨hheld, hopen⟩ := hk.held i n hn
    unfold IsHeld
    rw [hhands.journal, handedOut_append, closings_append, List.mem_append, List.mem_append]
    refine ⟨Or.inl hheld, fun hclosed => hclosed.elim hopen fun hclosed => ?_⟩
    obtain ⟨event, hevent, hclosed⟩ := List.mem_flatMap.mp hclosed
    have htarget := Event.targets_of_closings hclosed
    rw [htargets event hevent] at htarget
    cases htarget
  apart := hk.apart

end Host

/-! ### What is done for a session -/

namespace Session
variable {s s' : Session} {h h' : Host}

/-- Every start begins with what is done to the terminal that it opens. -/
theorem careful_attempt (own : Nat → Prop) (s : Session) (n : Nat) : Careful own (s.attempt n) := by
  show Careful own ([] ++ [_] ++ [_] ++ [_])
  refine (((Careful.nil own).append_one fun k hk => absurd hk List.not_mem_nil).append_one ?_).append_one ?_
  · intro k hk
    obtain rfl : k = Host.subordinateOf n := by simpa [Event.targets, spawnOn] using hk
    simp [handedOut, closings, Event.handedOut, Event.closings]
  · intro k hk
    obtain rfl := List.mem_singleton.mp hk
    simp [handedOut, closings, Event.handedOut, Event.closings]

/-- Starting a session is done to the terminal that is opened for it, and not to a master that it had before. -/
theorem Starts.treats {r : Except Failure Device} (hstarts : Starts s h (r, s', h')) :
    ∃ events, h.Treats s.openMaster? events h' s'.openMaster? ∧ (s.Lively → s'.Lively) := by
  have hattempt := careful_attempt (· ∈ s.openMaster?) s (Host.masterHandle h.opened)
  cases hstarts with
  | unopened f hopening =>
    refine ⟨_, ⟨.of_nil rfl ?_ rfl, .of_targets ?_, fun n hn => Or.inl ⟨hn, ?_⟩⟩, fun hs => hs⟩
    · split <;> rfl
    · split <;> simp [Event.targets]
    · split <;> simp [closings, Event.closings]
  | refused f =>
    refine ⟨_, ⟨.attempted (s := s) rfl rfl rfl, ?_, fun n hn => Or.inl ⟨hn, ?_⟩⟩, fun hs => hs⟩
    · show Careful _ (_ ++ ([_] ++ [_]))
      rw [← List.append_assoc]
      refine (hattempt.append_one ?_).append_one nofun
      intro n hn
      obtain rfl := List.mem_singleton.mp hn
      simp [handedOut, closings, attempt, Event.handedOut, Event.closings, Host.subordinateOf]
    · simp [handedOut, closings, attempt, Event.handedOut, Event.closings, or_comm]
  | broken f =>
    refine ⟨_, ⟨.attempted (s := s) (List.append_nil _).symm rfl rfl, ?_, fun n hn => Or.inl ⟨hn, ?_⟩⟩, fun hs => hs⟩
    · rwa [List.append_nil]
    · simp +contextual [handedOut, closings, attempt, Event.handedOut, Event.closings]
  | connected =>
    refine ⟨_, ⟨.attempted (s := s) (List.append_nil _).symm rfl rfl, ?_, fun n hn => Or.inr ?_⟩, fun _ _ => rfl⟩
    · rwa [List.append_nil]
    · obtain ⟨m, hm, -, rfl⟩ := openMaster?_eq_some.mp hn
      cases hm
      simp [handedOut, closings, attempt, Event.handedOut, Event.closings, Host.subordinateOf]

/-- Closing an open master is done to that. -/
theorem treats_shut {m : Master} (hm : s.master = some m) (hopen : m.isOpen = true) (h : Host) :
    h.Treats s.openMaster? [.closingMaster m.handle] (h.note (.closingMaster m.handle)) (s.shut m).openMaster? where
  hands := .of_nil rfl rfl rfl
  careful := (Careful.nil _).append_one fun n hn => by
    obtain rfl := List.mem_singleton.mp hn
    exact ⟨Or.inl (openMaster?_eq_some.mpr ⟨m, hm, hopen, rfl⟩), List.not_mem_nil⟩
  master := nofun

/-- Resizing is done to the master of a session that is active. -/
theorem treats_resized {m : Master} (hm : s.master = some m) (hactive : s.status = .active) (hs : s.Lively) (h : Host)
    (columns rows : Int) : h.Treats s.openMaster? [.resizing m.handle columns rows]
      (h.resize m.handle columns rows).2 (Store.resized s (h.resize m.handle columns rows).1 columns rows).openMaster? := by
  obtain ⟨hjournal, hopened, -⟩ := Store.resize_leaves h m.handle columns rows
  have hopen : m.isOpen = true := by simpa [isOpen, hm] using hs hactive
  have hsame : (Store.resized s (h.resize m.handle columns rows).1 columns rows).openMaster? = s.openMaster? := by
    unfold Store.resized
    split <;> rfl
  rw [hsame]
  refine ⟨.of_nil hjournal rfl hopened, ?_, fun n hn => Or.inl ⟨hn, nofun⟩⟩
  refine (Careful.nil _).append_one fun n hn => ?_
  obtain rfl := List.mem_singleton.mp hn
  exact ⟨Or.inl (openMaster?_eq_some.mpr ⟨m, hm, hopen, rfl⟩), List.not_mem_nil⟩

end Session

end Teletype
