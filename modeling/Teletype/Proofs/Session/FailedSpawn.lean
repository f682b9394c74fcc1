import Teletype.Proofs.Session.Ownership

/-! # What is left when a child fails to start

Once a terminal is open, a child that fails to start leaves the session as it is and the subordinate side closed. The
master is closed only if the fault is one that a start handles. With any other fault it stays open, and since no session
has it, nothing that is done later ever closes it: the uid 4294967296 passes as positive, but fits no host. -/

namespace Teletype

namespace Store

section
variable {st : Store} {n : Nat}

/-! ### Handles that no session has -/

/-- The handle is held, but not as the open master of a session. -/
structure Lost (st : Store) (n : Nat) : Prop where
  held : IsHeld st.host.journal n
  unowned : ∀ k, st.openMaster? k ≠ some n

/-- What is handed out later is no handle that was handed out before. -/
theorem Numbered.notMem_events {st' : Store} {events : List Event} (hn : st'.Numbered)
    (hjournal : st'.host.journal = st.host.journal ++ events) (hmem : n ∈ handedOut st.host.journal) : n ∉ handedOut events := by
  have hnodup := hn.issued.nodup
  rw [hjournal, handedOut_append] at hnodup
  exact fun hnew => (List.nodup_append.mp hnodup).2.2 n hmem n hnew rfl

theorem Lost.turn (h : st.Lost n) (hl : st.Lively) (hn : st.Numbered) (t : Turn) : (st.turn t).2.Lost n := by
  obtain ⟨events, hjournal, htargets, hmasters⟩ := (turn_confined hl t).handles
  have hnew : n ∉ handedOut events := (hn.turn t).notMem_events hjournal h.held.1
  constructor
  · rw [hjournal]
    unfold IsHeld
    rw [handedOut_append, closings_append, List.mem_append, List.mem_append]
    refine ⟨Or.inl h.held.1, fun hclosed => hclosed.elim h.held.2 fun hclosed => ?_⟩
    obtain ⟨event, hevent, hclosed⟩ := List.mem_flatMap.mp hclosed
    rcases htargets event hevent n (Event.targets_of_closings hclosed) with hfresh | ⟨k, -, hmaster⟩
    · exact hnew hfresh
    · exact h.unowned k hmaster
  · intro k hk
    rcases hmasters k n hk with hold | ⟨-, hfresh⟩
    · exact h.unowned k hold
    · exact hnew hfresh

/-- A handle that is lost is never closed. -/
theorem Lost.after (h : st.Lost n) (hl : st.Lively) (hn : st.Numbered) (turns : List Turn) : (st.after turns).Lost n := by
  induction turns generalizing st with
  | nil => exact h
  | cons t turns ih => exact ih (h.turn hl hn t) ((turn_confined hl t).lively hl) (hn.turn t)

/-! ### Faults of spawning -/

theorem Numbered.withHost {h : Host} {events : List Event} (hn : st.Numbered) (hhands : st.host.HandsOut events h)
    (hnamed : h.named = st.host.named) : (st.withHost h).Numbered where
  issued := hhands.issued hn.issued
  masters := fun e he m hm => (hn.masters e he m hm).mono hhands.le
  ids := by
    intro e he
    obtain ⟨number, hlt, hid⟩ := hn.ids e he
    exact ⟨number, hnamed ▸ hlt, hid⟩
  current := hn.current

end

end Store

namespace Session
variable {s : Session} {h : Host} {f : Fault}

/-- A start whose child fails hands out the two handles of a terminal and closes the subordinate side, and the master
    only if the fault is one that it handles. -/
theorem start_of_spawning_fault (s : Session) (hopening : h.nextFaults.opening = none) (hspawning : h.nextFaults.spawning = some f) :
    ∃ h' events, s.start h = (.error (if f.refusesSpawn then .start f else .fault f), s, h') ∧
      h.HandsOut events h' ∧ h'.named = h.named ∧
      handedOut events = [Host.masterHandle h.opened, Host.subordinateOf (Host.masterHandle h.opened)] ∧
      closings events = if f.refusesSpawn then [Host.subordinateOf (Host.masterHandle h.opened), Host.masterHandle h.opened]
        else [Host.subordinateOf (Host.masterHandle h.opened)] := by
  cases hrefuses : f.refusesSpawn with
  | true =>
    have hstarts := Starts.refused (s := s) f hopening hspawning hrefuses
    exact ⟨_, _, hstarts.start_eq, .attempted (s := s) rfl rfl rfl, rfl, rfl, rfl⟩
  | false =>
    have hstarts := Starts.broken (s := s) f hopening hspawning hrefuses
    exact ⟨_, _, hstarts.start_eq, .attempted (s := s) (List.append_nil _).symm rfl rfl, rfl, rfl, rfl⟩

end Session

namespace Store

/-- However a child fails to start once a terminal is open, the session stays as it is, and the subordinate side is
    closed once. If the fault is one that a start handles, the start fails as one, and the master is closed once. Any
    other fault is passed on, and the master stays open, whatever is done later. -/
theorem spawning_fault_decides_master (managers : List Manager) (turns : List Turn) (c : Circumstances) (s : Session)
    (f : Fault) (hopening : (((founded managers).after turns).under c).host.nextFaults.opening = none)
    (hspawning : (((founded managers).after turns).under c).host.nextFaults.spawning = some f) :
    let st := ((founded managers).after turns).under c
    let master := Host.masterHandle st.host.opened
    ∃ h, s.start st.host = (.error (if f.refusesSpawn then .start f else .fault f), s, h) ∧
      (closings h.journal).count (Host.subordinateOf master) = 1 ∧
      (closings h.journal).count master = (if f.refusesSpawn then 1 else 0) ∧
      (∀ n, IsHeld h.journal n ↔ IsHeld st.host.journal n ∨ n = master ∧ f.refusesSpawn = false) ∧
      (f.refusesSpawn = false → ∀ later : List Turn, IsHeld ((st.withHost h).after later).host.journal master) := by
  intro st master
  obtain ⟨-, hapart⟩ := (Owners.hold_founded managers).after (apart_founded managers) turns
  have hn : st.Numbered := hapart.numbered.under c
  have hcareful : IsCareful st.host.journal := hapart.keeps.careful
  obtain ⟨h, events, hstart, hhands, hnamed, hhanded, hclosed⟩ := s.start_of_spawning_fault hopening hspawning
  have hsub : master ≤ Host.subordinateOf master := Nat.le_succ master
  -- Neither handle of the new terminal was handed out before, let alone closed.
  have hfresh {n : Nat} (hle : master ≤ n) : n ∉ handedOut st.host.journal := fun hmem => by
    have hlt := hn.issued.below n hmem
    omega
  have hcount {n : Nat} (hle : master ≤ n) : (closings h.journal).count n = (closings events).count n := by
    have hnone : n ∉ closings st.host.journal := fun hmem => hfresh hle (hcareful.closed hmem)
    rw [hhands.journal, closings_append, List.count_append, List.count_eq_zero.mpr hnone, Nat.zero_add]
  have hheld (n : Nat) : IsHeld h.journal n ↔ IsHeld st.host.journal n ∨ n = master ∧ f.refusesSpawn = false := by
    have hnew : n ∈ handedOut events ↔ n = master ∨ n = Host.subordinateOf master := by
      rw [hhanded]
      simp [master, st]
    have hgone : n ∈ closings events ↔ n = Host.subordinateOf master ∨ n = master ∧ f.refusesSpawn = true := by
      rw [hclosed]
      split <;> simp_all [master, st]
    unfold IsHeld
    rw [hhands.journal, handedOut_append, closings_append, List.mem_append, List.mem_append, hnew, hgone]
    constructor
    · rintro ⟨hold | rfl | rfl, hopen⟩
      · exact Or.inl ⟨hold, fun hclosed => hopen (Or.inl hclosed)⟩
      · exact Or.inr ⟨rfl, by simpa using fun hrefuses => hopen (Or.inr (Or.inr ⟨rfl, hrefuses⟩))⟩
      · exact absurd (Or.inr (Or.inl rfl)) hopen
    · rintro (⟨hold, hopen⟩ | ⟨rfl, hother⟩)
      · refine ⟨Or.inl hold, ?_⟩
        rintro (hclosed | rfl | ⟨rfl, -⟩)
        · exact hopen hclosed
        · exact hfresh hsub hold
        · exact hfresh (Nat.le_refl master) hold
      · refine ⟨Or.inr (Or.inl rfl), ?_⟩
        rintro (hclosed | hsame | ⟨-, hrefuses⟩)
        · exact hfresh (Nat.le_refl master) (hcareful.closed hclosed)
        · exact absurd hsame (Nat.ne_of_lt (Nat.lt_succ_self master))
        · rw [hother] at hrefuses
          cases hrefuses
  refine ⟨h, hstart, ?_, ?_, hheld, fun hother later => ?_⟩
  · rw [hcount hsub, hclosed]
    split <;> simp [Host.subordinateOf, master, st]
  · rw [hcount (Nat.le_refl master), hclosed]
    split <;> simp [Host.subordinateOf, master, st]
  · have hlost : (st.withHost h).Lost master := by
      refine ⟨(hheld master).mpr (Or.inr ⟨rfl, hother⟩), fun k hk => ?_⟩
      exact hfresh (Nat.le_refl master) (hapart.keeps.held (Sum.inl k) master hk).1
    exact (hlost.after hapart.lively (hn.withHost hhands hnamed) later).held

/-- A host that refuses a user id because it is too great. -/
def overflowing : Circumstances where
  faults := { spawning := some ⟨.overflow, "uid is greater than maximum"⟩ }
  database := fun _ => Identity.Tables.database {}

theorem overflowing_uid_loses_master :
    let s : Session := { id := "00000001", command := ["sh"], credential := some ⟨4294967296, 1000, []⟩ }
    let f : Fault := ⟨.overflow, "uid is greater than maximum"⟩
    let st := ((founded []).after []).under overflowing
    st.host.nextFaults.opening = none ∧ st.host.nextFaults.spawning = some f ∧
      ∃ h, s.start st.host = (.error (.fault f), s, h) ∧ (closings h.journal).count 101 = 1 ∧
        (closings h.journal).count 100 = 0 ∧
        ∀ later : List Turn, IsHeld ((st.withHost h).after later).host.journal 100 := by
  intro s f st
  obtain ⟨h, hstart, hsubordinate, hmaster, -, hlost⟩ := spawning_fault_decides_master [] [] overflowing s f rfl rfl
  exact ⟨rfl, rfl, h, hstart, hsubordinate, hmaster, hlost rfl⟩

end Store

end Teletype
