import Teletype.Proofs.Session.Run

/-! # Numbers are given once

A host counts the terminals that it opens and the sessions that it names. Whatever is done, in a store of managers
every handle and every id comes from such a number, no handle is handed out twice, and the session that a manager
has turned to is one that there is. -/

namespace Teletype

/-! ### Handles -/

/-- The handles that the host hands out. -/
def Event.handedOut : Event → List Nat
  | .opened master subordinate => [master, subordinate]
  | _ => []

/-- All handles handed out, in order. -/
def handedOut (events : List Event) : List Nat := events.flatMap Event.handedOut

@[simp] theorem handedOut_append (p q : List Event) : handedOut (p ++ q) = handedOut p ++ handedOut q := List.flatMap_append

theorem mem_handedOut {events : List Event} {handle : Nat} : handle ∈ handedOut events ↔
    ∃ master subordinate, Event.opened master subordinate ∈ events ∧ (handle = master ∨ handle = subordinate) := by
  constructor
  · intro h
    obtain ⟨event, hevent, hhandle⟩ := List.mem_flatMap.mp h
    cases event with
    | opened master subordinate => exact ⟨master, subordinate, hevent, by simpa [Event.handedOut] using hhandle⟩
    | spawning | closed | resizing | closingMaster | told => cases hhandle
  · rintro ⟨master, subordinate, hevent, hhandle⟩
    exact List.mem_flatMap.mpr ⟨_, hevent, by simpa [Event.handedOut] using hhandle⟩

namespace Host

/-- The handle is that of the master of one of the terminals that have been opened. -/
def IsMaster (h : Host) (handle : Nat) : Prop := ∃ n < h.opened, handle = masterHandle n

theorem IsMaster.mono {h h' : Host} {handle : Nat} (hle : h.opened ≤ h'.opened) : h.IsMaster handle → h'.IsMaster handle := by
  rintro ⟨n, hn, hhandle⟩
  exact ⟨n, Nat.lt_of_lt_of_le hn hle, hhandle⟩

/-- All handles handed out are those of terminals that have been opened, each once. -/
structure Issued (h : Host) : Prop where
  nodup : (handedOut h.journal).Nodup
  below : ∀ handle ∈ handedOut h.journal, handle < masterHandle h.opened
  opened : ∀ master subordinate, .opened master subordinate ∈ h.journal → subordinate = subordinateOf master ∧ h.IsMaster master

/-- What is written into the journal hands out only handles of terminals that are opened meanwhile. -/
structure HandsOut (h : Host) (events : List Event) (h' : Host) : Prop where
  journal : h'.journal = h.journal ++ events
  nodup : (handedOut events).Nodup
  fresh : ∀ handle ∈ handedOut events, masterHandle h.opened ≤ handle ∧ handle < masterHandle h'.opened
  opened : ∀ master subordinate, .opened master subordinate ∈ events → subordinate = subordinateOf master ∧ h'.IsMaster master
  le : h.opened ≤ h'.opened

variable {h h' : Host} {events : List Event}

/-- Events that open nothing hand out nothing. -/
theorem HandsOut.of_nil (hjournal : h'.journal = h.journal ++ events) (hnone : handedOut events = [])
    (hopened : h'.opened = h.opened) : h.HandsOut events h' where
  journal := hjournal
  nodup := hnone ▸ List.nodup_nil
  fresh := by rw [hnone]; nofun
  opened := by
    intro master subordinate hevent
    have hmem := mem_handedOut.mpr ⟨master, subordinate, hevent, Or.inl rfl⟩
    rw [hnone] at hmem
    cases hmem
  le := Nat.le_of_eq hopened.symm

/-- A start that opens a terminal hands out the two handles of that. -/
theorem HandsOut.attempted {s : Session} (hjournal : h'.journal = (s.attempted h).journal ++ events)
    (hnone : handedOut events = []) (hopened : h'.opened = h.opened + 1) :
    h.HandsOut (s.attempt (masterHandle h.opened) ++ events) h' where
  journal := by
    rw [hjournal, ← List.append_assoc]
    rfl
  nodup := by
    rw [handedOut_append, hnone, List.append_nil]
    simp [handedOut, Session.attempt, Event.handedOut, subordinateOf]
  fresh := by
    rw [handedOut_append, hnone, List.append_nil, hopened]
    simp only [handedOut, Session.attempt, Event.handedOut, List.flatMap_cons, List.flatMap_nil, List.append_nil,
      List.mem_cons, List.not_mem_nil, or_false, subordinateOf, masterHandle]
    omega
  opened := by
    intro master subordinate hevent
    rcases List.mem_append.mp hevent with hevent | hevent
    · simp only [Session.attempt, List.mem_cons, Event.opened.injEq, List.not_mem_nil, or_false, reduceCtorEq] at hevent
      obtain ⟨rfl, rfl⟩ := hevent
      exact ⟨rfl, h.opened, by omega, rfl⟩
    · have hmem := mem_handedOut.mpr ⟨master, subordinate, hevent, Or.inl rfl⟩
      rw [hnone] at hmem
      cases hmem
  le := by omega

theorem HandsOut.issued (hhands : h.HandsOut events h') (hi : h.Issued) : h'.Issued where
  nodup := by
    rw [hhands.journal, handedOut_append, List.nodup_append]
    refine ⟨hi.nodup, hhands.nodup, fun a ha b hb hab => ?_⟩
    have hlt := hi.below a ha
    have hge := (hhands.fresh b hb).1
    omega
  below := by
    intro handle hmem
    rw [hhands.journal, handedOut_append] at hmem
    rcases List.mem_append.mp hmem with hmem | hmem
    · have hlt := hi.below handle hmem
      have hle := hhands.le
      unfold masterHandle at hlt ⊢
      omega
    · exact (hhands.fresh handle hmem).2
  opened := by
    intro master subordinate hevent
    rw [hhands.journal] at hevent
    rcases List.mem_append.mp hevent with hevent | hevent
    · obtain ⟨hsubordinate, hmaster⟩ := hi.opened master subordinate hevent
      exact ⟨hsubordinate, hmaster.mono hhands.le⟩
    · exact hhands.opened master subordinate hevent

/-! ### Names -/

/-- The name that is given after so many others. -/
def nameAfter (n : Nat) : String := String.ofList (Text.paddedDigits 10 8 (n + 1))

/-- How many names were given before this one. -/
def namesBefore (name : String) : Nat := Nat.ofDigitChars 10 name.toList 0 - 1

theorem name_eq (h : Host) : h.name = (nameAfter h.named, { h with named := h.named + 1 }) := rfl

theorem namesBefore_nameAfter (n : Nat) : namesBefore (nameAfter n) = n := by
  have hzeros (count : Nat) : Nat.ofDigitChars 10 (List.replicate count '0') 0 = 0 := by
    induction count with
    | zero => rfl
    | succ count ih => rwa [List.replicate_succ, Nat.ofDigitChars_cons]
  unfold namesBefore nameAfter Text.paddedDigits
  dsimp only
  rw [String.toList_ofList, Nat.ofDigitChars_append, hzeros, Nat.ofDigitChars_ten_toDigits]
  rfl

end Host

/-- A start keeps the session's id and names nobody. A master that the session has afterwards is its own or that of
    the terminal that has been opened. -/
theorem Session.Starts.numbers {s s' : Session} {h h' : Host} {r : Except Failure Device} (hstarts : Starts s h (r, s', h')) :
    (∃ events, h.HandsOut events h') ∧ h'.named = h.named ∧ s'.id = s.id ∧
      ∀ m ∈ s'.master, m ∈ s.master ∨ h'.IsMaster m.handle := by
  cases hstarts with
  | unopened f hopening =>
    refine ⟨⟨_, .of_nil rfl ?_ rfl⟩, rfl, rfl, fun m hm => Or.inl hm⟩
    split <;> rfl
  | refused => exact ⟨⟨_, .attempted (s := s) rfl rfl rfl⟩, rfl, rfl, fun m hm => Or.inl hm⟩
  | broken => exact ⟨⟨_, .attempted (s := s) (List.append_nil _).symm rfl rfl⟩, rfl, rfl, fun m hm => Or.inl hm⟩
  | connected =>
    refine ⟨⟨_, .attempted (s := s) (List.append_nil _).symm rfl rfl⟩, rfl, rfl, ?_⟩
    rintro m ⟨⟩
    exact Or.inr ⟨h.opened, Nat.lt_succ_self _, rfl⟩

namespace Store

theorem mem_of_entry {st : Store} {k : Nat} {e : Entry} (he : st.entry? k = some e) : e ∈ st.entries := List.mem_of_getElem? he

/-- All numbers in a store have been given: handles by opening terminals, ids by naming sessions, and the numbers of
    managers' sessions by making these. -/
structure Numbered (st : Store) : Prop where
  issued : st.host.Issued
  masters : ∀ e ∈ st.entries, ∀ m ∈ e.session.master, st.host.IsMaster m.handle
  ids : ∀ e ∈ st.entries, ∃ n < st.host.named, e.session.id = Host.nameAfter n
  current : ∀ {m : Nat} {manager : Manager} {k : Nat}, st.manager? m = some manager → manager.current = some k →
    k < st.entries.length

section
variable {st st' : Store} {k : Nat} {e e' : Entry} {h : Host}

theorem numbered_founded (managers : List Manager) : (founded managers).Numbered where
  issued := ⟨List.nodup_nil, fun _ h => absurd h List.not_mem_nil, fun _ _ h => absurd h List.not_mem_nil⟩
  masters := fun _ h => absurd h List.not_mem_nil
  ids := fun _ h => absurd h List.not_mem_nil
  current := by
    intro m manager k hm hk
    obtain ⟨x, -, rfl⟩ := List.mem_map.mp (List.mem_of_getElem? hm)
    cases hk

theorem Numbered.setEntry (hn : st.Numbered) (he : st.entry? k = some e) (hissued : h.Issued)
    (hopened : st.host.opened ≤ h.opened) (hnamed : h.named = st.host.named)
    (hmasters : ∀ m ∈ e'.session.master, h.IsMaster m.handle) (hid : e'.session.id = e.session.id) :
    ((st.withHost h).setEntry k e').Numbered where
  issued := hissued
  masters := by
    intro x hx m hm
    rcases List.mem_or_eq_of_mem_set hx with hx | rfl
    · exact (hn.masters x hx m hm).mono hopened
    · exact hmasters m hm
  ids := by
    intro x hx
    show ∃ n < h.named, x.session.id = _
    rw [hnamed]
    rcases List.mem_or_eq_of_mem_set hx with hx | rfl
    · exact hn.ids x hx
    · rw [hid]
      exact hn.ids e (mem_of_entry he)
  current := by
    intro m manager n hm hn'
    rw [show ((st.withHost h).setEntry k e').entries.length = st.entries.length from List.length_set ..]
    exact hn.current hm hn'

theorem Move.numbered {op : Operation} (hmove : Move op st st') (hn : st.Numbered) : st'.Numbered := by
  cases hmove with
  | told n =>
    have hhands : st.host.HandsOut [.told n] (st.host.tell n) := .of_nil rfl rfl rfl
    exact ⟨hhands.issued hn.issued, hn.masters, hn.ids, hn.current⟩
  | inquired | passed => exact ⟨hn.issued, hn.masters, hn.ids, hn.current⟩
  | joined hop command environment credential =>
    refine ⟨⟨hn.issued.nodup, hn.issued.below, hn.issued.opened⟩, fun x hx => ?_, fun x hx => ?_, fun hm hk => ?_⟩
    · rcases List.mem_append.mp hx with hx | hx
      · exact hn.masters x hx
      · obtain rfl := List.mem_singleton.mp hx
        exact nofun
    · rcases List.mem_append.mp hx with hx | hx
      · obtain ⟨n, hlt, hid⟩ := hn.ids x hx
        exact ⟨n, Nat.lt_succ_of_lt hlt, hid⟩
      · obtain rfl := List.mem_singleton.mp hx
        exact ⟨st.host.named, Nat.lt_succ_self _, rfl⟩
    · exact Nat.lt_of_lt_of_le (hn.current hm hk) (List.length_append ▸ Nat.le_add_right ..)
  | appointed hop m manager k hm hk =>
    refine ⟨hn.issued, hn.masters, hn.ids, fun {n x j} hx hj => ?_⟩
    have hx : (st.managers.set m { manager with current := some k })[n]? = some x := hx
    rw [List.getElem?_set] at hx
    split at hx
    · split at hx
      · obtain rfl := Option.some.inj hx
        obtain rfl := Option.some.inj hj
        exact hk
      · cases hx
    · exact hn.current hx hj
  | started hop k e he hpending r s h hstarts terminal =>
    obtain ⟨⟨events, hhands⟩, hnamed, hid, hmasters⟩ := hstarts.numbers
    refine hn.setEntry he (hhands.issued hn.issued) hhands.le hnamed (fun m hm => ?_) hid
    rcases hmasters m hm with hold | hnew
    · exact (hn.masters e (mem_of_entry he) m hold).mono hhands.le
    · exact hnew
  | closed k e m he hm hopen =>
    have hhands : st.host.HandsOut [.closingMaster m.handle] (st.host.note (.closingMaster m.handle)) := .of_nil rfl rfl rfl
    refine hn.setEntry he (hhands.issued hn.issued) hhands.le rfl ?_ rfl
    rintro _ ⟨⟩
    exact hn.masters e (mem_of_entry he) m hm
  | resized k e m columns rows he hactive hm =>
    obtain ⟨hjournal, hopened, hnamed⟩ := resize_leaves st.host m.handle columns rows
    have hhands := Host.HandsOut.of_nil hjournal rfl hopened
    refine hn.setEntry he (hhands.issued hn.issued) hhands.le hnamed ?_ ?_
    · intro x hx
      refine (hn.masters e (mem_of_entry he) x ?_).mono hhands.le
      revert hx
      unfold Store.resized
      split <;> exact id
    · unfold Store.resized
      split <;> rfl
  | used k e he terminal written =>
    exact hn.setEntry (h := st.host) he hn.issued (Nat.le_refl _) rfl (hn.masters e (mem_of_entry he)) rfl

theorem Numbered.under (hn : st.Numbered) (c : Circumstances) : (st.under c).Numbered where
  issued := ⟨hn.issued.nodup, hn.issued.below, hn.issued.opened⟩
  masters := hn.masters
  ids := hn.ids
  current := by
    intro m manager k hm hk
    rw [manager?_under] at hm
    obtain ⟨x, hx, rfl⟩ := Option.map_eq_some_iff.mp hm
    exact hn.current hx hk

theorem Numbered.turn (hn : st.Numbered) (t : Turn) : (st.turn t).2.Numbered :=
  (perform_moves _ t.operation).keep Move.numbered (hn.under t.circumstances)

theorem Numbered.after (hn : st.Numbered) (turns : List Turn) : (st.after turns).Numbered := by
  induction turns generalizing st with
  | nil => exact hn
  | cons t turns ih => exact ih (hn.turn t)

end

end Store

end Teletype
