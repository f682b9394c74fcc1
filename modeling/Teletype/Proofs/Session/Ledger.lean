import Mathlib.Data.List.Nodup
import Mathlib.Data.List.Perm.Basic
import Teletype.Proofs.Session.Numbering

/-! # Every handle is accounted for

A terminal that is opened hands out two handles. In a store of managers each of them is at any time either closed,
once, or the open master of an active session, as long as the faults of the host are the ordinary ones. -/

namespace Teletype

/-! ### Ordinary faults -/

/-- Opening and resizing fail as system calls do, and spawning only by refusing the child. -/
structure Faults.Ordinary (f : Faults) : Prop where
  opening : ∀ x ∈ f.opening, x.isSystem = true
  spawning : ∀ x ∈ f.spawning, x.refusesSpawn = true
  resizing : ∀ x ∈ f.resizing, x.isSystem = true

/-- A device that brings ordinary faults, and whose closing fails as a system call does. -/
structure Device.Ordinary (d : Device) : Prop where
  faults : d.faults.Ordinary
  closing : ∀ x ∈ d.closeFault, x.isSystem = true

/-- All faults that are to come are ordinary. -/
structure Circumstances.Ordinary (c : Circumstances) : Prop where
  faults : c.faults.Ordinary
  devices : ∀ d ∈ c.devices, d.Ordinary

/-- All faults that a host has ready or that devices will bring to it are ordinary. -/
structure Host.Ordinary (h : Host) : Prop where
  faults : h.faults.Ordinary
  devices : ∀ d ∈ h.devices, d.Ordinary

theorem Faults.ordinary_empty : Faults.Ordinary {} := ⟨nofun, nofun, nofun⟩

theorem Faults.Ordinary.updated {old new : Faults} (h : old.Ordinary) (h' : new.Ordinary) : (old.updated new).Ordinary := by
  have hpick {p : Fault → Prop} {a b : Option Fault} (ha : ∀ x ∈ a, p x) (hb : ∀ x ∈ b, p x) : ∀ x ∈ a <|> b, p x := by
    cases a with
    | none => simpa using hb
    | some f => simpa using ha
  exact ⟨hpick h'.opening h.opening, hpick h'.spawning h.spawning, hpick h'.resizing h.resizing⟩

namespace Host.Ordinary
variable {h : Host}

theorem nextDevice (ho : h.Ordinary) : h.nextDevice.Ordinary := by
  unfold Host.nextDevice
  cases hdevices : h.devices with
  | nil => exact ⟨Faults.ordinary_empty, nofun⟩
  | cons d devices => exact ho.devices d (hdevices ▸ List.mem_cons_self)

theorem nextFaults (ho : h.Ordinary) : h.nextFaults.Ordinary := ho.faults.updated ho.nextDevice.faults

theorem dropDevice (ho : h.Ordinary) : ∀ d ∈ h.devices.drop 1, d.Ordinary :=
  fun d hd => ho.devices d (List.mem_of_mem_drop hd)

theorem resize (ho : h.Ordinary) (handle : Nat) (columns rows : Int) : (h.resize handle columns rows).2.Ordinary := by
  unfold Host.resize
  dsimp only
  split
  · exact ⟨⟨ho.faults.opening, ho.faults.spawning, nofun⟩, ho.devices⟩
  · exact ⟨ho.faults, ho.devices⟩

end Host.Ordinary

/-! ### Sessions -/

/-- The handles that the host is asked to close. -/
def Event.closings : Event → List Nat
  | .closed handle | .closingMaster handle => [handle]
  | _ => []

/-- All handles closed, in order. -/
def closings (events : List Event) : List Nat := events.flatMap Event.closings

@[simp] theorem closings_append (p q : List Event) : closings (p ++ q) = closings p ++ closings q := List.flatMap_append

/-- The handle was handed out and has not been closed. -/
def IsHeld (events : List Event) (handle : Nat) : Prop := handle ∈ handedOut events ∧ handle ∉ closings events

/-- The handle of the master of an active session. -/
def Session.activeMaster? (s : Session) : Option Nat := if s.isActive then s.master.map (·.handle) else none

/-- The handles of the masters of all active sessions. -/
def Store.activeMasters (st : Store) : List Nat := st.entries.filterMap fun e => e.session.activeMaster?

/-- A session is active as long as its master is open, and closing that fails at most as a system call does. -/
structure Session.Sound (s : Session) : Prop where
  active_iff : s.status = .active ↔ s.isOpen = true
  closing : ∀ m ∈ s.master, ∀ f ∈ m.closeFault, f.isSystem = true

namespace Session
variable {s s' : Session} {m : Master}

theorem activeMaster?_of_active (hactive : s.status = .active) (hm : s.master = some m) : s.activeMaster? = some m.handle := by
  simp [activeMaster?, isActive, hactive, hm]

theorem activeMaster?_of_ne (hactive : s.status ≠ .active) : s.activeMaster? = none := by
  simp [activeMaster?, isActive, hactive]

theorem activeMaster?_resized (fault : Option Fault) (columns rows : Int) :
    (Store.resized s fault columns rows).activeMaster? = s.activeMaster? := by
  unfold Store.resized
  split <;> rfl

theorem sound_fresh (st : Store) (command : List String) (environment : Environment) (credential : Option Credential) :
    (st.fresh command environment credential).Sound := ⟨⟨nofun, nofun⟩, nofun⟩

theorem Sound.shut (s : Session) (m : Master) : (s.shut m).Sound where
  active_iff := ⟨nofun, nofun⟩
  closing := by
    rintro _ ⟨⟩
    exact nofun

theorem Sound.resized (h : s.Sound) (fault : Option Fault) (columns rows : Int) : (Store.resized s fault columns rows).Sound := by
  unfold Store.resized
  split
  · exact ⟨h.active_iff, h.closing⟩
  · exact h

/-- A start on a host with ordinary faults leaves only such faults, and the session as sound as it was. -/
theorem Starts.sound {h h' : Host} {r : Except Failure Device} (hstarts : Starts s h (r, s', h')) (ho : h.Ordinary)
    (hs : s.Sound) : s'.Sound ∧ h'.Ordinary := by
  have hfaults := ho.nextFaults
  cases hstarts with
  | unopened => exact ⟨hs, ⟨nofun, hfaults.spawning, hfaults.resizing⟩, ho.dropDevice⟩
  | refused | broken => exact ⟨hs, ⟨hfaults.opening, nofun, hfaults.resizing⟩, ho.dropDevice⟩
  | connected =>
    refine ⟨⟨⟨fun _ => rfl, fun _ => rfl⟩, ?_⟩, hfaults, ho.dropDevice⟩
    rintro _ ⟨⟩
    exact ho.nextDevice.closing

end Session

namespace Store

/-- All sessions are sound, and all faults to come are ordinary. -/
structure Regular (st : Store) : Prop where
  sound : ∀ e ∈ st.entries, e.session.Sound
  ordinary : st.host.Ordinary

section
variable {st st' : Store} {k : Nat} {e e' : Entry} {h : Host}

theorem regular_founded (managers : List Manager) : (founded managers).Regular where
  sound := fun _ h => absurd h List.not_mem_nil
  ordinary := ⟨Faults.ordinary_empty, fun _ h => absurd h List.not_mem_nil⟩

theorem Regular.setEntry (hr : st.Regular) (hsound : e'.session.Sound) (hordinary : h.Ordinary) :
    ((st.withHost h).setEntry k e').Regular where
  sound := by
    intro x hx
    rcases List.mem_or_eq_of_mem_set hx with hx | rfl
    · exact hr.sound x hx
    · exact hsound
  ordinary := hordinary

theorem Move.regular {op : Operation} (hmove : Move op st st') (hr : st.Regular) : st'.Regular := by
  cases hmove with
  | told => exact ⟨hr.sound, hr.ordinary.faults, hr.ordinary.devices⟩
  | inquired | appointed | passed => exact ⟨hr.sound, hr.ordinary⟩
  | joined hop command environment credential =>
    refine ⟨fun x hx => ?_, hr.ordinary.faults, hr.ordinary.devices⟩
    rcases List.mem_append.mp hx with hx | hx
    · exact hr.sound x hx
    · obtain rfl := List.mem_singleton.mp hx
      exact Session.sound_fresh st command environment credential
  | started hop k e he hpending r s h hstarts terminal =>
    obtain ⟨hsound, hordinary⟩ := hstarts.sound hr.ordinary (hr.sound e (mem_of_entry he))
    exact hr.setEntry hsound hordinary
  | closed k e m he hm hopen => exact hr.setEntry (.shut e.session m) ⟨hr.ordinary.faults, hr.ordinary.devices⟩
  | resized k e m columns rows he hactive hm =>
    exact hr.setEntry ((hr.sound e (mem_of_entry he)).resized _ _ _) (hr.ordinary.resize _ _ _)
  | used k e he terminal written => exact hr.setEntry (h := st.host) (hr.sound e (mem_of_entry he)) hr.ordinary

theorem Regular.under (hr : st.Regular) {c : Circumstances} (hc : c.Ordinary) : (st.under c).Regular :=
  ⟨hr.sound, hc.faults, hc.devices⟩

theorem Regular.turn (hr : st.Regular) {t : Turn} (hc : t.circumstances.Ordinary) : (st.turn t).2.Regular :=
  (perform_moves _ t.operation).keep Move.regular (hr.under hc)

theorem Regular.after (hr : st.Regular) {turns : List Turn} (hturns : ∀ t ∈ turns, t.circumstances.Ordinary) :
    (st.after turns).Regular := by
  induction turns generalizing st with
  | nil => exact hr
  | cons t turns ih =>
    exact ih (hr.turn (hturns t List.mem_cons_self)) fun x hx => hturns x (List.mem_cons_of_mem t hx)

end

end Store

/-! ### The ledger -/

/-- Replacing one member of a list replaces what a filter makes of it. -/
theorem perm_filterMap_set {α β : Type} {f : α → Option β} : ∀ {l : List α} {k : Nat} {a : α} (b : α), l[k]? = some a →
    ((f b).toList ++ l.filterMap f).Perm ((f a).toList ++ (l.set k b).filterMap f)
  | [], k, a, b, h => by simp at h
  | x :: l, 0, a, b, h => by
    obtain rfl : x = a := by simpa using h
    rw [List.set_cons_zero, List.filterMap_cons, List.filterMap_cons]
    cases f b <;> cases f x <;> simp [List.Perm.swap]
  | x :: l, k + 1, a, b, h => by
    have ih := perm_filterMap_set (f := f) b (l := l) (k := k) (a := a) (by simpa using h)
    rw [List.set_cons_succ, List.filterMap_cons, List.filterMap_cons]
    cases f x with
    | none => exact ih
    | some y =>
      have hmiddle (p q : List β) : (p ++ y :: q).Perm (y :: (p ++ q)) := List.perm_middle
      exact (hmiddle _ _).trans ((ih.cons y).trans (hmiddle _ _).symm)

namespace Store

/-- All that was handed out is closed or the master of an active session. -/
def Balanced (st : Store) : Prop := (handedOut st.host.journal).Perm (closings st.host.journal ++ st.activeMasters)

section
variable {st st' : Store} {k : Nat} {e e' : Entry} {h : Host} {events : List Event}

theorem balanced_founded (managers : List Manager) : (founded managers).Balanced := List.Perm.nil

/-- The ledger stays balanced when what is handed out and closed is made up for by what becomes of the masters of
    active sessions. -/
theorem Balanced.change (hb : st.Balanced) (hjournal : st'.host.journal = st.host.journal ++ events)
    (hmasters : (handedOut events ++ st.activeMasters).Perm (closings events ++ st'.activeMasters)) : st'.Balanced := by
  unfold Balanced at hb ⊢
  rw [hjournal, handedOut_append, closings_append]
  -- Lists are permutations of each other if they hold every handle as often, and then order is out of the way.
  rw [List.perm_iff_count] at hb hmasters ⊢
  intro handle
  have h₁ := hb handle
  have h₂ := hmasters handle
  simp only [List.count_append] at h₁ h₂ ⊢
  omega

/-- The ledger stays balanced while neither handles nor sessions are touched. -/
theorem Balanced.quiet (hb : st.Balanced) (hjournal : st'.host.journal = st.host.journal ++ events)
    (hhanded : handedOut events = []) (hclosings : closings events = []) (hmasters : st'.activeMasters = st.activeMasters) :
    st'.Balanced :=
  hb.change hjournal (by rw [hhanded, hclosings, hmasters])

/-- The ledger stays balanced when one session changes as the journal says. -/
theorem Balanced.setEntry (hb : st.Balanced) (he : st.entry? k = some e) (hjournal : h.journal = st.host.journal ++ events)
    (hmaster : (handedOut events ++ e.session.activeMaster?.toList).Perm (closings events ++ e'.session.activeMaster?.toList)) :
    ((st.withHost h).setEntry k e').Balanced := by
  refine hb.change hjournal ?_
  have hset := perm_filterMap_set (f := fun e : Entry => e.session.activeMaster?) e' he
  rw [List.perm_iff_count] at hmaster hset ⊢
  intro handle
  have h₁ := hmaster handle
  have h₂ := hset handle
  show List.count handle (handedOut events ++ st.entries.filterMap _) =
    List.count handle (closings events ++ (st.entries.set k e').filterMap _)
  simp only [List.count_append] at h₁ h₂ ⊢
  omega

theorem Balanced.started (hb : st.Balanced) (ho : st.host.Ordinary) (he : st.entry? k = some e)
    (hpending : e.session.status = .pending) {r : Except Failure Device} {s : Session}
    (hstarts : Session.Starts e.session st.host (r, s, h)) (terminal : Terminal) :
    ((st.withHost h).setEntry k { e with session := s, terminal }).Balanced := by
  have hidle : e.session.activeMaster? = none := Session.activeMaster?_of_ne (by rw [hpending]; nofun)
  cases hstarts with
  | unopened f hopening => exact hb.setEntry he rfl (by split <;> exact List.Perm.refl _)
  | refused f hopening hspawning hrefuses =>
    refine hb.setEntry he (List.append_assoc ..) ?_
    rw [hidle]
    exact List.Perm.swap _ _ _
  | broken f hopening hspawning hother =>
    rw [ho.nextFaults.spawning f hspawning] at hother
    cases hother
  | connected hopening hspawning =>
    refine hb.setEntry he rfl ?_
    rw [hidle]
    exact List.Perm.swap _ _ _

/-- Every move of a managed operation keeps the ledger balanced. -/
theorem Move.balanced {op : Operation} (hop : op.isManaged = true) (hmove : Move op st st') (hr : st.Regular)
    (hb : st.Balanced) : st'.Balanced := by
  cases hmove with
  | told n =>
    have hjournal : (st.withHost (st.host.tell n)).host.journal = st.host.journal ++ [.told n] := rfl
    exact hb.quiet hjournal rfl rfl rfl
  | inquired | appointed | passed => exact hb
  | joined hmakes command environment credential =>
    refine hb.quiet (List.append_nil _).symm rfl rfl ?_
    show (st.entries ++ [_]).filterMap _ = st.entries.filterMap _
    rw [List.filterMap_append]
    exact List.append_nil _
  | started hmakes k e he hpending r s h hstarts terminal => exact hb.started hr.ordinary he (hpending hop) hstarts terminal
  | closed k e m he hm hopen =>
    have hactive : e.session.status = .active :=
      (hr.sound e (mem_of_entry he)).active_iff.mpr (Session.isOpen_iff.mpr ⟨m, hm, hopen⟩)
    refine hb.setEntry he rfl ?_
    rw [Session.activeMaster?_of_active hactive hm]
    exact List.Perm.refl _
  | resized k e m columns rows he hactive hm =>
    refine hb.setEntry he (resize_leaves st.host m.handle columns rows).1 ?_
    rw [Session.activeMaster?_resized]
    exact List.Perm.refl _
  | used k e he terminal written =>
    exact hb.setEntry (h := st.host) he (List.append_nil _).symm (List.Perm.refl _)

theorem Balanced.turn (hb : st.Balanced) (hr : st.Regular) {t : Turn} (hc : t.circumstances.Ordinary)
    (hop : t.operation.isManaged = true) : (st.turn t).2.Balanced := by
  have hboth := (perform_moves _ t.operation).keep (p := fun st => st.Regular ∧ st.Balanced)
    (fun hmove h => ⟨hmove.regular h.1, hmove.balanced hop h.1 h.2⟩) ⟨hr.under hc, hb⟩
  exact hboth.2

end

/-- Every handle is accounted for: those handed out and not closed are the masters of the active sessions, none was
    closed twice or without being handed out, and every subordinate side was closed. -/
structure Accounted (st : Store) : Prop where
  held_iff : ∀ handle, IsHeld st.host.journal handle ↔ handle ∈ st.activeMasters
  activeMasters_nodup : st.activeMasters.Nodup
  closings_nodup : (closings st.host.journal).Nodup
  closings_subset : closings st.host.journal ⊆ handedOut st.host.journal
  subordinate : ∀ master subordinate, .opened master subordinate ∈ st.host.journal →
    (closings st.host.journal).count subordinate = 1
  active_iff : ∀ k e, st.entry? k = some e → (e.session.status = .active ↔ e.session.isOpen = true)

theorem Balanced.accounted {st : Store} (hb : st.Balanced) (hr : st.Regular) (hn : st.Numbered) : st.Accounted := by
  have hmem (handle : Nat) :
      handle ∈ handedOut st.host.journal ↔ handle ∈ closings st.host.journal ∨ handle ∈ st.activeMasters := by
    rw [hb.mem_iff, List.mem_append]
  obtain ⟨hclosings, hmasters, hapart⟩ := List.nodup_append.mp (hb.nodup_iff.mp hn.issued.nodup)
  refine ⟨fun handle => ?_, hmasters, hclosings, fun handle h => (hmem handle).mpr (Or.inl h), ?_,
    fun k e he => (hr.sound e (mem_of_entry he)).active_iff⟩
  · constructor
    · rintro ⟨hhanded, hopen⟩
      exact ((hmem handle).mp hhanded).resolve_left hopen
    · intro hactive
      exact ⟨(hmem handle).mpr (Or.inr hactive), fun hclosed => hapart handle hclosed handle hactive rfl⟩
  · intro master subordinate hevent
    obtain ⟨hsubordinate, n, -, hmaster⟩ := hn.issued.opened master subordinate hevent
    -- Masters have even handles and the other sides odd ones, so this one is no session's master.
    have hidle : subordinate ∉ st.activeMasters := by
      intro hactive
      obtain ⟨e, he, hhandle⟩ := List.mem_filterMap.mp hactive
      unfold Session.activeMaster? at hhandle
      split at hhandle
      · obtain ⟨m, hm, hhandle⟩ := Option.map_eq_some_iff.mp hhandle
        obtain ⟨n', -, hn'⟩ := hn.masters e he m hm
        unfold Host.subordinateOf at hsubordinate
        unfold Host.masterHandle at hmaster hn'
        omega
      · cases hhandle
    have hhanded : subordinate ∈ handedOut st.host.journal := mem_handedOut.mpr ⟨master, subordinate, hevent, Or.inr rfl⟩
    exact List.nodup_iff_count_eq_one.mp hclosings subordinate (((hmem subordinate).mp hhanded).resolve_right hidle)

end Store

end Teletype
