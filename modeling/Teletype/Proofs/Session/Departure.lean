import Mathlib.Order.Bounds.Defs
import Teletype.Proofs.Session.Credential
import Teletype.Proofs.Session.Replacement
import Teletype.Proofs.Session.Terminals
import Teletype.Proofs.Terminal.Exit

/-! # Waiting for a child

A wait for the child of a session looks at it when it begins and after each interval. It ends at the first look that comes
no earlier than the exit, or at the first that comes no earlier than the timeout, whichever is sooner. In the first case it
tells the code, be it zero or negative. -/

namespace Teletype

namespace Terminal

/-- The first look that is not before a time, both counted from the beginning of the wait. -/
def firstLook (time : Rat) : Rat := (time / pollInterval).ceil.toNat * pollInterval

/-- An exit, at a delay after a time, as an agenda has it. -/
def exitAfter (now : Time) (exit : Option (Rat × Int)) : List (Time × Int) := exit.toList.map fun entry => (now + entry.1, entry.2)

/-- The code of a child that exits once, if it has exited by this delay. -/
def exitedBy (exit : Option (Rat × Int)) (delay : Rat) : Option Int :=
  exit.bind fun entry => if entry.1 ≤ delay then some entry.2 else none

/-- When the child of a terminal exits, counted from now, and with which code, if it exits at all, where an exit may be
    planned now. It does so once: it did and this has been noticed, or it is about to. -/
inductive Departs (t : Terminal) (now : Time) (planned : Option (Rat × Int)) : Option (Rat × Int) → Prop
  | noticed {since : Rat} {code : Int} (hpast : since < 0) (hexit : t.exit = some code) (hagenda : exitsIn t.agenda = [])
      (hplanned : planned = none) : Departs t now planned (some (since, code))
  | timed {exit : Option (Rat × Int)} (hexit : t.exit = none)
      (hagenda : exitsIn t.agenda ++ exitAfter now planned = exitAfter now exit)
      (hplanned : ∀ entry ∈ planned, 0 < entry.1) : Departs t now planned exit

/-- Agendas stay in order, whatever is done at a terminal. -/
theorem lasting_inOrder : Lasting (fun _ => True) (fun t => InOrder t.agenda) where
  device := trivial
  unused := List.Pairwise.nil
  begin {d} _ now := begin_inOrder d now
  advance {t} ht now := runAgenda_inOrder now t ht
  exits ht _ _ := ht
  expect {t} ht now exit := by
    cases exit with
    | none => exact ht
    | some exit => exact ht.schedule
  waitForExit ht now _ := pollExit_inOrder _ _ now ht

/-! ### Looks -/

theorem isLeast_firstLook (time : Rat) :
    IsLeast {look : Rat | (∃ n : Nat, look = n * pollInterval) ∧ max time 0 ≤ look} (firstLook time) := by
  refine ⟨⟨⟨_, rfl⟩, max_le (le_ceil_mul pollInterval_pos) (mul_nonneg (Nat.cast_nonneg _) pollInterval_pos.le)⟩, ?_⟩
  rintro look ⟨⟨n, rfl⟩, hlook⟩
  have hle : (time / pollInterval).ceil.toNat ≤ n := by
    by_contra hlt
    exact absurd (lt_looks_iff.mp (not_le.mp hlt)) (not_lt_of_ge ((le_max_left _ _).trans hlook))
  exact mul_le_mul_of_nonneg_right (by exact_mod_cast hle) pollInterval_pos.le

theorem le_firstLook (time : Rat) : time ≤ firstLook time := le_ceil_mul pollInterval_pos

/-! ### Exits -/

section
variable {t : Terminal} {now : Time} {planned exit : Option (Rat × Int)}

theorem statusBy_exitAfter (now : Time) (exit : Option (Rat × Int)) (delay : Rat) :
    statusBy (exitAfter now exit) (now + delay) = exitedBy exit delay := by
  cases exit with
  | none => rfl
  | some entry => simp [exitAfter, exitedBy, statusBy_singleton]

theorem exitsIn_advance (h : exitsIn t.agenda = []) (now : Time) : exitsIn (t.advance now).agenda = [] := by
  have hrun : ∀ (agenda : List Timed) (t : Terminal), exitsIn agenda = [] → exitsIn (t.runAgenda now agenda).agenda = [] := by
    intro agenda
    induction agenda with
    | nil => exact fun _ _ => rfl
    | cons entry rest ih =>
      intro t hnone
      unfold runAgenda
      split
      · rw [exitsIn_cons] at hnone
        exact ih _ (List.append_eq_nil_iff.mp hnone).2
      · exact hnone
  exact hrun t.agenda t h

/-- A planned exit that has no other before it is the only one on the agenda. -/
theorem exitsIn_expect (h : exitsIn t.agenda = []) (now : Time) (entry : Rat × Int) :
    exitsIn (t.expect now (some entry)).agenda = exitAfter now (some entry) := by
  have hperm := (perm_schedule (now + entry.1, [.exit entry.2]) t.agenda).flatMap_right
    fun entry => (entry.2.filterMap Effect.exitCode?).map fun code => (entry.1, code)
  rw [List.flatMap_cons, show List.flatMap _ t.agenda = [] from h] at hperm
  exact hperm.eq_singleton

/-- What is found of a child that exits once is its code, from the exit on. -/
theorem Departs.exit_advance (h : t.Departs now planned exit) (horder : InOrder t.agenda) :
    (∀ delay, 0 ≤ delay → (((t.advance now).expect now planned).advance (now + delay)).exit = exitedBy exit delay) ∧
      ((t.advance now).expect now planned).exit = exitedBy exit 0 := by
  have hrun (time : Time) : (t.advance time).exit = (statusBy (exitsIn t.agenda) time).or t.exit :=
    exit_runAgenda time t horder
  have hnow : now + 0 = now := add_zero now
  have hlater {delay : Rat} (hdelay : 0 ≤ delay) : (t.advance now).advance (now + delay) = t.advance (now + delay) :=
    advance_advance t (by linarith)
  cases h with
  | @noticed since code hpast hexit hagenda hplanned =>
    subst hplanned
    have hcode (delay : Rat) (hdelay : 0 ≤ delay) : (t.advance (now + delay)).exit = exitedBy (some (since, code)) delay := by
      have hdue : since ≤ delay := by linarith
      rw [hrun, hagenda, hexit, exitedBy, Option.bind_some, if_pos hdue]
      rfl
    refine ⟨fun delay hdelay => ?_, hnow ▸ hcode 0 le_rfl⟩
    show ((t.advance now).advance (now + delay)).exit = _
    rw [hlater hdelay]
    exact hcode delay hdelay
  | timed hexit hagenda hplanned =>
    cases planned with
    | none =>
      rw [show exitAfter now none = [] from rfl, List.append_nil] at hagenda
      have hcode (delay : Rat) : (t.advance (now + delay)).exit = exitedBy exit delay := by
        rw [hrun, hexit, Option.or_none, hagenda, statusBy_exitAfter]
      refine ⟨fun delay hdelay => ?_, hnow ▸ hcode 0⟩
      show ((t.advance now).advance (now + delay)).exit = _
      rw [hlater hdelay]
      exact hcode delay
    | some entry =>
      -- The child exits once, so this exit is the one that is planned.
      obtain ⟨hnone, rfl⟩ : exitsIn t.agenda = [] ∧ exit = some entry := by
        cases exit with
        | none => simp [exitAfter] at hagenda
        | some last =>
          obtain ⟨hnone, hsame⟩ | ⟨-, hempty⟩ := List.append_eq_singleton_iff.mp hagenda
          · simp only [exitAfter, Option.toList_some, List.map_cons, List.map_nil, List.cons.injEq, Prod.mk.injEq,
              add_right_inj, and_true] at hsame
            exact ⟨hnone, congrArg some (Prod.ext hsame.1.symm hsame.2.symm)⟩
          · cases hempty
      have hunnoticed : (t.advance now).exit = none := by
        rw [hrun, hnone, hexit]
        rfl
      have hordered : InOrder ((t.advance now).expect now (some entry)).agenda :=
        lasting_inOrder.expect (lasting_inOrder.advance horder now) now (some entry)
      refine ⟨fun delay _ => ?_, ?_⟩
      · refine (exit_runAgenda (now + delay) _ hordered).trans ?_
        rw [exitsIn_expect (exitsIn_advance hnone now), statusBy_exitAfter]
        exact (congrArg _ hunnoticed).trans Option.or_none
      · rw [exitedBy, Option.bind_some, if_neg (not_le_of_gt (hplanned entry rfl))]
        exact hunnoticed

/-- A wait for a child that exits once ends at a look if none before it is late and none finds the child to have exited,
    and if it is late itself or finds that. -/
theorem Departs.waitForExit_ends (h : t.Departs now planned exit) (horder : InOrder t.agenda) (timeout : Rat) (n : Nat)
    (hbefore : ∀ i < n, i * pollInterval < timeout) (hmissed : ∀ i < n, exitedBy exit (i * pollInterval) = none)
    (hends : timeout ≤ n * pollInterval ∨ (exitedBy exit (n * pollInterval)).isSome = true) :
    let wait := ((t.advance now).expect now planned).waitForExit now (.finite timeout)
    wait.1 = exitedBy exit (n * pollInterval) ∧ wait.2.2 = now + n * pollInterval := by
  intro wait
  obtain ⟨hlater, hnow⟩ := h.exit_advance horder
  have hlook (i : Nat) := hlater (i * pollInterval) (mul_nonneg (Nat.cast_nonneg i) pollInterval_pos.le)
  have hcaught : ((t.advance now).expect now planned).exit = (((t.advance now).expect now planned).advance now).exit := by
    rw [hnow, ← hlater 0 le_rfl, add_zero]
  have hfuel : n ≤ (timeout / pollInterval).ceil.toNat + 1 := by
    by_contra hlt
    have hlast := hbefore _ (not_le.mp hlt)
    exact absurd (lt_looks_iff.mpr hlast) (Nat.not_lt_of_le (Nat.le_succ _))
  rw [← hlook n] at hends ⊢
  refine pollExit_ends n _ hcaught hfuel (fun i hi => by linarith [hbefore i hi]) (fun i hi => ?_) ?_
  · rw [hlook]
    exact hmissed i hi
  · exact hends.imp_left fun hlate => by linarith

/-- A wait for a child that exits once. -/
theorem Departs.waitForExit (h : t.Departs now planned exit) (horder : InOrder t.agenda) (timeout : Rat) :
    let wait := ((t.advance now).expect now planned).waitForExit now (.finite timeout)
    (∀ since code, exit = some (since, code) → since ≤ firstLook timeout →
      wait.1 = some code ∧ wait.2.2 = now + firstLook since) ∧
    ((∀ since code, exit = some (since, code) → firstLook timeout < since) →
      wait.1 = none ∧ wait.2.2 = now + firstLook timeout) := by
  intro wait
  constructor
  · rintro since code rfl hsince
    have hbound : (since / pollInterval).ceil.toNat ≤ (timeout / pollInterval).ceil.toNat := by
      by_contra hlt
      exact absurd (lt_looks_iff.mp (not_le.mp hlt)) (not_lt_of_ge hsince)
    have hfound : exitedBy (some (since, code)) (firstLook since) = some code := if_pos (le_firstLook since)
    have hends := h.waitForExit_ends horder timeout (since / pollInterval).ceil.toNat
      (fun i hi => lt_looks_iff.mp (hi.trans_le hbound)) (fun i hi => if_neg (not_le_of_gt (lt_looks_iff.mp hi)))
      (Or.inr (Option.isSome_of_eq_some hfound))
    exact ⟨hends.1.trans hfound, hends.2⟩
  · intro hnever
    have hmissed {delay : Rat} (hdelay : delay ≤ firstLook timeout) : exitedBy exit delay = none := by
      cases exit with
      | none => rfl
      | some entry => exact if_neg (not_le_of_gt (hdelay.trans_lt (hnever entry.1 entry.2 rfl)))
    have hends := h.waitForExit_ends horder timeout (timeout / pollInterval).ceil.toNat
      (fun i hi => lt_looks_iff.mp hi) (fun i hi => hmissed ((lt_looks_iff.mp hi).le.trans (le_firstLook timeout)))
      (Or.inl (le_firstLook timeout))
    exact ⟨hends.1.trans (hmissed le_rfl), hends.2⟩

end

end Terminal

namespace Store

open Terminal (Departs firstLook pollInterval)

/-- Waiting for the child of a session. -/
theorem perform_waitForExit (st : Store) {k : Nat} {e : Entry} (he : st.entry? k = some e)
    (hchild : e.session.child.isSome = true) (span : Span) (planned : Option (Rat × Int)) :
    let wait := ((e.terminal.advance st.now).expect st.now planned).waitForExit st.now span
    (st.perform (.waitForExit k span planned)).1 = .ok (.number wait.1) ∧
      (st.perform (.waitForExit k span planned)).2.now = wait.2.2 := by
  intro wait
  have hentry := entry_setEntry he st.host { e with terminal := (e.terminal.advance st.now).expect st.now planned } k
  rw [if_pos rfl] at hentry
  have hexpecting : st.onTerminal k (fun t => (t.advance st.now).expect st.now planned) =
      (st.withHost st.host).setEntry k { e with terminal := (e.terminal.advance st.now).expect st.now planned } := by
    rw [onTerminal, he]
    rfl
  show Except.ok (Reply.number ((st.onTerminal k _).waitForExit k span).1) = _ ∧
    ((st.onTerminal k _).waitForExit k span).2.now = _
  rw [hexpecting, waitForExit, hentry]
  dsimp only
  rw [if_pos hchild]
  exact ⟨rfl, rfl⟩

/-- Whatever has been done before, a wait for the child of a session tells the code if the child has exited by the first
    look that is not before the timeout, and is over then or at the first look that is not before the exit. Otherwise it
    tells nothing, and is over at that look. -/
theorem exit_is_found_at_first_look (managers : List Manager) (turns : List Turn) (c : Circumstances) {k : Nat} {e : Entry}
    (he : Store.entry? ((founded managers).after turns) k = some e) (hstarted : e.session.child.isSome = true)
    {planned exit : Option (Rat × Int)} (hexit : e.terminal.Departs ((founded managers).after turns).now planned exit)
    (timeout : Rat) :
    let st := (founded managers).after turns
    let waited := st.turn ⟨c, .waitForExit k (.finite timeout) planned⟩
    (∀ time, IsLeast {look : Rat | (∃ n : Nat, look = n * pollInterval) ∧ max time 0 ≤ look} (firstLook time)) ∧
    (∀ since code, exit = some (since, code) → since ≤ firstLook timeout →
      waited.1 = .ok (.number (some code)) ∧ waited.2.now = st.now + firstLook since) ∧
    ((∀ since code, exit = some (since, code) → firstLook timeout < since) →
      waited.1 = .ok (.number none) ∧ waited.2.now = st.now + firstLook timeout ∧ timeout ≤ firstLook timeout) := by
  intro st waited
  have hterminals : st.Terminals fun t => InOrder t.agenda :=
    Terminals.after Terminal.lasting_inOrder (fun e he => (List.not_mem_nil he).elim) fun _ _ _ _ => trivial
  have hperform : waited.1 = _ ∧ waited.2.now = _ :=
    perform_waitForExit (st.under c) he hstarted (.finite timeout) planned
  obtain ⟨hfound, hnever⟩ := hexit.waitForExit (hterminals.entry he) timeout
  refine ⟨Terminal.isLeast_firstLook, fun since code hsome hsince => ?_, fun hlate => ?_⟩
  · obtain ⟨hcode, hnow⟩ := hfound since code hsome hsince
    exact ⟨hperform.1.trans (congrArg (fun code => Except.ok (Reply.number code)) hcode), hperform.2.trans hnow⟩
  · obtain ⟨hnone, hnow⟩ := hnever hlate
    exact ⟨hperform.1.trans (congrArg (fun code => Except.ok (Reply.number code)) hnone), hperform.2.trans hnow,
      Terminal.le_firstLook timeout⟩

/-- A child that is killed after the timeout and before the look that follows it has its status told; before, there is none
    to tell. -/
theorem killed_child_is_found_after_timeout :
    let c : Circumstances := { devices := [{ events := [(7 / 100, [.exit (-9)])] }], database := fun _ => groupless }
    let st := (founded []).after [⟨c, .create ["sleep", "1"] []⟩, ⟨c, .startSession 0⟩]
    let waited (timeout : Rat) := st.turn ⟨c, .waitForExit 0 (.finite timeout) none⟩
    (waited (6 / 100)).1 = .ok (.number (some (-9))) ∧ (waited (6 / 100)).2.now = 1 / 10 ∧
      (waited 0).1 = .ok (.number none) ∧ (waited 0).2.now = 0 := by
  intro c st waited
  obtain ⟨e, he, hstarted, hexit, hagenda⟩ : ∃ e, st.entry? 0 = some e ∧ e.session.child.isSome = true ∧
      e.terminal.exit = none ∧ e.terminal.agenda = [(0 + 7 / 100, [.exit (-9)])] := ⟨_, rfl, rfl, rfl, rfl⟩
  have hdeparts : e.terminal.Departs st.now none (some (7 / 100, -9)) :=
    .timed hexit (by rw [hagenda]; rfl) fun entry hentry => by cases hentry
  have hlooks : firstLook (6 / 100) = 1 / 10 ∧ firstLook (7 / 100) = 1 / 10 ∧ firstLook 0 = 0 := by decide +kernel
  obtain ⟨-, hfound, -⟩ := exit_is_found_at_first_look [] _ c he hstarted hdeparts (6 / 100)
  obtain ⟨-, -, hnever⟩ := exit_is_found_at_first_look [] _ c he hstarted hdeparts 0
  obtain ⟨hcode, hnow⟩ := hfound (7 / 100) (-9) rfl (by rw [hlooks.1]; norm_num)
  obtain ⟨hnone, hlast, -⟩ := hnever (fun since code hsome => by cases hsome; rw [hlooks.2.2]; norm_num)
  have hbegun : st.now = 0 := rfl
  rw [hlooks.2.1] at hnow
  rw [hlooks.2.2] at hlast
  exact ⟨hcode, hnow.trans (by rw [hbegun, zero_add]), hnone, hlast.trans (by rw [hbegun, zero_add])⟩

end Store

end Teletype
