import Mathlib.Algebra.Order.Field.Basic
import Mathlib.Data.Rat.Cast.Order
import Mathlib.Tactic.Ring
import Teletype.Proofs.Output.Waiting

/-! # How long waits take

Time on a line never goes back, and typing takes none. A wait for a marker is over by its deadline, a wait for the
child by the first look after it. The number of looks that a wait for the child may make cuts none short. -/

namespace Teletype

/-- The seconds that a finite number stands for. -/
def Number.Binary64.seconds (x : Number.Binary64) : Rat := x.writtenValue?.getD 0

theorem Span.ofNumber_of_isFinite {x : Number.Binary64} (h : x.isFinite = true) : Span.ofNumber x = .finite x.seconds := by
  cases x with
  | nan | infinite => cases h
  | finite => rfl

theorem le_ceil_mul {seconds interval : Rat} (h : 0 < interval) : seconds ≤ (seconds / interval).ceil.toNat * interval := by
  have hceil : seconds / interval ≤ (seconds / interval).ceil := Rat.le_ceil
  have hnat : ((seconds / interval).ceil : Rat) ≤ ((seconds / interval).ceil.toNat : Rat) := by
    exact_mod_cast Int.self_le_toNat _
  exact (div_le_iff₀ h).mp (hceil.trans hnat)

/-! ### Looking at the child -/

namespace Terminal
variable {limit now : Time}

theorem pollInterval_pos : 0 < pollInterval := by decide +kernel

theorem now_le_pollExit (deadline : Deadline) : ∀ (fuel : Nat) (t : Terminal) (now : Time),
    now ≤ (t.pollExit deadline fuel now).2.2
  | 0, _, _ => le_rfl
  | fuel + 1, t, now => by
    rw [pollExit]
    split
    · cases t.exit with
      | some code => exact le_rfl
      | none =>
        have hnext : now ≤ now + pollInterval := by linarith [pollInterval_pos]
        exact hnext.trans (now_le_pollExit deadline fuel _ _)
    · exact le_rfl

/-- The last look comes before the deadline or within one interval after it. -/
theorem pollExit_le : ∀ (fuel : Nat) (t : Terminal) {now : Time}, now ≤ limit + pollInterval →
    (t.pollExit (.at limit) fuel now).2.2 ≤ limit + pollInterval
  | 0, _, _, h => h
  | fuel + 1, t, now, h => by
    rw [pollExit]
    split
    · next hahead =>
      cases t.exit with
      | some code => exact h
      | none =>
        have hnow : now < limit := by simpa [Deadline.isAhead] using hahead
        exact pollExit_le fuel _ (by linarith)
    · exact h

/-- Looks beyond those that reach the deadline change nothing. -/
theorem pollExit_add (more : Nat) : ∀ (fuel : Nat) (t : Terminal) {now : Time}, limit ≤ now + fuel * pollInterval →
    t.pollExit (.at limit) (fuel + more) now = t.pollExit (.at limit) fuel now
  | 0, t, now, h => by
    have hover : (Deadline.at limit).isAhead now = false := by simpa [Deadline.isAhead] using h
    cases more with
    | zero => rfl
    | succ more =>
      rw [Nat.zero_add, pollExit, pollExit, hover]
      rfl
  | fuel + 1, t, now, h => by
    rw [Nat.add_right_comm, pollExit, pollExit]
    have hnext : limit ≤ now + pollInterval + fuel * pollInterval := by
      push_cast at h
      linarith
    simp only [pollExit_add more fuel _ hnext]

/-- A wait for the child goes on until the child has exited or the deadline is there, whatever the limit on looks. -/
theorem waitForExit_add (t : Terminal) (now : Time) (seconds : Rat) (more : Nat) :
    t.pollExit (.at (now + seconds)) (t.looks now (.finite seconds) + more) now = t.waitForExit now (.finite seconds) := by
  refine pollExit_add more _ t ?_
  have hceil : seconds ≤ _ := le_ceil_mul pollInterval_pos
  simp only [looks]
  push_cast
  linarith [pollInterval_pos]

end Terminal

namespace Output.Line

open Text (Bytes)

variable {l : Line} {marker : Bytes} {start : Int} {limit : Time}

/-! ### Time goes on -/

theorem now_le_perform (l : Line) (entry : Timed) : l.now ≤ (l.perform entry).now :=
  (le_max_left _ _).trans (later_eq_max l.now entry.1).ge

theorem now_le_expire (l : Line) (deadline : Deadline) : l.now ≤ (l.expire deadline).now := by
  cases deadline with
  | «at» t => exact (le_max_left _ _).trans (later_eq_max l.now t).ge
  | never | passed | undefined => exact le_rfl

theorem now_le_listen (deadline : Deadline) : ∀ (agenda : List Timed) (l : Line),
    l.now ≤ (listen marker start deadline l agenda).2.now
  | [], l => now_le_expire (l.withAgenda []) deadline
  | entry :: rest, l => by
    cases hdue : comesBy deadline entry.1 with
    | true =>
      rw [listen_due hdue]
      exact now_le_expire (l.withAgenda _) deadline
    | false =>
      have hperform := now_le_perform l entry
      rcases listen_cons hdue rest l with hlisten | ⟨found, -, hlisten⟩ <;> rw [hlisten]
      · exact hperform.trans (now_le_listen deadline rest _)
      · exact hperform

theorem now_le_waitFor (l : Line) (marker : Bytes) (start : Int) (span : Span) :
    l.now ≤ (l.waitFor marker start span).line.now := by
  unfold waitFor
  split
  · exact le_rfl
  · dsimp only
    split
    · exact le_rfl
    · exact now_le_listen _ _ l

theorem now_le_waitForExit (l : Line) (span : Span) : l.now ≤ (l.waitForExit span).2.now := by
  have hpoll := Terminal.now_le_pollExit (.after l.now span) (l.terminal.looks l.now span) l.terminal l.now
  unfold waitForExit Terminal.waitForExit
  generalize Terminal.pollExit _ _ l.terminal l.now = r at hpoll ⊢
  obtain ⟨code, terminal, now⟩ := r
  cases code <;> exact hpoll

/-! ### Waits are over -/

theorem listen_le : ∀ {agenda : List Timed} {l : Line}, l.now ≤ limit →
    (listen marker start (.at limit) l agenda).2.now ≤ limit
  | [], l, h => (later_eq_max l.now limit).trans_le (max_le h le_rfl)
  | entry :: rest, l, h => by
    cases hdue : comesBy (.at limit) entry.1 with
    | true =>
      rw [listen_due hdue]
      exact (later_eq_max l.now limit).trans_le (max_le h le_rfl)
    | false =>
      have hentry : entry.1 < limit := by simpa [comesBy] using hdue
      have hperform : (l.perform entry).now ≤ limit := (later_eq_max l.now entry.1).trans_le (max_le h hentry.le)
      rcases listen_cons hdue rest l with hlisten | ⟨found, -, hlisten⟩ <;> rw [hlisten]
      · exact listen_le hperform
      · exact hperform

theorem waitFor_le (l : Line) (marker : Bytes) (start : Int) (seconds : Rat) :
    (l.waitFor marker start (.finite seconds)).line.now ≤ l.now + max seconds 0 := by
  have hnow : l.now ≤ l.now + max seconds 0 := by linarith [le_max_right seconds 0]
  unfold waitFor
  split
  · exact hnow
  · dsimp only
    split
    · exact hnow
    · next hahead =>
      have hlimit : l.now ≤ l.now + seconds := by
        simp only [Deadline.after, Deadline.isOver, decide_eq_true_eq, not_le] at hahead
        exact hahead.le
      exact (listen_le hlimit).trans (by linarith [le_max_left seconds 0])

theorem waitForExit_le (l : Line) (seconds : Rat) :
    (l.waitForExit (.finite seconds)).2.now ≤ l.now + max seconds 0 + Terminal.pollInterval := by
  have hlimit : l.now + seconds ≤ l.now + max seconds 0 := by linarith [le_max_left seconds 0]
  have hpoll : (l.terminal.waitForExit l.now (.finite seconds)).2.2 ≤ l.now + max seconds 0 + Terminal.pollInterval := by
    rcases le_total 0 seconds with hpos | hneg
    · have hnow : l.now ≤ l.now + seconds + Terminal.pollInterval := by linarith [Terminal.pollInterval_pos]
      exact (Terminal.pollExit_le _ l.terminal hnow).trans (by linarith)
    · -- Without time no look is made but the last.
      have hover : (Deadline.at (l.now + seconds)).isAhead l.now = false := by
        simp only [Deadline.isAhead, decide_eq_false_iff_not, not_lt]
        linarith
      have hlook : (l.terminal.waitForExit l.now (.finite seconds)).2.2 = l.now := by
        simp only [Terminal.waitForExit, Terminal.looks, Terminal.pollExit, Deadline.after, hover]
        rfl
      rw [hlook]
      linarith [le_max_right seconds 0, Terminal.pollInterval_pos]
  unfold waitForExit
  generalize l.terminal.waitForExit l.now (.finite seconds) = r at hpoll ⊢
  obtain ⟨code, terminal, now⟩ := r
  cases code <;> exact hpoll

end Output.Line

end Teletype
