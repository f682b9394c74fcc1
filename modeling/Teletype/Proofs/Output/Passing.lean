import Teletype.Proofs.Output.Attention
import Teletype.Proofs.Terminal.Typing

/-! # What a wait in vain leaves

A line that is only waited on goes on by itself: what is due happens and is read. A wait in vain leaves just that line, and
it tells more than that nothing was found: if the output had ended, the wait would have ended before its deadline. -/

namespace Teletype.Output

open Text (Bytes)

/-! ### Watchers at the end -/

namespace Watcher

/-- A watcher that comes to the end detaches itself. -/
theorem detached_of_ended {w : Watcher} (hopen : w.ended = false) {queue : List Item} (h : (w.drain queue).1.ended = true) :
    (w.drain queue).1.attached = false := by
  induction queue generalizing w with
  | nil =>
    rw [drain, hopen] at h
    cases h
  | cons item rest ih =>
    cases hw : w.attached with
    | false => simpa only [drain_of_detached hw] using hw
    | true =>
      simp only [drain, hw, if_true] at h ⊢
      cases item with
      | chunk bytes => exact ih hopen h
      | endOfOutput | fault =>
        rw [drain_of_detached rfl]
        rfl

end Watcher

namespace Line
variable {l l' : Line} {marker : Bytes} {start : Int} {limit t : Time} {agenda rest : List Timed} {entry : Timed}

theorem later_self (a : Time) : later a a = a := (later_eq_max a a).trans (max_self a)

/-- Nothing happens to a line that has been read when nothing is done to it. -/
theorem perform_idle (h : l.settle = l) : l.perform (l.now, []) = l := by
  show settle { l with now := later l.now l.now, terminal := l.terminal } = l
  rw [later_self]
  exact h

/-! ### Passing time -/

/-- An entry of an agenda that is due before a time. -/
def isBefore (t : Time) (entry : Timed) : Bool := entry.1 < t

/-- The line at a time to which it has gone on through an agenda. -/
def passThrough (l : Line) (agenda : List Timed) (t : Time) : Line :=
  { (((agenda.takeWhile (isBefore t)).foldl perform l).withAgenda (agenda.dropWhile (isBefore t))) with now := t }

/-- The line at a time, if nothing is typed until then: what is due before has happened and is read. -/
def passTo (l : Line) (t : Time) : Line := l.passThrough l.terminal.agenda t

theorem passThrough_of_le (h : t ≤ entry.1) (rest : List Timed) :
    l.passThrough (entry :: rest) t = { l.withAgenda (entry :: rest) with now := t } := by
  have hnot : isBefore t entry = false := by simpa [isBefore] using h
  rw [passThrough, List.takeWhile_cons, List.dropWhile_cons, hnot]
  rfl

theorem passThrough_of_lt (h : entry.1 < t) (rest : List Timed) :
    l.passThrough (entry :: rest) t = (l.perform entry).passThrough rest t := by
  have hbefore : isBefore t entry = true := by simpa [isBefore] using h
  rw [passThrough, List.takeWhile_cons, List.dropWhile_cons, hbefore]
  rfl

theorem quiet_passTo (l : Line) (t : Time) : l.terminal.Quiet (l.passTo t).terminal := by
  have hall (agenda : List Timed) (l : Line) : l.terminal.Quiet (agenda.foldl perform l).terminal := by
    induction agenda generalizing l with
    | nil => exact .refl _
    | cons entry rest ih => exact (l.quiet_perform entry).trans (ih _)
  have hquiet := hall (l.terminal.agenda.takeWhile (isBefore t)) l
  exact ⟨hquiet.device, hquiet.typed⟩

theorem passTo_inOrder (h : InOrder l.terminal.agenda) (t : Time) : InOrder (l.passTo t).terminal.agenda :=
  List.Pairwise.sublist (List.dropWhile_sublist _) h

/-! ### Waits in vain -/

/-- Listening in vain up to a deadline passes the time until then. -/
theorem listen_passes (hnow : l.now ≤ limit) (h : listen marker start (.at limit) l agenda = (false, l'))
    (hopen : l'.watcher.ended = false) : l' = l.passThrough agenda limit := by
  induction agenda generalizing l with
  | nil =>
    cases h
    show { l.withAgenda [] with now := later l.now limit } = _
    rw [later_eq_max, max_eq_right hnow]
    rfl
  | cons entry rest ih =>
    by_cases hentry : entry.1 < limit
    · have hahead : comesBy (.at limit) entry.1 = false := by simpa [comesBy] using hentry
      have hnow' : (l.perform entry).now ≤ limit := (later_eq_max l.now entry.1).trans_le (max_le hnow hentry.le)
      rw [passThrough_of_lt hentry]
      rcases listen_cons hahead rest l with hlisten | ⟨found, hv, hlisten⟩
      · rw [hlisten] at h
        exact ih hnow' h
      · rw [hlisten] at h
        cases h
        cases hopen.symm.trans (verdict?_eq_false hv)
    · have hdue : comesBy (.at limit) entry.1 = true := by simpa [comesBy] using hentry
      rw [listen_due hdue] at h
      cases h
      show { l.withAgenda (entry :: rest) with now := later l.now limit } = _
      rw [later_eq_max, max_eq_right hnow, passThrough_of_le (not_lt.mp hentry)]

theorem waitFor_passes {seconds : Rat} (hread : l.settle = l) (hpos : 0 < seconds)
    (hfound : (l.waitFor marker start (.finite seconds)).found = false)
    (hopen : (l.waitFor marker start (.finite seconds)).line.watcher.ended = false) :
    (l.waitFor marker start (.finite seconds)).line = l.passTo (l.now + seconds) := by
  have hlisten := waitFor_listens hpos hfound hopen
  rw [perform_idle hread] at hlisten
  exact listen_passes (by linarith) hlisten hopen

/-- Listening that is ended by the end of the output ends before the deadline: the watcher is asked in time. -/
theorem listen_ended (hnow : l.now < limit) (hasked : l.watcher.verdict? marker start = none ∨ ∃ e ∈ agenda.head?, e.1 ≤ l.now)
    (h : listen marker start (.at limit) l agenda = (false, l')) (hended : l'.watcher.ended = true) : l'.now < limit := by
  have hopen {l : Line} (hv : l.watcher.verdict? marker start = none) : l.watcher.ended = false := (verdict?_eq_none.mp hv).2
  induction agenda generalizing l with
  | nil =>
    cases h
    cases hended.symm.trans (hopen (hasked.resolve_right (by simp)))
  | cons entry rest ih =>
    by_cases hentry : entry.1 < limit
    · have hnow' : (l.perform entry).now < limit := (later_eq_max l.now entry.1).trans_lt (max_lt hnow hentry)
      have hahead : comesBy (.at limit) entry.1 = false := by simpa [comesBy] using hentry
      rw [listen, hahead] at h
      dsimp only at h
      rw [if_neg Bool.false_ne_true] at h
      split at h
      · next hnext =>
        refine ih hnow' (Or.inr ?_) h
        cases rest with
        | nil => simp at hnext
        | cons e rest => exact ⟨e, rfl, by simpa using hnext⟩
      · split at h
        · cases h
          exact hnow'
        · next hv => exact ih hnow' (Or.inl hv) h
    · have hdue : comesBy (.at limit) entry.1 = true := by simpa [comesBy] using hentry
      rw [listen_due hdue] at h
      cases h
      rcases hasked with hv | ⟨e, he, hle⟩
      · cases hended.symm.trans (hopen hv)
      · cases he
        exact absurd (hle.trans_lt hnow) hentry

theorem waitFor_ended {seconds : Rat} (hpos : 0 < seconds) (hv : l.watcher.verdict? marker start = none)
    (hfound : (l.waitFor marker start (.finite seconds)).found = false)
    (hended : (l.waitFor marker start (.finite seconds)).line.watcher.ended = true) :
    (l.waitFor marker start (.finite seconds)).line.now < l.now + seconds := by
  have hahead : (Deadline.after l.now (.finite seconds)).isOver l.now = false := by
    simpa [Deadline.after, Deadline.isOver] using hpos
  unfold waitFor at hfound hended ⊢
  rw [hv] at hfound hended ⊢
  dsimp only at hfound hended ⊢
  rw [hahead, if_neg Bool.false_ne_true] at hfound hended ⊢
  exact listen_ended (by linarith) (Or.inr ⟨_, rfl, le_rfl⟩) (Prod.ext hfound rfl) hended

end Line

end Teletype.Output
