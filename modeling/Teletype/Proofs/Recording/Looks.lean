import Mathlib.Data.Nat.Find
import Mathlib.Tactic.Linarith
import Mathlib.Tactic.Ring
import Teletype.Proofs.Files.History
import Teletype.Proofs.Recording.Run

/-! # Looks at a transcript

Once its session is closed a recording looks at its transcript at regular intervals as long as its deadline is ahead. It
stops with a look that finds the transcript settled, and with one that the system refuses since the path is too long. -/

namespace Teletype.Recording

open Files (History)

/-- The fault of looking at a path that is too long. -/
def pathTooLong (path : String) : Fault := .make .system [.int 36, .text "File name too long", .text path]

/-! ### Sizes from look to look -/

/-- The size at the latest of so many looks at which there was one. -/
def seen (size : Nat → Option Nat) : Nat → Option Nat
  | 0 => none
  | i + 1 => size i <|> seen size i

/-- At this look the file is there, with the size that it had at the latest look before at which it was there. -/
def SettledAt (size : Nat → Option Nat) (i : Nat) : Prop :=
  ∃ j < i, ∃ n, size j = some n ∧ size i = some n ∧ ∀ k, j < k → k < i → size k = none

section
variable {size : Nat → Option Nat} {i n : Nat}

theorem seen_eq_some : seen size i = some n ↔ ∃ j < i, size j = some n ∧ ∀ k, j < k → k < i → size k = none := by
  induction i with
  | zero =>
    constructor
    · nofun
    · rintro ⟨j, hj, -⟩
      cases hj
  | succ i ih =>
    cases hsize : size i with
    | some n' =>
      rw [seen, hsize]
      constructor
      · rintro ⟨⟩
        exact ⟨i, Nat.lt_succ_self i, hsize, fun k hik hki => absurd hki (Nat.not_lt.mpr hik)⟩
      · rintro ⟨j, hj, hn, hnone⟩
        rcases Nat.lt_succ_iff_lt_or_eq.mp hj with hji | rfl
        · rw [hnone i hji (Nat.lt_succ_self i)] at hsize
          cases hsize
        · exact hsize.symm.trans hn
    | none =>
      rw [seen, hsize]
      refine ih.trans ⟨?_, ?_⟩
      · rintro ⟨j, hj, hn, hnone⟩
        refine ⟨j, Nat.lt_succ_of_lt hj, hn, fun k hjk hki => ?_⟩
        rcases Nat.lt_succ_iff_lt_or_eq.mp hki with hlt | rfl
        · exact hnone k hjk hlt
        · exact hsize
      · rintro ⟨j, hj, hn, hnone⟩
        rcases Nat.lt_succ_iff_lt_or_eq.mp hj with hji | rfl
        · exact ⟨j, hji, hn, fun k hjk hki => hnone k hjk (Nat.lt_succ_of_lt hki)⟩
        · rw [hsize] at hn
          cases hn

theorem settledAt_iff : SettledAt size i ↔ (size i).isSome = true ∧ size i = seen size i := by
  constructor
  · rintro ⟨j, hj, n, hjn, hin, hnone⟩
    rw [seen_eq_some.mpr ⟨j, hj, hjn, hnone⟩, hin]
    exact ⟨rfl, rfl⟩
  · rintro ⟨hsome, hsame⟩
    obtain ⟨n, hin⟩ := Option.isSome_iff_exists.mp hsome
    obtain ⟨j, hj, hjn, hnone⟩ := seen_eq_some.mp (hsame.symm.trans hin)
    exact ⟨j, hj, n, hjn, hin, hnone⟩

end

/-! ### The end of the wait -/

/-- What a look finds, by its number: whether it is in time, the size of the file if it is there, and whether the system
    refuses to look. -/
structure Looks where
  inTime : Nat → Prop
  size : Nat → Option Nat
  refused : Nat → Prop

/-- The looks at a path from a time on, in these surroundings. -/
def looksAt (path : String) (begun : Time) (inTime : Nat → Prop) (around : Nat → Surroundings) : Looks where
  inTime := inTime
  size i := match (around i).files.size? path (begun + i * Booth.settleInterval) with
    | .ok size => size
    | .error _ => none
  refused i := (around i).files.refuses path (begun + i * Booth.settleInterval) = true

namespace Looks

/-- A wait goes on after this look. -/
structure GoesOn (l : Looks) (i : Nat) : Prop where
  inTime : l.inTime i
  taken : ¬l.refused i
  unsettled : ¬SettledAt l.size i

/-- With which look a wait ends, what the operator is told then, and what comes of the recording. All looks before that one
    were in time, not refused, and did not find the file settled. -/
inductive End (l : Looks) (path : String) (last : Nat) : List Event → Except Failure String → Prop
  | settled (hbefore : ∀ i < last, l.GoesOn i) (hin : l.inTime last) (htaken : ¬l.refused last)
      (hsettled : SettledAt l.size last) : End l path last [] (.ok path)
  | refused (hbefore : ∀ i < last, l.GoesOn i) (hin : l.inTime last) (hrefused : l.refused last) :
      End l path last [] (.error (.fault (pathTooLong path)))
  | late (hbefore : ∀ i < last, l.GoesOn i) (hlate : ¬l.inTime last) :
      End l path last [.told (.transcriptUnsettled path)] (.ok path)

variable {l : Looks} {path : String} {i last : Nat} {events : List Event} {result : Except Failure String}

theorem End.before (h : l.End path last events result) : ∀ i < last, l.GoesOn i := by
  cases h with
  | settled hbefore | refused hbefore | late hbefore => exact hbefore

/-- A wait that does not go on after some look has ended by then. -/
theorem End.exists (path : String) (hstops : ¬l.GoesOn i) : ∃ last ≤ i, ∃ events result, l.End path last events result := by
  classical
  have hsome : ∃ i, ¬l.GoesOn i := ⟨i, hstops⟩
  have hbefore : ∀ j < Nat.find hsome, l.GoesOn j := fun j hj => not_not.mp (Nat.find_min hsome hj)
  refine ⟨_, Nat.find_min' hsome hstops, ?_⟩
  by_cases hin : l.inTime (Nat.find hsome)
  · by_cases hrefused : l.refused (Nat.find hsome)
    · exact ⟨_, _, .refused hbefore hin hrefused⟩
    · by_cases hsettled : SettledAt l.size (Nat.find hsome)
      · exact ⟨_, _, .settled hbefore hin hrefused hsettled⟩
      · exact absurd ⟨hin, hrefused, hsettled⟩ (Nat.find_spec hsome)
  · exact ⟨_, _, .late hbefore hin⟩

/-- If the first look is refused the wait ends with it. -/
theorem End.of_refused (h : l.End path last events result) (hin : l.inTime 0) (hrefused : l.refused 0) :
    last = 0 ∧ result = .error (.fault (pathTooLong path)) := by
  have hlast : last = 0 := by
    by_contra hlater
    exact (h.before 0 (Nat.pos_of_ne_zero hlater)).taken hrefused
  subst hlast
  cases h with
  | settled _ _ htaken => exact absurd hrefused htaken
  | refused => exact ⟨rfl, rfl⟩
  | late _ hlate => exact absurd hin hlate

/-- A path that is not too long is never refused, so all waits for it end well. -/
theorem End.of_fits {begun : Time} {inTime : Nat → Prop} {around : Nat → Surroundings}
    (h : (looksAt path begun inTime around).End path last events result) (hfits : History.isTooLong path = false) :
    result = .ok path := by
  cases h with
  | settled | late => rfl
  | refused _ _ hrefused => cases hfits.symm.trans (History.isTooLong_of_refuses hrefused)

end Looks

namespace Booth

theorem asksIn_append (plan : Plan) (around more : List Surroundings) : ∀ b : Booth,
    b.asksIn plan (around ++ more) = b.asksIn plan around ++ (b.run plan around).asksIn plan more := by
  induction around with
  | nil => exact fun b => rfl
  | cons s around ih =>
    intro b
    rw [List.cons_append, asksIn, ih, asksIn, List.append_assoc, run_cons]

/-- The looks of a recording that waits for its transcript from now on. -/
def looks (b : Booth) (deadline : Deadline) (around : Nat → Surroundings) : Looks :=
  looksAt b.target.logFile b.now (fun i => deadline.isAhead (b.now + i * settleInterval) = true) around

/-- A recording that began to wait for its transcript when it was this booth, and has looked at it so many times since. -/
structure Waits (b₀ : Booth) (deadline : Deadline) (around : Nat → Surroundings) (i : Nat) (b : Booth) : Prop where
  phase : b.phase = .settling deadline (seen (b₀.looks deadline around).size i)
  now : b.now = b₀.now + i * settleInterval
  target : b.target = b₀.target

section
variable {b₀ b : Booth} {deadline : Deadline} {around : Nat → Surroundings} {i last : Nat} {events : List Event}
  {result : Except Failure String}

/-- What a recording sees when it looks in time. -/
theorem Waits.sees (h : Waits b₀ deadline around i b) :
    (around i).files.size? b.target.logFile b.now = .ok ((b₀.looks deadline around).size i) ∧
        ¬(b₀.looks deadline around).refused i ∨
      (around i).files.size? b.target.logFile b.now = .error (pathTooLong b₀.target.logFile) ∧
        (b₀.looks deadline around).refused i := by
  rw [h.target, h.now]
  cases hsize : (around i).files.size? b₀.target.logFile (b₀.now + i * settleInterval) with
  | ok size =>
    refine Or.inl ⟨congrArg Except.ok ?_, fun hrefused => ?_⟩
    · unfold looks looksAt
      dsimp only
      rw [hsize]
    · cases hsize.symm.trans (History.size?_eq_error_iff.mpr ⟨hrefused, rfl⟩)
  | error f =>
    obtain ⟨hrefuses, rfl⟩ := History.size?_eq_error_iff.mp hsize
    exact Or.inr ⟨rfl, hrefuses⟩

/-- A look after which the wait goes on. -/
theorem Waits.look (plan : Plan) (h : Waits b₀ deadline around i b) (hgoes : (b₀.looks deadline around).GoesOn i) :
    Waits b₀ deadline around (i + 1) (b.actIn plan (around i)) ∧ b.asks plan (around i) = [] := by
  have hahead : deadline.isAhead b.now = true := h.now ▸ hgoes.inTime
  obtain ⟨hsize, -⟩ := h.sees.resolve_right fun hsees => hgoes.taken hsees.2
  have hother : (((b₀.looks deadline around).size i).isSome &&
      (b₀.looks deadline around).size i == seen (b₀.looks deadline around).size i) = false := by
    rw [Bool.eq_false_iff]
    intro hboth
    rw [Bool.and_eq_true, beq_iff_eq] at hboth
    exact hgoes.unsettled (settledAt_iff.mpr hboth)
  have hact : b.act plan (around i).files (around i).host = _ := act_settling h.phase
  rw [Booth.look, if_pos hahead, hsize] at hact
  dsimp only at hact
  rw [hother, if_neg Bool.false_ne_true] at hact
  refine ⟨?_, asks_eq (by rw [hact, List.append_nil])⟩
  rw [actIn, hact]
  refine ⟨rfl, ?_, h.target⟩
  show b.now + settleInterval = _
  rw [h.now]
  push_cast
  ring

/-- The look with which the wait ends is the end of the recording. -/
theorem Waits.ends (plan : Plan) (h : Waits b₀ deadline around last b)
    (hend : (b₀.looks deadline around).End b₀.target.logFile last events result) :
    b.actIn plan (around last) = b.finish result ∧ b.asks plan (around last) = events := by
  have hact : b.act plan (around last).files (around last).host = _ := act_settling h.phase
  rw [Booth.look] at hact
  cases hend with
  | settled _ hin htaken hsettled =>
    obtain ⟨hsize, -⟩ := h.sees.resolve_right fun hsees => htaken hsees.2
    have hsame : (((b₀.looks deadline around).size last).isSome &&
        (b₀.looks deadline around).size last == seen (b₀.looks deadline around).size last) = true := by
      rw [Bool.and_eq_true, beq_iff_eq]
      exact settledAt_iff.mp hsettled
    rw [if_pos (h.now ▸ hin), hsize] at hact
    dsimp only at hact
    rw [if_pos hsame, h.target] at hact
    exact ⟨congrArg (·.1) hact, asks_eq (by rw [hact, List.append_nil])⟩
  | refused _ hin hrefused =>
    obtain ⟨hsize, -⟩ := h.sees.resolve_left fun hsees => hsees.2 hrefused
    rw [if_pos (h.now ▸ hin), hsize] at hact
    exact ⟨congrArg (·.1) hact, asks_eq (by rw [hact, List.append_nil])⟩
  | late _ hlate =>
    rw [if_neg (h.now ▸ hlate), h.target] at hact
    exact ⟨congrArg (·.1) hact, asks_eq (congrArg (·.2.journal) hact)⟩

/-- As long as the wait goes on nothing is told. -/
theorem waits_of_goesOn (plan : Plan) (hphase : b.phase = .settling deadline none) {n : Nat}
    (hgoes : ∀ i < n, (b.looks deadline around).GoesOn i) :
    Waits b deadline around n (b.run plan ((List.range n).map around)) ∧
      b.asksIn plan ((List.range n).map around) = [] := by
  induction n with
  | zero => exact ⟨⟨hphase, by simp, rfl⟩, rfl⟩
  | succ n ih =>
    obtain ⟨hwaits, hnone⟩ := ih fun i hi => hgoes i (Nat.lt_succ_of_lt hi)
    obtain ⟨hnext, hasks⟩ := hwaits.look plan (hgoes n (Nat.lt_succ_self n))
    rw [List.range_succ, List.map_append, List.map_singleton, run_append, asksIn_append, hnone]
    exact ⟨hnext, (List.append_nil _).trans hasks⟩

/-- The recording is over after the look with which the wait ends, and stays so. -/
theorem done_of_end (plan : Plan) (hphase : b.phase = .settling deadline none)
    (hend : (b.looks deadline around).End b.target.logFile last events result) {n : Nat} (hn : last < n) :
    (b.run plan ((List.range n).map around)).phase = .done result ∧
      (b.run plan ((List.range n).map around)).now = b.now + last * settleInterval ∧
      b.asksIn plan ((List.range n).map around) = events := by
  obtain ⟨hwaits, hnone⟩ := waits_of_goesOn plan hphase hend.before
  obtain ⟨hact, hasks⟩ := hwaits.ends plan hend
  obtain ⟨k, rfl⟩ := Nat.exists_eq_add_of_lt hn
  have hdone : ((b.run plan ((List.range last).map around)).actIn plan (around last)).phase = .done result := by
    rw [hact]
    rfl
  obtain ⟨hstays, hsilent⟩ := run_of_done plan hdone ((List.range k).map fun i => around (last + 1 + i))
  rw [Nat.add_right_comm, List.range_add, List.range_succ, List.map_append, List.map_append, List.map_singleton, List.map_map,
    run_append, run_append, asksIn_append, asksIn_append, run_append, hnone]
  refine ⟨(congrArg Booth.phase hstays).trans hdone, ?_, ?_⟩
  · refine (congrArg Booth.now hstays).trans ?_
    rw [hact]
    exact hwaits.now
  · exact (congrArg (_ ++ ·) hsilent).trans ((List.append_nil _).trans ((List.append_nil _).trans hasks))

/-- Looks that are all in time are not as many as the span allows for, unless it is endless. -/
theorem lt_of_looks (now : Time) {span : Span} {n : Nat} (hspan : span ≠ .endless)
    (hlooks : ∀ i < n, (Deadline.after now span).isAhead (now + i * settleInterval) = true) :
    n < Studio.actionsIn span (.finite settleInterval) := by
  cases span with
  | endless => exact absurd rfl hspan
  | finite s =>
    cases n with
    | zero => simp [Studio.actionsIn, settleInterval_pos]
    | succ n =>
      have hlook := hlooks n (Nat.lt_succ_self n)
      simp only [Deadline.after, Deadline.isAhead, decide_eq_true_eq] at hlook
      exact Studio.lt_actionsIn settleInterval_pos (by linarith)
  | past | undefined =>
    cases n with
    | zero => simp [Studio.actionsIn]
    | succ n => cases hlooks n (Nat.lt_succ_self n)

end

end Booth

end Teletype.Recording
