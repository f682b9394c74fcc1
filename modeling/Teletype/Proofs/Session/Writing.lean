import Teletype.Proofs.Session.Lifecycle

/-! # Writing to a session

The host decides how much of a write it takes. What it has taken so far and what is left to write always make up the whole
text, so nothing is lost or written twice, wherever the host cuts it, and there is nothing left when the writing ends
without a fault. Once its answers are used up the host takes all, so the writing ends. -/

namespace Teletype

open Text (Bytes)

/-! ### Answers -/

/-- What the host takes of the bytes that it is offered, unless it fails. -/
def Answer.takes (offered : Bytes) : Answer → Except Fault Bytes
  | .took n => .ok (offered.take n)
  | .wouldBlock => .ok []
  | .fault f => .error f

/-- What comes of the write with this number: the host takes all that it is offered once its answers are used up. -/
def answered (answers : List Answer) (i : Nat) (offered : Bytes) : Except Fault Bytes :=
  match answers[i]? with
  | some answer => answer.takes offered
  | none => .ok offered

section
variable {answers : List Answer} {i : Nat} {offered chunk : Bytes}

theorem answered_of_some {answer : Answer} (h : answers[i]? = some answer) :
    answered answers i offered = answer.takes offered := by
  rw [answered, h]

theorem answered_of_none (h : answers[i]? = none) : answered answers i offered = .ok offered := by
  rw [answered, h]

/-- The host takes nothing but the beginning of what it is offered. -/
theorem prefix_of_answered (h : answered answers i offered = .ok chunk) : chunk <+: offered := by
  cases hanswer : answers[i]? with
  | none =>
    rw [answered_of_none hanswer] at h
    exact Except.ok.inj h ▸ List.prefix_refl _
  | some answer =>
    rw [answered_of_some hanswer] at h
    cases answer with
    | took n => exact Except.ok.inj h ▸ List.take_prefix n offered
    | wouldBlock => exact Except.ok.inj h ▸ List.nil_prefix
    | fault f => cases h

end

/-! ### The loop of writes -/

/-- What is left to write of a payload after writes that took this. -/
def left (payload : Bytes) (taken : List Bytes) : Bytes := payload.drop taken.flatten.length

/-- The writes of a payload up to some point: each was offered what was left by then, and took what the host answered. With
    what is left now they make up the payload. -/
structure Pushing (payload : Bytes) (answers : List Answer) (taken : List Bytes) : Prop where
  offered : ∀ i chunk, taken[i]? = some chunk →
    left payload (taken.take i) ≠ [] ∧ answered answers i (left payload (taken.take i)) = .ok chunk
  whole : taken.flatten ++ left payload taken = payload

namespace Pushing
variable {payload chunk : Bytes} {answers : List Answer} {taken : List Bytes}

theorem nil (payload : Bytes) (answers : List Answer) : Pushing payload answers [] := ⟨nofun, rfl⟩

/-- One more write takes the next bytes, neither earlier ones nor later ones. -/
theorem write (h : Pushing payload answers taken) (hleft : left payload taken ≠ [])
    (hchunk : answered answers taken.length (left payload taken) = .ok chunk) :
    Pushing payload answers (taken ++ [chunk]) ∧
      left payload (taken ++ [chunk]) = (left payload taken).drop chunk.length := by
  have hnext : left payload (taken ++ [chunk]) = (left payload taken).drop chunk.length := by
    rw [left, left, List.drop_drop, List.flatten_concat, List.length_append]
  refine ⟨⟨fun i c hc => ?_, ?_⟩, hnext⟩
  · rw [List.getElem?_append] at hc
    split at hc
    · next hi =>
      rw [List.take_append_of_le_length (Nat.le_of_lt hi)]
      exact h.offered i c hc
    · next hi =>
      obtain ⟨hlt, rfl⟩ := List.getElem?_eq_some_iff.mp hc
      obtain rfl : i = taken.length := by
        rw [List.length_singleton] at hlt
        omega
      rw [List.take_left]
      exact ⟨hleft, by simpa using hchunk⟩
  · obtain ⟨rest, hrest⟩ := prefix_of_answered hchunk
    rw [hnext, ← hrest, List.drop_left, List.flatten_concat, List.append_assoc, hrest]
    exact h.whole

/-- The host has been asked at most once more than it had answers. -/
theorem length_le (h : Pushing payload answers taken) : taken.length ≤ answers.length + 1 := by
  by_contra hmore
  have hlast : answers.length < taken.length := by omega
  have hafter : answers.length + 1 < taken.length := by omega
  -- Without an answer the host takes all, so that nothing is left for a write after that.
  obtain ⟨-, hall⟩ := h.offered _ _ (List.getElem?_eq_getElem hlast)
  rw [answered_of_none (List.getElem?_eq_none (Nat.le_refl _))] at hall
  refine (h.offered _ _ (List.getElem?_eq_getElem hafter)).1 ?_
  rw [List.take_succ_eq_append_getElem hlast, ← Except.ok.inj hall, left, List.flatten_concat, List.length_append,
    ← List.drop_drop]
  exact List.drop_length

end Pushing

/-- How a loop of writes ends: nothing is left, or the host fails a write of what is. -/
inductive PushEnds (payload : Bytes) (answers : List Answer) : List Bytes → Option Fault → Prop
  | done (taken : List Bytes) (hpushing : Pushing payload answers taken) (hleft : left payload taken = []) :
      PushEnds payload answers taken none
  | broken (taken : List Bytes) (f : Fault) (hpushing : Pushing payload answers taken) (hleft : left payload taken ≠ [])
      (hfault : answers[taken.length]? = some (.fault f)) : PushEnds payload answers taken (some f)

/-- From any point on, whatever answers the host still has. -/
theorem push_ends {payload : Bytes} {answers before : List _} (rest : List Answer)
    (hrest : answers.drop (List.length before) = rest) (h : Pushing payload answers before) :
    PushEnds payload answers (before ++ (Session.push (left payload before) rest).1)
      (Session.push (left payload before) rest).2 := by
  induction rest generalizing before with
  | nil =>
    have hnone : answers[before.length]? = none := List.getElem?_eq_none (List.drop_eq_nil_iff.mp hrest)
    unfold Session.push
    by_cases hleft : left payload before = []
    · rw [hleft, List.isEmpty_nil, if_pos rfl, List.append_nil]
      exact .done before h hleft
    · rw [if_neg (by simpa using hleft)]
      obtain ⟨hnext, hafter⟩ := h.write hleft (answered_of_none hnone)
      exact .done _ hnext (hafter.trans List.drop_length)
  | cons answer rest ih =>
    have hanswer : answers[before.length]? = some answer := by
      rw [← List.head?_drop, hrest]
      rfl
    have hdrop : answers.drop (before.length + 1) = rest := by
      rw [← List.tail_drop, hrest]
      rfl
    -- What a write takes goes to what was taken before, and the loop goes on with what is left then.
    have hstep {chunk : Bytes} (hleft : left payload before ≠ []) (hchunk : answer.takes (left payload before) = .ok chunk) :
        PushEnds payload answers (before ++ chunk :: (Session.push ((left payload before).drop chunk.length) rest).1)
          (Session.push ((left payload before).drop chunk.length) rest).2 := by
      obtain ⟨hnext, hafter⟩ := h.write hleft ((answered_of_some hanswer).trans hchunk)
      have hends := ih (by rw [List.length_append, List.length_singleton, hdrop]) hnext
      rwa [hafter, List.append_assoc] at hends
    unfold Session.push
    by_cases hleft : left payload before = []
    · rw [hleft, List.isEmpty_nil, if_pos rfl, List.append_nil]
      exact .done before h hleft
    · rw [if_neg (by simpa using hleft)]
      cases answer with
      | took n =>
        have hends := hstep hleft rfl
        rwa [List.length_take, ← List.drop_eq_drop_min] at hends
      | wouldBlock => exact hstep hleft rfl
      | fault f =>
        dsimp only
        rw [List.append_nil]
        exact .broken before f h hleft hanswer

/-! ### Writes to a session -/

/-- How the writing of a text to a session ends: the session takes none, and then the host is not asked, so it makes no
    difference how it would answer; all of the text was taken; or the host failed when it had taken a part of it. -/
inductive WriteEnds (s : Session) (text : String) (answers : List Answer) : List Bytes → Except Failure Unit → Prop
  | refused (f : Fault) (hclosed : s.isOpen = false) (hsystem : f.isSystem = true)
      (hunasked : ∀ others, s.write text others = ([], some f)) : WriteEnds s text answers [] (.error (.fault f))
  | written (taken : List Bytes) (hopen : s.isOpen = true) (hpushing : Pushing (Text.utf8 text) answers taken)
      (hall : taken.flatten = Text.utf8 text) (hwrites : taken.length ≤ answers.length + 1) :
      WriteEnds s text answers taken (.ok ())
  | broken (taken : List Bytes) (f : Fault) (hopen : s.isOpen = true) (hpushing : Pushing (Text.utf8 text) answers taken)
      (hpart : taken.flatten <+: Text.utf8 text) (hless : taken.flatten ≠ Text.utf8 text)
      (hfault : answers[taken.length]? = some (.fault f)) : WriteEnds s text answers taken (.error (.fault f))

/-- What is answered to whoever writes: the fault, if there is one. -/
def writeAnswer : Option Fault → Except Failure Unit
  | none => .ok ()
  | some f => .error (.fault f)

theorem Session.write_ends (s : Session) (text : String) (answers : List Answer) :
    WriteEnds s text answers (s.write text answers).1 (writeAnswer (s.write text answers).2) := by
  cases hopen : s.isOpen with
  | false =>
    have hrefused (others : List Answer) :
        s.write text others = ([], some ⟨.system, "PTY session " ++ s.id ++ " is not open"⟩) := by
      rw [write, writeRefusal?, hopen]
      rfl
    rw [hrefused]
    exact .refused _ hopen rfl hrefused
  | true =>
    have hpush : s.write text answers = push (left (Text.utf8 text) []) answers := by
      rw [write, writeRefusal?, hopen]
      rfl
    have hends : PushEnds (Text.utf8 text) answers _ _ := push_ends answers rfl (.nil (Text.utf8 text) answers)
    rw [← hpush, List.nil_append] at hends
    generalize s.write text answers = result at hends
    obtain ⟨taken, fault⟩ := result
    dsimp only at hends ⊢
    cases hends with
    | done hpushing hleft =>
      have hall := hpushing.whole
      rw [hleft, List.append_nil] at hall
      exact .written taken hopen hpushing hall hpushing.length_le
    | broken f hpushing hleft hfault =>
      refine .broken taken f hopen hpushing ⟨_, hpushing.whole⟩ (fun hall => hleft ?_) hfault
      rw [left, hall]
      exact List.drop_length

namespace Store

/-- Whatever text is written to a session, and however the host answers each write of a part of it: if the writing succeeds
    the host has taken exactly the bytes of the text, in order; if the host fails, its fault is the answer, and the host has
    taken the beginning of these bytes, but not all; a session that is not open fails as a system call does without asking
    the host. The host is asked at most once more than it has answers ready, each time for what is left. Only what is
    written down of the session changes. -/
theorem write_loses_and_repeats_nothing {st : Store} {k : Nat} {e : Entry} (he : st.entry? k = some e) (text : String)
    (answers : List Answer) : ∃ taken r,
      st.write k text answers = (r, st.setEntry k { e with written := e.written ++ taken }) ∧
        WriteEnds e.session text answers taken r := by
  refine ⟨_, _, ?_, e.session.write_ends text answers⟩
  cases hresult : e.session.write text answers with
  | mk taken fault => cases fault <;> simp only [Store.write, he, hresult, writeAnswer]

/-- A session whose terminal takes a character of two bytes one at a time. -/
theorem split_character_is_written :
    let st := (founded [{ database := Identity.Tables.database {} }]).after [untroubled (.start 0 false "")]
    ∃ e taken, st.entry? 0 = some e ∧ e.session.isOpen = true ∧
      WriteEnds e.session "é" [.took 1, .wouldBlock, .took 0] taken (.ok ()) ∧ taken.flatten = [0xc3, 0xa9] := by
  intro st
  have hentry : st.entry? 0 = some _ := rfl
  obtain ⟨taken, r, hwrite, hends⟩ := write_loses_and_repeats_nothing hentry "é" [.took 1, .wouldBlock, .took 0]
  have hbytes : Text.utf8 "é" = [0xc3, 0xa9] := by decide +kernel
  cases hends with
  | refused f hclosed => cases hclosed
  | broken _ f hopen hpushing hpart hless hfault =>
    rcases taken with _ | ⟨_, _ | ⟨_, _ | ⟨_, _⟩⟩⟩ <;> cases hfault
  | written _ hopen hpushing hall hwrites =>
    exact ⟨_, taken, hentry, hopen, .written taken hopen hpushing hall hwrites, hall.trans hbytes⟩

end Store

end Teletype
