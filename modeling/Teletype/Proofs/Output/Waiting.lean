import Mathlib.Order.Bounds.Basic
import Mathlib.Tactic.Linarith
import Teletype.Proofs.Output.Line

/-! # When a wait ends

A wait for a marker is decided at the first time at which the watcher, once it has read all that is queued by
then, has the marker in its window or has come to the end of the output. It ends at that time, or at its
deadline if there is no such time before. Nothing else that arrives makes a difference. -/

namespace Teletype

/-! ### What is queued by a time -/

/-- What an effect queues for the reader of a terminal. -/
def Effect.item? : Effect → Option Item
  | .output bytes => if bytes.isEmpty then none else some (.chunk bytes)
  | .endOfOutput => some .endOfOutput
  | .readFault => some .fault
  | .file _ _ | .exit _ => none

/-- What the entries of an agenda queue up to a time. -/
def arriving (agenda : List Timed) (time : Time) : List Item :=
  (agenda.filter fun entry => decide (entry.1 ≤ time)).flatMap fun entry => entry.2.filterMap Effect.item?

/-- An agenda is in the order of time. -/
def InOrder (agenda : List Timed) : Prop := agenda.Pairwise fun a b => a.1 ≤ b.1

/-- The agenda of all entries of a timeline, in the order of time. -/
def agendaOf (timeline : List Timed) : List Timed := timeline.foldl (fun agenda entry => schedule entry agenda) []

section
variable {agenda : List Timed} {entry : Timed} {time : Time}

theorem arriving_cons_of_le (h : entry.1 ≤ time) (rest : List Timed) :
    arriving (entry :: rest) time = entry.2.filterMap Effect.item? ++ arriving rest time := by
  simp only [arriving, List.filter_cons, h, decide_true, if_true, List.flatMap_cons]

/-- An entry without effects queues nothing. -/
theorem arriving_idle (now time : Time) (agenda : List Timed) : arriving ((now, []) :: agenda) time = arriving agenda time := by
  unfold arriving
  rw [List.filter_cons]
  split <;> rfl

theorem arriving_of_lt (h : ∀ entry ∈ agenda, time < entry.1) : arriving agenda time = [] := by
  have hnone : agenda.filter (fun entry => decide (entry.1 ≤ time)) = [] := by
    rw [List.filter_eq_nil_iff]
    intro entry hentry
    simpa using h entry hentry
  rw [arriving, hnone, List.flatMap_nil]

theorem InOrder.lt (h : InOrder (entry :: agenda)) (hentry : time < entry.1) : ∀ e ∈ entry :: agenda, time < e.1 := by
  intro e he
  rcases List.mem_cons.mp he with rfl | he
  · exact hentry
  · exact lt_of_lt_of_le hentry (List.rel_of_pairwise_cons h he)

/-- An agenda gets the entry that is put on it, and nothing else. -/
theorem perm_schedule (entry : Timed) : ∀ agenda : List Timed, (schedule entry agenda).Perm (entry :: agenda)
  | [] => .refl _
  | first :: rest => by
    rw [schedule]
    split
    · exact .refl _
    · exact ((perm_schedule entry rest).cons first).trans (.swap entry first rest)

theorem mem_schedule {e : Timed} : e ∈ schedule entry agenda ↔ e = entry ∨ e ∈ agenda :=
  (perm_schedule entry agenda).mem_iff.trans List.mem_cons

theorem InOrder.schedule : ∀ {agenda : List Timed}, InOrder agenda → InOrder (schedule entry agenda)
  | [], _ => List.pairwise_singleton _ _
  | first :: rest, h => by
    obtain ⟨hfirst, hrest⟩ := List.pairwise_cons.mp h
    rw [Teletype.schedule]
    split
    · next hlt => exact List.pairwise_cons.mpr ⟨fun e he => le_of_lt (h.lt hlt e he), h⟩
    · next hle =>
      refine List.pairwise_cons.mpr ⟨fun e he => ?_, InOrder.schedule hrest⟩
      rcases mem_schedule.mp he with rfl | he
      · exact not_lt.mp hle
      · exact hfirst e he

theorem inOrder_agendaOf (timeline : List Timed) : InOrder (agendaOf timeline) := by
  suffices h : ∀ agenda, InOrder agenda → InOrder (timeline.foldl (fun agenda entry => schedule entry agenda) agenda) from
    h [] List.Pairwise.nil
  induction timeline with
  | nil => exact fun _ h => h
  | cons entry timeline ih => exact fun agenda h => ih _ h.schedule

theorem Terminal.applyAll_queue : ∀ (effects : List Effect) (t : Terminal),
    (t.applyAll time effects).queue = t.queue ++ effects.filterMap Effect.item?
  | [], t => (List.append_nil _).symm
  | e :: effects, t => by
    have ih := applyAll_queue effects (apply time t e)
    have hqueue : (apply time t e).queue = t.queue ++ e.item?.toList := by
      cases e with
      | output bytes => cases hempty : bytes.isEmpty <;> simp [apply, Effect.item?, hempty]
      | file | exit => exact (List.append_nil _).symm
      | endOfOutput | readFault => rfl
    rw [applyAll, List.foldl_cons]
    rw [applyAll] at ih
    rw [ih, hqueue, List.append_assoc, List.filterMap_cons]
    cases e.item? <;> rfl

end

namespace Output

open Text (Bytes)

/-! ### Reading all that is queued -/

namespace Watcher

theorem drain_of_detached {w : Watcher} (hw : w.attached = false) : ∀ queue : List Item, w.drain queue = (w, [], queue)
  | [] => rfl
  | item :: rest => by rw [drain, hw, if_neg Bool.false_ne_true]

/-- Reading can pause anywhere: what was left is read first when it goes on. -/
theorem drain_append (more : List Item) : ∀ (queue : List Item) (w : Watcher),
    (w.drain (queue ++ more)).1 = ((w.drain queue).1.drain ((w.drain queue).2.2 ++ more)).1
  | [], w => rfl
  | item :: rest, w => by
    cases hw : w.attached with
    | true =>
      simp only [List.cons_append, drain, hw, if_true]
      exact drain_append more rest (w.read item)
    | false => simp only [drain_of_detached hw]

/-- What is left in a queue is left there when it is read again. -/
theorem drain_left (queue : List Item) (w : Watcher) :
    (w.drain queue).1.drain (w.drain queue).2.2 = ((w.drain queue).1, [], (w.drain queue).2.2) := by
  induction queue generalizing w with
  | nil => rfl
  | cons item rest ih =>
    cases hw : w.attached with
    | true =>
      simp only [drain, hw, if_true]
      exact ih (w.read item)
    | false => simp only [drain_of_detached hw]

end Watcher

namespace Line

/-- The watcher once it has read all that is queued by a time. -/
def watcherBy (l : Line) (time : Time) : Watcher :=
  (l.watcher.drain (l.terminal.queue ++ arriving l.terminal.agenda time)).1

/-- The marker is in the window once all that is queued by a time has been read. -/
def foundBy (l : Line) (marker : Bytes) (start : Int) (time : Time) : Bool :=
  ((l.watcherBy time).window.find? marker start).isSome

/-- The times from now until a limit by which the marker is in the window or the output has ended. -/
def decisive (l : Line) (marker : Bytes) (start : Int) (limit : Time) : Set Time :=
  {t | l.now ≤ t ∧ t < limit ∧ (l.foundBy marker start t = true ∨ (l.watcherBy t).ended = true)}

/-- A wait until a limit, or what is left of it, ends as it should: at the first decisive time, and with the
    marker if it is in the window then; or at the limit without it. -/
def EndsWell (l : Line) (marker : Bytes) (start : Int) (limit : Time) (result : Bool × Line) : Prop :=
  (∃ t, IsLeast (l.decisive marker start limit) t ∧ result.1 = l.foundBy marker start t ∧ result.2.now = t) ∨
  (l.decisive marker start limit = ∅ ∧ result.1 = false ∧ result.2.now = limit)

section
variable {l : Line} {marker : Bytes} {start : Int} {limit t : Time} {entry : Timed} {agenda rest : List Timed}

theorem later_eq_max (a b : Time) : later a b = max a b := by
  unfold later
  split
  · next h => exact (max_eq_right (le_of_lt h)).symm
  · next h => exact (max_eq_left (not_lt.mp h)).symm

/-- Nothing that the watcher could read is queued. -/
def IsRead (l : Line) : Prop := (l.watcher.drain l.terminal.queue).1 = l.watcher

theorem isRead_settle (l : Line) : l.settle.IsRead := by
  have hleft := congrArg Prod.fst (Watcher.drain_left l.terminal.queue l.watcher)
  exact hleft

theorem IsRead.watcherBy (h : l.IsRead) (hagenda : ∀ e ∈ agenda, t < e.1) :
    (l.withAgenda agenda).watcherBy t = l.watcher := by
  show (l.watcher.drain (l.terminal.queue ++ arriving agenda t)).1 = _
  rw [arriving_of_lt hagenda, List.append_nil]
  exact h

theorem isRead_perform (l : Line) (entry : Timed) : (l.perform entry).IsRead := isRead_settle _

/-- Performing an entry reads what it queues, and changes nothing of what will have been read later on. -/
theorem watcherBy_perform (l : Line) (h : entry.1 ≤ t) (rest : List Timed) :
    ((l.perform entry).withAgenda rest).watcherBy t = (l.withAgenda (entry :: rest)).watcherBy t := by
  show (Watcher.drain (l.watcher.drain (l.terminal.applyAll entry.1 entry.2).queue).1
      ((l.watcher.drain (l.terminal.applyAll entry.1 entry.2).queue).2.2 ++ arriving rest t)).1 =
    (l.watcher.drain (l.terminal.queue ++ arriving (entry :: rest) t)).1
  rw [← Watcher.drain_append, Terminal.applyAll_queue, arriving_cons_of_le h, List.append_assoc]

theorem verdict?_eq_none {w : Watcher} :
    w.verdict? marker start = none ↔ (w.window.find? marker start).isSome = false ∧ w.ended = false := by
  unfold Watcher.verdict?
  split
  · next h => simp [h]
  · next h => split <;> simp_all

/-- While nothing arrives, a watcher without a verdict has none. -/
theorem IsRead.notMem_decisive (h : l.IsRead) (hv : l.watcher.verdict? marker start = none) (hagenda : ∀ e ∈ agenda, t < e.1) :
    t ∉ (l.withAgenda agenda).decisive marker start limit := by
  obtain ⟨hfind, hended⟩ := verdict?_eq_none.mp hv
  rintro ⟨-, -, hfound | hends⟩
  · rw [foundBy, h.watcherBy hagenda, hfind] at hfound
    cases hfound
  · rw [h.watcherBy hagenda, hended] at hends
    cases hends

/-- The decisive times stay the same when the next entry is performed, if none of them comes before it. -/
theorem decisive_perform (hbefore : ∀ t ∈ (l.withAgenda (entry :: rest)).decisive marker start limit, entry.1 ≤ t) :
    ((l.perform entry).withAgenda rest).decisive marker start limit =
      (l.withAgenda (entry :: rest)).decisive marker start limit := by
  have hnow : ((l.perform entry).withAgenda rest).now = max l.now entry.1 := later_eq_max l.now entry.1
  ext t
  constructor
  · rintro ⟨hle, hlt, hdecided⟩
    rw [hnow] at hle
    rw [foundBy, watcherBy_perform l (le_of_max_le_right hle)] at hdecided
    exact ⟨le_of_max_le_left hle, hlt, hdecided⟩
  · intro ht
    have hle := hbefore t ht
    obtain ⟨hnowle, hlt, hdecided⟩ := ht
    rw [foundBy, ← watcherBy_perform l hle] at hdecided
    exact ⟨hnow ▸ max_le hnowle hle, hlt, hdecided⟩

/-! ### Listening until the deadline -/

theorem EndsWell.of_perform {result : Bool × Line}
    (hbefore : ∀ t ∈ (l.withAgenda (entry :: rest)).decisive marker start limit, entry.1 ≤ t)
    (h : ((l.perform entry).withAgenda rest).EndsWell marker start limit result) :
    (l.withAgenda (entry :: rest)).EndsWell marker start limit result := by
  unfold EndsWell at h ⊢
  rw [decisive_perform hbefore] at h
  refine h.imp_left fun ⟨t, hleast, hfound, hnow⟩ => ⟨t, hleast, ?_, hnow⟩
  rw [hfound, foundBy, foundBy, watcherBy_perform l (hbefore t hleast.1)]

/-- One turn: an entry that comes before the deadline is performed. If nothing else is due then, the watcher is
    asked, and without a verdict it goes on. -/
theorem EndsWell.turn (hrest : InOrder rest) (hentry : entry.1 < limit)
    (hgoesOn : (l.perform entry).watcher.verdict? marker start = none ∨
        (∃ e ∈ rest.head?, e.1 ≤ (l.perform entry).now) →
      ((l.perform entry).withAgenda rest).EndsWell marker start limit
        (listen marker start (.at limit) (l.perform entry) rest))
    (hnow : (l.perform entry).now < limit) :
    ((l.perform entry).withAgenda rest).EndsWell marker start limit
      (listen marker start (.at limit) l (entry :: rest)) := by
  have hopen : comesBy (.at limit) entry.1 = false := by simpa [comesBy] using hentry
  rw [listen, hopen]
  dsimp only
  rw [if_neg Bool.false_ne_true]
  split
  · next hnext =>
    refine hgoesOn (Or.inr ?_)
    cases rest with
    | nil => simp at hnext
    | cons e rest => exact ⟨e, rfl, by simpa using hnext⟩
  · next hnext =>
    have hlater : ∀ e ∈ rest, (l.perform entry).now < e.1 := by
      cases rest with
      | nil =>
        intro e he
        cases he
      | cons e rest => exact hrest.lt (by simpa using hnext)
    have hread := (isRead_perform l entry).watcherBy hlater
    split
    · next found hv =>
      have hfound : (l.perform entry).watcher.verdict? marker start ≠ none := by rw [hv]; simp
      refine Or.inl ⟨(l.perform entry).now, ⟨⟨le_rfl, hnow, ?_⟩, fun _ ht => ht.1⟩, ?_, rfl⟩
      · rw [Ne, verdict?_eq_none, not_and_or, Bool.not_eq_false, Bool.not_eq_false] at hfound
        rwa [foundBy, hread]
      · rw [foundBy, hread]
        cases found with
        | true => exact (verdict?_eq_true hv).symm
        | false =>
          have hnone := verdict?_ne_true (by rw [hv]; simp)
          rw [hnone]
          rfl
    · next hv => exact hgoesOn (Or.inl hv)

/-- Listening ends as it should when it begins with a watcher that has read what is queued and has no verdict,
    or with an entry that is due at once. -/
theorem listen_endsWell : ∀ {agenda : List Timed} {l : Line}, InOrder agenda → l.now < limit →
    (l.IsRead ∧ l.watcher.verdict? marker start = none) ∨ (∃ entry ∈ agenda.head?, entry.1 ≤ l.now) →
    (l.withAgenda agenda).EndsWell marker start limit (listen marker start (.at limit) l agenda)
  | [], l, _, hnow, hasked => by
    obtain ⟨hread, hv⟩ := hasked.resolve_right nofun
    have hlate : later l.now limit = limit := if_pos hnow
    exact Or.inr ⟨Set.eq_empty_iff_forall_notMem.mpr fun t => hread.notMem_decisive hv nofun, rfl, hlate⟩
  | entry :: rest, l, horder, hnow, hasked => by
    have hrest : InOrder rest := horder.tail
    by_cases hentry : entry.1 < limit
    · have hnow' : (l.perform entry).now < limit := by
        show later l.now entry.1 < limit
        rw [later_eq_max]
        exact max_lt hnow hentry
      -- No time before the entry is decisive: either there is none, or nothing arrives until then.
      have hbefore : ∀ t ∈ (l.withAgenda (entry :: rest)).decisive marker start limit, entry.1 ≤ t := by
        intro t ht
        rcases hasked with ⟨hread, hv⟩ | ⟨e, he, hdue⟩
        · by_contra hlt
          exact hread.notMem_decisive hv (horder.lt (not_le.mp hlt)) ht
        · cases he
          exact le_trans hdue ht.1
      have hturn : ((l.perform entry).withAgenda rest).EndsWell marker start limit
          (listen marker start (.at limit) l (entry :: rest)) :=
        .turn hrest hentry (fun hstep => listen_endsWell hrest hnow'
          (hstep.imp_left fun hv => ⟨isRead_perform l entry, hv⟩)) hnow'
      exact hturn.of_perform hbefore
    · -- An entry at the deadline or after it is not due now, so the watcher has been asked.
      have hdue : comesBy (.at limit) entry.1 = true := by simpa [comesBy] using not_lt.mp hentry
      have hnotDue : ¬∃ e ∈ (entry :: rest).head?, e.1 ≤ l.now := by
        rintro ⟨e, he, hle⟩
        cases he
        exact hentry (lt_of_le_of_lt hle hnow)
      obtain ⟨hread, hv⟩ := hasked.resolve_right hnotDue
      have hlate : later l.now limit = limit := if_pos hnow
      have hnone : (l.withAgenda (entry :: rest)).decisive marker start limit = ∅ :=
        Set.eq_empty_iff_forall_notMem.mpr fun t ht =>
          hread.notMem_decisive hv (horder.lt (lt_of_lt_of_le ht.2.1 (not_lt.mp hentry))) ht
      rw [listen_due hdue]
      exact Or.inr ⟨hnone, rfl, hlate⟩

/-! ### Waiting -/

/-- A wait that is not answered at once ends as it should: what is queued is read first. -/
theorem waitFor_endsWell {timeout : Rat} (horder : InOrder l.terminal.agenda)
    (hv : l.watcher.verdict? marker start = none) (htimeout : 0 < timeout) :
    l.EndsWell marker start (l.now + timeout)
      ((l.waitFor marker start (.finite timeout)).found, (l.waitFor marker start (.finite timeout)).line) := by
  have hnow : l.now < l.now + timeout := by linarith
  have hover : (Deadline.after l.now (.finite timeout)).isOver l.now = false := by
    simpa [Deadline.after, Deadline.isOver] using htimeout
  unfold waitFor
  rw [hv]
  dsimp only
  rw [hover, if_neg Bool.false_ne_true]
  let first : Timed := (l.now, [])
  have hfirst : (l.perform first).now = l.now := (later_eq_max l.now l.now).trans (max_self _)
  have hturn : ((l.perform first).withAgenda l.terminal.agenda).EndsWell marker start (l.now + timeout)
      (listen marker start (.at (l.now + timeout)) l (first :: l.terminal.agenda)) :=
    .turn horder hnow (fun hstep => listen_endsWell horder (hfirst ▸ hnow)
      (hstep.imp_left fun hv => ⟨isRead_perform l first, hv⟩)) (hfirst ▸ hnow)
  have hwait := hturn.of_perform fun t ht => ht.1
  have hsame : (l.withAgenda (first :: l.terminal.agenda)).watcherBy = l.watcherBy := by
    funext t
    exact congrArg (fun items => (l.watcher.drain (l.terminal.queue ++ items)).1) (arriving_idle l.now t l.terminal.agenda)
  unfold EndsWell decisive foundBy at hwait ⊢
  rw [hsame] at hwait
  exact hwait

/-- How a wait ends depends only on when the marker is in the window and when the output has ended. -/
theorem EndsWell.unique {l' : Line} {result result' : Bool × Line} (h : l.EndsWell marker start limit result)
    (h' : l'.EndsWell marker start limit result') (hnow : l'.now = l.now)
    (hsame : ∀ t, l.now ≤ t → t < limit →
      l'.foundBy marker start t = l.foundBy marker start t ∧ (l'.watcherBy t).ended = (l.watcherBy t).ended) :
    result'.1 = result.1 ∧ result'.2.now = result.2.now := by
  have hdecisive : l'.decisive marker start limit = l.decisive marker start limit := by
    ext t
    unfold decisive
    rw [hnow]
    refine and_congr_right fun hle => and_congr_right fun hlt => ?_
    rw [(hsame t hle hlt).1, (hsame t hle hlt).2]
  unfold EndsWell at h'
  rw [hdecisive] at h'
  rcases h with ⟨t, hleast, hfound, hend⟩ | ⟨hnone, hfound, hend⟩ <;>
    rcases h' with ⟨t', hleast', hfound', hend'⟩ | ⟨hnone', hfound', hend'⟩
  · obtain rfl := hleast'.unique hleast
    exact ⟨by rw [hfound', hfound, (hsame _ hleast.1.1 hleast.1.2.1).1], by rw [hend', hend]⟩
  · exact absurd hleast.1 (hnone' ▸ Set.notMem_empty t)
  · exact absurd hleast'.1 (hnone ▸ Set.notMem_empty t')
  · exact ⟨hfound'.trans hfound.symm, hend'.trans hend.symm⟩

theorem waitFor_of_verdict {found : Bool} (hv : l.watcher.verdict? marker start = some found) (span : Span) :
    l.waitFor marker start span = ⟨found, l, false⟩ := by
  unfold waitFor
  rw [hv]

theorem waitFor_of_timeout {timeout : Rat} (hv : l.watcher.verdict? marker start = none) (htimeout : timeout ≤ 0) :
    l.waitFor marker start (.finite timeout) = ⟨false, l, false⟩ := by
  have hover : (Deadline.after l.now (.finite timeout)).isOver l.now = true := by
    simpa [Deadline.after, Deadline.isOver] using htimeout
  unfold waitFor
  rw [hv]
  dsimp only
  rw [hover, if_pos rfl]

end

/-- Whatever a line has heard and whatever is to come: a wait ends at once with the marker if that is in the
    window, and otherwise at once without it if the output has ended or there is no time. Else it ends at the
    first time before its deadline at which, once all that is queued by then has been read, the marker is in
    the window or the output has ended, and it ends with the marker in the former case; if there is no such
    time it ends at the deadline. So what arrives without bringing the marker or the end changes neither. -/
theorem waitFor_ends_exactly (l : Line) (timeline : List Timed) (marker : Bytes) (start : Int) (timeout : Rat) :
    let expecting (timeline : List Timed) : Line := l.withAgenda (agendaOf timeline)
    let wait (timeline : List Timed) : Wait := (expecting timeline).waitFor marker start (.finite timeout)
    let limit := l.now + timeout
    let decisive := (expecting timeline).decisive marker start limit
    ((l.watcher.window.find? marker start).isSome = true →
      (wait timeline).found = true ∧ (wait timeline).line = expecting timeline) ∧
    ((l.watcher.window.find? marker start).isSome = false → l.watcher.ended = true ∨ timeout ≤ 0 →
      (wait timeline).found = false ∧ (wait timeline).line = expecting timeline) ∧
    ((l.watcher.window.find? marker start).isSome = false → l.watcher.ended = false → 0 < timeout →
      (∃ t, IsLeast decisive t ∧ (wait timeline).found = (expecting timeline).foundBy marker start t ∧
        (wait timeline).line.now = t) ∨
      (decisive = ∅ ∧ (wait timeline).found = false ∧ (wait timeline).line.now = limit)) ∧
    ∀ other : List Timed,
      (∀ t, l.now ≤ t → t < limit →
        (expecting other).foundBy marker start t = (expecting timeline).foundBy marker start t ∧
        ((expecting other).watcherBy t).ended = ((expecting timeline).watcherBy t).ended) →
      (wait other).found = (wait timeline).found ∧ (wait other).line.now = (wait timeline).line.now := by
  intro expecting wait limit decisive
  have hwell (timeline : List Timed) (hv : l.watcher.verdict? marker start = none) (htimeout : 0 < timeout) :
      (expecting timeline).EndsWell marker start limit ((wait timeline).found, (wait timeline).line) :=
    waitFor_endsWell (inOrder_agendaOf timeline) hv htimeout
  refine ⟨fun hfind => ?_, fun hfind hover => ?_, fun hfind hended htimeout => ?_, fun other hsame => ?_⟩
  · have hv : l.watcher.verdict? marker start = some true := by simp [Watcher.verdict?, hfind]
    have hwait : wait timeline = ⟨true, expecting timeline, false⟩ := waitFor_of_verdict (l := expecting timeline) hv _
    rw [hwait]
    exact ⟨rfl, rfl⟩
  · have hwait : wait timeline = ⟨false, expecting timeline, false⟩ := by
      cases hended : l.watcher.ended with
      | true => exact waitFor_of_verdict (by simp [expecting, withAgenda, Watcher.verdict?, hfind, hended]) _
      | false =>
        have htimeout : timeout ≤ 0 := hover.resolve_left (by rw [hended]; exact Bool.false_ne_true)
        exact waitFor_of_timeout (verdict?_eq_none.mpr ⟨hfind, hended⟩) htimeout
    rw [hwait]
    exact ⟨rfl, rfl⟩
  · exact hwell timeline (verdict?_eq_none.mpr ⟨hfind, hended⟩) htimeout
  · cases hv : l.watcher.verdict? marker start with
    | some found =>
      have hwait (timeline : List Timed) : wait timeline = ⟨found, expecting timeline, false⟩ :=
        waitFor_of_verdict (l := expecting timeline) hv _
      rw [hwait, hwait]
      exact ⟨rfl, rfl⟩
    | none =>
      by_cases htimeout : 0 < timeout
      · exact (hwell timeline hv htimeout).unique (hwell other hv htimeout) rfl hsame
      · have hwait (timeline : List Timed) : wait timeline = ⟨false, expecting timeline, false⟩ :=
          waitFor_of_timeout hv (not_lt.mp htimeout)
        rw [hwait, hwait]
        exact ⟨rfl, rfl⟩

end Line

end Output

end Teletype
