import Teletype.Output.Copy
import Teletype.Proofs.Output.Window
import Teletype.Proofs.Terminal.Exit

/-! # What is copied

Copying takes the chunks of a queue up to its first item that is none, each in pieces of at most a read, and ends with a
read that brings nothing. No byte before that item is lost or copied twice. -/

namespace Teletype

/-- There is something to copy: the item is neither the end of the output nor a fault. -/
def Item.isChunk : Item → Bool
  | .chunk _ => true
  | .endOfOutput | .fault => false

namespace Output

open Text (Bytes)

/-! ### Pieces -/

section
variable {bytes piece : Bytes}

theorem pieces_of_short (hne : bytes ≠ []) (hshort : bytes.length ≤ readSize) : pieces bytes = [bytes] := by
  rw [pieces, if_pos hshort, if_neg (by simpa using hne)]

theorem pieces_of_long (hlong : ¬bytes.length ≤ readSize) :
    pieces bytes = bytes.take readSize :: pieces (bytes.drop readSize) := by
  rw [pieces, if_neg hlong]

theorem pieces_fit (h : piece ∈ pieces bytes) : piece ≠ [] ∧ piece.length ≤ readSize := by
  fun_induction pieces bytes with
  | case1 => cases h
  | case2 bytes hshort hne =>
    obtain rfl := List.mem_singleton.mp h
    exact ⟨by simpa using hne, hshort⟩
  | case3 bytes hlong ih =>
    rcases List.mem_cons.mp h with rfl | h
    · have hlength := List.length_take (i := readSize) (l := bytes)
      exact ⟨List.ne_nil_of_length_pos (by unfold readSize at *; omega), by omega⟩
    · exact ih h

end

/-! ### Reads -/

/-- The chunks that are copied from a queue, in pieces. -/
def copied (queue : List Item) : List Bytes := (queue.takeWhile Item.isChunk).flatMap fun item => pieces item.bytes

/-- The item that copying a queue ends with. -/
def lastOf (queue : List Item) : Item := (queue.dropWhile Item.isChunk).headD .endOfOutput

theorem lastOf_isChunk (queue : List Item) : (lastOf queue).isChunk = false := by
  unfold lastOf
  induction queue with
  | nil => rfl
  | cons item queue ih =>
    cases item with
    | chunk bytes => exact ih
    | endOfOutput | fault => rfl

theorem flatten_copied (queue : List Item) : (copied queue).flatten = (queue.takeWhile Item.isChunk).flatMap Item.bytes := by
  unfold copied
  generalize queue.takeWhile Item.isChunk = items
  induction items with
  | nil => rfl
  | cons item items ih => rw [List.flatMap_cons, List.flatten_append, flatten_pieces, ih, List.flatMap_cons]

/-- A read that brings nothing is the last: it brings the first item that is none, or finds nothing more to come. -/
theorem readOnce_last {queue later : List Item} (hchunks : .chunk [] ∉ queue) (hlater : queue = [] → later = [])
    (hnone : (readOnce readSize queue).1.bytes.isEmpty = true) :
    copied (queue ++ later) = [] ∧ lastOf (queue ++ later) = (readOnce readSize queue).1 ∧
      (queue = [] ∨ queue.all Item.isChunk = false) := by
  cases queue with
  | nil =>
    rw [hlater rfl]
    exact ⟨rfl, rfl, Or.inl rfl⟩
  | cons item rest =>
    cases item with
    | endOfOutput | fault => exact ⟨rfl, rfl, Or.inr rfl⟩
    | chunk bytes =>
      have hempty : bytes = [] := by simpa [readOnce, Item.bytes, readSize] using hnone
      exact absurd (hempty ▸ List.mem_cons_self) hchunks

/-- A read that brings bytes takes the first piece of what is to be copied. -/
structure TakesPiece (queue left : List Item) (piece : Bytes) : Prop where
  copied : ∀ later, Output.copied (queue ++ later) = piece :: Output.copied (left ++ later)
  last : ∀ later, lastOf (queue ++ later) = lastOf (left ++ later)
  chunks : left.all Item.isChunk = queue.all Item.isChunk
  chunk_notMem : .chunk [] ∉ left

theorem readOnce_takes {queue : List Item} (hchunks : .chunk [] ∉ queue)
    (hsome : ¬(readOnce readSize queue).1.bytes.isEmpty = true) :
    ∃ piece, (readOnce readSize queue).1 = .chunk piece ∧ TakesPiece queue (readOnce readSize queue).2 piece := by
  cases queue with
  | nil => simp [readOnce, Item.bytes] at hsome
  | cons item rest =>
    cases item with
    | endOfOutput | fault => simp [readOnce, Item.bytes] at hsome
    | chunk bytes =>
      have hne : bytes ≠ [] := fun h => hchunks (h ▸ List.mem_cons_self)
      have hrest : .chunk [] ∉ rest := fun h => hchunks (List.mem_cons_of_mem _ h)
      have hcopied (later : List Item) : copied (.chunk bytes :: rest ++ later) = pieces bytes ++ copied (rest ++ later) := rfl
      -- A read takes the chunk, or its first piece and leaves the chunk with the others.
      by_cases hshort : bytes.length ≤ readSize
      · have hread : readOnce readSize (.chunk bytes :: rest) = (.chunk bytes, rest) := by
          rw [readOnce, if_pos hshort, List.take_of_length_le hshort]
        rw [hread]
        refine ⟨bytes, rfl, fun later => ?_, fun later => rfl, rfl, hrest⟩
        rw [hcopied, pieces_of_short hne hshort]
        rfl
      · have hread : readOnce readSize (.chunk bytes :: rest) =
            (.chunk (bytes.take readSize), .chunk (bytes.drop readSize) :: rest) := by
          rw [readOnce, if_neg hshort]
        have hleft : bytes.drop readSize ≠ [] := by simpa using hshort
        rw [hread]
        refine ⟨bytes.take readSize, rfl, fun later => ?_, fun later => rfl, rfl, by simpa [hleft] using hrest⟩
        rw [hcopied, pieces_of_long hshort]
        rfl

/-- What is copied is all that comes before the first item that is no chunk. -/
theorem copied_bytes (items : List Item) : ((copied items).map Item.chunk ++ [lastOf items]).flatMap Item.bytes =
    (items.takeWhile Item.isChunk).flatMap Item.bytes := by
  have hlast : (lastOf items).bytes = [] := by
    have h := lastOf_isChunk items
    cases hitem : lastOf items with
    | chunk bytes =>
      rw [hitem] at h
      cases h
    | endOfOutput | fault => rfl
  rw [List.flatMap_append, List.flatMap_singleton, hlast, List.append_nil, List.flatMap_map, ← flatten_copied, ← List.flatMap_id]
  rfl

/-! ### What is to come -/

/-- All that the entries of an agenda queue. -/
def allArriving (agenda : List Timed) : List Item := agenda.flatMap fun entry => entry.2.filterMap Effect.item?

theorem chunk_notMem_items (effects : List Effect) : .chunk [] ∉ effects.filterMap Effect.item? := by
  intro h
  obtain ⟨e, -, he⟩ := List.mem_filterMap.mp h
  cases e with
  | output bytes => cases bytes <;> simp [Effect.item?] at he
  | file | exit | endOfOutput | readFault => simp [Effect.item?] at he

theorem chunk_notMem_allArriving (agenda : List Timed) : .chunk [] ∉ allArriving agenda := by
  intro h
  obtain ⟨entry, -, hentry⟩ := List.mem_flatMap.mp h
  exact chunk_notMem_items _ hentry

/-- The time at which output ends of which so much is queued and the rest is planned: as soon as something is queued that is
    no chunk, or else when all that is planned has been done. -/
def endsAt (queue : List Item) (now : Time) : List Timed → Time
  | [] => now
  | entry :: rest =>
    if queue.all Item.isChunk then endsAt (entry.2.filterMap Effect.item?) (later now entry.1) rest else now

theorem endsAt_of_not_all {queue : List Item} (h : queue.all Item.isChunk = false) (now : Time) (agenda : List Timed) :
    endsAt queue now agenda = now := by
  cases agenda with
  | nil => rfl
  | cons entry rest => rw [endsAt, h, if_neg Bool.false_ne_true]

theorem endsAt_congr {queue queue' : List Item} (h : queue.all Item.isChunk = queue'.all Item.isChunk) (now : Time)
    (agenda : List Timed) : endsAt queue now agenda = endsAt queue' now agenda := by
  cases agenda with
  | nil => rfl
  | cons entry rest => rw [endsAt, endsAt, h]

end Output

namespace Terminal

open Output (copied lastOf allArriving endsAt readOnce)

/-- All that is ever to be read from a terminal. -/
def coming (t : Terminal) : List Item := t.queue ++ allArriving t.agenda

/-- The time at which the output of a terminal ends. -/
def outputEnd (t : Terminal) (now : Time) : Time := endsAt t.queue now t.agenda

/-- What waiting for output comes to: no output is lost, its end is not passed, and nothing is done but what was due. -/
structure Awaits (t : Terminal) (now : Time) (agenda : List Timed) (ready : Terminal) (ended : Time) : Prop where
  coming : ready.coming = t.queue ++ allArriving agenda
  silent : ready.queue = [] → ready.agenda = []
  outputEnd : ready.outputEnd ended = endsAt t.queue now agenda
  since : now ≤ ended
  advance : ∀ {time : Time}, ended ≤ time → ready.advance time = t.runAgenda time agenda

theorem awaitOutput_awaits (t : Terminal) (now : Time) (agenda : List Timed) :
    t.Awaits now agenda (t.awaitOutput now agenda).1 (t.awaitOutput now agenda).2 := by
  induction agenda generalizing t now with
  | nil => exact ⟨rfl, fun _ => rfl, rfl, le_rfl, fun _ => rfl⟩
  | cons entry rest ih =>
    unfold awaitOutput
    split
    · next hempty =>
      have hqueue : t.queue = [] := List.isEmpty_iff.mp hempty
      obtain ⟨hcoming, hsilent, hend, hsince, hadvance⟩ := ih (t.applyAll entry.1 entry.2) (later now entry.1)
      have hitems : (t.applyAll entry.1 entry.2).queue = entry.2.filterMap Effect.item? := by
        rw [applyAll_queue, hqueue, List.nil_append]
      rw [hitems] at hcoming hend
      have hlater : now ≤ later now entry.1 := (le_max_left _ _).trans (Output.Line.later_eq_max _ _).ge
      refine ⟨?_, hsilent, ?_, hlater.trans hsince, fun htime => ?_⟩
      · rw [hcoming, hqueue]
        rfl
      · rw [hend, hqueue]
        rfl
      · have hdue := (Output.Line.le_later_right now entry.1).trans (hsince.trans htime)
        rw [hadvance htime, runAgenda, if_pos hdue]
    · next hsome =>
      exact ⟨rfl, fun hnone => absurd (List.isEmpty_iff.mpr hnone) hsome, rfl, le_rfl, fun _ => runAgenda_agenda _ _ _ t⟩

/-- What copying comes to: all that comes before the first item that is no chunk is read piece by piece, and copying is over
    when that item is there or nothing more is planned. The child exits when it does, whoever reads. -/
structure Copied (t : Terminal) (now : Time) (result : List Item × Terminal × Time) : Prop where
  reads : result.1 = (copied t.coming).map .chunk ++ [lastOf t.coming]
  ended : result.2.2 = t.outputEnd now
  since : now ≤ result.2.2
  caughtUp : result.2.1.advance result.2.2 = result.2.1
  exit : ∀ {time : Time}, result.2.2 ≤ time → (result.2.1.advance time).exit = (t.advance time).exit

theorem Awaits.chunk_notMem {t ready : Terminal} {now ended : Time} {agenda : List Timed}
    (h : t.Awaits now agenda ready ended) (hchunks : .chunk [] ∉ t.queue) : .chunk [] ∉ ready.queue := by
  intro hmem
  have hcoming : .chunk [] ∈ t.queue ++ allArriving agenda := h.coming ▸ List.mem_append_left _ hmem
  exact (List.mem_append.mp hcoming).elim hchunks (Output.chunk_notMem_allArriving agenda)

theorem Awaits.exit {t ready : Terminal} {now ended time : Time} (h : t.Awaits now t.agenda ready ended) (queue : List Item)
    (htime : ended ≤ time) : (({ ready with queue } : Terminal).advance time).exit = (t.advance time).exit := by
  have hsame : ({ ready with queue } : Terminal).exit = ready.exit := rfl
  exact (exit_runAgenda_congr hsame time ready.agenda).trans (congrArg Terminal.exit (h.advance htime))

theorem copy_copied (t : Terminal) (now : Time) (hchunks : .chunk [] ∉ t.queue) :
    t.Copied now (t.copy now) := by
  fun_induction copy t now with
  | case1 t now ready read left hnone =>
    have hawaits : t.Awaits now t.agenda ready.1 ready.2 := t.awaitOutput_awaits now t.agenda
    have hnothing : ready.1.queue = [] → allArriving ready.1.agenda = [] := fun hempty => by
      rw [hawaits.silent hempty]
      rfl
    obtain ⟨hcopied, hlast, hover⟩ := Output.readOnce_last (hawaits.chunk_notMem hchunks) hnothing hnone
    refine ⟨?_, ?_, hawaits.since, advance_advance left le_rfl, fun htime => ?_⟩
    · have hcoming : ready.1.queue ++ allArriving ready.1.agenda = t.coming := hawaits.coming
      rw [← hcoming, hcopied, hlast]
      rfl
    · refine Eq.trans ?_ hawaits.outputEnd
      rcases hover with hempty | hother
      · rw [outputEnd, hawaits.silent hempty]
        rfl
      · exact (Output.endsAt_of_not_all hother _ _).symm
    · rw [advance_advance left htime]
      exact hawaits.exit read.2 htime
  | case2 t now ready read left hsome rest ih =>
    have hawaits : t.Awaits now t.agenda ready.1 ready.2 := t.awaitOutput_awaits now t.agenda
    obtain ⟨piece, hread, htakes⟩ := Output.readOnce_takes (hawaits.chunk_notMem hchunks) hsome
    obtain ⟨hreads, hended, hsince, hcaught, hexit⟩ := ih htakes.chunk_notMem
    refine ⟨?_, ?_, hawaits.since.trans hsince, hcaught, fun htime => ?_⟩
    · have hcoming : ready.1.queue ++ allArriving ready.1.agenda = t.coming := hawaits.coming
      rw [← hcoming, htakes.copied, htakes.last]
      exact congr (congrArg List.cons hread) hreads
    · exact hended.trans ((Output.endsAt_congr htakes.chunks _ _).trans hawaits.outputEnd)
    · exact (hexit htime).trans (hawaits.exit read.2 (hsince.trans htime))

/-- A wait that follows finds what looks at the terminal would find if nobody had read. -/
theorem Copied.waitForExit {t : Terminal} {now : Time} {result : List Item × Terminal × Time} (h : t.Copied now result)
    (seconds : Rat) : (result.2.1.waitForExit result.2.2 (.finite seconds)).1 =
      (t.advance result.2.2).exit.or (t.found result.2.2 (seconds / pollInterval).ceil.toNat) := by
  have hfirst : result.2.1.exit = (t.advance result.2.2).exit := by rw [← h.exit le_rfl, h.caughtUp]
  have hlater (i : Nat) : (result.2.1.advance (result.2.2 + (i + 1) * pollInterval)).exit =
      (t.advance (result.2.2 + (i + 1) * pollInterval)).exit := by
    have hpoll : 0 ≤ ((i : Rat) + 1) * pollInterval := mul_nonneg (by positivity) pollInterval_pos.le
    exact h.exit (le_add_of_nonneg_right hpoll)
  rw [waitForExit_found, hfirst, found, found]
  simp only [hlater]

/-! ### What a device puts out -/

theorem planAll_agenda (now : Time) : ∀ (entries : List (Rat × List Effect)) (t : Terminal),
    (entries.foldl (fun t (delay, effects) => t.plan (now + delay, effects)) t).agenda =
      (entries.map fun entry => (now + entry.1, entry.2)).foldl (fun agenda entry => schedule entry agenda) t.agenda
  | [], _ => rfl
  | (delay, effects) :: entries, t => planAll_agenda now entries (t.plan (now + delay, effects))

/-- The events of a device whose child is spawned at the start come when they are said to. -/
theorem begin_agenda (device : Device) : (begin device 0).agenda = agendaOf device.events := by
  have hevents : (device.events.map fun entry => (0 + entry.1, entry.2)) = device.events := by simp
  unfold begin
  dsimp only
  rw [planAll_agenda, agenda_applyAll, hevents]
  rfl

theorem begin_queue (device : Device) (now : Time) : (begin device now).queue = device.input.filterMap Effect.item? := by
  unfold begin
  dsimp only
  rw [planAll_queue, applyAll_queue]
  rfl

end Terminal

/-- All that a device puts out by itself when its child is spawned and later, in order. -/
def Device.output (device : Device) : List Item :=
  device.input.filterMap Effect.item? ++ Output.allArriving (agendaOf device.events)

/-- How long after the start of its child the output of a device ends. -/
def Device.outputEnd (device : Device) : Time :=
  Output.endsAt (device.input.filterMap Effect.item?) 0 (agendaOf device.events)

/-- A device whose child is spawned at the start is copied up to the end of its output. -/
theorem Device.copy_begin (device : Device) :
    let terminal := Terminal.begin device 0
    terminal.Copied 0 (terminal.copy 0) ∧ terminal.coming = device.output ∧ terminal.outputEnd 0 = device.outputEnd := by
  intro terminal
  have hqueue : terminal.queue = device.input.filterMap Effect.item? := Terminal.begin_queue device 0
  have hagenda : terminal.agenda = agendaOf device.events := Terminal.begin_agenda device
  refine ⟨terminal.copy_copied 0 ?_, ?_, ?_⟩
  · rw [hqueue]
    exact Output.chunk_notMem_items device.input
  · rw [Terminal.coming, hqueue, hagenda, output]
  · rw [Terminal.outputEnd, hqueue, hagenda, outputEnd]

theorem Device.outputEnd_nonneg (device : Device) : 0 ≤ device.outputEnd := by
  obtain ⟨hcopied, -, hend⟩ := device.copy_begin
  rw [← hend, ← hcopied.ended]
  exact hcopied.since

end Teletype
