import Teletype.Output.Watcher

/-!
# Copying

Reads what a terminal puts out through its handle, a piece at a time, until a read brings nothing or fails.
A read waits until there is something to be read.
-/

namespace Teletype

/-- The bytes of an item. -/
def Item.bytes : Item → Text.Bytes
  | .chunk bytes => bytes
  | .endOfOutput | .fault => []

namespace Output

/-- Reads at most so many bytes of the first chunk in a queue: what was read, and the queue after that. An
    empty queue is read as the end of the output. -/
def readOnce (limit : Nat) : List Item → Item × List Item
  | [] => (.endOfOutput, [])
  | .chunk bytes :: rest =>
    (.chunk (bytes.take limit), if bytes.length ≤ limit then rest else .chunk (bytes.drop limit) :: rest)
  | item :: rest => (item, rest)

/-- A read takes the bytes that it brings from the front of a queue. -/
theorem readOnce_bytes (limit : Nat) (queue : List Item) :
    (readOnce limit queue).1.bytes ++ (readOnce limit queue).2.flatMap Item.bytes = queue.flatMap Item.bytes := by
  cases queue with
  | nil => rfl
  | cons item rest =>
    cases item with
    | endOfOutput | fault => rfl
    | chunk bytes =>
      rw [readOnce, List.flatMap_cons]
      split
      · next hshort => exact congrArg (· ++ _) (List.take_of_length_le hshort)
      · rw [List.flatMap_cons, ← List.append_assoc]
        exact congrArg (· ++ _) (List.take_append_drop limit bytes)

/-- A read that brings bytes leaves fewer. -/
theorem readOnce_shorter {limit : Nat} {queue : List Item} (hbytes : ¬(readOnce limit queue).1.bytes.isEmpty = true) :
    ((readOnce limit queue).2.flatMap Item.bytes).length < (queue.flatMap Item.bytes).length := by
  have hpos : 0 < (readOnce limit queue).1.bytes.length :=
    List.length_pos_iff.mpr fun h => hbytes (List.isEmpty_iff.mpr h)
  rw [← readOnce_bytes limit queue, List.length_append]
  omega

end Output

namespace Terminal

open Output (readOnce)

/-- The terminal once something is queued, and the time then: until that is so, the agenda is gone through. A device
    that plans nothing more has hung up, so there is nothing to wait for then. -/
def awaitOutput (t : Terminal) (now : Time) : List Timed → Terminal × Time
  | [] => ({ t with agenda := [] }, now)
  | entry :: rest =>
    if t.queue.isEmpty then awaitOutput (t.applyAll entry.1 entry.2) (later now entry.1) rest
    else ({ t with agenda := entry :: rest }, now)

/-- Waiting takes entries from the agenda or changes nothing. -/
theorem awaitOutput_agenda (t : Terminal) (now : Time) : ∀ agenda : List Timed,
    (t.awaitOutput now agenda).1.agenda.length < agenda.length ∨ t.awaitOutput now agenda = ({ t with agenda }, now)
  | [] => Or.inr rfl
  | entry :: rest => by
    unfold awaitOutput
    split
    · left
      rcases awaitOutput_agenda (t.applyAll entry.1 entry.2) (later now entry.1) rest with hless | hsame
      · exact Nat.lt_succ_of_lt hless
      · rw [hsame]
        exact Nat.lt_succ_self _
    · exact Or.inr rfl

/-- The reads of a terminal, up to the one that brings no bytes, and the terminal and the time then. -/
def copy (t : Terminal) (now : Time) : List Item × Terminal × Time :=
  let ready := t.awaitOutput now t.agenda
  let read := readOnce Output.readSize ready.1.queue
  let left := { ready.1 with queue := read.2 }
  if read.1.bytes.isEmpty then ([read.1], left.advance ready.2, ready.2)
  else
    let rest := copy left ready.2
    (read.1 :: rest.1, rest.2)
termination_by (t.agenda.length, (t.queue.flatMap Item.bytes).length)
decreasing_by
  next hbytes =>
    rcases t.awaitOutput_agenda now t.agenda with hless | hsame
    · exact Prod.Lex.left _ _ hless
    · have hready : (t.awaitOutput now t.agenda).1 = t := congrArg Prod.fst hsame
      replace hbytes : ¬(readOnce Output.readSize (t.awaitOutput now t.agenda).1.queue).1.bytes.isEmpty = true := hbytes
      show Prod.Lex _ _ ((t.awaitOutput now t.agenda).1.agenda.length,
        ((readOnce Output.readSize (t.awaitOutput now t.agenda).1.queue).2.flatMap Item.bytes).length) _
      rw [hready] at hbytes ⊢
      exact Prod.Lex.right _ (Output.readOnce_shorter hbytes)

end Terminal

end Teletype
