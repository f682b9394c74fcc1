import Teletype.Output.Line

/-! # The past of a line

What a past holds: the bytes that were read, one chunk after the other, and the texts that were typed.
A watcher is what its past has made of it, so it can be followed from the past alone. -/

namespace Teletype.Output

open Text (Bytes)

/-! ### Readings of a past -/

/-- The bytes that were read when something happened. -/
def Happening.heard : Happening → Bytes
  | .read (.chunk bytes) => bytes
  | _ => []

/-- The text that was typed when something happened. -/
def Happening.text? : Happening → Option String
  | .typed text => some text
  | _ => none

/-- The item that was read when something happened. -/
def Happening.item? : Happening → Option Item
  | .read item => some item
  | _ => none

/-- The items read so far. -/
def itemsIn (past : List Happening) : List Item := past.filterMap Happening.item?

/-- All output read so far. -/
def heardIn (past : List Happening) : Bytes := past.flatMap Happening.heard

/-- The texts typed so far. -/
def typedIn (past : List Happening) : List String := past.filterMap Happening.text?

@[simp] theorem heardIn_nil : heardIn [] = [] := rfl

@[simp] theorem heardIn_append (p q : List Happening) : heardIn (p ++ q) = heardIn p ++ heardIn q :=
  List.flatMap_append

@[simp] theorem typedIn_append (p q : List Happening) : typedIn (p ++ q) = typedIn p ++ typedIn q :=
  List.filterMap_append

@[simp] theorem typedIn_read (items : List Item) : typedIn (items.map .read) = [] := by
  simp [typedIn, List.filterMap_map, Function.comp_def, Happening.text?]

@[simp] theorem itemsIn_append (p q : List Happening) : itemsIn (p ++ q) = itemsIn p ++ itemsIn q :=
  List.filterMap_append

@[simp] theorem itemsIn_read (items : List Item) : itemsIn (items.map .read) = items := by
  simp [itemsIn, List.filterMap_map, Function.comp_def, Happening.item?]

theorem heardIn_eq : ∀ past : List Happening, heardIn past = (itemsIn past).flatMap fun item => Happening.heard (.read item)
  | [] => rfl
  | x :: past => by
    have ih := heardIn_eq past
    cases x with
    | read item =>
      show Happening.heard (.read item) ++ heardIn past = _
      rw [ih]
      rfl
    | attached | detached | typed | exited | closed => exact ih

/-! ### Following a watcher -/

namespace Watcher

/-- What something that happens makes of a watcher. -/
def after (w : Watcher) : Happening → Watcher
  | .attached => w.attach
  | .detached => w.detach
  | .read item => w.read item
  | .typed _ | .exited _ | .closed => w

/-- What a past makes of a watcher. -/
def follow (w : Watcher) (past : List Happening) : Watcher := past.foldl after w

@[simp] theorem follow_append (w : Watcher) (p q : List Happening) : w.follow (p ++ q) = (w.follow p).follow q :=
  List.foldl_append

@[simp] theorem follow_cons (w : Watcher) (h : Happening) (p : List Happening) :
    w.follow (h :: p) = (w.after h).follow p := rfl

/-- Draining a queue takes items from its front, and makes of the watcher what reading them makes of it. -/
theorem drain_eq {w w' : Watcher} : ∀ {queue taken left : List Item}, w.drain queue = (w', taken, left) →
    queue = taken ++ left ∧ w' = w.follow (taken.map .read)
  | [], taken, left, h => by
    rw [drain] at h
    cases h
    exact ⟨rfl, rfl⟩
  | item :: rest, taken, left, h => by
    rw [drain] at h
    split at h
    · generalize hd : (w.read item).drain rest = d at h
      obtain ⟨v, taken', left'⟩ := d
      cases h
      obtain ⟨hq, hw⟩ := drain_eq hd
      exact ⟨by rw [hq]; rfl, hw⟩
    · cases h
      exact ⟨rfl, rfl⟩

/-- A watcher that has read nothing but chunks has not come to an end. -/
theorem ended_follow : ∀ {past : List Happening} {w : Watcher}, (∀ item ∈ itemsIn past, ∃ bytes, item = .chunk bytes) →
    w.ended = false → (w.follow past).ended = false
  | [], _, _, hw => hw
  | x :: past, w, hchunks, hw => by
    rw [follow_cons]
    cases x with
    | read item =>
      obtain ⟨bytes, rfl⟩ := hchunks item List.mem_cons_self
      exact ended_follow (fun i hi => hchunks i (List.mem_cons_of_mem _ hi)) hw
    | attached | detached | typed | exited | closed => exact ended_follow hchunks hw

end Watcher

end Teletype.Output
