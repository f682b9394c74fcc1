import Teletype.Proofs.Output.Past

/-! # What goes over a line

Each operation on a line adds to its past exactly what went over the line in it, and its watcher follows:
waiting adds what was read, typing a text adds that text and what was read at once, and waiting for the
child adds what was read and, if it has exited, its code. A wait that ends well ends with the marker in
the window, and one that ends badly ends without it. -/

namespace Teletype.Output

open Text (Bytes)

namespace Line

/-- From one line to another just this goes over it, and the watcher follows. -/
structure Goes (l : Line) (part : List Happening) (l' : Line) : Prop where
  past : l'.past = l.past ++ part
  watcher : l'.watcher = l.watcher.follow part

/-- From one line to another the watcher only reads. -/
def Hears (l l' : Line) : Prop := ∃ items : List Item, Goes l (items.map .read) l'

section
variable {l l₁ l₂ : Line} {p q : List Happening} {marker : Bytes} {start : Int}

theorem Goes.refl (l : Line) : Goes l [] l := ⟨(List.append_nil _).symm, rfl⟩

theorem Goes.trans (h₁ : Goes l p l₁) (h₂ : Goes l₁ q l₂) : Goes l (p ++ q) l₂ where
  past := by rw [h₂.past, h₁.past, List.append_assoc]
  watcher := by rw [h₂.watcher, h₁.watcher, Watcher.follow_append]

theorem Goes.note (h : Goes l p l₁) {x : Happening} (hx : ∀ w : Watcher, w.after x = w) : Goes l (p ++ [x]) (l₁.note x) :=
  h.trans ⟨rfl, (hx _).symm⟩

theorem Hears.refl (l : Line) : Hears l l := ⟨[], .refl l⟩

theorem Hears.trans (h₁ : Hears l l₁) (h₂ : Hears l₁ l₂) : Hears l l₂ := by
  obtain ⟨items₁, g₁⟩ := h₁
  obtain ⟨items₂, g₂⟩ := h₂
  refine ⟨items₁ ++ items₂, ?_⟩
  rw [List.map_append]
  exact g₁.trans g₂

theorem Hears.of_eq (hp : l₁.past = l.past) (hw : l₁.watcher = l.watcher) : Hears l l₁ :=
  ⟨[], by rw [hp]; exact (List.append_nil _).symm, hw⟩

/-! ### Listening -/

theorem listen_due {deadline : Deadline} {entry : Timed} (hdue : comesBy deadline entry.1 = true) (rest : List Timed)
    (l : Line) : listen marker start deadline l (entry :: rest) = (false, (l.withAgenda (entry :: rest)).expire deadline) := by
  rw [listen, if_pos hdue]

/-- Going on through an agenda performs its first entry, and then goes on or stops where the watcher has a
    verdict. -/
theorem listen_cons {deadline : Deadline} {entry : Timed} (hopen : comesBy deadline entry.1 = false) (rest : List Timed)
    (l : Line) : listen marker start deadline l (entry :: rest) = listen marker start deadline (l.perform entry) rest ∨
    ∃ found, (l.perform entry).watcher.verdict? marker start = some found ∧
      listen marker start deadline l (entry :: rest) = (found, (l.perform entry).withAgenda rest) := by
  rw [listen, hopen]
  dsimp only
  rw [if_neg Bool.false_ne_true]
  split
  · exact Or.inl rfl
  · split
    · next found hv => exact Or.inr ⟨found, hv, rfl⟩
    · exact Or.inl rfl

/-! ### Reading -/

theorem settle_hears (l : Line) : Hears l l.settle := by
  unfold settle
  generalize hd : l.watcher.drain l.terminal.queue = d
  obtain ⟨w, taken, left⟩ := d
  exact ⟨taken, rfl, (Watcher.drain_eq hd).2⟩

theorem perform_hears (l : Line) (entry : Timed) : Hears l (l.perform entry) := by
  obtain ⟨items, h⟩ := settle_hears
    { l with now := later l.now entry.1, terminal := l.terminal.applyAll entry.1 entry.2 }
  exact ⟨items, h.past, h.watcher⟩

theorem expire_hears (l : Line) (agenda : List Timed) (deadline : Deadline) :
    Hears l ((l.withAgenda agenda).expire deadline) := by
  cases deadline <;> exact .of_eq rfl rfl

theorem listen_hears (marker : Bytes) (start : Int) (deadline : Deadline) : ∀ (agenda : List Timed) (l : Line),
    Hears l (listen marker start deadline l agenda).2
  | [], l => expire_hears l [] deadline
  | entry :: rest, l => by
    cases hdue : comesBy deadline entry.1 with
    | true =>
      rw [listen_due hdue]
      exact expire_hears l _ deadline
    | false =>
      have hperform := perform_hears l entry
      rcases listen_cons hdue rest l with hlisten | ⟨found, -, hlisten⟩ <;> rw [hlisten]
      · exact hperform.trans (listen_hears marker start deadline rest _)
      · exact hperform.trans (.of_eq rfl rfl)

theorem waitFor_hears (l : Line) (marker : Bytes) (start : Int) (span : Span) :
    Hears l (l.waitFor marker start span).line := by
  unfold waitFor
  split
  · exact .refl l
  · dsimp only
    split
    · exact .refl l
    · exact listen_hears marker start _ _ l

/-! ### Verdicts -/

theorem verdict?_eq_true {w : Watcher} (h : w.verdict? marker start = some true) :
    (w.window.find? marker start).isSome := by
  unfold Watcher.verdict? at h
  split at h
  · assumption
  · split at h <;> cases h

theorem verdict?_ne_true {w : Watcher} (h : w.verdict? marker start ≠ some true) : w.window.find? marker start = none := by
  unfold Watcher.verdict? at h
  split at h
  · exact absurd rfl h
  · next hn => simpa using hn

theorem comesBy_later {deadline : Deadline} {a b : Time} (ha : comesBy deadline a = false)
    (hb : comesBy deadline b = false) : comesBy deadline (later a b) = false := by
  unfold later
  split
  · exact hb
  · exact ha

theorem comesBy_mono {deadline : Deadline} {a b : Time} (hab : a ≤ b) (hb : comesBy deadline b = false) :
    comesBy deadline a = false := by
  cases deadline with
  | «at» t =>
    simp only [comesBy, decide_eq_false_iff_not] at hb ⊢
    exact fun ha => hb (Rat.le_trans ha hab)
  | passed => exact hb
  | never | undefined => rfl

theorem comesBy_of_isOver {deadline : Deadline} {now : Time} (h : deadline.isOver now = false) :
    comesBy deadline now = false := by
  cases deadline <;> exact h

theorem listen_true {deadline : Deadline} : ∀ {agenda : List Timed} {l l' : Line},
    listen marker start deadline l agenda = (true, l') → (l'.watcher.window.find? marker start).isSome
  | [], l, l', h => by cases h
  | entry :: rest, l, l', h => by
    cases hdue : comesBy deadline entry.1 with
    | true =>
      rw [listen_due hdue] at h
      cases h
    | false =>
      rcases listen_cons hdue rest l with hlisten | ⟨found, hv, hlisten⟩ <;> rw [hlisten] at h
      · exact listen_true h
      · cases h
        exact verdict?_eq_true hv

/-- Listening that ends badly ends without the marker, for the watcher is asked at the end: either it has
    just been asked, or there is an entry to come before the deadline. -/
theorem listen_false {deadline : Deadline} : ∀ {agenda : List Timed} {l l' : Line}, comesBy deadline l.now = false →
    (l.watcher.verdict? marker start ≠ some true ∨ ∃ entry ∈ agenda.head?, comesBy deadline entry.1 = false) →
    listen marker start deadline l agenda = (false, l') → l'.watcher.window.find? marker start = none
  | [], l, l', _, hasked, h => by
    rcases hasked with hv | ⟨entry, he, -⟩
    · cases h
      cases deadline <;> exact verdict?_ne_true hv
    · cases he
  | entry :: rest, l, l', hnow, hasked, h => by
    rw [listen] at h
    split at h
    · next hover =>
      rcases hasked with hv | ⟨e, he, hopen⟩
      · cases h
        cases deadline <;> exact verdict?_ne_true hv
      · cases he
        rw [hopen] at hover
        cases hover
    · next hopen =>
      rw [Bool.not_eq_true] at hopen
      have hnow' : comesBy deadline (l.perform entry).now = false := comesBy_later hnow hopen
      dsimp only at h
      split at h
      · next hnext =>
        refine listen_false hnow' (Or.inr ?_) h
        cases rest with
        | nil => simp at hnext
        | cons e rest => exact ⟨e, rfl, comesBy_mono (by simpa using hnext) hnow'⟩
      · split at h
        · next hv =>
          cases h
          exact verdict?_ne_true (w := (l.perform entry).watcher) (by rw [hv]; simp)
        · next hv => exact listen_false hnow' (Or.inl (by rw [hv]; simp)) h

/-- A wait ends well exactly if it ends with the marker in the window. -/
theorem waitFor_found_iff (l : Line) (span : Span) :
    (l.waitFor marker start span).found = true ↔
      ((l.waitFor marker start span).line.watcher.window.find? marker start).isSome := by
  unfold waitFor
  split
  · next found hv =>
    cases found with
    | true => exact ⟨fun _ => verdict?_eq_true hv, fun _ => rfl⟩
    | false =>
      have hnone := verdict?_ne_true (by rw [hv]; simp)
      exact ⟨nofun, fun h => by rw [hnone] at h; cases h⟩
  · next hv =>
    dsimp only
    split
    · have hnone := verdict?_ne_true (by rw [hv]; simp)
      exact ⟨nofun, fun h => by rw [hnone] at h; cases h⟩
    · next hover =>
      rw [Bool.not_eq_true] at hover
      have hopen := comesBy_of_isOver hover
      generalize hl : listen marker start _ l _ = r
      obtain ⟨found, l'⟩ := r
      cases found with
      | true => exact ⟨fun _ => listen_true hl, fun _ => rfl⟩
      | false =>
        have hnone := listen_false hopen (Or.inr ⟨_, rfl, hopen⟩) hl
        exact ⟨nofun, fun h => by rw [hnone] at h; cases h⟩

/-! ### Deadlines -/

theorem le_later_right (a b : Time) : b ≤ later a b := by
  unfold later
  split
  · exact Rat.le_refl
  · next h => exact Rat.not_lt.mp h

theorem expire_late (l : Line) (t : Time) : t ≤ (l.expire (.at t)).now := le_later_right l.now t

theorem verdict?_eq_false {w : Watcher} (h : w.verdict? marker start = some false) : w.ended = true := by
  unfold Watcher.verdict? at h
  split at h
  · cases h
  · split at h
    · assumption
    · cases h

/-- Listening that ends badly before the end of the output goes on up to the deadline. -/
theorem listen_late {t : Time} : ∀ {agenda : List Timed} {l l' : Line},
    listen marker start (.at t) l agenda = (false, l') → l'.watcher.ended = false → t ≤ l'.now
  | [], l, l', h, _ => by
    cases h
    exact expire_late _ t
  | entry :: rest, l, l', h, hended => by
    cases hdue : comesBy (.at t) entry.1 with
    | true =>
      rw [listen_due hdue] at h
      cases h
      exact expire_late _ t
    | false =>
      rcases listen_cons hdue rest l with hlisten | ⟨found, hv, hlisten⟩ <;> rw [hlisten] at h
      · exact listen_late h hended
      · cases h
        cases hended.symm.trans (verdict?_eq_false hv)

/-- A wait that ends badly before the end of the output takes all of its time. -/
theorem waitFor_late {l : Line} {span : Rat} (hfound : (l.waitFor marker start (.finite span)).found = false)
    (hended : (l.waitFor marker start (.finite span)).line.watcher.ended = false) :
    l.now + span ≤ (l.waitFor marker start (.finite span)).line.now := by
  unfold waitFor at hfound hended ⊢
  split
  · next found hv =>
    rw [hv] at hfound hended
    obtain rfl : found = false := hfound
    cases hended.symm.trans (verdict?_eq_false hv)
  · next hv =>
    rw [hv] at hfound hended
    dsimp only at hfound hended ⊢
    split
    · next hover => simpa [Deadline.after, Deadline.isOver] using hover
    · next hover =>
      rw [if_neg hover] at hfound hended
      exact listen_late (Prod.ext hfound rfl) hended

end

/-! ### Detaching, typing and the child -/

theorem detach_goes (l : Line) : Goes l (if l.watcher.attached then [.detached] else []) l.detach := by
  unfold detach
  split
  · exact ⟨rfl, rfl⟩
  · exact .refl l

theorem type_goes (l : Line) (text : String) : ∃ items : List Item,
    Goes l (.typed text :: items.map .read) (l.type text).2 := by
  obtain ⟨items, h⟩ := settle_hears ({ l with terminal := (l.terminal.type l.now text).2 }.note (.typed text))
  refine ⟨items, ?_⟩
  have hnote : Goes l [.typed text] ({ l with terminal := (l.terminal.type l.now text).2 }.note (.typed text)) := ⟨rfl, rfl⟩
  exact hnote.trans h

theorem waitForExit_goes (l : Line) (span : Span) : ∃ items : List Item,
    Goes l (items.map .read ++ (l.waitForExit span).1.toList.map .exited) (l.waitForExit span).2 := by
  unfold waitForExit
  generalize l.terminal.waitForExit l.now span = r
  obtain ⟨code, terminal, now⟩ := r
  obtain ⟨items, h⟩ := settle_hears { l with terminal, now }
  have hgoes : Goes l (items.map .read) (settle { l with terminal, now }) := ⟨h.past, h.watcher⟩
  refine ⟨items, ?_⟩
  cases code with
  | none => simpa using hgoes
  | some code => exact hgoes.note fun _ => rfl

end Line

end Teletype.Output
