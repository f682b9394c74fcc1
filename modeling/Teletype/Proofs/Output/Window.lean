import Mathlib.Data.List.DropRight
import Mathlib.Order.Bounds.Basic
import Teletype.Proofs.Output.Past
import Teletype.Proofs.Text.Searching

/-! # Windows refine the whole output

A window keeps the last bytes of all output read, as many as its limit allows, and where it begins. So
a place in the window is a place in the whole output, and looking for a marker in the window is looking
for it in that part of the output which the window still holds. How the output was cut into chunks, and
what else happened to the watcher, makes no difference. The last bytes of the window are the last bytes
of the output, but whoever asks for none of them is given all. -/

namespace Teletype.Output

open Text (Bytes StandsAt standsAt_drop)

/-! ### What a window shows -/

/-- A window with this limit shows the end of the whole output. -/
structure Window.Shows (w : Window) (limit : Nat) (output : Bytes) : Prop where
  limited : w.limit = limit
  base : w.base = output.length - limit
  data : w.data = output.drop w.base

namespace Window.Shows
variable {limit : Nat} {output : Bytes} {w : Window}

theorem base_le (h : w.Shows limit output) : w.base ≤ output.length := by
  rw [h.base]
  omega

theorem length_data (h : w.Shows limit output) : w.data.length = output.length - w.base := by
  rw [h.data, List.length_drop]

theorem position_eq (h : w.Shows limit output) : w.position = output.length := by
  have hb := h.base_le
  have hd := h.length_data
  unfold Window.position
  omega

theorem empty (limit : Nat) : Window.Shows { limit } limit [] := ⟨rfl, by simp, rfl⟩

theorem extend (h : w.Shows limit output) (chunk : Bytes) : (w.extend chunk).Shows limit (output ++ chunk) where
  limited := h.limited
  base := by
    have hb := h.base
    have hd := h.length_data
    simp only [Window.extend, List.length_append, h.limited]
    omega
  data := by
    have hb := h.base_le
    simp only [Window.extend]
    rw [h.data, ← List.drop_append_of_le_length hb, List.drop_drop]

theorem extendAll : ∀ (chunks : List Bytes) {w : Window} {output : Bytes}, w.Shows limit output →
    (chunks.foldl Window.extend w).Shows limit (output ++ chunks.flatten)
  | [], w, output, h => by rwa [List.flatten_nil, List.append_nil]
  | chunk :: chunks, w, output, h => by
    rw [List.foldl_cons, List.flatten_cons, ← List.append_assoc]
    exact extendAll chunks (h.extend chunk)

end Window.Shows

theorem flatten_pieces (bytes : Bytes) : (pieces bytes).flatten = bytes := by
  fun_induction pieces bytes with
  | case1 bytes _ hempty =>
    rw [List.isEmpty_iff] at hempty
    rw [hempty, List.flatten_nil]
  | case2 bytes => rw [List.flatten_singleton]
  | case3 bytes _ ih => rw [List.flatten_cons, ih, List.take_append_drop]

theorem Window.Shows.after {limit : Nat} {output : Bytes} {w : Watcher} (h : w.window.Shows limit output)
    (x : Happening) : (w.after x).window.Shows limit (output ++ x.heard) := by
  cases x with
  | read item =>
    cases item with
    | chunk bytes =>
      have hread := Window.Shows.extendAll (pieces bytes) h
      rwa [flatten_pieces] at hread
    | endOfOutput | fault =>
      show w.window.Shows limit (output ++ [])
      rwa [List.append_nil]
  | attached | detached | typed | exited | closed =>
    show w.window.Shows limit (output ++ [])
    rwa [List.append_nil]

theorem Window.Shows.follow {limit : Nat} : ∀ (past : List Happening) {w : Watcher} {output : Bytes},
    w.window.Shows limit output → (w.follow past).window.Shows limit (output ++ heardIn past)
  | [], w, output, h => by rwa [heardIn_nil, List.append_nil]
  | x :: past, w, output, h => by
    have hrest := follow past (h.after x)
    rwa [List.append_assoc] at hrest

/-! ### Looking for a marker -/

/-- The places at which a marker stands in an output, from a place on and in the bytes that are kept. -/
def places (output : Bytes) (kept : Nat) (marker : Bytes) (start : Int) : Set Nat :=
  {p | max start (output.length - kept : Nat) ≤ (p : Int) ∧ StandsAt marker output p}

variable {limit : Nat} {output marker : Bytes} {w : Window} {start : Int}

theorem Window.Shows.mem_places (h : w.Shows limit output) {p : Nat} :
    p ∈ places output w.data.length marker start ↔
      w.base + (start - w.base).toNat ≤ p ∧ StandsAt marker output p := by
  have hb := h.base_le
  have hd := h.length_data
  exact and_congr_left fun _ => by omega

/-- The first places that a window finds are those of the whole output, seen from the part to search. -/
theorem Window.Shows.standsAt (h : w.Shows limit output) {skip i : Nat} (hskip : skip ≤ w.data.length) :
    StandsAt marker (w.data.drop skip) i ↔ StandsAt marker output (w.base + skip + i) := by
  have hb := h.base_le
  have hd := h.length_data
  rw [h.data, List.drop_drop, standsAt_drop (by omega)]

theorem Window.Shows.find?_eq_some (h : w.Shows limit output) {p : Nat} (hp : w.find? marker start = some p) :
    IsLeast (places output w.data.length marker start) p := by
  unfold Window.find? at hp
  dsimp only at hp
  generalize hs : (start - w.base).toNat = skip at hp
  split at hp
  · cases hp
  · next hlt =>
    have hskip : skip ≤ w.data.length := Nat.le_of_not_lt hlt
    obtain ⟨i, hi, rfl⟩ := Option.map_eq_some_iff.mp hp
    obtain ⟨hstands, hleast⟩ := Text.indexOf?_eq_some hi
    refine ⟨h.mem_places.mpr ⟨by omega, (h.standsAt hskip).mp hstands⟩, fun q hq => ?_⟩
    obtain ⟨hle, hq⟩ := h.mem_places.mp hq
    obtain ⟨j, rfl⟩ : ∃ j, q = w.base + skip + j := ⟨q - (w.base + skip), by omega⟩
    have := hleast j ((h.standsAt hskip).mpr hq)
    omega

theorem Window.Shows.find?_eq_none (h : w.Shows limit output) (hn : w.find? marker start = none) :
    places output w.data.length marker start = ∅ := by
  have hd := h.length_data
  rw [Set.eq_empty_iff_forall_notMem]
  intro q hq
  obtain ⟨hle, hq⟩ := h.mem_places.mp hq
  have hend := hq.1
  unfold Window.find? at hn
  dsimp only at hn
  generalize hs : (start - w.base).toNat = skip at hn hle
  split at hn
  · next hlt => omega
  · next hlt =>
    have hskip : skip ≤ w.data.length := Nat.le_of_not_lt hlt
    obtain ⟨j, rfl⟩ : ∃ j, q = w.base + skip + j := ⟨q - (w.base + skip), by omega⟩
    rw [Option.map_eq_none_iff] at hn
    exact Text.indexOf?_eq_none hn j ((h.standsAt hskip).mpr hq)

theorem Window.Shows.find?_eq_some_iff (h : w.Shows limit output) {p : Nat} :
    w.find? marker start = some p ↔ IsLeast (places output w.data.length marker start) p := by
  constructor
  · exact h.find?_eq_some
  · intro hp
    cases hf : w.find? marker start with
    | none =>
      have hmem := hp.1
      rw [h.find?_eq_none hf] at hmem
      exact hmem.elim
    | some q => rw [(h.find?_eq_some hf).unique hp]

theorem Window.Shows.find?_eq_none_iff (h : w.Shows limit output) :
    w.find? marker start = none ↔ places output w.data.length marker start = ∅ := by
  constructor
  · exact h.find?_eq_none
  · intro hempty
    cases hf : w.find? marker start with
    | none => rfl
    | some q =>
      have hmem := (h.find?_eq_some hf).1
      rw [hempty] at hmem
      exact hmem.elim

/-! ### The refinement -/

/-- Whatever has happened to a watcher with this limit: its position is the length of all output read,
    its window holds the last bytes of it up to the limit, and a marker is found at the first place
    from `start` on at which it stands in the output still held, or nowhere if there is none. -/
theorem window_refines_output (limit : Nat) (past : List Happening) :
    let w := Watcher.follow { window := { limit } } past
    let output := heardIn past
    w.position = output.length ∧
      w.window.data = output.drop (output.length - limit) ∧
      w.window.data.length = min output.length limit ∧
      ∀ (marker : Bytes) (start : Int),
        (∀ p, w.window.find? marker start = some p ↔
          IsLeast (places output w.window.data.length marker start) p) ∧
        (w.window.find? marker start = none ↔ places output w.window.data.length marker start = ∅) := by
  intro w output
  have h : w.window.Shows limit output := Window.Shows.follow past (w := { window := { limit } }) (.empty limit)
  have hdata : w.window.data = output.drop (output.length - limit) := by
    rw [← h.base]
    exact h.data
  have hlength : w.window.data.length = min output.length limit := by
    rw [hdata, List.length_drop]
    omega
  exact ⟨h.position_eq, hdata, hlength, fun marker start =>
    ⟨fun _ => h.find?_eq_some_iff, h.find?_eq_none_iff⟩⟩

/-! ### The end of the output -/

theorem length_rtake (bytes : Bytes) (n : Nat) : (bytes.rtake n).length = min n bytes.length := by
  rw [List.rtake, List.length_drop]
  omega

theorem rtake_rtake (bytes : Bytes) (m n : Nat) : (bytes.rtake m).rtake n = bytes.rtake (min n m) := by
  simp only [List.rtake_eq_reverse_take_reverse, List.reverse_reverse, List.take_take]

/-- Of two ends of an output the shorter is an end of the longer. -/
theorem rtake_suffix_rtake_iff {bytes : Bytes} {m n : Nat} :
    bytes.rtake m <:+ bytes.rtake n ↔ min m bytes.length ≤ min n bytes.length := by
  rw [← length_rtake, ← length_rtake]
  exact ⟨List.IsSuffix.length_le, List.suffix_of_suffix_length_le (List.drop_suffix _ _) (List.drop_suffix _ _)⟩

theorem Window.tail_zero (w : Window) : w.tail 0 = w.data := rfl

theorem Window.tail_of_ne_zero (w : Window) {n : Nat} (hn : n ≠ 0) : w.tail n = w.data.rtake n := by
  rw [Window.tail, if_pos (by omega), Int.toNat_natCast, List.rtake]

theorem Window.Shows.data_eq_rtake (h : w.Shows limit output) : w.data = output.rtake (min output.length limit) := by
  rw [h.data, h.base, List.rtake]
  congr 1
  omega

/-- How many bytes are given to whoever asks for `n` of the bytes that are kept. -/
def given (n kept : Nat) : Nat := if n = 0 then kept else min n kept

theorem given_le (n kept : Nat) : given n kept ≤ kept := by
  unfold given
  split <;> omega

theorem given_le_iff {n kept : Nat} : given n kept ≤ n ↔ n ≠ 0 ∨ kept = 0 := by
  unfold given
  split <;> omega

theorem given_le_given_iff {m n kept : Nat} (h : m ≤ n) : given m kept ≤ given n kept ↔ m ≠ 0 ∨ n = 0 ∨ kept ≤ n := by
  unfold given
  split <;> split <;> omega

theorem Window.Shows.tail_eq (h : w.Shows limit output) (n : Nat) :
    w.tail n = output.rtake (given n (min output.length limit)) := by
  by_cases hn : n = 0
  · rw [hn, given, if_pos rfl]
    exact w.tail_zero.trans h.data_eq_rtake
  · rw [w.tail_of_ne_zero hn, h.data_eq_rtake, rtake_rtake, given, if_neg hn]

/-- Whatever has happened to a watcher with this limit, the bytes it shows of the end of the output are the last ones of
    all that was read: as many as are asked for, as far as they are kept, but all that are kept if none are asked for.
    So there are never more of them than that, and asking for more only adds to the front, except where none were asked
    for and some are kept. -/
theorem tail_shows_end_unless_none_asked_for (limit : Nat) (past : List Happening) :
    let w := (Watcher.follow { window := { limit } } past).window
    let output := heardIn past
    let kept := min output.length limit
    (∀ n : Nat, n ≠ 0 → w.tail n = output.rtake (min n kept)) ∧
      w.tail 0 = output.rtake kept ∧
      (∀ n : Nat, (w.tail n).length ≤ n ↔ n ≠ 0 ∨ kept = 0) ∧
      ∀ m n : Nat, m ≤ n → (w.tail m <:+ w.tail n ↔ m ≠ 0 ∨ n = 0 ∨ kept ≤ n) := by
  intro w output kept
  have h : w.Shows limit output := Window.Shows.follow past (w := { window := { limit } }) (.empty limit)
  have hkept : kept ≤ output.length := Nat.min_le_left _ _
  have hlength (n : Nat) : min (given n kept) output.length = given n kept :=
    Nat.min_eq_left ((given_le n kept).trans hkept)
  refine ⟨fun n hn => ?_, h.tail_eq 0, fun n => ?_, fun m n hmn => ?_⟩
  · rw [h.tail_eq n, given, if_neg hn]
  · rw [h.tail_eq n, length_rtake, hlength, given_le_iff]
  · rw [h.tail_eq m, h.tail_eq n, rtake_suffix_rtake_iff, hlength, hlength, given_le_given_iff hmn]

/-- With none asked for, all that is kept is shown, and that is no end of the one byte shown to whoever asks for one. -/
theorem none_asked_for_shows_all :
    let w := (Watcher.follow { window := { limit := 16 } } [.attached, .read (.chunk [97, 98])]).window
    w.tail 0 = [97, 98] ∧ ¬(w.tail 0).length ≤ 0 ∧ ¬w.tail 0 <:+ w.tail 1 := by
  intro w
  obtain ⟨-, hall, hlength, hsuffix⟩ := tail_shows_end_unless_none_asked_for 16 [.attached, .read (.chunk [97, 98])]
  exact ⟨hall, fun h => absurd ((hlength 0).mp h) (by decide), fun h => absurd ((hsuffix 0 1 (by decide)).mp h) (by decide)⟩

end Teletype.Output
