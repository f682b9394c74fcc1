import Teletype.Proofs.Output.Attention

/-! # When the child has exited

By a time the child has exited with the last code that was due by then. A wait for it looks at the start and after each
interval, and is over at the first look that finds a code. So a child that exits once is found to have exited if it does so
by the last look. -/

namespace Teletype

/-- The code that the child exits with, if that is the effect. -/
def Effect.exitCode? : Effect → Option Int
  | .exit code => some code
  | .output _ | .file _ _ | .endOfOutput | .readFault => none

/-- The exits that are timed, in their order. -/
def exitsIn (agenda : List Timed) : List (Time × Int) :=
  agenda.flatMap fun entry => (entry.2.filterMap Effect.exitCode?).map fun code => (entry.1, code)

/-- The codes that the child of a device has exited with when it has been spawned. -/
def Device.exitsAtOnce (d : Device) : List Int := d.exitCode.toList ++ d.input.filterMap Effect.exitCode?

/-- The exits of the child of a device that nothing is typed to, with their delays. -/
def Device.exits (d : Device) : List (Rat × Int) := d.exitsAtOnce.map (fun code => (0, code)) ++ exitsIn d.events

/-- The code of the last of these exits by a time. -/
def statusBy (exits : List (Time × Int)) (time : Time) : Option Int :=
  (exits.filter fun entry => decide (entry.1 ≤ time)).getLast?.map (·.2)

section
variable {exits : List (Time × Int)} {time later : Time} {code : Int}

theorem statusBy_append (first second : List (Time × Int)) (time : Time) :
    statusBy (first ++ second) time = (statusBy second time).or (statusBy first time) := by
  unfold statusBy
  rw [List.filter_append, List.getLast?_append, Option.map_or]

theorem statusBy_singleton (entry : Time × Int) (time : Time) :
    statusBy [entry] time = if entry.1 ≤ time then some entry.2 else none := by
  unfold statusBy
  by_cases hdue : entry.1 ≤ time <;> simp [hdue]

/-- Exits at one time are all due by then, or none is. -/
theorem statusBy_map (codes : List Int) (start time : Time) :
    statusBy (codes.map fun code => (start, code)) time = if start ≤ time then codes.getLast? else none := by
  unfold statusBy
  split
  · next hdue =>
    rw [List.filter_eq_self.mpr (by simpa using fun _ _ => hdue), List.getLast?_map, Option.map_map]
    exact congrFun Option.map_id _
  · next hdue =>
    rw [List.filter_eq_nil_iff.mpr (by simpa using fun _ _ => lt_of_not_ge hdue)]
    rfl

theorem statusBy_of_lt (h : ∀ entry ∈ exits, time < entry.1) : statusBy exits time = none := by
  unfold statusBy
  rw [List.filter_eq_nil_iff.mpr fun entry hentry => by simpa using h entry hentry]
  rfl

/-- A child that exits once keeps its code. -/
theorem statusBy_mono (honce : exits.length ≤ 1) (hlater : time ≤ later) (hcode : statusBy exits time = some code) :
    statusBy exits later = some code := by
  cases exits with
  | nil => cases hcode
  | cons entry rest =>
    obtain rfl : rest = [] := List.length_eq_zero_iff.mp (Nat.le_zero.mp (Nat.le_of_succ_le_succ honce))
    rw [statusBy_singleton] at hcode ⊢
    split at hcode
    · next hdue => rwa [if_pos (hdue.trans hlater)]
    · cases hcode

end

/-! ### Exits on an agenda -/

theorem exitsIn_cons (entry : Timed) (agenda : List Timed) :
    exitsIn (entry :: agenda) = (entry.2.filterMap Effect.exitCode?).map (fun code => (entry.1, code)) ++ exitsIn agenda :=
  List.flatMap_cons

namespace Terminal
variable {t : Terminal} {now time : Time}

theorem exit_applyAll (now : Time) : ∀ (effects : List Effect) (t : Terminal),
    (t.applyAll now effects).exit = (effects.filterMap Effect.exitCode?).getLast?.or t.exit
  | [], _ => rfl
  | e :: effects, t => by
    have happly : (apply now t e).exit = e.exitCode?.or t.exit := by
      cases e with
      | output bytes => cases hempty : bytes.isEmpty <;> simp [apply, Effect.exitCode?, hempty]
      | file | exit | endOfOutput | readFault => rfl
    have hcodes : ((e :: effects).filterMap Effect.exitCode?).getLast? =
        (effects.filterMap Effect.exitCode?).getLast?.or e.exitCode? := by
      cases hcode : e.exitCode? with
      | none => rw [List.filterMap_cons_none hcode, Option.or_none]
      | some code => rw [List.filterMap_cons_some hcode, List.getLast?_cons, Option.or_some]
    rw [hcodes, Option.or_assoc, ← happly]
    exact exit_applyAll now effects (apply now t e)

/-- By a time the child has exited with the last code that was due by then, or with the one it had. -/
theorem exit_runAgenda (time : Time) : ∀ {agenda : List Timed} (t : Terminal), InOrder agenda →
    (t.runAgenda time agenda).exit = (statusBy (exitsIn agenda) time).or t.exit
  | [], _, _ => rfl
  | entry :: rest, t, horder => by
    obtain ⟨start, effects⟩ := entry
    unfold runAgenda
    split
    · next hdue =>
      have hrest : InOrder rest := horder.tail
      rw [exit_runAgenda time _ hrest, exit_applyAll, exitsIn_cons, statusBy_append, statusBy_map, if_pos hdue,
        Option.or_assoc]
    · next hahead =>
      have hnone : ∀ entry ∈ exitsIn ((start, effects) :: rest), time < entry.1 := by
        intro entry hentry
        obtain ⟨timed, htimed, hentry⟩ := List.mem_flatMap.mp hentry
        obtain ⟨code, -, rfl⟩ := List.mem_map.mp hentry
        exact horder.lt (lt_of_not_ge hahead) timed htimed
      rw [statusBy_of_lt hnone, Option.none_or]

/-- What the child has exited with by a time does not depend on what is queued. -/
theorem exit_runAgenda_congr {t t' : Terminal} (h : t.exit = t'.exit) (time : Time) (agenda : List Timed) :
    (t.runAgenda time agenda).exit = (t'.runAgenda time agenda).exit := by
  induction agenda generalizing t t' with
  | nil => exact h
  | cons entry rest ih =>
    unfold runAgenda
    split
    · exact ih (by rw [exit_applyAll, exit_applyAll, h])
    · exact h

theorem runAgenda_agenda (agenda other : List Timed) (time : Time) (t : Terminal) :
    ({ t with agenda := other } : Terminal).runAgenda time agenda = t.runAgenda time agenda := by
  induction agenda generalizing t with
  | nil => rfl
  | cons entry rest ih =>
    obtain ⟨start, effects⟩ := entry
    unfold runAgenda
    rw [applyAll_agenda, ih]

/-- What is done up to a time is not done again up to a later one. -/
theorem advance_advance (t : Terminal) (h : now ≤ time) : (t.advance now).advance time = t.advance time := by
  have hrun : ∀ (agenda : List Timed) (t : Terminal), (t.runAgenda now agenda).advance time = t.runAgenda time agenda := by
    intro agenda
    induction agenda with
    | nil => exact fun t => rfl
    | cons entry rest ih =>
      obtain ⟨start, effects⟩ := entry
      intro t
      unfold runAgenda
      split
      · next hdue =>
        rw [if_pos (hdue.trans h)]
        exact ih _
      · -- What is not due yet is left as the agenda.
        exact runAgenda_agenda _ _ time t
  exact hrun t.agenda t

/-! ### Looking at the child -/

/-- The first code that is found by so many looks, each an interval after the one before. -/
def found (t : Terminal) (now : Time) (n : Nat) : Option Int :=
  (List.range n).findSome? fun i : Nat => (t.advance (now + (i + 1) * pollInterval)).exit

theorem found_succ (t : Terminal) (now : Time) (n : Nat) : t.found now (n + 1) =
    (t.advance (now + pollInterval)).exit.or ((t.advance (now + pollInterval)).found (now + pollInterval) n) := by
  have hrest : (fun i : Nat => (t.advance (now + ((i + 1 : Nat) + 1) * pollInterval)).exit) = fun i : Nat =>
      ((t.advance (now + pollInterval)).advance (now + pollInterval + (i + 1) * pollInterval)).exit := by
    funext i
    have hnext : now + pollInterval ≤ now + pollInterval + (i + 1) * pollInterval := by
      have hpos : 0 ≤ ((i : Rat) + 1) * pollInterval := mul_nonneg (by positivity) pollInterval_pos.le
      linarith
    rw [advance_advance t hnext]
    congr 2
    push_cast
    ring
  unfold found
  rw [List.range_succ_eq_map, List.findSome?_cons, List.findSome?_map, Nat.cast_zero, zero_add, one_mul, ← hrest]
  cases (t.advance (now + pollInterval)).exit <;> rfl

/-- A wait for the child comes to the first code that is found, at the start or by a later look. So many looks are made
    that the last is the first which is not before the deadline. -/
theorem pollExit_found {limit : Time} (n fuel : Nat) {t : Terminal} {now : Time} (hfuel : n ≤ fuel)
    (hlimit : limit ≤ now + n * pollInterval) (hbefore : ∀ i < n, now + i * pollInterval < limit) :
    (t.pollExit (.at limit) fuel now).1 = t.exit.or (t.found now n) := by
  induction n generalizing fuel t now with
  | zero =>
    have hover : (Deadline.at limit).isAhead now = false := by simpa [Deadline.isAhead] using hlimit
    have hlook : (t.pollExit (.at limit) fuel now).1 = t.exit := by
      cases fuel with
      | zero => rfl
      | succ fuel =>
        rw [pollExit, hover]
        rfl
    rw [hlook]
    exact Option.or_none.symm
  | succ n ih =>
    cases fuel with
    | zero => exact absurd hfuel (Nat.not_succ_le_zero n)
    | succ fuel =>
      have hahead : (Deadline.at limit).isAhead now = true := by
        have hfirst := hbefore 0 (Nat.succ_pos n)
        simpa [Deadline.isAhead] using hfirst
      rw [pollExit, if_pos hahead]
      cases hexit : t.exit with
      | some code => rfl
      | none =>
        rw [Option.none_or, found_succ]
        refine ih fuel (Nat.le_of_succ_le_succ hfuel) ?_ fun i hi => ?_
        · push_cast at hlimit
          linarith
        · have hnext := hbefore (i + 1) (Nat.succ_lt_succ hi)
          push_cast at hnext
          linarith

/-- The looks before a time are those that come an interval after the one before as long as they are before it. -/
theorem lt_looks_iff {seconds : Rat} {n : Nat} : n < (seconds / pollInterval).ceil.toNat ↔ n * pollInterval < seconds := by
  rw [Int.lt_toNat, Rat.lt_ceil_iff, ← lt_div_iff₀ pollInterval_pos]
  exact_mod_cast Iff.rfl

/-- A wait for the child makes a look after each interval up to the first one that is not before the deadline. -/
theorem waitForExit_found (t : Terminal) (now : Time) (seconds : Rat) : (t.waitForExit now (.finite seconds)).1 =
    t.exit.or (t.found now (seconds / pollInterval).ceil.toNat) := by
  refine pollExit_found _ _ (Nat.le_succ _) ?_ fun i hi => ?_
  · have hceil : seconds ≤ _ := le_ceil_mul pollInterval_pos
    linarith
  · linarith [lt_looks_iff.mp hi]

/-- A wait ends at the look that finds the child to have exited, or else at the first that is not before the deadline, and
    tells what that look finds. -/
theorem pollExit_ends {limit : Time} (n fuel : Nat) {t : Terminal} {now : Time} (hcaught : t.exit = (t.advance now).exit)
    (hfuel : n ≤ fuel) (hbefore : ∀ i < n, now + i * pollInterval < limit)
    (hmissed : ∀ i < n, (t.advance (now + i * pollInterval)).exit = none)
    (hends : limit ≤ now + n * pollInterval ∨ (t.advance (now + n * pollInterval)).exit.isSome = true) :
    (t.pollExit (.at limit) fuel now).1 = (t.advance (now + n * pollInterval)).exit ∧
      (t.pollExit (.at limit) fuel now).2.2 = now + n * pollInterval := by
  induction n generalizing fuel t now with
  | zero =>
    rw [Nat.cast_zero, zero_mul, add_zero] at hends ⊢
    rw [← hcaught] at hends ⊢
    cases fuel with
    | zero => exact ⟨rfl, rfl⟩
    | succ fuel =>
      rw [pollExit]
      split
      · next hahead =>
        have hnow : now < limit := by simpa [Deadline.isAhead] using hahead
        obtain ⟨code, hcode⟩ := Option.isSome_iff_exists.mp (hends.resolve_left (not_le_of_gt hnow))
        rw [hcode]
        exact ⟨rfl, rfl⟩
      · exact ⟨rfl, rfl⟩
  | succ n ih =>
    cases fuel with
    | zero => exact absurd hfuel (Nat.not_succ_le_zero n)
    | succ fuel =>
      have hlater (i : Nat) : now + pollInterval + i * pollInterval = now + (i + 1 : Nat) * pollInterval := by
        push_cast
        ring
      have hlook (i : Nat) : (t.advance (now + pollInterval)).advance (now + pollInterval + i * pollInterval) =
          t.advance (now + (i + 1 : Nat) * pollInterval) := by
        have hpos : 0 ≤ (i : Rat) * pollInterval := mul_nonneg (Nat.cast_nonneg i) pollInterval_pos.le
        rw [advance_advance t (by linarith), hlater]
      have hnow : (Deadline.at limit).isAhead now = true := by
        have hfirst := hbefore 0 (Nat.succ_pos n)
        simpa [Deadline.isAhead] using hfirst
      have hnone : t.exit = none := by
        have hfirst := hmissed 0 (Nat.succ_pos n)
        rw [Nat.cast_zero, zero_mul, add_zero] at hfirst
        exact hcaught.trans hfirst
      rw [pollExit, if_pos hnow, hnone, ← hlook, ← hlater]
      refine ih fuel ?_ (Nat.le_of_succ_le_succ hfuel) (fun i hi => ?_) (fun i hi => ?_) ?_
      · rw [advance_advance t le_rfl]
      · rw [hlater]
        exact hbefore (i + 1) (Nat.succ_lt_succ hi)
      · rw [hlook]
        exact hmissed (i + 1) (Nat.succ_lt_succ hi)
      · rw [hlook, hlater]
        exact hends

/-! ### Children that exit once -/

section
variable {d : Device} {code : Int}

theorem exit_begin (d : Device) (now : Time) : (begin d now).exit = d.exitsAtOnce.getLast? := by
  unfold begin
  rw [planAll_eq, exit_applyAll, Device.exitsAtOnce, List.getLast?_append]
  cases d.exitCode <;> rfl

theorem exitsIn_begin (d : Device) : (exitsIn (begin d 0).agenda).Perm (exitsIn d.events) := by
  have hplanned := (perm_planAll 0 d.events (applyAll 0 { device := d, exit := d.exitCode } d.input)).flatMap_right
    fun entry => (entry.2.filterMap Effect.exitCode?).map fun code => (entry.1, code)
  have hevents : (d.events.map fun entry => (0 + entry.1, entry.2)) = d.events := by simp
  rw [agenda_applyAll, List.nil_append, hevents] at hplanned
  exact hplanned

/-- By a time the terminal tells the code of a child that exits once. -/
theorem exit_advance (honce : d.exits.length ≤ 1) (hstarted : 0 ≤ time) :
    ((begin d 0).advance time).exit = statusBy d.exits time := by
  have hsame : exitsIn (begin d 0).agenda = exitsIn d.events := by
    have hperm := exitsIn_begin d
    have hevents : (exitsIn d.events).length ≤ 1 := by
      rw [Device.exits, List.length_append] at honce
      exact (Nat.le_add_left _ _).trans honce
    cases hexits : exitsIn d.events with
    | nil => exact (hexits ▸ hperm).eq_nil
    | cons entry rest =>
      rw [hexits] at hevents hperm
      obtain rfl : rest = [] := List.length_eq_zero_iff.mp (Nat.le_zero.mp (Nat.le_of_succ_le_succ hevents))
      exact hperm.eq_singleton
  show ((begin d 0).runAgenda time (begin d 0).agenda).exit = _
  rw [exit_runAgenda time _ (begin_inOrder d 0), hsame, exit_begin, Device.exits, statusBy_append, statusBy_map,
    if_pos hstarted]

/-- Looks at a child that exits once find its code if it has exited by the last of them. -/
theorem found_of_once (honce : d.exits.length ≤ 1) (hstarted : 0 ≤ now) (n : Nat) :
    ((begin d 0).advance now).exit.or ((begin d 0).found now n) = statusBy d.exits (now + n * pollInterval) := by
  have hpoll (i : Nat) : 0 ≤ (i : Rat) * pollInterval := mul_nonneg (Nat.cast_nonneg i) pollInterval_pos.le
  have hlook (i : Nat) : ((begin d 0).advance (now + (i + 1) * pollInterval)).exit =
      statusBy d.exits (now + (i + 1 : Nat) * pollInterval) := by
    rw [Nat.cast_succ, exit_advance honce]
    exact_mod_cast add_nonneg hstarted (hpoll (i + 1))
  rw [exit_advance honce hstarted]
  unfold found
  simp only [hlook]
  cases hfirst : statusBy d.exits now with
  | some code => exact (statusBy_mono honce (le_add_of_nonneg_right (hpoll n)) hfirst).symm
  | none =>
    rw [Option.none_or]
    cases hfound : (List.range n).findSome? fun i : Nat => statusBy d.exits (now + (i + 1 : Nat) * pollInterval) with
    | some code =>
      obtain ⟨i, hi, hcode⟩ := List.exists_of_findSome?_eq_some hfound
      have hle : ((i + 1 : Nat) : Rat) ≤ n := by exact_mod_cast List.mem_range.mp hi
      have hlast : now + (i + 1 : Nat) * pollInterval ≤ now + n * pollInterval := by
        have hmore := mul_le_mul_of_nonneg_right hle pollInterval_pos.le
        linarith
      exact (statusBy_mono honce hlast hcode).symm
    | none =>
      cases n with
      | zero => rw [Nat.cast_zero, zero_mul, add_zero, hfirst]
      | succ n => exact (List.findSome?_eq_none_iff.mp hfound n List.self_mem_range_succ).symm

end

end Terminal

end Teletype
