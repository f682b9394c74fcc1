import Teletype.Proofs.Recording.Release
import Teletype.Proofs.Terminal.Course

/-! # Recordings that hear only echoes

A probe has its marker in two words, so a device that only echoes what is typed never answers one. A
recording on such a device types the probe of its first step again and again, an interval apart, and
nothing else, until the time of that step is over. -/

namespace Teletype.Recording

open Output (Line Happening Watcher typedIn typedIn_append typedIn_read)

/-! ### The words of a probe -/

theorem space_notMem_markerTail (index : Nat) : ' ' ∉ (markerTail index).toList := by
  have hmarker : ' ' ∉ (markerText index).toList := notMem_markerText (by decide) (by decide) index
  rw [markerText, String.toList_append] at hmarker
  exact fun h => hmarker (List.mem_append_right _ h)

/-- The last two words of a probe are the parts of its marker. -/
theorem parts_probe (index : Nat) :
    Text.parts ' ' (probe index) = ["printf", "'%s%s\\n'", markerHead, markerTail index] := by
  have hprobe : probe index = "printf" ++ String.singleton ' ' ++ ("'%s%s\\n'" ++ String.singleton ' ' ++
      (markerHead ++ String.singleton ' ' ++ markerTail index)) := by
    unfold probe
    rw [← String.toList_inj]
    simp only [String.toList_append]
    rfl
  rw [hprobe, Text.parts_append (by decide), Text.parts_append (by decide), Text.parts_append (by decide),
    Text.parts_of_notMem (space_notMem_markerTail index)]

/-! ### Probing in vain -/

/-- A recording on a device has typed no text but the probe of its first step. -/
structure Unheard (d : Device) (session : Session) (b : Booth) : Prop where
  attends : b.line.Attends d
  typed : ∀ text ∈ typedIn b.line.past, text = probeLine 1
  watcher : b.line.watcher = .follow {} b.line.past
  session : b.session = session

namespace Unheard
variable {d : Device} {session : Session} {b : Booth} {plan : Plan}

/-- What such a recording hears is no answer, and not the end. -/
theorem silent (hb : Unheard d session b) (hd : OnlyEchoes d) (start : Int) :
    b.line.watcher.window.find? (marker 1) start = none ∧ b.line.watcher.ended = false := by
  obtain ⟨hchunks, echoes, hechoes, hprefix⟩ := hb.attends.heard hd
  rw [hb.watcher]
  constructor
  · cases hfind : (Watcher.follow {} b.line.past).window.find? (marker 1) start with
    | none => rfl
    | some p =>
      have hnoise : ∀ bytes ∈ echoes, Noise 1 bytes := by
        intro bytes hbytes
        obtain ⟨text, htext, hecho⟩ := hechoes bytes hbytes
        exact .probed 1 (hb.typed text htext ▸ hecho)
      obtain ⟨⟨-, hstands⟩, -⟩ := (shows_follow b.line.past).find?_eq_some hfind
      exact absurd (hstands.isInfix.trans hprefix.isInfix) (not_isInfix_flatten hnoise)
  · exact Watcher.ended_follow hchunks rfl

theorem of_goes {b' : Booth} {part : List Happening} (hb : Unheard d session b) (hgoes : b.Goes part b')
    (hattends : b'.line.Attends d) (htyped : ∀ text ∈ typedIn part, text = probeLine 1) : Unheard d session b' where
  attends := hattends
  typed := by
    intro text htext
    rw [hgoes.line.past, typedIn_append] at htext
    exact (List.mem_append.mp htext).elim (hb.typed text) (htyped text)
  watcher := by
    rw [hgoes.watcher hb.watcher, hgoes.line.past]
  session := hgoes.session.trans hb.session

theorem type (hb : Unheard d session b) : Unheard d session { b with line := (b.line.type (probeLine 1)).2 } := by
  obtain ⟨items, hline⟩ := b.line.type_goes (probeLine 1)
  refine hb.of_goes ⟨hline, rfl, rfl, rfl⟩ (hb.attends.type (probeLine 1)) fun text htext => ?_
  have htyped : typedIn (.typed (probeLine 1) :: items.map .read) = [probeLine 1] :=
    congrArg (probeLine 1 :: ·) (typedIn_read items)
  exact List.mem_singleton.mp (htyped ▸ htext)

theorem wait (hb : Unheard d session b) (start : Int) (span : Span) (gaveWay : Bool) :
    Unheard d session { b with line := (b.line.waitFor (marker 1) start span).line, gaveWay } := by
  obtain ⟨items, hline⟩ := b.line.waitFor_hears (marker 1) start span
  refine hb.of_goes ⟨hline, rfl, rfl, rfl⟩ (hb.attends.waitFor (marker 1) start span) fun text htext => ?_
  rw [typedIn_read] at htext
  cases htext

/-- A wait for the marker is in vain, and takes all of its time. -/
theorem hear (hb : Unheard d session b) (hd : OnlyEchoes d) (start : Nat) (span : Rat) :
    (b.line.waitFor (marker 1) start (.finite span)).found = false ∧
      b.now + span ≤ (b.line.waitFor (marker 1) start (.finite span)).line.now := by
  obtain ⟨hnone, hended⟩ := (hb.wait start (.finite span) b.gaveWay).silent hd start
  have hfound : (b.line.waitFor (marker 1) start (.finite span)).found = false := by
    rw [Bool.eq_false_iff]
    intro hfound
    have hsome := (b.line.waitFor_found_iff (.finite span)).mp hfound
    rw [hnone] at hsome
    cases hsome
  exact ⟨hfound, Line.waitFor_late hfound hended⟩

end Unheard

theorem orShorter_left (interval : Rat) (t now : Time) :
    ∃ span, (Span.finite interval).orShorter ((Deadline.at t).left now) = .finite span ∧
      (span = interval ∨ now + span = t) := by
  unfold Span.orShorter Deadline.left
  dsimp only
  split
  · exact ⟨t - now, rfl, Or.inr (by ring)⟩
  · exact ⟨interval, rfl, Or.inl rfl⟩

section
variable {d : Device} {session : Session} {b : Booth} {plan : Plan} {step : Step} {start : Nat} {t : Time}
  {rest : List Step} {interval : Rat}

theorem Booth.type_of_takes {text : String} (hopen : b.session.isOpen = true) (htakes : (b.line.type text).1 = none)
    (next : Booth → Booth) : b.type text next = next { b with line := (b.line.type text).2 } := by
  rw [Booth.type_of_isOpen hopen, htakes]

/-- A probe of the first step is typed in vain, unless the time of the step is over: the recording goes on,
    an interval later or when that time is over. -/
theorem Unheard.probe (hb : Unheard d session b) (hphase : b.phase = .probing 1 step start (.at t) rest)
    (hd : OnlyEchoes d) (hopen : session.isOpen = true)
    (hinterval : Span.ofNumber plan.settings.recorder.probeInterval = .finite interval) (s : Surroundings) :
    b.actIn plan s = b.fail (Booth.unready step) ∨
    b.now < t ∧ Unheard d session (b.actIn plan s) ∧ (b.actIn plan s).phase = .probing 1 step start (.at t) rest ∧
      (b.now + interval ≤ (b.actIn plan s).now ∨ t ≤ (b.actIn plan s).now) := by
  obtain ⟨-, hended⟩ := hb.silent hd start
  unfold Booth.actIn
  rw [Booth.act_probing hphase]
  unfold Booth.takeProbe
  rw [hended, Bool.false_or]
  split
  · exact Or.inl rfl
  next hahead =>
    right
    dsimp only
    rw [Booth.type_of_takes (hb.session ▸ hopen) (hb.attends.type_takes hd _), hinterval]
    have htyped := hb.type
    generalize htype : (b.line.type (probeLine 1)).2 = line at htyped ⊢
    have hnow : line.now = b.now := by
      rw [← htype]
      rfl
    obtain ⟨span, hspan, htime⟩ := orShorter_left interval t line.now
    obtain ⟨hfound, hlate⟩ : (line.waitFor (marker 1) start (.finite span)).found = false ∧
        line.now + span ≤ (line.waitFor (marker 1) start (.finite span)).line.now := htyped.hear hd start span
    unfold Booth.hear
    dsimp only
    rw [show Booth.now { b with line } = line.now from rfl, hspan, hfound]
    refine ⟨by simpa [Deadline.isOver] using hahead, htyped.wait start (.finite span) _, hphase, ?_⟩
    show b.now + interval ≤ (line.waitFor (marker 1) start (.finite span)).line.now ∨
      t ≤ (line.waitFor (marker 1) start (.finite span)).line.now
    rw [← hnow]
    rcases htime with rfl | htime
    · exact Or.inl hlate
    · exact Or.inr (htime ▸ hlate)

theorem Booth.typedIn_closed (b : Booth) (m : Master) : typedIn (b.closed m).line.past = typedIn b.line.past := by
  show typedIn (b.line.detach.past ++ [.closed]) = _
  rw [typedIn_append, b.line.detach_goes.past, typedIn_append]
  split <;> simp [typedIn, Output.Happening.text?]

variable {m : Master}

/-- A recording that has failed types nothing more, and is over after one action. -/
theorem Unheard.run_failing (plan : Plan) (hb : Unheard d session b) {failure : Failure} (hphase : b.phase = .failing failure)
    (hm : session.master = some m) (hopen : m.isOpen = true) (hfault : ∀ f ∈ m.closeFault, f.isSystem)
    (around : List Surroundings) : (∀ text ∈ typedIn (b.run plan around).line.past, text = probeLine 1) ∧
      (0 < around.length → (b.run plan around).phase = .done (.error failure)) := by
  cases around with
  | nil => exact ⟨hb.typed, nofun⟩
  | cons s around =>
    obtain ⟨hact, -⟩ := Booth.actIn_failing plan hphase (hb.session ▸ hm) hopen hfault s
    rw [Booth.run_cons, hact, (Booth.run_of_done plan rfl around).1]
    refine ⟨?_, fun _ => rfl⟩
    show ∀ text ∈ typedIn (b.closed m).line.past, text = probeLine 1
    rw [b.typedIn_closed m]
    exact hb.typed

/-- A recording that probes its first step types nothing but the probe, and it is over when so many intervals
    reach up to the deadline: each probe takes one of them. -/
theorem Unheard.run_probing (hd : OnlyEchoes d) (hm : session.master = some m) (hopen : m.isOpen = true)
    (hfault : ∀ f ∈ m.closeFault, f.isSystem) (hpositive : 0 < interval)
    (hinterval : Span.ofNumber plan.settings.recorder.probeInterval = .finite interval) :
    ∀ (around : List Surroundings) {b : Booth}, Unheard d session b → b.phase = .probing 1 step start (.at t) rest →
      (∀ text ∈ typedIn (b.run plan around).line.past, text = probeLine 1) ∧
      ∀ n : Nat, t ≤ b.now + n * interval → n + 2 ≤ around.length →
        (b.run plan around).phase = .done (.error (Booth.unready step))
  | [], b, hb, _ => ⟨hb.typed, nofun⟩
  | s :: around, b, hb, hphase => by
    have hsession : session.isOpen = true := Session.isOpen_iff.mpr ⟨m, hm, hopen⟩
    rw [Booth.run_cons]
    rcases hb.probe hphase hd hsession hinterval s with hfail | ⟨hahead, hb', hphase', hnow⟩
    · have hfailing : Unheard d session (b.fail (Booth.unready step)) := ⟨hb.attends, hb.typed, hb.watcher, hb.session⟩
      obtain ⟨htyped, hdone⟩ := hfailing.run_failing plan rfl hm hopen hfault around
      rw [hfail]
      refine ⟨htyped, fun n _ hlength => hdone ?_⟩
      rw [List.length_cons] at hlength
      omega
    · obtain ⟨htyped, hdone⟩ := Unheard.run_probing hd hm hopen hfault hpositive hinterval around hb' hphase'
      refine ⟨htyped, fun n hdeadline hlength => ?_⟩
      rw [List.length_cons] at hlength
      cases n with
      | zero =>
        rw [Nat.cast_zero, zero_mul, add_zero] at hdeadline
        exact absurd hahead (Rat.not_lt.mpr hdeadline)
      | succ n =>
        refine hdone n ?_ (by omega)
        have hrest : 0 ≤ n * interval := mul_nonneg (Nat.cast_nonneg n) hpositive.le
        push_cast at hdeadline
        rcases hnow with hnow | hnow <;> linarith

end

/-! ### Recordings -/

/-- The first step of a script has no command, so taking it only begins its probes. -/
theorem Booth.actIn_shell (plan : Plan) {b : Booth} {number : Number.Binary64} {rest : List Step} {timeout : Rat}
    (hphase : b.phase = .between 1 (⟨"shell", "", number, .probe⟩ :: rest))
    (htimeout : Span.ofNumber number = .finite timeout) (s : Surroundings) :
    b.actIn plan s = b.goTo (.probing 1 ⟨"shell", "", number, .probe⟩ b.line.watcher.position
      (.at (b.now + timeout)) rest) := by
  rw [Booth.actIn, Booth.act_between hphase]
  simp [Booth.takeStep, Booth.typeCommand, htimeout, Deadline.after]

theorem Unheard.opened (target : Target) (now : Time) (d : Device) (session : Session) (phase : Phase) :
    Unheard d session (((Booth.fresh target now).opened d session).goTo phase) where
  attends := .begun now
  typed := nofun
  watcher := rfl
  session := rfl

/-- No output made of echoes of what recordings type and of answers to other probes holds the marker of a step,
    unless a command holds it; the last two words of a probe are the parts of its marker. So a recording on a
    device that only echoes types nothing but the probe of its first step, and fails because this is not ready
    in time, after as many actions as the time allows for. -/
theorem echo_answers_no_probe :
    (∀ (index : Nat) (pieces : List Text.Bytes), (∀ bytes ∈ pieces, Noise index bytes) →
      ¬marker index <:+: pieces.flatten) ∧
    (∀ index : Nat, let words := Text.parts ' ' (probe index)
      Text.utf8 (String.join (words.drop (words.length - 2))) = marker index) ∧
    ∀ (plan : Plan) (target : Target) (now : Time) (s : Surroundings) (around : List Surroundings) (steps : List Step)
      (device : Device) (session : Session) (h₁ : Host) (timeout interval : Rat),
      script plan.settings.recorder target = .ok steps →
      Span.ofNumber plan.settings.recorder.readyTimeout = .finite timeout →
      Span.ofNumber plan.settings.recorder.probeInterval = .finite interval → 0 < interval →
      Booth.start plan s.host = (.ok device, session, h₁) → OnlyEchoes device →
      let b := (Booth.fresh target now).run plan (s :: around)
      (∀ text ∈ typedIn b.line.past, text = probeLine 1) ∧
      (Studio.actionsIn (.finite timeout) (.finite interval) + 2 ≤ around.length →
        b.phase = .done (.error (.unready "shell" plan.settings.recorder.readyTimeout))) := by
  refine ⟨fun index pieces hnoise => not_isInfix_flatten hnoise, fun index => ?_, ?_⟩
  · simp [parts_probe, marker]
  intro plan target now s around steps device session h₁ timeout interval hscript htimeout hinterval hpositive hstart
    hechoes b
  obtain ⟨screen, record, logger, rfl⟩ := script_eq hscript
  rcases Booth.start_cases plan s.host with ⟨e, _, _, _, hrefused, -⟩ | ⟨_, _, _, master, hstarted, hm, -⟩
  · rw [hstart] at hrefused
    cases hrefused
  rw [hstart] at hstarted
  cases hstarted
  have hbegin : (Booth.fresh target now).actIn plan s = _ :=
    congrArg (·.1) (Booth.begin_of_scripted (b := .fresh target now) hstart hscript)
  have hopened := fun phase => Unheard.opened target now s.host.nextDevice session phase
  have hrun : b = ((Booth.fresh target now).actIn plan s).run plan around := rfl
  rw [hrun, hbegin]
  cases around with
  | nil => exact ⟨(hopened _).typed, nofun⟩
  | cons s' around =>
    have hclose : ∀ f ∈ s.host.nextDevice.closeFault, f.isSystem := by
      rw [hechoes.closes]
      nofun
    rw [Booth.run_cons, Booth.actIn_shell plan rfl htimeout]
    obtain ⟨htyped, hdone⟩ := Unheard.run_probing hechoes hm rfl hclose hpositive hinterval around (hopened _) rfl
    obtain ⟨n, hn, hreach⟩ := Studio.actionsIn_eq_succ hpositive timeout
    refine ⟨htyped, fun hlength => hdone n (add_le_add_right hreach now) ?_⟩
    rw [hn, List.length_cons] at hlength
    omega

/-- On a device that shows what is typed a recording with the settings that are the default is not ready after
    twenty actions. -/
theorem recording_hears_echo :
    let s : Surroundings := { host.devices := [mirror] }
    let target : Target := { logFile := "log", ipcFile := "ipc" }
    OnlyEchoes mirror ∧ (¬marker 1 <:+: [shown (probeLine 1), marker 12 ++ [10]].flatten) ∧
      ((Booth.fresh target 0).run {} (s :: List.replicate 19 s)).phase =
        .done (.error (.unready "shell" ({} : RecorderSettings).readyTimeout)) := by
  intro s target
  obtain ⟨hnoise, -, hechoes⟩ := echo_answers_no_probe
  refine ⟨onlyEchoes_mirror, hnoise 1 _ fun bytes hbytes => ?_, ?_⟩
  · rcases List.mem_cons.mp hbytes with rfl | hbytes
    · exact .probed 1 (Or.inr rfl)
    · exact .answered 12 (by decide) (Or.inl (List.mem_singleton.mp hbytes))
  · obtain ⟨steps, hscript⟩ : ∃ steps, script {} target = .ok steps := script_of_isOk (by decide +kernel)
    have hstarts : (Booth.start {} s.host).1.isOk = true := by decide +kernel
    obtain ⟨session, h₁, _, hstart, -⟩ := Booth.start_of_isOk hstarts
    have htimeout : Span.ofNumber ({} : RecorderSettings).readyTimeout = .finite 15 := by decide +kernel
    have hinterval : Span.ofNumber ({} : RecorderSettings).probeInterval = .finite 1 := by decide +kernel
    have hlength : Studio.actionsIn (.finite 15) (.finite 1) + 2 ≤ (List.replicate 19 s).length := by
      rw [List.length_replicate]
      decide +kernel
    have hall := hechoes {} target 0 s (List.replicate 19 s) steps mirror session h₁ 15 1 hscript htimeout hinterval
      (by decide +kernel) hstart onlyEchoes_mirror
    exact hall.2 hlength

end Teletype.Recording
