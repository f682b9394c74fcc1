import Teletype.Proofs.Output.Window
import Teletype.Proofs.Recording.Run

/-! # What a step does with the line

A step types its texts, each at most once but for its probe, and then it is confirmed, or it is not ready
in time, or a fault breaks it off. What has gone over the line since the step began tells which of these
it is. -/

namespace Teletype.Recording

open Text (StandsAt)
open Output (Line Happening Watcher Window heardIn typedIn typedIn_append typedIn_read)

/-! ### Texts -/

/-- The command of a step as a line of its own, if it has one. -/
def Step.command (s : Step) : List String := if s.text.isEmpty then [] else [s.line]

/-- The texts of a step that types its probe so many times, if it types it by itself. -/
def Step.texts (s : Step) (index n : Nat) : List String :=
  match s.readiness with
  | .probe => s.command ++ List.replicate n (probeLine index)
  | .chained => [s.chainedLine index]
  | .exit => s.command

theorem Step.texts_succ {s : Step} (h : s.readiness = .probe) (index n : Nat) :
    s.texts index (n + 1) = s.texts index n ++ [probeLine index] := by
  simp only [Step.texts, h, List.append_assoc, List.replicate_succ']

theorem Step.texts_prefix (s : Step) (index n : Nat) : s.texts index n <+: s.texts index (n + 1) := by
  cases h : s.readiness with
  | probe =>
    rw [Step.texts_succ h]
    exact List.prefix_append _ _
  | chained | exit => simp only [Step.texts, h, List.prefix_refl]

/-! ### Proofs -/

/-- The marker of a step stands in the output, at or after the place where the watcher was before this
    part. -/
def Answered (index : Nat) (before part : List Happening) : Prop :=
  ∃ p, (Watcher.follow {} before).position ≤ p ∧ StandsAt (marker index) (heardIn (before ++ part)) p

/-- The marker of a step is not found at or after the place where the watcher was before this part. -/
def Unanswered (index : Nat) (before part : List Happening) : Prop :=
  (Watcher.follow {} (before ++ part)).window.find? (marker index) (Watcher.follow {} before).position = none

theorem shows_follow (past : List Happening) : (Watcher.follow {} past).window.Shows 1048576 (heardIn past) :=
  Window.Shows.follow past (w := {}) (.empty 1048576)

theorem position_follow (past : List Happening) : (Watcher.follow {} past).position = (heardIn past).length :=
  (shows_follow past).position_eq

/-- A marker that is found stands in the output: the window shows the output. -/
theorem answered_of_isSome {index : Nat} {before part : List Happening}
    (h : ((Watcher.follow {} (before ++ part)).window.find? (marker index)
      (Watcher.follow {} before).position).isSome) : Answered index before part := by
  obtain ⟨p, hp⟩ := Option.isSome_iff_exists.mp h
  obtain ⟨⟨hle, hstands⟩, -⟩ := (shows_follow (before ++ part)).find?_eq_some hp
  exact ⟨p, by omega, hstands⟩

/-- Nothing but texts and items has gone over the line. -/
def Traffic (part : List Happening) : Prop := ∀ x ∈ part, x matches .typed _ | .read _

theorem Traffic.append {p q : List Happening} (hp : Traffic p) (hq : Traffic q) : Traffic (p ++ q) := fun x hx =>
  (List.mem_append.mp hx).elim (hp x) (hq x)

theorem traffic_nil : Traffic [] := nofun

theorem traffic_read (items : List Item) : Traffic (items.map .read) := by
  intro x hx
  obtain ⟨item, -, rfl⟩ := List.mem_map.mp hx
  rfl

theorem traffic_typed (text : String) (items : List Item) : Traffic (.typed text :: items.map .read) := by
  intro x hx
  rcases List.mem_cons.mp hx with rfl | hx
  · rfl
  · exact traffic_read items x hx

theorem Traffic.closed_notMem {part : List Happening} (h : Traffic part) : .closed ∉ part := fun hx => nomatch h _ hx

theorem Traffic.exited_notMem {part : List Happening} (h : Traffic part) (code : Int) : .exited code ∉ part :=
  fun hx => nomatch h _ hx

/-- A step is confirmed: all of its texts are typed, its probe once at least, and its proof has come: the
    marker, or the end of the child. -/
structure Confirmed (index : Nat) (step : Step) (before part : List Happening) : Prop where
  typed : ∃ n, 0 < n ∧ typedIn part = step.texts index n
  proven : match step.readiness with
    | .probe | .chained => Answered index before part
    | .exit => ∃ code, .exited code ∈ part
  stillOpen : .closed ∉ part

/-- A step is not confirmed: its texts are typed, but no proof has come. With no time for a probe none is
    looked for. -/
structure Unconfirmed (index : Nat) (step : Step) (before part : List Happening) : Prop where
  typed : ∃ n, typedIn part = step.texts index n
  unproven : match step.readiness with
    | .probe => typedIn part = step.command ∨ Unanswered index before part
    | .chained => Unanswered index before part
    | .exit => ∀ code, .exited code ∉ part
  stillOpen : .closed ∉ part

/-- What has become of a step, after what has gone over the line before and since it began: where its
    booth is. -/
inductive Reaches (index : Nat) (step : Step) (rest : List Step) (before part : List Happening) : Phase → Prop
  | broken (f : Fault) {n : Nat} : typedIn part <+: step.texts index n → .closed ∉ part →
      Reaches index step rest before part (.failing (.fault f))
  | unready : Unconfirmed index step before part →
      Reaches index step rest before part (.failing (.unready step.name step.timeout))
  | confirmed : Confirmed index step before part → Reaches index step rest before part (.between (index + 1) rest)
  | probing (deadline : Deadline) {n : Nat} : step.readiness = .probe → typedIn part = step.texts index n →
      Traffic part → n = 0 ∨ Unanswered index before part →
      Reaches index step rest before part
        (.probing index step (Watcher.follow {} before).position deadline rest)

/-! ### Actions -/

namespace Booth
variable {b b₁ b₂ b' : Booth} {p q before part : List Happening} {index : Nat} {step : Step} {rest : List Step}

/-- From one booth to another just this goes over the line, and nothing else changes. -/
structure Goes (b : Booth) (part : List Happening) (b' : Booth) : Prop where
  line : b.line.Goes part b'.line
  phase : b'.phase = b.phase
  session : b'.session = b.session
  target : b'.target = b.target

theorem Goes.refl (b : Booth) : b.Goes [] b := ⟨.refl b.line, rfl, rfl, rfl⟩

theorem Goes.trans (h₁ : b.Goes p b₁) (h₂ : b₁.Goes q b₂) : b.Goes (p ++ q) b₂ where
  line := h₁.line.trans h₂.line
  phase := h₂.phase.trans h₁.phase
  session := h₂.session.trans h₁.session
  target := h₂.target.trans h₁.target

theorem Goes.watcher (h : b.Goes part b') (hw : b.line.watcher = .follow {} before) :
    b'.line.watcher = .follow {} (before ++ part) := by
  rw [h.line.watcher, hw, Watcher.follow_append]

/-- An action brings a booth, for which this part of the step has gone over the line, to some other place in
    the step. -/
def Brings (index : Nat) (step : Step) (rest : List Step) (before part : List Happening) (b r : Booth) : Prop :=
  ∃ more b' phase, b.Goes more b' ∧ r = b'.goTo phase ∧ Reaches index step rest before (part ++ more) phase

theorem Brings.of_goes {r : Booth} (hgoes : b.Goes p b₁) (h : Brings index step rest before (part ++ p) b₁ r) :
    Brings index step rest before part b r := by
  obtain ⟨more, b', phase, hmore, hr, hreach⟩ := h
  refine ⟨p ++ more, b', phase, hgoes.trans hmore, hr, ?_⟩
  rwa [List.append_assoc] at hreach

theorem Brings.here {phase : Phase} (h : Reaches index step rest before part phase) :
    Brings index step rest before part b (b.goTo phase) :=
  ⟨[], b, phase, .refl b, rfl, by rwa [List.append_nil]⟩

/-- Typing a text goes on, unless a fault breaks it off, with or without the text. -/
theorem type_brings {text : String} {next : Booth → Booth} {n : Nat} (hpart : Traffic part)
    (htexts : typedIn part ++ [text] <+: step.texts index n)
    (hnext : ∀ p b₁, b.Goes p b₁ → Traffic p → typedIn p = [text] →
      Brings index step rest before (part ++ p) b₁ (next b₁)) :
    Brings index step rest before part b (b.type text next) := by
  unfold type
  split
  · next f _ =>
    exact .here (.broken f ((List.prefix_append _ _).trans htexts) hpart.closed_notMem)
  · obtain ⟨items, hline⟩ := b.line.type_goes text
    have htraffic := traffic_typed text items
    have htyped : typedIn (.typed text :: items.map .read) = [text] := congrArg (text :: ·) (typedIn_read items)
    split
    · next f line hl =>
      rw [hl] at hline
      have hgoes : b.Goes _ { b with line } := ⟨hline, rfl, rfl, rfl⟩
      refine .of_goes hgoes (.here (.broken f (n := n) ?_ (hpart.append htraffic).closed_notMem))
      rw [typedIn_append, htyped]
      exact htexts
    · next line hl =>
      rw [hl] at hline
      have hgoes : b.Goes _ { b with line } := ⟨hline, rfl, rfl, rfl⟩
      exact .of_goes hgoes (hnext _ _ hgoes htraffic htyped)

theorem typeCommand_brings {next : Booth → Booth} {n : Nat} (htexts : step.command <+: step.texts index n)
    (hnext : ∀ p b₁, b.Goes p b₁ → Traffic p → typedIn p = step.command →
      Brings index step rest before p b₁ (next b₁)) :
    Brings index step rest before [] b (b.typeCommand step next) := by
  unfold typeCommand
  unfold Step.command at htexts hnext
  split at hnext
  · next hempty =>
    rw [if_pos hempty]
    exact hnext [] b (.refl b) traffic_nil rfl
  · next htext =>
    rw [if_neg htext] at htexts ⊢
    exact type_brings traffic_nil htexts hnext

/-- Waiting for a marker reads what comes, and tells whether the marker is found in the end. -/
theorem hear_brings {start : Nat} {span : Span} {next : Bool → Booth → Booth}
    (hnext : ∀ (items : List Item) (b₁ : Booth), b.Goes (items.map .read) b₁ →
      Brings index step rest before (part ++ items.map .read) b₁
        (next (b₁.line.watcher.window.find? (marker index) start).isSome b₁)) :
    Brings index step rest before part b (b.hear index start span next) := by
  obtain ⟨items, hline⟩ := b.line.waitFor_hears (marker index) start span
  have hfound : (b.line.waitFor (marker index) start span).found = _ :=
    Bool.eq_iff_iff.mpr (b.line.waitFor_found_iff span)
  unfold hear
  generalize b.line.waitFor (marker index) start span = wait at hline hfound ⊢
  dsimp only
  rw [hfound]
  have hgoes : b.Goes (items.map .read) { b with line := wait.line, gaveWay := b.gaveWay || wait.gaveWay } :=
    ⟨hline, rfl, rfl, rfl⟩
  exact .of_goes hgoes (hnext items _ hgoes)

/-! ### Steps -/

theorem takeStep_chained (hw : b.line.watcher = .follow {} before) (hr : step.readiness = .chained) :
    Brings index step rest before [] b (b.takeStep index step rest) := by
  have htexts : step.texts index 1 = [step.chainedLine index] := by rw [Step.texts, hr]
  unfold takeStep
  simp only [hr]
  refine type_brings (n := 1) traffic_nil (htexts ▸ List.prefix_refl _) fun p b₁ h₁ hp htyped => ?_
  refine hear_brings fun items b₂ h₂ => ?_
  have hpart : Traffic (p ++ items.map .read) := hp.append (traffic_read items)
  have hall : typedIn (p ++ items.map .read) = step.texts index 1 := by
    rw [typedIn_append, typedIn_read, List.append_nil, htyped, htexts]
  rw [List.nil_append, (h₁.trans h₂).watcher hw, hw]
  split
  · next hsome =>
    refine .here (.confirmed ⟨⟨1, Nat.one_pos, hall⟩, ?_, hpart.closed_notMem⟩)
    rw [hr]
    exact answered_of_isSome hsome
  · next hnone =>
    refine .here (.unready ⟨⟨1, hall⟩, ?_, hpart.closed_notMem⟩)
    rw [hr]
    exact Option.not_isSome_iff_eq_none.mp hnone

theorem takeStep_exit (hr : step.readiness = .exit) :
    Brings index step rest before [] b (b.takeStep index step rest) := by
  have htexts : step.texts index 1 = step.command := by rw [Step.texts, hr]
  unfold takeStep
  simp only [hr]
  refine typeCommand_brings (n := 1) (htexts ▸ List.prefix_refl _) fun p b₁ _ hp htyped => ?_
  obtain ⟨items, hline⟩ := b₁.line.waitForExit_goes (Span.ofNumber step.timeout)
  generalize b₁.line.waitForExit (Span.ofNumber step.timeout) = r at hline ⊢
  obtain ⟨code, line⟩ := r
  have hgoes : b₁.Goes _ { b₁ with line, gaveWay := b₁.gaveWay || b₁.now < line.now } := ⟨hline, rfl, rfl, rfl⟩
  have hread : Traffic (p ++ items.map .read) := hp.append (traffic_read items)
  have hall : typedIn (p ++ items.map .read) = step.texts index 1 := by
    rw [typedIn_append, typedIn_read, List.append_nil, htyped, htexts]
  refine .of_goes hgoes ?_
  rw [← List.append_assoc]
  cases code with
  | some code =>
    refine .here (.confirmed ⟨⟨1, Nat.one_pos, ?_⟩, ?_, ?_⟩)
    · rw [typedIn_append, hall]
      exact List.append_nil _
    · rw [hr]
      exact ⟨code, List.mem_append_right _ List.mem_cons_self⟩
    · intro hclosed
      rcases List.mem_append.mp hclosed with h | h
      · exact hread.closed_notMem h
      · cases List.mem_singleton.mp h
  | none =>
    rw [Option.toList_none, List.map_nil, List.append_nil]
    refine .here (.unready ⟨⟨1, hall⟩, ?_, hread.closed_notMem⟩)
    rw [hr]
    exact hread.exited_notMem

theorem takeStep_probe (hw : b.line.watcher = .follow {} before) (hr : step.readiness = .probe) :
    Brings index step rest before [] b (b.takeStep index step rest) := by
  have htexts : step.texts index 0 = step.command := by
    rw [Step.texts, hr]
    exact List.append_nil _
  unfold takeStep
  simp only [hr]
  refine typeCommand_brings (n := 0) (htexts ▸ List.prefix_refl _) fun p b₁ _ hp htyped => ?_
  rw [hw]
  exact .here (.probing _ hr (htyped.trans htexts.symm) hp (Or.inl rfl))

/-- Taking a step types its texts, all of them or up to a fault; a step that is probed types no probe
    yet. -/
theorem takeStep_brings (hw : b.line.watcher = .follow {} before) (index : Nat) (step : Step) (rest : List Step) :
    Brings index step rest before [] b (b.takeStep index step rest) := by
  cases hr : step.readiness with
  | probe => exact takeStep_probe hw hr
  | chained => exact takeStep_chained hw hr
  | exit => exact takeStep_exit hr

/-- Taking a probe types it once more, unless there is no time left for it, and waits for its answer. -/
theorem takeProbe_brings {plan : Plan} {h : Host} {start : Nat} {deadline : Deadline}
    (hphase : b.phase = .probing index step start deadline rest) (hw : b.line.watcher = .follow {} (before ++ part))
    (hreach : Reaches index step rest before part b.phase) :
    Brings index step rest before part b (b.takeProbe plan h index step start deadline rest).1 := by
  rw [hphase] at hreach
  cases hreach with | @probing _ n hr htyped htraffic hprobed => ?_
  unfold takeProbe
  split
  · refine .here (.unready ⟨⟨n, htyped⟩, ?_, htraffic.closed_notMem⟩)
    rw [hr]
    rcases hprobed with rfl | hprobed
    · left
      rw [htyped, Step.texts, hr]
      exact List.append_nil _
    · exact Or.inr hprobed
  · have hnext : typedIn part ++ [probeLine index] = step.texts index (n + 1) := by
      rw [htyped, Step.texts_succ hr index n]
    dsimp only
    refine type_brings (n := n + 1) htraffic (hnext ▸ List.prefix_refl _) fun p b₁ h₁ hp hprobe => ?_
    refine hear_brings fun items b₂ h₂ => ?_
    have hread : Traffic (part ++ p ++ items.map .read) := (htraffic.append hp).append (traffic_read items)
    have hall : typedIn (part ++ p ++ items.map .read) = step.texts index (n + 1) := by
      rw [typedIn_append, typedIn_append, typedIn_read, List.append_nil, hprobe, hnext]
    rw [(h₁.trans h₂).watcher hw, ← List.append_assoc, List.append_assoc before, List.append_assoc before]
    split
    · next hsome =>
      refine .here (.confirmed ⟨⟨n + 1, Nat.succ_pos n, hall⟩, ?_, hread.closed_notMem⟩)
      rw [hr]
      exact answered_of_isSome hsome
    · next hnone =>
      have hstays : b₂ = b₂.goTo (.probing index step (Watcher.follow {} before).position deadline rest) := by
        rw [← hphase, ← (h₁.trans h₂).phase]
        rfl
      rw [hstays]
      exact .here (.probing deadline hr hall hread (Or.inr (Option.not_isSome_iff_eq_none.mp hnone)))

end Booth

end Teletype.Recording
