import Teletype.Proofs.Recording.Marker
import Teletype.Proofs.Recording.Step

/-! # Recordings follow their script

Whatever a device does, a recording types the texts of its steps in their order, each once but for the
probes, and nothing of a step before the steps in front of it are confirmed. A recording that ends well
has taken all of its steps; one that is not ready in time names the first step that is not confirmed. -/

namespace Teletype.Recording

open Text (StandsAt)
open Output (Line Happening Watcher Window heardIn typedIn typedIn_append)

/-! ### Words -/

/-- The words that steps may type: all texts of the steps in their order, and each probe at least once. -/
inductive IsWord : Nat → List Step → List String → Prop
  | nil {index : Nat} : IsWord index [] []
  | cons {index n : Nat} {step : Step} {rest : List Step} {word : List String} : 0 < n → IsWord (index + 1) rest word →
      IsWord index (step :: rest) (step.texts index n ++ word)

theorem IsWord.exists : ∀ (steps : List Step) (index : Nat), ∃ word, IsWord index steps word
  | [], _ => ⟨[], .nil⟩
  | _ :: rest, index => by
    obtain ⟨word, hword⟩ := IsWord.exists rest (index + 1)
    exact ⟨_, .cons Nat.one_pos hword⟩

theorem IsWord.append {xs ys : List Step} {v w : List String} {index : Nat} (hv : IsWord index xs v)
    (hw : IsWord (index + xs.length) ys w) : IsWord index (xs ++ ys) (v ++ w) := by
  induction hv with
  | nil => exact hw
  | @cons index n step rest word hn _ ih =>
    rw [List.append_assoc, List.cons_append]
    refine .cons hn (ih ?_)
    rwa [List.length_cons, Nat.add_comm rest.length, ← Nat.add_assoc] at hw

/-! ### Steps that are taken -/

/-- The first `k` of these steps are taken with just this gone over the line since the watcher came: each of
    them is confirmed, after those before it. -/
inductive Taken (steps : List Step) : Nat → List Happening → Prop
  | begun : Taken steps 0 [.attached]
  | next {k : Nat} {step : Step} {before part : List Happening} : Taken steps k before → steps[k]? = some step →
      Confirmed (k + 1) step before part → Taken steps (k + 1) (before ++ part)

/-- All that is typed is of the steps that are taken, and of the one after them. -/
def Partway (steps : List Step) (past : List Happening) : Prop :=
  typedIn past = [] ∨ ∃ k before part, past = before ++ part ∧ Taken steps k before ∧
    (typedIn part = [] ∨ ∃ step n, steps[k]? = some step ∧ typedIn part <+: step.texts (k + 1) n)

/-- A text that stands in a part comes after the texts typed in the part before. -/
theorem prefix_of_typed {part p q : List Happening} {text : String} {texts : List String}
    (h : typedIn part <+: texts) (hpart : part = p ++ .typed text :: q) : typedIn p ++ [text] <+: texts := by
  have hsplit : typedIn part = typedIn p ++ [text] ++ typedIn q := by
    rw [hpart, typedIn_append, List.append_assoc]
    rfl
  rw [hsplit] at h
  exact (List.prefix_append _ _).trans h

theorem split_append {before part p q : List Happening} {x : Happening} (h : before ++ part = p ++ x :: q) :
    (∃ r, before = p ++ x :: r) ∨ ∃ r, p = before ++ r ∧ part = r ++ x :: q := by
  rcases List.append_eq_append_iff.mp h with ⟨r, hp, hpart⟩ | ⟨r, hbefore, hr⟩
  · exact Or.inr ⟨r, hp, hpart⟩
  · cases r with
    | nil => exact Or.inr ⟨[], by rw [hbefore, List.append_nil, List.append_nil], hr.symm⟩
    | cons y r =>
      cases hr
      exact Or.inl ⟨r, hbefore⟩

namespace Taken
variable {steps : List Step} {k : Nat} {past : List Happening}

theorem closed_notMem (h : Taken steps k past) : .closed ∉ past := by
  induction h with
  | begun => simp
  | next _ _ hconfirmed ih => exact fun hc => (List.mem_append.mp hc).elim ih hconfirmed.stillOpen

theorem isWord (h : Taken steps k past) : k ≤ steps.length ∧ IsWord 1 (steps.take k) (typedIn past) := by
  induction h with
  | begun => exact ⟨Nat.zero_le _, .nil⟩
  | @next k step before part _ hstep hconfirmed ih =>
    obtain ⟨hlt, -⟩ := List.getElem?_eq_some_iff.mp hstep
    obtain ⟨n, hn, htyped⟩ := hconfirmed.typed
    have hword : IsWord (1 + (steps.take k).length) [step] (typedIn part) := by
      rw [htyped, List.length_take_of_le ih.1, Nat.add_comm 1 k, ← List.append_nil (step.texts (k + 1) n)]
      exact .cons hn .nil
    refine ⟨hlt, ?_⟩
    rw [typedIn_append, List.take_add_one, hstep]
    exact ih.2.append hword

/-- A text that has been typed was typed by the step after some that were taken by then. -/
theorem typed (h : Taken steps k past) {p q : List Happening} {text : String} (hpast : past = p ++ .typed text :: q) :
    ∃ j step before part n, Taken steps j before ∧ steps[j]? = some step ∧ p = before ++ part ∧
      typedIn part ++ [text] <+: step.texts (j + 1) n := by
  induction h generalizing q with
  | begun =>
    have hmem : .typed text ∈ p ++ .typed text :: q := List.mem_append_right p List.mem_cons_self
    rw [← hpast] at hmem
    cases List.mem_singleton.mp hmem
  | @next k step before part hbefore hstep hconfirmed ih =>
    rcases split_append hpast with ⟨r, hr⟩ | ⟨r, hp, hpart⟩
    · exact ih hr
    · obtain ⟨n, -, htyped⟩ := hconfirmed.typed
      exact ⟨k, step, before, r, n, hbefore, hstep, hp, prefix_of_typed (htyped ▸ List.prefix_refl _) hpart⟩

/-- The markers of steps that are taken stand in the output one behind the other. -/
theorem places (h : Taken steps k past) (hsteps : ∀ j < k, ∀ step ∈ steps[j]?, step.readiness ≠ .exit) :
    ∃ places : List Nat, places.length = k ∧ places.Pairwise (· < ·) ∧
      ∀ j p, places[j]? = some p → StandsAt (marker (j + 1)) (heardIn past) p := by
  induction h with
  | begun => exact ⟨[], rfl, .nil, nofun⟩
  | @next k step before part _ hstep hconfirmed ih =>
    obtain ⟨places, hlength, hsorted, hstand⟩ := ih fun j hj => hsteps j (by omega)
    obtain ⟨p, hp, hmarker⟩ : Answered (k + 1) before part := by
      have hproven := hconfirmed.proven
      have hexit := hsteps k (Nat.lt_succ_self k) step hstep
      split at hproven
      · exact hproven
      · exact hproven
      · next hr => exact absurd hr hexit
    rw [position_follow] at hp
    refine ⟨places ++ [p], by rw [List.length_append, hlength]; rfl, ?_, ?_⟩
    · refine List.pairwise_append.mpr ⟨hsorted, List.pairwise_singleton _ _, fun q hq r hr => ?_⟩
      obtain rfl := List.mem_singleton.mp hr
      obtain ⟨j, hj⟩ := List.getElem?_of_mem hq
      have hend := (hstand j q hj).1
      have hlong := List.length_pos_iff.mpr (marker_ne_nil (j + 1))
      omega
    · intro j q hq
      rcases Nat.lt_or_ge j places.length with hj | hj
      · rw [List.getElem?_append_left hj] at hq
        rw [Output.heardIn_append]
        exact (hstand j q hq).append _
      · rw [List.getElem?_append_right hj] at hq
        obtain ⟨hlt, -⟩ := List.getElem?_eq_some_iff.mp hq
        rw [List.length_singleton] at hlt
        obtain rfl : j = k := by omega
        rw [hlength, Nat.sub_self] at hq
        cases hq
        exact hmarker

end Taken

/-! ### Where a recording is -/

/-- The recording has taken all steps, and its session is closed since. -/
def Complete (steps : List Step) (past : List Happening) : Prop :=
  ∃ before closing, past = before ++ closing ++ [.closed] ∧ Taken steps steps.length before ∧
    (closing = [] ∨ closing = [.detached])

/-- A failure that tells that a step was not ready tells this of the first step that is not confirmed. -/
def Told (steps : List Step) (past : List Happening) (f : Failure) : Prop :=
  ∀ name timeout, f = .unready name timeout → ∃ k step before part, past = before ++ part ∧ Taken steps k before ∧
    steps[k]? = some step ∧ Unconfirmed (k + 1) step before part ∧ name = step.name ∧ timeout = step.timeout

/-- What the place of a booth says of the past of a recording of these steps. -/
def Place (steps : List Step) (target : Target) (past : List Happening) (phase : Phase) : Prop :=
  match phase with
  | .waiting => past = []
  | .between index rest => ∃ k, index = k + 1 ∧ rest = steps.drop k ∧ Taken steps k past
  | .probing index step _ _ rest => ∃ k before part, index = k + 1 ∧ rest = steps.drop (k + 1) ∧
      steps[k]? = some step ∧ past = before ++ part ∧ Taken steps k before ∧
      Reaches index step rest before part phase
  | .failing f => .closed ∉ past ∧ Told steps past f
  | .settling _ _ => Complete steps past
  | .done (.error f) => ∃ before closing, past = before ++ closing ∧ typedIn closing = [] ∧ Told steps before f
  | .done (.ok path) => path = target.logFile ∧ Complete steps past

/-- The invariant of a recording of these steps. -/
structure Follows (steps : List Step) (target : Target) (b : Booth) : Prop where
  place : Place steps target b.line.past b.phase
  typed : Partway steps b.line.past
  watcher : b.line.watcher = .follow {} b.line.past
  target : b.target = target

/-! ### What actions keep -/

namespace Follows
variable {steps : List Step} {target : Target} {b b' r : Booth} {plan : Plan} {k : Nat} {step : Step}
  {before part : List Happening}

theorem fresh (target : Target) (now : Time) : Follows steps target (.fresh target now) :=
  ⟨rfl, Or.inl rfl, rfl, rfl⟩

/-- An action within a step brings the booth to a place in the step, or behind it. -/
theorem of_brings (hb : Follows steps target b) (hpast : b.line.past = before ++ part) (hbefore : Taken steps k before)
    (hstep : steps[k]? = some step) (h : Booth.Brings (k + 1) step (steps.drop (k + 1)) before part b r) :
    Follows steps target r := by
  obtain ⟨more, b', phase, hgoes, rfl, hreach⟩ := h
  have hpast' : b'.line.past = before ++ (part ++ more) := by rw [hgoes.line.past, hpast, List.append_assoc]
  have hwatcher : b'.line.watcher = .follow {} b'.line.past := by rw [hgoes.watcher hb.watcher, hgoes.line.past]
  have htarget : b'.target = target := hgoes.target.trans hb.target
  have htyped : ∀ n, typedIn (part ++ more) <+: step.texts (k + 1) n → Partway steps b'.line.past := fun n hn =>
    Or.inr ⟨k, before, part ++ more, hpast', hbefore, Or.inr ⟨step, n, hstep, hn⟩⟩
  have hopen : .closed ∉ part ++ more → .closed ∉ b'.line.past := by
    intro hpart hclosed
    rw [hpast'] at hclosed
    exact (List.mem_append.mp hclosed).elim hbefore.closed_notMem hpart
  cases hreach with
  | @broken f n hn hclosed => exact ⟨⟨hopen hclosed, nofun⟩, htyped n hn, hwatcher, htarget⟩
  | unready h =>
    obtain ⟨n, hn⟩ := h.typed
    refine ⟨⟨hopen h.stillOpen, ?_⟩, htyped n (hn ▸ List.prefix_refl _), hwatcher, htarget⟩
    intro name timeout hf
    cases hf
    exact ⟨k, step, before, _, hpast', hbefore, hstep, h, rfl, rfl⟩
  | confirmed h =>
    obtain ⟨n, -, hn⟩ := h.typed
    refine ⟨⟨k + 1, rfl, rfl, ?_⟩, htyped n (hn ▸ List.prefix_refl _), hwatcher, htarget⟩
    show Taken steps (k + 1) b'.line.past
    rw [hpast']
    exact hbefore.next hstep h
  | @probing deadline n hr hn htraffic hprobed =>
    refine ⟨⟨k, before, part ++ more, rfl, rfl, hstep, hpast', hbefore, ?_⟩,
      htyped n (hn ▸ List.prefix_refl _), hwatcher, htarget⟩
    exact .probing deadline hr hn htraffic hprobed

theorem typed_close (hb : Follows steps target b) (h : Host) :
    Partway steps (b.close h).2.1.line.past := by
  rw [(b.close_goes h).past]
  rcases hb.typed with htyped | ⟨k, before, part, hpast, hbefore, hpart⟩
  · left
    rw [typedIn_append, htyped, b.typedIn_parting]
    rfl
  · refine Or.inr ⟨k, before, part ++ b.parting, by rw [hpast, List.append_assoc], hbefore, ?_⟩
    rw [typedIn_append, b.typedIn_parting, List.append_nil]
    exact hpart

theorem watcher_close (hb : Follows steps target b) (h : Host) :
    (b.close h).2.1.line.watcher = .follow {} (b.close h).2.1.line.past := by
  have hgoes := b.close_goes h
  rw [hgoes.watcher, hgoes.past, hb.watcher, Watcher.follow_append]

theorem close_error {f : Failure} {h : Host} (hclose : (b.close h).1 = .error f) (past : List Happening) :
    Told steps past f := by
  rintro name timeout rfl
  cases hopen : b.session.isOpen with
  | true =>
    obtain ⟨m, hm, hopen⟩ := Session.isOpen_iff.mp hopen
    rw [Booth.close_of_open hm hopen] at hclose
    unfold Session.closing at hclose
    split at hclose
    · cases hclose
    · split at hclose <;> cases hclose
  | false =>
    rw [Booth.close_of_not_isOpen hopen] at hclose
    cases hclose

theorem finish_close {h : Host} {e : Failure} (hb : Follows steps target b)
    (he : Told steps b.line.past e ∨ (b.close h).1 = .error e) :
    Follows steps target ((b.close h).2.1.finish (.error e)) := by
  refine ⟨⟨b.line.past, b.parting, (b.close_goes h).past, b.typedIn_parting, ?_⟩, hb.typed_close h, hb.watcher_close h, hb.target⟩
  rcases he with he | he
  · exact he
  · exact close_error he _

theorem closeFailed {f : Failure} (hb : Follows steps target b) (hphase : b.phase = .failing f) (h : Host) :
    Follows steps target (b.closeFailed h f).1 := by
  obtain ⟨-, htold⟩ : Place steps target b.line.past (.failing f) := hphase ▸ hb.place
  have hfinish := fun e => hb.finish_close (h := h) (e := e)
  unfold Booth.closeFailed
  generalize b.close h = r at hfinish ⊢
  obtain ⟨e | ⟨⟩, b', h'⟩ := r
  · cases e with
    | close reason => exact hfinish f (Or.inl htold)
    | _ => exact hfinish _ (Or.inr rfl)
  · exact hfinish f (Or.inl htold)

/-- Closing that succeeds was asked of a session that was open. -/
theorem parting_of_ok {h : Host} (hclose : (b.close h).1 = .ok ()) :
    ∃ closing, b.parting = closing ++ [.closed] ∧ (closing = [] ∨ closing = [.detached]) := by
  cases hopen : b.session.isOpen with
  | true =>
    unfold Booth.parting
    rw [hopen]
    refine ⟨_, rfl, ?_⟩
    split
    · exact Or.inr rfl
    · exact Or.inl rfl
  | false =>
    rw [Booth.close_of_not_isOpen hopen] at hclose
    cases hclose

theorem closeDone {index : Nat} (hb : Follows steps target b) (hphase : b.phase = .between index []) (h : Host) :
    Follows steps target (b.closeDone plan h).1 := by
  obtain ⟨k, -, hrest, htaken⟩ : Place steps target b.line.past (.between index []) := hphase ▸ hb.place
  have hfinish := fun e => hb.finish_close (h := h) (e := e)
  have hcomplete : (b.close h).1 = .ok () → Complete steps (b.close h).2.1.line.past := by
    intro hclose
    obtain ⟨closing, hparting, hclosing⟩ := parting_of_ok hclose
    have hk : k = steps.length := Nat.le_antisymm htaken.isWord.1 (List.drop_eq_nil_iff.mp hrest.symm)
    refine ⟨b.line.past, closing, ?_, hk ▸ htaken, hclosing⟩
    rw [(b.close_goes h).past, hparting, List.append_assoc]
  have htyped := hb.typed_close h
  have hwatcher := hb.watcher_close h
  have htarget : (b.close h).2.1.target = target := hb.target
  unfold Booth.closeDone
  generalize b.close h = r at hfinish hcomplete htyped hwatcher htarget ⊢
  obtain ⟨e | ⟨⟩, b', h'⟩ := r
  · exact hfinish e (Or.inr rfl)
  · exact ⟨hcomplete rfl, htyped, hwatcher, htarget⟩

theorem begin_refused {e : Failure} {session : Session} {h h₁ : Host} (hb : Follows steps target b)
    (hphase : b.phase = .waiting) (hstart : Booth.start plan h = (.error e, session, h₁))
    (he : ∃ f, e = .start f ∨ e = .fault f) : Follows steps target (b.begin plan h).1 := by
  have hpast : Place steps target b.line.past .waiting := hphase ▸ hb.place
  rw [Booth.begin_of_error hstart]
  refine ⟨⟨[], [], hpast, rfl, ?_⟩, hb.typed, hb.watcher, hb.target⟩
  rintro name timeout rfl
  obtain ⟨f, hf | hf⟩ := he <;> cases hf

theorem begin_opened {phase : Phase} {device : Device} {session : Session} (hb : Follows steps target b)
    (hphase : b.phase = .waiting) (hplace : Place steps target [.attached] phase) :
    Follows steps target ((b.opened device session).goTo phase) := by
  have hpast : Place steps target b.line.past .waiting := hphase ▸ hb.place
  have hopened : ((b.opened device session).goTo phase).line.past = [.attached] := by
    show b.line.past ++ [.attached] = _
    rw [hpast]
    rfl
  refine ⟨hopened ▸ hplace, Or.inl (congrArg typedIn hopened), ?_, hb.target⟩
  rw [hopened]
  rfl

theorem begin_follows (hb : Follows steps target b) (hphase : b.phase = .waiting)
    (hscript : script plan.settings.recorder target = .ok steps) (h : Host) :
    Follows steps target (b.begin plan h).1 := by
  rcases Booth.start_cases plan h with ⟨e, session, h₁, _, hstart, he, -⟩ | ⟨session, h₁, _, _, hstart, -⟩
  · exact hb.begin_refused hphase hstart he
  · rw [Booth.begin_of_scripted hstart (hb.target ▸ hscript)]
    exact hb.begin_opened hphase ⟨0, rfl, rfl, .begun⟩

theorem look (hb : Follows steps target b) {deadline : Deadline} {last : Option Nat}
    (hphase : b.phase = .settling deadline last) (files : Files.History) (h : Host) :
    Follows steps target (b.look files h deadline last).1 := by
  have hcomplete : Place steps target b.line.past (.settling deadline last) := hphase ▸ hb.place
  unfold Booth.look
  dsimp only
  split
  · split
    · refine ⟨⟨b.line.past, [], (List.append_nil _).symm, rfl, ?_⟩, hb.typed, hb.watcher, hb.target⟩
      nofun
    · split
      · exact ⟨⟨congrArg Target.logFile hb.target, hcomplete⟩, hb.typed, hb.watcher, hb.target⟩
      · exact ⟨hcomplete, hb.typed, hb.watcher, hb.target⟩
  · exact ⟨⟨congrArg Target.logFile hb.target, hcomplete⟩, hb.typed, hb.watcher, hb.target⟩

/-- Every action keeps the invariant. -/
theorem actIn (hb : Follows steps target b) (hscript : script plan.settings.recorder target = .ok steps)
    (s : Surroundings) : Follows steps target (b.actIn plan s) := by
  unfold Booth.actIn Booth.act
  cases hphase : b.phase with
  | waiting => exact hb.begin_follows hphase hscript s.host
  | between index rest =>
    cases rest with
    | nil => exact hb.closeDone hphase s.host
    | cons step rest =>
      obtain ⟨k, rfl, hrest, htaken⟩ : Place steps target b.line.past (.between index (step :: rest)) :=
        hphase ▸ hb.place
      have hstep : steps[k]? = some step := by
        rw [← Nat.add_zero k, ← List.getElem?_drop, ← hrest]
        rfl
      have hdrop : rest = steps.drop (k + 1) := by
        rw [← List.tail_drop, ← hrest]
        rfl
      rw [hdrop]
      exact hb.of_brings (List.append_nil _).symm htaken hstep (Booth.takeStep_brings hb.watcher _ _ _)
  | probing index step start deadline rest =>
    obtain ⟨k, before, part, rfl, rfl, hstep, hpast, hbefore, hreach⟩ :
      Place steps target b.line.past (.probing index step start deadline rest) := hphase ▸ hb.place
    refine hb.of_brings hpast hbefore hstep (Booth.takeProbe_brings hphase ?_ (hphase ▸ hreach))
    rw [hb.watcher, hpast]
  | failing f => exact hb.closeFailed hphase s.host
  | settling deadline last => exact hb.look hphase s.files s.host
  | done result => exact hb

end Follows

/-- A recording without a script: it has failed as soon as its session is started. -/
structure Unscripted (target : Target) (b : Booth) : Prop where
  follows : Follows [] target b
  halted : b.phase = .waiting ∨ ∃ f, b.phase = .failing f ∨ b.phase = .done (.error f)

theorem Unscripted.actIn {target : Target} {b : Booth} {plan : Plan} {e : Text.Template.Error}
    (hb : Unscripted target b) (hscript : script plan.settings.recorder target = .error e) (s : Surroundings) :
    Unscripted target (b.actIn plan s) := by
  unfold Booth.actIn Booth.act
  rcases hb.halted with hphase | ⟨f, hphase | hphase⟩
  · rw [hphase]
    rcases Booth.start_cases plan s.host with ⟨e, session, h₁, _, hstart, he, -⟩ | ⟨session, h₁, _, _, hstart, -⟩
    · refine ⟨hb.follows.begin_refused hphase hstart he, Or.inr ⟨e, Or.inr ?_⟩⟩
      rw [Booth.begin_of_error hstart]
      rfl
    · show Unscripted target (b.begin plan s.host).1
      rw [Booth.begin_of_unscripted hstart (hb.follows.target ▸ hscript)]
      exact ⟨hb.follows.begin_opened hphase ⟨by simp, nofun⟩, Or.inr ⟨_, Or.inl rfl⟩⟩
  · rw [hphase]
    refine ⟨hb.follows.closeFailed hphase s.host, Or.inr ?_⟩
    show ∃ f', (b.closeFailed s.host f).1.phase = .failing f' ∨ (b.closeFailed s.host f).1.phase = .done (.error f')
    unfold Booth.closeFailed
    split <;> exact ⟨_, Or.inr rfl⟩
  · rw [hphase]
    exact hb

/-! ### Recordings -/

/-- How the steps of a script prove that they are done. -/
def scriptReadiness : List Readiness := [.probe, .probe, .probe, .chained, .probe, .probe, .exit]

/-- The steps of a script: only the commands of three of them come from templates. -/
theorem script_eq {r : RecorderSettings} {t : Target} {steps : List Step} (h : script r t = .ok steps) :
    ∃ screen record logger, steps = [
      ⟨"shell", "", r.readyTimeout, .probe⟩,
      ⟨"screen", screen, r.readyTimeout, .probe⟩,
      ⟨"record", record, r.readyTimeout, .probe⟩,
      ⟨"logger", logger, r.loggerTimeout, .chained⟩,
      ⟨"exit record", r.exitCommand, r.exitTimeout, .probe⟩,
      ⟨"exit screen", r.exitCommand, r.exitTimeout, .probe⟩,
      ⟨"exit shell", r.exitCommand, r.exitTimeout, .exit⟩] := by
  unfold script at h
  simp only [bind, Except.bind, pure, Except.pure] at h
  repeat (split at h; cases h)
  cases h
  exact ⟨_, _, _, rfl⟩

theorem script_of_isOk {r : RecorderSettings} {t : Target} (hok : (script r t).isOk = true) :
    ∃ steps, script r t = .ok steps := by
  cases hscript : script r t with
  | ok steps => exact ⟨steps, rfl⟩
  | error e =>
    rw [hscript] at hok
    cases hok

/-- What a script is like: its first step has no command, one step has its probe on the line of its command,
    and the last one is the end of the child. -/
theorem script_shape {r : RecorderSettings} {t : Target} {steps : List Step} (h : script r t = .ok steps) :
    steps.map Step.readiness = scriptReadiness ∧ (steps.map Step.text).head? = some "" := by
  obtain ⟨screen, record, logger, rfl⟩ := script_eq h
  exact ⟨rfl, rfl⟩

/-- What is typed partway goes on to a word of all steps. -/
theorem Partway.isWord {steps : List Step} {past : List Happening} (h : Partway steps past) :
    ∃ word, IsWord 1 steps word ∧ typedIn past <+: word := by
  rcases h with hnone | ⟨k, before, part, rfl, hbefore, hpart⟩
  · obtain ⟨word, hword⟩ := IsWord.exists steps 1
    exact ⟨word, hword, hnone ▸ List.nil_prefix⟩
  obtain ⟨hk, hword⟩ := hbefore.isWord
  have hrest : ∃ word, IsWord (k + 1) (steps.drop k) word ∧ typedIn part <+: word := by
    rcases hpart with hnone | ⟨step, n, hstep, htexts⟩
    · obtain ⟨word, hrest⟩ := IsWord.exists (steps.drop k) (k + 1)
      exact ⟨word, hrest, hnone ▸ List.nil_prefix⟩
    · obtain ⟨hlt, rfl⟩ := List.getElem?_eq_some_iff.mp hstep
      obtain ⟨word, hrest⟩ := IsWord.exists (steps.drop (k + 1)) (k + 1 + 1)
      rw [List.drop_eq_getElem_cons hlt]
      refine ⟨_, .cons (Nat.succ_pos n) hrest, ?_⟩
      exact (htexts.trans (Step.texts_prefix _ _ n)).trans (List.prefix_append _ _)
  obtain ⟨word, hrest, hprefix⟩ := hrest
  refine ⟨typedIn before ++ word, ?_, ?_⟩
  · rw [← List.take_append_drop k steps]
    refine hword.append ?_
    rwa [List.length_take_of_le hk, Nat.add_comm]
  · rw [typedIn_append]
    exact (List.prefix_append_right_inj _).mpr hprefix

/-- Every text that is typed is the next one of some step, when the steps before that are taken. -/
def InOrder (steps : List Step) (past : List Happening) : Prop :=
  ∀ p q text, past = p ++ .typed text :: q → ∃ k step before part n, Taken steps k before ∧ steps[k]? = some step ∧
    p = before ++ part ∧ typedIn part ++ [text] <+: step.texts (k + 1) n

theorem mem_typedIn (p q : List Happening) (text : String) : text ∈ typedIn (p ++ .typed text :: q) := by
  rw [typedIn_append]
  exact List.mem_append_right _ List.mem_cons_self

theorem Partway.inOrder {steps : List Step} {past : List Happening} (h : Partway steps past) : InOrder steps past := by
  intro p q text hpast
  rcases h with hnone | ⟨k, before, part, rfl, hbefore, hpart⟩
  · have hmem := mem_typedIn p q text
    rw [← hpast, hnone] at hmem
    cases hmem
  rcases split_append hpast with ⟨r, hr⟩ | ⟨r, hp, hr⟩
  · exact hbefore.typed hr
  rcases hpart with hnone | ⟨step, n, hstep, htexts⟩
  · have hmem := mem_typedIn r q text
    rw [← hr, hnone] at hmem
    cases hmem
  · exact ⟨k, step, before, r, n, hbefore, hstep, hp, prefix_of_typed htexts hr⟩

/-- All steps of a script are taken: the child has exited, and the six markers stand in the output in their
    order. -/
theorem Taken.all {steps : List Step} {past : List Happening}
    (hsteps : steps.map Step.readiness = scriptReadiness)
    (h : Taken steps 7 past) : (∃ code, .exited code ∈ past) ∧
      ∃ places : List Nat, places.length = 6 ∧ places.Pairwise (· < ·) ∧
        ∀ j p, places[j]? = some p → StandsAt (marker (j + 1)) (heardIn past) p := by
  have hreadiness : ∀ (j : Nat) (step : Step), steps[j]? = some step →
      scriptReadiness[j]? = some step.readiness := by
    intro j step hj
    rw [← hsteps, List.getElem?_map, hj]
    rfl
  obtain _ | @⟨_, step, before, part, hbefore, hstep, hconfirmed⟩ := h
  constructor
  · have hproven := hconfirmed.proven
    rw [← Option.some.inj (hreadiness 6 step hstep)] at hproven
    obtain ⟨code, hcode⟩ := hproven
    exact ⟨code, List.mem_append_right _ hcode⟩
  · obtain ⟨places, hlength, hsorted, hstand⟩ := hbefore.places fun j hj s hs hexit => by
      have hr := hreadiness j s hs
      have hearly : ∀ j < 6, scriptReadiness[j]? ≠ some .exit := by decide
      exact hearly j hj (hexit ▸ hr)
    refine ⟨places, hlength, hsorted, fun j p hp => ?_⟩
    rw [Output.heardIn_append]
    exact (hstand j p hp).append _

/-- A recording follows its script, or is halted without one. -/
theorem follows_or_halted (plan : Plan) (target : Target) (now : Time) (around : List Surroundings) :
    let b := (Booth.fresh target now).run plan around
    (∃ steps, script plan.settings.recorder target = .ok steps ∧ Follows steps target b) ∨
      b.phase = .waiting ∨ ∃ f, b.phase = .failing f ∨ b.phase = .done (.error f) := by
  intro b
  cases hscript : script plan.settings.recorder target with
  | error e =>
    have hb : Unscripted target b :=
      Booth.run_keeps (fun _ s hb => hb.actIn hscript s) around ⟨.fresh target now, Or.inl rfl⟩
    exact Or.inr hb.halted
  | ok steps =>
    have hb : Follows steps target b := Booth.run_keeps (fun _ s hb => hb.actIn hscript s) around (.fresh target now)
    exact Or.inl ⟨steps, rfl, hb⟩

/-- A recording follows its script, whatever its device does and whatever it finds around it. What it types is
    the beginning of a word of its steps, and nothing of a step is typed before the steps in front of it are
    confirmed. If it ends well the word is whole, all markers came in their order, the child exited before
    the session was closed, and the result is the transcript. If it ends because a step is not ready it
    names the first step that is not confirmed, and the time that this step had. -/
theorem recording_follows_script (plan : Plan) (target : Target) (now : Time) (around : List Surroundings) :
    let b := (Booth.fresh target now).run plan around
    let past := b.line.past
    b.line.watcher = .follow {} past ∧
    match script plan.settings.recorder target with
    | .error _ => typedIn past = [] ∧ ∀ result, b.phase = .done result →
        ∃ f, result = .error f ∧ ∀ name timeout, f ≠ .unready name timeout
    | .ok steps =>
      (steps.map Step.readiness = scriptReadiness ∧
        (steps.map Step.text).head? = some "") ∧
      (∃ word, IsWord 1 steps word ∧ typedIn past <+: word) ∧
      InOrder steps past ∧
      (∀ path, b.phase = .done (.ok path) → path = target.logFile ∧ IsWord 1 steps (typedIn past) ∧
        ∃ before closing, past = before ++ closing ++ [.closed] ∧ (closing = [] ∨ closing = [.detached]) ∧
          Taken steps 7 before ∧ .closed ∉ before ∧ (∃ code, .exited code ∈ before) ∧
          ∃ places : List Nat, places.length = 6 ∧ places.Pairwise (· < ·) ∧
            ∀ j p, places[j]? = some p → StandsAt (marker (j + 1)) (heardIn before) p) ∧
      ∀ name timeout, b.phase = .done (.error (.unready name timeout)) →
        ∃ k step before part closing, past = before ++ part ++ closing ∧ typedIn closing = [] ∧ Taken steps k before ∧
          steps[k]? = some step ∧ Unconfirmed (k + 1) step before part ∧ name = step.name ∧
          timeout = step.timeout := by
  intro b past
  cases hscript : script plan.settings.recorder target with
  | error e =>
    have hb : Unscripted target b := Booth.run_keeps (fun _ s hb => hb.actIn hscript s) around
      ⟨.fresh target now, Or.inl rfl⟩
    refine ⟨hb.follows.watcher, ?_, fun result hdone => ?_⟩
    · obtain ⟨word, hword, hprefix⟩ := hb.follows.typed.isWord
      cases hword
      exact List.prefix_nil.mp hprefix
    · obtain ⟨f, rfl⟩ : ∃ f, result = .error f := by
        rcases hb.halted with h | ⟨f, h | h⟩ <;> cases hdone.symm.trans h
        exact ⟨f, rfl⟩
      obtain ⟨before, closing, -, -, htold⟩ : Place [] target past (.done (.error f)) := hdone ▸ hb.follows.place
      refine ⟨f, rfl, fun name timeout hf => ?_⟩
      obtain ⟨k, step, _, _, _, _, hstep, -⟩ := htold name timeout hf
      cases hstep
  | ok steps =>
    have hb : Follows steps target b := Booth.run_keeps (fun _ s hb => hb.actIn hscript s) around (.fresh target now)
    obtain ⟨hreadiness, htext⟩ := script_shape hscript
    have hlength : steps.length = 7 := by
      rw [← List.length_map Step.readiness, hreadiness]
      rfl
    refine ⟨hb.watcher, ⟨hreadiness, htext⟩, hb.typed.isWord, hb.typed.inOrder, fun path hdone => ?_,
      fun name timeout hdone => ?_⟩
    · obtain ⟨hpath, before, closing, hpast, htaken, hclosing⟩ : Place steps target past (.done (.ok path)) :=
        hdone ▸ hb.place
      have hword : IsWord 1 steps (typedIn past) := by
        have hbefore := htaken.isWord.2
        have hnone : typedIn (closing ++ [.closed]) = [] := by rcases hclosing with rfl | rfl <;> rfl
        rw [List.take_length] at hbefore
        rwa [hpast, List.append_assoc, typedIn_append, hnone, List.append_nil]
      rw [hlength] at htaken
      obtain ⟨hexited, hplaces⟩ := htaken.all hreadiness
      exact ⟨hpath, hword, before, closing, hpast, hclosing, htaken, htaken.closed_notMem, hexited, hplaces⟩
    · obtain ⟨earlier, closing, hpast, hclosing, htold⟩ : Place steps target past (.done (.error (.unready name timeout))) :=
        hdone ▸ hb.place
      obtain ⟨k, step, before, part, hearlier, hbefore, hstep, hunconfirmed, hname, htimeout⟩ := htold name timeout rfl
      exact ⟨k, step, before, part, closing, hearlier ▸ hpast, hclosing, hbefore, hstep, hunconfirmed, hname, htimeout⟩

end Teletype.Recording
