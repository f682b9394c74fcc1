import Teletype.Proofs.Output.Line

/-! # What has been typed into a terminal

Only typing changes what has been typed, and nothing changes the device at the far end. So the fault that the last
write has met, if it did, stays the same however long is waited for markers or for the child. -/

namespace Teletype

namespace Terminal

/-- The last text that was typed met this fault. -/
def lastFault? (t : Terminal) : Option Fault :=
  match t.typed.length with
  | 0 => none
  | n + 1 => t.device.writeFault n

/-- From one terminal to the other nothing is typed, and the device is the same. -/
structure Quiet (t t' : Terminal) : Prop where
  device : t'.device = t.device
  typed : t'.typed = t.typed

variable {t t' t'' : Terminal} {now : Time}

theorem Quiet.refl (t : Terminal) : Quiet t t := ⟨rfl, rfl⟩

theorem Quiet.trans (h₁ : Quiet t t') (h₂ : Quiet t' t'') : Quiet t t'' :=
  ⟨h₂.device.trans h₁.device, h₂.typed.trans h₁.typed⟩

theorem Quiet.lastFault? (h : Quiet t t') : t'.lastFault? = t.lastFault? := by
  unfold Terminal.lastFault?
  rw [h.device, h.typed]

/-! ### Effects -/

theorem quiet_apply (now : Time) (t : Terminal) (e : Effect) : Quiet t (t.apply now e) := by
  cases e with
  | output bytes =>
    unfold apply
    dsimp only
    split <;> exact ⟨rfl, rfl⟩
  | file | exit | endOfOutput | readFault => exact ⟨rfl, rfl⟩

theorem quiet_applyAll (now : Time) : ∀ (effects : List Effect) (t : Terminal), Quiet t (t.applyAll now effects)
  | [], t => .refl t
  | e :: effects, t => (quiet_apply now t e).trans (quiet_applyAll now effects _)

/-- Planning changes nothing but the agenda. -/
theorem planAll_eq (now : Time) : ∀ (entries : List (Rat × List Effect)) (t : Terminal),
    entries.foldl (fun t (delay, effects) => t.plan (now + delay, effects)) t =
      { t with agenda := (entries.foldl (fun t (delay, effects) => t.plan (now + delay, effects)) t).agenda }
  | [], _ => rfl
  | (delay, effects) :: entries, t => planAll_eq now entries (t.plan (now + delay, effects))

theorem quiet_planAll (now : Time) (entries : List (Rat × List Effect)) (t : Terminal) :
    Quiet t (entries.foldl (fun t (delay, effects) => t.plan (now + delay, effects)) t) := by
  rw [planAll_eq]
  exact ⟨rfl, rfl⟩

theorem quiet_runAgenda (now : Time) : ∀ (agenda : List Timed) (t : Terminal), Quiet t (t.runAgenda now agenda)
  | [], t => ⟨rfl, rfl⟩
  | entry :: rest, t => by
    unfold runAgenda
    split
    · exact (quiet_applyAll entry.1 entry.2 t).trans (quiet_runAgenda now rest _)
    · exact ⟨rfl, rfl⟩

theorem quiet_pollExit (deadline : Deadline) : ∀ (fuel : Nat) (t : Terminal) (now : Time),
    Quiet t (t.pollExit deadline fuel now).2.1
  | 0, t, now => .refl t
  | fuel + 1, t, now => by
    unfold pollExit
    split
    · split
      · exact .refl t
      · exact (quiet_runAgenda _ _ t).trans (quiet_pollExit deadline fuel _ _)
    · exact .refl t

/-- Typing types one text more, and meets the fault that the device has for it. -/
theorem type_typed (t : Terminal) (now : Time) (text : String) : (t.type now text).1 = t.device.writeFault t.typed.length ∧
    (t.type now text).2.device = t.device ∧ (t.type now text).2.typed = t.typed ++ [(now, text)] := by
  have hlength : (t.typed.map (·.2)).length = t.typed.length := List.length_map ..
  unfold type
  dsimp only
  split
  · next f hf => exact ⟨(hlength ▸ hf).symm, rfl, rfl⟩
  · next hf =>
    let reaction := t.device.react (t.typed.map (·.2)) text
    let noted : Terminal := { t with typed := t.typed ++ [(now, text)] }
    have hquiet : noted.Quiet _ := (quiet_applyAll now reaction.atOnce noted).trans (quiet_planAll now reaction.later _)
    exact ⟨(hlength ▸ hf).symm, hquiet.device, hquiet.typed⟩

theorem type_device (t : Terminal) (now : Time) (text : String) : (t.type now text).2.device = t.device :=
  (t.type_typed now text).2.1

/-- The fault that typing meets is that of the last write from then on. -/
theorem lastFault?_type (t : Terminal) (now : Time) (text : String) : (t.type now text).2.lastFault? = (t.type now text).1 := by
  obtain ⟨hfault, hdevice, htyped⟩ := t.type_typed now text
  unfold lastFault?
  rw [hdevice, htyped, List.length_append, hfault]
  rfl

theorem quiet_begin (device : Device) (now : Time) : Quiet { device } (Terminal.begin device now) := by
  have hspawned : Quiet { device } { device, exit := device.exitCode } := ⟨rfl, rfl⟩
  exact hspawned.trans ((quiet_applyAll now device.input _).trans (quiet_planAll now device.events _))

theorem lastFault?_begin (device : Device) (now : Time) : (Terminal.begin device now).lastFault? = none :=
  (quiet_begin device now).lastFault?

end Terminal

namespace Output.Line

open Text (Bytes)

variable {l : Line} {marker : Bytes} {start : Int}

/-! ### Waits -/

theorem quiet_perform (l : Line) (entry : Timed) : l.terminal.Quiet (l.perform entry).terminal :=
  ⟨(Terminal.quiet_applyAll entry.1 entry.2 l.terminal).device, (Terminal.quiet_applyAll entry.1 entry.2 l.terminal).typed⟩

theorem quiet_listen (deadline : Deadline) : ∀ (agenda : List Timed) (l : Line),
    l.terminal.Quiet (listen marker start deadline l agenda).2.terminal
  | [], l => by cases deadline <;> exact ⟨rfl, rfl⟩
  | entry :: rest, l => by
    have hperform := l.quiet_perform entry
    cases hdue : comesBy deadline entry.1 with
    | true =>
      rw [listen_due hdue]
      cases deadline <;> exact ⟨rfl, rfl⟩
    | false =>
      rcases listen_cons hdue rest l with hlisten | ⟨found, -, hlisten⟩ <;> rw [hlisten]
      · exact hperform.trans (quiet_listen deadline rest _)
      · exact ⟨hperform.device, hperform.typed⟩

theorem quiet_waitFor (l : Line) (marker : Bytes) (start : Int) (span : Span) :
    l.terminal.Quiet (l.waitFor marker start span).line.terminal := by
  unfold waitFor
  split
  · exact .refl _
  · dsimp only
    split
    · exact .refl _
    · exact quiet_listen _ _ l

theorem quiet_waitForExit (l : Line) (span : Span) : l.terminal.Quiet (l.waitForExit span).2.terminal := by
  have hquiet := Terminal.quiet_pollExit (.after l.now span) (l.terminal.looks l.now span) l.terminal l.now
  unfold waitForExit Terminal.waitForExit
  generalize Terminal.pollExit _ _ l.terminal l.now = r at hquiet ⊢
  obtain ⟨code, terminal, now⟩ := r
  cases code <;> exact ⟨hquiet.device, hquiet.typed⟩

theorem quiet_detach (l : Line) : l.terminal.Quiet l.detach.terminal := by
  unfold detach
  split <;> exact ⟨rfl, rfl⟩

/-- The fault that typing meets is that of the last write from then on. -/
theorem type_lastFault? (l : Line) (text : String) : (l.type text).2.terminal.lastFault? = (l.type text).1 :=
  l.terminal.lastFault?_type l.now text

end Output.Line

end Teletype
