import Teletype.Proofs.Output.Waiting

/-! # What a device can change

A device that changes files only at certain paths, whatever is typed to it, does so as long as its terminal is in use:
what is done at once, what is planned, and what comes of it later. -/

namespace Teletype

/-- The effect changes no file but at such a path. -/
def Effect.ChangesOnly (p : String → Prop) : Effect → Prop
  | .file path _ => p path
  | .output _ | .exit _ | .endOfOutput | .readFault => True

/-- Whatever is typed to it, the device changes no file but at such a path. -/
structure Device.ChangesOnly (p : String → Prop) (d : Device) : Prop where
  input : ∀ e ∈ d.input, e.ChangesOnly p
  events : ∀ entry ∈ d.events, ∀ e ∈ entry.2, e.ChangesOnly p
  atOnce : ∀ before text, ∀ e ∈ (d.react before text).atOnce, e.ChangesOnly p
  later : ∀ before text, ∀ entry ∈ (d.react before text).later, ∀ e ∈ entry.2, e.ChangesOnly p

/-- No file was changed on the terminal but at such a path, and none will be. -/
structure Terminal.ChangesOnly (p : String → Prop) (t : Terminal) : Prop where
  device : t.device.ChangesOnly p
  changes : ∀ c ∈ t.changes, p c.path
  agenda : ∀ entry ∈ t.agenda, ∀ e ∈ entry.2, e.ChangesOnly p

variable {p : String → Prop}

theorem Device.changesOnly_default : ({} : Device).ChangesOnly p := ⟨nofun, nofun, nofun, nofun⟩

theorem Terminal.changesOnly_default : ({} : Terminal).ChangesOnly p := ⟨Device.changesOnly_default, nofun, nofun⟩

namespace Terminal.ChangesOnly
variable {t : Terminal} {now : Time}

theorem apply (h : t.ChangesOnly p) (now : Time) {e : Effect} (he : e.ChangesOnly p) : (t.apply now e).ChangesOnly p := by
  cases e with
  | output bytes =>
    unfold Terminal.apply
    dsimp only
    split
    · exact h
    · exact ⟨h.device, h.changes, h.agenda⟩
  | file path size =>
    refine ⟨h.device, fun c hc => ?_, h.agenda⟩
    rcases List.mem_append.mp hc with hc | hc
    · exact h.changes c hc
    · cases List.mem_singleton.mp hc
      exact he
  | exit | endOfOutput | readFault => exact ⟨h.device, h.changes, h.agenda⟩

theorem applyAll (now : Time) : ∀ {effects : List Effect} {t : Terminal}, t.ChangesOnly p →
    (∀ e ∈ effects, e.ChangesOnly p) → (t.applyAll now effects).ChangesOnly p
  | [], _, h, _ => h
  | e :: effects, t, h, heffects => by
    obtain ⟨he, hrest⟩ := List.forall_mem_cons.mp heffects
    unfold Terminal.applyAll
    rw [List.foldl_cons]
    exact applyAll now (h.apply now he) hrest

theorem plan (h : t.ChangesOnly p) {entry : Timed} (hentry : ∀ e ∈ entry.2, e.ChangesOnly p) :
    (t.plan entry).ChangesOnly p := by
  refine ⟨h.device, h.changes, fun entry' hmem => ?_⟩
  rcases mem_schedule.mp hmem with rfl | hmem
  · exact hentry
  · exact h.agenda entry' hmem

theorem expect (h : t.ChangesOnly p) (now : Time) (exit : Option (Rat × Int)) : (t.expect now exit).ChangesOnly p := by
  cases exit with
  | none => exact h
  | some exit =>
    refine h.plan fun e he => ?_
    cases List.mem_singleton.mp he
    trivial

/-- What is put on the agenda of a terminal, one entry after the other. -/
theorem planAll (now : Time) : ∀ {entries : List (Rat × List Effect)} {t : Terminal}, t.ChangesOnly p →
    (∀ entry ∈ entries, ∀ e ∈ entry.2, e.ChangesOnly p) →
    (entries.foldl (fun t (delay, effects) => t.plan (now + delay, effects)) t).ChangesOnly p
  | [], _, h, _ => h
  | entry :: entries, t, h, hentries => by
    obtain ⟨hentry, hrest⟩ := List.forall_mem_cons.mp hentries
    have hplan : (t.plan (now + entry.1, entry.2)).ChangesOnly p := h.plan hentry
    rw [List.foldl_cons]
    exact planAll now hplan hrest

theorem begin {d : Device} (hd : d.ChangesOnly p) (now : Time) : (Terminal.begin d now).ChangesOnly p := by
  have hbare : Terminal.ChangesOnly p { device := d, exit := d.exitCode } := ⟨hd, nofun, nofun⟩
  exact (hbare.applyAll now hd.input).planAll now hd.events

theorem runAgenda (now : Time) : ∀ {agenda : List Timed} {t : Terminal}, t.ChangesOnly p →
    (∀ entry ∈ agenda, ∀ e ∈ entry.2, e.ChangesOnly p) → (t.runAgenda now agenda).ChangesOnly p
  | [], _, h, _ => ⟨h.device, h.changes, nofun⟩
  | (time, effects) :: rest, t, h, hagenda => by
    obtain ⟨heffects, hrest⟩ := List.forall_mem_cons.mp hagenda
    unfold Terminal.runAgenda
    split
    · exact runAgenda now (h.applyAll time heffects) hrest
    · exact ⟨h.device, h.changes, hagenda⟩

theorem advance (h : t.ChangesOnly p) (now : Time) : (t.advance now).ChangesOnly p := h.runAgenda now h.agenda

theorem type (h : t.ChangesOnly p) (now : Time) (text : String) : (t.type now text).2.ChangesOnly p := by
  have hnoted : Terminal.ChangesOnly p { t with typed := t.typed ++ [(now, text)] } := ⟨h.device, h.changes, h.agenda⟩
  unfold Terminal.type
  dsimp only
  split
  · exact hnoted
  · exact (hnoted.applyAll now (h.device.atOnce _ text)).planAll now (h.device.later _ text)

theorem pollExit (deadline : Deadline) : ∀ (fuel : Nat) {t : Terminal} {now : Time}, t.ChangesOnly p →
    (t.pollExit deadline fuel now).2.1.ChangesOnly p
  | 0, _, _, h => h
  | fuel + 1, t, now, h => by
    unfold Terminal.pollExit
    split
    · split
      · exact h
      · exact pollExit deadline fuel (h.advance (now + pollInterval))
    · exact h

theorem waitForExit (h : t.ChangesOnly p) (now : Time) (span : Span) : (t.waitForExit now span).2.1.ChangesOnly p :=
  pollExit (.after now span) (t.looks now span) h

theorem allChanges (h : t.ChangesOnly p) : ∀ c ∈ t.allChanges, p c.path := by
  intro c hc
  rcases List.mem_append.mp hc with hc | hc
  · exact h.changes c hc
  · obtain ⟨entry, hentry, hc⟩ := List.mem_flatMap.mp hc
    obtain ⟨e, he, hfile⟩ := List.mem_filterMap.mp hc
    have hp := h.agenda entry hentry e he
    cases e with
    | file path size =>
      cases hfile
      exact hp
    | output | exit | endOfOutput | readFault => cases hfile

end Terminal.ChangesOnly

/-! ### Lines -/

namespace Output.Line
variable {l : Line}

theorem settle_changesOnly (h : l.terminal.ChangesOnly p) : l.settle.terminal.ChangesOnly p :=
  ⟨h.device, h.changes, h.agenda⟩

theorem expire_terminal (l : Line) (deadline : Deadline) : (l.expire deadline).terminal = l.terminal := by
  cases deadline <;> rfl

theorem listen_changesOnly (marker : Text.Bytes) (start : Int) (deadline : Deadline) : ∀ {agenda : List Timed} {l : Line},
    l.terminal.ChangesOnly p → (∀ entry ∈ agenda, ∀ e ∈ entry.2, e.ChangesOnly p) →
    (listen marker start deadline l agenda).2.terminal.ChangesOnly p
  | [], l, h, _ => by
    have hnone : (l.withAgenda []).terminal.ChangesOnly p := ⟨h.device, h.changes, nofun⟩
    unfold listen
    dsimp only
    rw [expire_terminal]
    exact hnone
  | entry :: rest, l, h, hagenda => by
    obtain ⟨hentry, hrest⟩ := List.forall_mem_cons.mp hagenda
    have hperform : (l.perform entry).terminal.ChangesOnly p := settle_changesOnly (h.applyAll entry.1 hentry)
    unfold listen
    split
    · dsimp only
      rw [expire_terminal]
      exact ⟨h.device, h.changes, hagenda⟩
    · dsimp only
      split
      · exact listen_changesOnly marker start deadline hperform hrest
      · split
        · exact ⟨hperform.device, hperform.changes, hrest⟩
        · exact listen_changesOnly marker start deadline hperform hrest

theorem waitFor_changesOnly (h : l.terminal.ChangesOnly p) (marker : Text.Bytes) (start : Int) (span : Span) :
    (l.waitFor marker start span).line.terminal.ChangesOnly p := by
  have hagenda : ∀ entry ∈ (l.now, []) :: l.terminal.agenda, ∀ e ∈ entry.2, e.ChangesOnly p :=
    List.forall_mem_cons.mpr ⟨nofun, h.agenda⟩
  unfold waitFor
  split
  · exact h
  · dsimp only
    split
    · exact h
    · exact listen_changesOnly marker start _ h hagenda

theorem type_changesOnly (h : l.terminal.ChangesOnly p) (text : String) : (l.type text).2.terminal.ChangesOnly p :=
  settle_changesOnly (h.type l.now text)

theorem waitForExit_changesOnly (h : l.terminal.ChangesOnly p) (span : Span) :
    (l.waitForExit span).2.terminal.ChangesOnly p := by
  have hsettled := settle_changesOnly (l := { l with
    terminal := (l.terminal.waitForExit l.now span).2.1, now := (l.terminal.waitForExit l.now span).2.2 })
    (h.waitForExit l.now span)
  unfold waitForExit
  dsimp only
  split <;> exact hsettled

theorem detach_terminal (l : Line) : l.detach.terminal = l.terminal := by
  unfold detach
  split <;> rfl

end Output.Line

end Teletype
