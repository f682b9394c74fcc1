import Teletype.Proofs.CommandLine.Outcome
import Teletype.Proofs.Session.Replacement

/-! # Running a command on a terminal

A command is run by a manager of its own, whose session is started, resized, read and waited for, and closed however that
goes.
A start or a resizing that fails is a failure of the command. What closing the session meets comes after all that and
takes its place: it is not printed, whatever kind of failure it is. -/

namespace Teletype

namespace CommandLine

/-- The device of the terminal that a command gets. -/
def Site.device (site : Site) : Device := site.devices.headD {}

/-- The store that a command is started in. -/
def storeAt (site : Site) (s : ShellSettings) : Store where
  host := { devices := site.devices }
  environment := site.environment
  managers := [{ settings := s, database := (Identity.Source.ofSettings site.identities s).database }]

/-- The manager of a command. -/
def managerAt (site : Site) (s : ShellSettings) : Manager :=
  { settings := s, database := (Identity.Source.ofSettings site.identities s).database }

theorem manager?_storeAt (site : Site) (s : ShellSettings) : (storeAt site s).manager? 0 = some (managerAt site s) := rfl

/-- What closing the session of a command meets, if it meets a fault. -/
def closingFailure (device : Device) : Option Failure :=
  device.closeFault.map fun f => if f.isSystem then .close (.refused (Host.nameAfter 0) f) else .fault f

/-- The session of a command: it is active on the terminal of this device. -/
structure IsLive (device : Device) (s : Session) : Prop where
  status : s.status = .active
  master : s.master = some ⟨Host.masterHandle 0, true, device.closeFault⟩
  child : s.child.isSome = true
  id : s.id = Host.nameAfter 0

/-- The manager of a command has turned to its session, which has this terminal. -/
structure Serves (device : Device) (terminal : Terminal) (st : Store) : Prop where
  current : st.current? 0 = some 0
  entry : ∃ e, st.entry? 0 = some e ∧ e.terminal = terminal ∧ IsLive device e.session

section
variable {site : Site} {s : ShellSettings} {device : Device} {terminal : Terminal} {st : Store}

/-- A command that starts has the first session, on the first device. -/
theorem start_serves {command : String} {asUser : Bool} {k : Nat} (hstart : (storeAt site s).start 0 asUser command = (.ok k, st)) :
    k = 0 ∧ st.now = 0 ∧ Serves site.device (.begin site.device 0) st := by
  have hbegins := Store.start_begins (manager?_storeAt site s) asUser command
  generalize hresult : (storeAt site s).start 0 asUser command = result at hbegins
  rw [hresult] at hstart
  cases hbegins with
  | unresolved | homeless | unstarted => cases hstart
  | started credential environment device session h r st' hgranted henvironment hstarts hreplaced =>
    cases hstarts with
    | connected hopening hspawning =>
      cases hreplaced
      cases hstart
      exact ⟨rfl, rfl, rfl, _, rfl, rfl, rfl, rfl, rfl, rfl⟩

/-- Resizing leaves the terminal and the master to the session. -/
theorem Serves.resize (h : Serves device terminal st) (columns rows : Int) :
    Serves device terminal (st.resize 0 columns rows).2 ∧ (st.resize 0 columns rows).2.now = st.now := by
  obtain ⟨hcurrent, e, he, hterminal, hlive⟩ := h
  have hresize : st.resize 0 columns rows = st.resizeSession 0 columns rows := by
    unfold Store.resize
    rw [show (st.manager? 0).bind (·.current) = some 0 from hcurrent]
  rw [hresize]
  rcases Store.resizeSession_cases he columns rows with ⟨f, hsame⟩ | ⟨m, r, -, -, hset⟩
  · rw [hsame]
    exact ⟨⟨hcurrent, e, he, hterminal, hlive⟩, rfl⟩
  · rw [hset]
    refine ⟨⟨hcurrent, _, (Store.entry_setEntry he _ _ 0).trans (if_pos rfl), hterminal, ?_⟩, rfl⟩
    unfold Store.resized
    split
    · exact ⟨hlive.status, hlive.master, hlive.child, hlive.id⟩
    · exact hlive

/-- Copying is done from the terminal of the session, and takes as long as its output lasts. -/
theorem Serves.copyOutput (h : Serves device terminal st) : (st.copyOutput 0).1 = (terminal.copy st.now).1 ∧
    (st.copyOutput 0).2.now = (terminal.copy st.now).2.2 ∧ Serves device (terminal.copy st.now).2.1 (st.copyOutput 0).2 := by
  obtain ⟨hcurrent, e, he, rfl, hlive⟩ := h
  unfold Store.copyOutput
  rw [he]
  exact ⟨rfl, rfl, hcurrent, _, (Store.entry_setEntry he st.host _ 0).trans (if_pos rfl), rfl, hlive⟩

/-- Waiting for the child is done to the terminal of the session. -/
theorem Serves.waitForExit (h : Serves device terminal st) (span : Span) :
    (st.waitForExit 0 span).1 = (terminal.waitForExit st.now span).1 ∧
      Serves device (terminal.waitForExit st.now span).2.1 (st.waitForExit 0 span).2 := by
  obtain ⟨hcurrent, e, he, rfl, hlive⟩ := h
  unfold Store.waitForExit
  rw [he]
  dsimp only
  rw [if_pos hlive.child]
  exact ⟨rfl, hcurrent, _, (Store.entry_setEntry he st.host _ 0).trans (if_pos rfl), rfl, hlive⟩

/-- A command whose session is closed is what it was before, unless closing met a fault, which ends it. -/
structure Outcome.Leaves (before after : Outcome) (closing : Option Failure) : Prop where
  exitCode : after.exitCode = if closing.isSome then 1 else before.exitCode
  errors : after.errors = before.errors
  unhandled : after.unhandled = (closing <|> before.unhandled)

/-- What leaving the scope of the session meets is up to the device. -/
theorem Serves.leave (h : Serves device terminal st) : (st.leave 0).1 = (closingFailure device).elim (.ok ()) .error := by
  obtain ⟨-, e, he, -, hlive⟩ := h
  have hopen : e.session.isOpen = true := Session.isOpen_iff.mpr ⟨_, hlive.master, rfl⟩
  unfold Store.leave
  rw [he]
  dsimp only
  rw [if_pos hopen, Store.closeSession_of_open he hlive.master rfl]
  unfold Session.closing closingFailure
  rw [hlive.id]
  cases device.closeFault <;> rfl

theorem Serves.leaveScope (h : Serves device terminal st) (o : Outcome) :
    o.Leaves (leaveScope st 0 o) (closingFailure device) := by
  have hleave := h.leave
  unfold CommandLine.leaveScope
  generalize st.leave 0 = left at hleave ⊢
  obtain ⟨r, st'⟩ := left
  obtain rfl : r = _ := hleave
  cases closingFailure device <;> exact ⟨rfl, rfl, rfl⟩

end

/-- What copying the output of a command comes to. -/
def Site.copied (site : Site) : List Item × Terminal × Time := (Terminal.begin site.device 0).copy 0

/-- How running a command can go. -/
inductive Execs (site : Site) (s : ShellSettings) (command : String) (asUser : Bool) (columns rows : Int) (o : Outcome) :
    Outcome → Prop
  | unstarted (f : Failure) (hstart : ((storeAt site s).start 0 asUser command).1 = .error f) (before : Outcome)
      (herrors : before.errors = o.errors) (hunhandled : before.unhandled = o.unhandled) :
      Execs site s command asUser columns rows o (before.fail f)
  | unresized (st : Store) (hstart : (storeAt site s).start 0 asUser command = (.ok 0, st)) (f : Failure)
      (hresize : (st.resize 0 columns rows).1 = .error f) (before after : Outcome)
      (hleaves : (before.fail f).Leaves after (closingFailure site.device))
      (herrors : before.errors = o.errors) (hunhandled : before.unhandled = o.unhandled) :
      Execs site s command asUser columns rows o after
  | ran (st : Store) (hstart : (storeAt site s).start 0 asUser command = (.ok 0, st))
      (hresize : (st.resize 0 columns rows).1 = .ok ()) (before after : Outcome)
      (hleaves : before.Leaves after (closingFailure site.device))
      (hcode : before.exitCode = (site.copied.2.1.waitForExit site.copied.2.2 exitSpan).1.getD 0)
      (herrors : before.errors = o.errors) (hunhandled : before.unhandled = o.unhandled) :
      Execs site s command asUser columns rows o after

theorem runExec_execs (site : Site) (s : ShellSettings) (command : String) (asUser : Bool) (columns rows : Int) (o : Outcome) :
    Execs site s command asUser columns rows o (runExec site s command asUser columns rows o) := by
  unfold runExec
  dsimp only
  generalize hstart : Store.start _ 0 asUser command = started
  obtain ⟨r, st⟩ := started
  have hstart : (storeAt site s).start 0 asUser command = (r, st) := hstart
  cases r with
  | error f => exact .unstarted f (congrArg Prod.fst hstart) _ rfl rfl
  | ok k =>
    obtain ⟨rfl, hnow, hserves⟩ := start_serves hstart
    obtain ⟨hresized, hnow'⟩ := hserves.resize columns rows
    dsimp only
    generalize hresize : st.resize 0 columns rows = resized at hresized hnow' ⊢
    obtain ⟨r, st'⟩ := resized
    cases r with
    | error f => exact .unresized st hstart f (congrArg Prod.fst hresize) _ _ (hresized.leaveScope _) rfl rfl
    | ok u =>
      obtain ⟨-, hended, hcopied⟩ := hresized.copyOutput
      obtain ⟨hcode, hwaited⟩ := hcopied.waitForExit exitSpan
      rw [hended, hnow', hnow] at hcode hwaited
      exact .ran st hstart (congrArg Prod.fst hresize) _ _ (hwaited.leaveScope _) (congrArg (·.getD 0) hcode) rfl rfl

end CommandLine

end Teletype
