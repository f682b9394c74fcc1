import Teletype.Proofs.CommandLine.Exec

/-! # Which failures are printed

Every command prints the failures of the program's own kinds that it meets while it runs, and exits with 1. One kind it
does not: when a command on a terminal has come to its end, whatever that is, its session is closed outside of all that
handles failures. So a fault of the system that closing meets ends the program as it is. -/

namespace Teletype.CommandLine

open Recording (Booth)

/-- The store of a command when it comes to its end: it has been resized, and if that went well, read and waited for. -/
def atEnd (st : Store) (columns rows : Int) : Store :=
  let resized := st.resize 0 columns rows
  if resized.1.isOk then ((resized.2.copyOutput 0).2.waitForExit 0 exitSpan).2 else resized.2

/-- A failure that a command meets on its way: looking up a credential, starting, resizing, or making a recording. -/
inductive Raises (site : Site) (s : Settings) : Command → Failure → Prop
  | lookup {user backend : Option String} {source : Identity.Source} {f : Failure}
      (hsource : Identity.Source.ofName site.identities s.shell.shell s.shell.commandArgs
        (backend.getD s.shell.backend.name) = .ok source)
      (hlookup : (Identity.resolve source.database (user.getD s.shell.runAsUser)).result = .error f) :
      Raises site s (.credentials user backend) f
  | start {text : String} {asUser : Bool} {columns rows : Int} {f : Failure}
      (hstart : ((storeAt site s.shell).start 0 asUser text).1 = .error f) : Raises site s (.exec text asUser columns rows) f
  | resize {text : String} {asUser : Bool} {columns rows : Int} {f : Failure} {k : Nat} {st : Store}
      (hstart : (storeAt site s.shell).start 0 asUser text = (.ok k, st)) (hresize : (st.resize 0 columns rows).1 = .error f) :
      Raises site s (.exec text asUser columns rows) f
  | record {logFile ipcFile : String} {blocking : Bool} {f : Failure} {b : Booth}
      (hbooths : ((studioAt site s).recordInTurn [⟨logFile, ipcFile, blocking⟩]).booths = [b])
      (hdone : b.phase = .done (.error f)) : Raises site s (.record logFile ipcFile blocking) f

/-- A failure that a command meets when it leaves the scope of its session. -/
inductive RaisesAtEnd (site : Site) (s : Settings) : Command → Failure → Prop
  | leave {text : String} {asUser : Bool} {columns rows : Int} {f : Failure} {k : Nat} {st : Store}
      (hstart : (storeAt site s.shell).start 0 asUser text = (.ok k, st))
      (hleave : ((atEnd st columns rows).leave k).1 = .error f) : RaisesAtEnd site s (.exec text asUser columns rows) f

section
variable {site : Site} {s : Settings} {text : String} {asUser : Bool} {columns rows : Int} {f : Failure} {o : Outcome}
  {command : Command}

/-- What a command meets when it leaves the scope of its session is up to the device. -/
theorem raisesAtEnd_iff : RaisesAtEnd site s (.exec text asUser columns rows) f ↔
    ((storeAt site s.shell).start 0 asUser text).1.isOk = true ∧ closingFailure site.device = some f := by
  have hleaves {k : Nat} {st : Store} (hstart : (storeAt site s.shell).start 0 asUser text = (.ok k, st)) :
      ((atEnd st columns rows).leave k).1 = (closingFailure site.device).elim (.ok ()) .error := by
    -- Neither resizing nor reading nor waiting takes the terminal from the session, so its master is open until then.
    obtain ⟨rfl, -, hserves⟩ := start_serves hstart
    obtain ⟨hresized, -⟩ := hserves.resize columns rows
    unfold atEnd
    dsimp only
    split
    · exact (hresized.copyOutput.2.2.waitForExit exitSpan).2.leave
    · exact hresized.leave
  constructor
  · intro hraises
    cases hraises with
    | leave hstart hleave =>
      rw [hleaves hstart] at hleave
      refine ⟨by rw [hstart]; rfl, ?_⟩
      cases hclosing : closingFailure site.device with
      | none =>
        rw [hclosing] at hleave
        cases hleave
      | some g =>
        rw [hclosing] at hleave
        cases hleave
        rfl
  · rintro ⟨hok, hclosing⟩
    cases hstart : (storeAt site s.shell).start 0 asUser text with
    | mk r st =>
      rw [hstart] at hok
      cases r with
      | error g => cases hok
      | ok k =>
        refine .leave hstart ?_
        rw [hleaves hstart, hclosing]
        rfl

/-- Closing ends a command that has started, on a device that refuses it. -/
theorem closingFailure_own (hown : f.isOwn = true) : closingFailure site.device = some f ↔
    ∃ g, site.device.closeFault = some g ∧ g.isSystem = true ∧ f = .close (.refused (Host.nameAfter 0) g) := by
  unfold closingFailure
  constructor
  · intro hclosing
    obtain ⟨g, hg, rfl⟩ := Option.map_eq_some_iff.mp hclosing
    cases hsystem : g.isSystem with
    | true => exact ⟨g, hg, hsystem, rfl⟩
    | false =>
      rw [hsystem] at hown
      cases hown
  · rintro ⟨g, hg, hsystem, rfl⟩
    rw [hg, Option.map_some, if_pos hsystem]

end

/-! ### On the way -/

/-- An outcome handles the failures of the program's own kinds that a command meets on its way: they are printed, and none
    of them ends it. -/
structure Outcome.Handles (site : Site) (s : Settings) (command : Command) (o : Outcome) : Prop where
  printed : ∀ f, Raises site s command f → f.isOwn = true → o.exitCode = 1 ∧ o.errors = [f.message] ∧ o.unhandled = none
  passed : ∀ f, o.unhandled = some f → f.isOwn = false

section
variable {site : Site} {s : Settings} {command : Command} {o after : Outcome}

theorem handles_of_none (hunhandled : o.unhandled = none) (hraises : ∀ f, ¬ Raises site s command f) :
    o.Handles site s command := by
  refine ⟨fun f hf => absurd hf (hraises f), fun f hf => ?_⟩
  cases hunhandled.symm.trans hf

/-- A command that meets one failure on its way handles it if it fails with that. -/
theorem handles_of_one {e : Failure} (hfails : e.isOwn = true ∧ o.Prints after e ∨ e.isOwn = false ∧ o.EndedBy after e)
    (herrors : o.errors = []) (hunhandled : o.unhandled = none)
    (hraises : ∀ f, Raises site s command f → f = e) : after.Handles site s command := by
  rcases hfails with ⟨-, hprints⟩ | ⟨hother, hends⟩
  · have hnone : after.unhandled = none := hprints.unhandled.trans hunhandled
    refine ⟨fun f hf _ => ?_, fun f hf => ?_⟩
    · obtain rfl := hraises f hf
      exact ⟨hprints.exitCode, by rw [hprints.errors, herrors, List.nil_append], hnone⟩
    · cases hnone.symm.trans hf
  · refine ⟨fun f hf hown => ?_, fun f hf => ?_⟩
    · obtain rfl := hraises f hf
      cases hother.symm.trans hown
    · obtain rfl := Option.some.inj (hends.unhandled.symm.trans hf)
      exact hother

theorem runCredentials_handles (site : Site) (s : Settings) (user backend : Option String)
    (herrors : o.errors = []) (hunhandled : o.unhandled = none) :
    (runCredentials site s.shell user backend o).Handles site s (.credentials user backend) := by
  unfold runCredentials
  dsimp only
  cases hsource : Identity.Source.ofName site.identities s.shell.shell s.shell.commandArgs
      (backend.getD s.shell.backend.name) with
  | error e =>
    refine handles_of_none hunhandled fun f hraises => ?_
    cases hraises with
    | lookup hsource' => cases hsource.symm.trans hsource'
  | ok source =>
    dsimp only
    have honly {f : Failure} (hraises : Raises site s (.credentials user backend) f) :
        (Identity.resolve source.database (user.getD s.shell.runAsUser)).result = .error f := by
      cases hraises with
      | lookup hsource' hlookup =>
        cases hsource.symm.trans hsource'
        exact hlookup
    cases hlookup : (Identity.resolve source.database (user.getD s.shell.runAsUser)).result with
    | ok c =>
      refine handles_of_none hunhandled fun f hraises => ?_
      cases hlookup.symm.trans (honly hraises)
    | error e =>
      refine handles_of_one (Outcome.fail_cases _ e) herrors hunhandled fun f hraises => ?_
      cases hlookup.symm.trans (honly hraises)
      rfl

theorem runRecord_handles (site : Site) (s : Settings) (logFile ipcFile : String) (blocking : Bool)
    (herrors : o.errors = []) (hunhandled : o.unhandled = none) :
    (runRecord site s ⟨logFile, ipcFile, blocking⟩ o).Handles site s (.record logFile ipcFile blocking) := by
  obtain ⟨b, hbooths, -⟩ := recordInTurn_alone site s ⟨logFile, ipcFile, blocking⟩
  have honly {f : Failure} (hraises : Raises site s (.record logFile ipcFile blocking) f) : b.phase = .done (.error f) := by
    cases hraises with
    | record hbooths' hdone =>
      cases hbooths.symm.trans hbooths'
      exact hdone
  by_cases hover : ∃ result, b.phase = .done result
  · obtain ⟨result, hdone⟩ := hover
    rcases runRecord_of_done hbooths o hdone with ⟨path, rfl, -, -, -, hsame⟩ | ⟨e, rfl, hfails⟩
    · refine handles_of_none (hsame.trans hunhandled) fun f hraises => ?_
      cases hdone.symm.trans (honly hraises)
    · refine handles_of_one hfails herrors hunhandled fun f hraises => ?_
      cases hdone.symm.trans (honly hraises)
      rfl
  · have hgoing : ∀ result, b.phase ≠ .done result := fun result hdone => hover ⟨result, hdone⟩
    exact handles_of_none ((runRecord_of_not_done hbooths o hgoing).trans hunhandled) fun f hraises => hgoing _ (honly hraises)

end

/-! ### At the end -/

/-- An outcome accounts for the failures of the program's own kinds: those that the command meets on its way are printed, and
    none ends it but one that it meets when it leaves the scope of its session, which always does. -/
structure Outcome.Accounts (site : Site) (s : Settings) (command : Command) (o : Outcome) : Prop where
  printed : ∀ f, Raises site s command f → f.isOwn = true →
    o.exitCode = 1 ∧ o.errors = [f.message] ∧ ∀ g, o.unhandled = some g → RaisesAtEnd site s command g
  escaped : ∀ f, o.unhandled = some f → f.isOwn = true → RaisesAtEnd site s command f
  ended : ∀ f, RaisesAtEnd site s command f → o.exitCode = 1 ∧ o.unhandled = some f

section
variable {site : Site} {s : Settings} {command : Command} {o after : Outcome}

/-- What is handled is accounted for once the session is closed. -/
theorem Outcome.Handles.accounts {closing : Option Failure} (h : o.Handles site s command) (hleaves : o.Leaves after closing)
    (hend : ∀ f, RaisesAtEnd site s command f ↔ closing = some f) : after.Accounts site s command := by
  obtain ⟨hcode, herrors, hunhandled⟩ := hleaves
  cases closing with
  | none =>
    refine ⟨fun f hf hown => ?_, fun f hf hown => ?_, fun f hf => ?_⟩
    · obtain ⟨hone, hprinted, hnone⟩ := h.printed f hf hown
      refine ⟨hcode.trans hone, herrors.trans hprinted, fun g hg => ?_⟩
      cases (hunhandled.trans hnone).symm.trans hg
    · cases (h.passed f (hunhandled.symm.trans hf)).symm.trans hown
    · cases (hend f).mp hf
  | some e =>
    have hlast : RaisesAtEnd site s command e := (hend e).mpr rfl
    refine ⟨fun f hf hown => ?_, fun f hf hown => ?_, fun f hf => ?_⟩
    · obtain ⟨-, hprinted, -⟩ := h.printed f hf hown
      refine ⟨hcode, herrors.trans hprinted, fun g hg => ?_⟩
      cases hunhandled.symm.trans hg
      exact hlast
    · cases hunhandled.symm.trans hf
      exact hlast
    · cases (hend f).mp hf
      exact ⟨hcode, hunhandled⟩

/-- A command without a session at its end is accounted for if it is handled. -/
theorem Outcome.Handles.accounts_of_none (h : o.Handles site s command) (hend : ∀ f, ¬ RaisesAtEnd site s command f) :
    o.Accounts site s command :=
  have hleaves : o.Leaves o none := ⟨rfl, rfl, rfl⟩
  h.accounts hleaves fun f => iff_of_false (hend f) nofun

theorem runExec_accounts (site : Site) (s : Settings) (text : String) (asUser : Bool) (columns rows : Int)
    (herrors : o.errors = []) (hunhandled : o.unhandled = none) :
    (runExec site s.shell text asUser columns rows o).Accounts site s (.exec text asUser columns rows) := by
  have hexecs := runExec_execs site s.shell text asUser columns rows o
  have hend {st : Store} (hstart : (storeAt site s.shell).start 0 asUser text = (.ok 0, st)) (f : Failure) :
      RaisesAtEnd site s (.exec text asUser columns rows) f ↔ closingFailure site.device = some f := by
    rw [raisesAtEnd_iff, hstart]
    exact and_iff_right rfl
  generalize runExec site s.shell text asUser columns rows o = after at hexecs
  cases hexecs with
  | unstarted e hstart before hsame hsame' =>
    have hhandles : (before.fail e).Handles site s (.exec text asUser columns rows) := by
      refine handles_of_one (before.fail_cases e) (hsame.trans herrors) (hsame'.trans hunhandled) fun f hraises => ?_
      cases hraises with
      | start hstart' => exact (Except.error.inj (hstart.symm.trans hstart')).symm
      | resize hstart' =>
        rw [hstart'] at hstart
        cases hstart
    -- A command that has not started has no session to close.
    refine hhandles.accounts_of_none fun f hraises => ?_
    rw [raisesAtEnd_iff, hstart] at hraises
    cases hraises.1
  | unresized st hstart e hresize before after hleaves hsame hsame' =>
    have hhandles : (before.fail e).Handles site s (.exec text asUser columns rows) := by
      refine handles_of_one (before.fail_cases e) (hsame.trans herrors) (hsame'.trans hunhandled) fun f hraises => ?_
      cases hraises with
      | start hstart' =>
        rw [hstart] at hstart'
        cases hstart'
      | resize hstart' hresize' =>
        cases hstart.symm.trans hstart'
        exact (Except.error.inj (hresize.symm.trans hresize')).symm
    exact hhandles.accounts hleaves (hend hstart)
  | ran st hstart hresize before after hleaves hcode hsame hsame' =>
    have hhandles : before.Handles site s (.exec text asUser columns rows) := by
      refine handles_of_none (hsame'.trans hunhandled) fun f hraises => ?_
      cases hraises with
      | start hstart' =>
        rw [hstart] at hstart'
        cases hstart'
      | resize hstart' hresize' =>
        cases hstart.symm.trans hstart'
        cases hresize.symm.trans hresize'
    exact hhandles.accounts hleaves (hend hstart)

end

/-- Every failure of the program's own kinds that a command meets is printed and ends it with 1, but for one kind: what it
    meets when it closes its session ends it as it is. That is so of a command on a terminal which has started on a device
    whose handle the system does not close, and of no other. -/
theorem own_failures_are_printed_but_for_closing (site : Site) (args : List String) {common : Common} {command : Command}
    {s : Settings} {environment : Environment} (hread : read args = .run common command)
    (hload : Settings.load site.files site.here site.environment common.config = (.ok s, environment)) :
    let here := { site with environment }
    (run site args).Accounts here s command ∧
    ∀ f, f.isOwn = true → (RaisesAtEnd here s command f ↔
      ∃ text asUser columns rows g, command = .exec text asUser columns rows ∧
        ((storeAt here s.shell).start 0 asUser text).1.isOk = true ∧
        here.device.closeFault = some g ∧ g.isSystem = true ∧ f = .close (.refused (Host.nameAfter 0) g)) := by
  intro here
  constructor
  · rw [run_of_load hread hload]
    cases command with
    | credentials user backend => exact (runCredentials_handles here s user backend rfl rfl).accounts_of_none nofun
    | exec text asUser columns rows => exact runExec_accounts here s text asUser columns rows rfl rfl
    | record logFile ipcFile blocking => exact (runRecord_handles here s logFile ipcFile blocking rfl rfl).accounts_of_none nofun
  · intro f hown
    constructor
    · intro hraises
      have hboth := hraises
      cases hraises with
      | leave hstart hleave =>
        obtain ⟨hok, hclosing⟩ := raisesAtEnd_iff.mp hboth
        obtain ⟨g, hg⟩ := (closingFailure_own hown).mp hclosing
        exact ⟨_, _, _, _, g, rfl, hok, hg⟩
    · rintro ⟨text, asUser, columns, rows, g, rfl, hok, hg⟩
      exact raisesAtEnd_iff.mpr ⟨hok, (closingFailure_own hown).mpr ⟨g, hg⟩⟩

/-- A device whose handle the system does not close. -/
def stuckDevice : Device where
  closeFault := some ⟨.system, "[Errno 5] Input/output error"⟩

theorem stuck_handle_ends_command :
    let site : Site := { devices := [stuckDevice] }
    let failure : Failure := .close (.refused (Host.nameAfter 0) ⟨.system, "[Errno 5] Input/output error"⟩)
    read ["exec", "true"] = .run {} (.exec "true" false 80 24) ∧ Settings.load [] [] [] none = (.ok {}, []) ∧
      failure.isOwn = true ∧ (run site ["exec", "true"]).exitCode = 1 ∧
      (run site ["exec", "true"]).unhandled = some failure := by
  intro site failure
  have hread : read ["exec", "true"] = .run {} (.exec "true" false 80 24) := by decide +kernel
  have hload : Settings.load [] [] [] none = (.ok {}, []) := by decide +kernel
  have hstarts : ((storeAt site {}).start 0 false "true").1.isOk = true := by decide +kernel
  obtain ⟨haccounts, hend⟩ := own_failures_are_printed_but_for_closing site ["exec", "true"] hread hload
  have hlast := (hend failure rfl).mpr ⟨_, _, _, _, _, rfl, hstarts, rfl, rfl, rfl⟩
  exact ⟨hread, hload, rfl, haccounts.ended failure hlast⟩

end Teletype.CommandLine
