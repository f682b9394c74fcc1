import Teletype.Proofs.CommandLine.Exec
import Teletype.Proofs.Output.Copying

/-! # The status of a command

A command on a terminal that is started, resized and closed exits with the status of its child, as far as that is known
when the program stops waiting: five seconds after the output has ended. A child that still runs then is taken for one that
has succeeded. -/

namespace Teletype.CommandLine

variable {site : Site} {s : Settings} {text : String} {asUser : Bool} {columns rows : Int} {k : Nat} {st : Store}

/-- A command that goes well exits with what the wait for its child comes to, or with 0. -/
theorem runExec_of_ok (o : Outcome) (hstart : (storeAt site s.shell).start 0 asUser text = (.ok k, st))
    (hresize : (st.resize 0 columns rows).1 = .ok ()) (hclose : site.device.closeFault = none) :
    let outcome := runExec site s.shell text asUser columns rows o
    outcome.exitCode = (site.copied.2.1.waitForExit site.copied.2.2 exitSpan).1.getD 0 ∧
      outcome.errors = o.errors ∧ outcome.unhandled = o.unhandled := by
  intro outcome
  have hclosing : closingFailure site.device = none := by
    unfold closingFailure
    rw [hclose]
    rfl
  have hexecs : Execs site s.shell text asUser columns rows o outcome := runExec_execs site s.shell text asUser columns rows o
  clear_value outcome
  cases hexecs with
  | unstarted f hstart' =>
    rw [hstart] at hstart'
    cases hstart'
  | unresized st' hstart' f hresize' =>
    cases hstart.symm.trans hstart'
    cases hresize.symm.trans hresize'
  | ran st' _ _ before after hleaves hcode herrors hunhandled =>
    rw [hclosing] at hleaves
    exact ⟨hleaves.exitCode.trans hcode, hleaves.errors.trans herrors, hleaves.unhandled.trans hunhandled⟩

theorem exitSpan_looks : ((5 : Rat) / Terminal.pollInterval).ceil.toNat = 100 := by decide +kernel

/-- The wait for the child begins when the output has ended, and makes a hundred looks more. -/
theorem waitForExit_copied (site : Site) : (site.copied.2.1.waitForExit site.copied.2.2 exitSpan).1 =
    ((Terminal.begin site.device 0).advance site.device.outputEnd).exit.or
      ((Terminal.begin site.device 0).found site.device.outputEnd 100) := by
  obtain ⟨hcopied, -, hend⟩ := site.device.copy_begin
  have hended : site.copied.2.2 = site.device.outputEnd := hcopied.ended.trans hend
  have hwait : (site.copied.2.1.waitForExit site.copied.2.2 exitSpan).1 = _ := hcopied.waitForExit 5
  rw [hwait, ← hended, exitSpan_looks]
  rfl

/-- A command that is started, resized and closed exits with the first code that is found for its child, when its output
    has ended or by a look after each interval for five seconds from then, and with 0 if there is none. So it tells the status
    of a child that exits once unless it comes later, and a child that has not exited by then is taken for one that has
    succeeded. -/
theorem late_exits_are_taken_for_success (args : List String) {common : Common} {environment : Environment}
    (hread : read args = .run common (.exec text asUser columns rows))
    (hload : Settings.load site.files site.here site.environment common.config = (.ok s, environment))
    (hstart : (storeAt { site with environment } s.shell).start 0 asUser text = (.ok k, st))
    (hresize : (st.resize 0 columns rows).1 = .ok ()) (hclose : site.device.closeFault = none) :
    let outcome := run site args
    let terminal := Terminal.begin site.device 0
    let ended := site.device.outputEnd
    outcome.errors = [] ∧ outcome.unhandled = none ∧
      outcome.exitCode = ((terminal.advance ended).exit.or (terminal.found ended 100)).getD 0 ∧
      (site.device.exits = [] → outcome.exitCode = 0) ∧
      ∀ delay code, site.device.exits = [(delay, code)] → outcome.exitCode = (if delay ≤ ended + 5 then code else 0) ∧
        (outcome.exitCode = code ↔ delay ≤ ended + 5 ∨ code = 0) := by
  intro outcome terminal ended
  obtain ⟨hcode, herrors, hunhandled⟩ : outcome.exitCode = ((terminal.advance ended).exit.or (terminal.found ended 100)).getD 0 ∧
      outcome.errors = [] ∧ outcome.unhandled = none := by
    have hrun : outcome = runWith { site with environment } s { logLevel := some (if common.verbose then 10 else 20) }
        (.exec text asUser columns rows) := run_of_load hread hload
    rw [hrun, ← waitForExit_copied]
    exact runExec_of_ok _ hstart hresize hclose
  -- The last of the hundred looks comes five seconds after the first.
  have honce (h : site.device.exits.length ≤ 1) : outcome.exitCode = (statusBy site.device.exits (ended + 5)).getD 0 := by
    have hlast : ((100 : Nat) : Rat) * Terminal.pollInterval = 5 := by decide +kernel
    rw [hcode, Terminal.found_of_once h site.device.outputEnd_nonneg, hlast]
  refine ⟨herrors, hunhandled, hcode, fun hnone => ?_, fun delay code hexits => ?_⟩
  · rw [honce (by rw [hnone]; exact Nat.zero_le 1), hnone]
    rfl
  · have hstatus : outcome.exitCode = if delay ≤ ended + 5 then code else 0 := by
      rw [honce (by rw [hexits]; exact le_rfl), hexits, statusBy_singleton]
      split <;> rfl
    refine ⟨hstatus, ?_⟩
    rw [hstatus]
    split
    · next hsoon => exact iff_of_true rfl (Or.inl hsoon)
    · next hlate => exact ⟨fun h => Or.inr h.symm, fun h => (h.resolve_left hlate).symm⟩

/-- A device whose output ends at once, while its child goes on. -/
def silentDevice : Device where
  input := [.endOfOutput]

/-- A device whose output ends at once, and whose child goes on for ten seconds and then fails. -/
def lingeringDevice : Device := { silentDevice with events := [(10, [.exit 3])] }

theorem lingering_child_is_taken_for_success :
    let site (d : Device) : Site := { devices := [d] }
    silentDevice.exits = [] ∧ (run (site silentDevice) ["exec", "true"]).exitCode = 0 ∧
      lingeringDevice.exits = [(10, 3)] ∧ (run (site lingeringDevice) ["exec", "true"]).exitCode = 0 := by
  intro site
  have hread : read ["exec", "true"] = .run {} (.exec "true" false 80 24) := by decide +kernel
  have hload : Settings.load [] [] [] none = (.ok {}, []) := by decide +kernel
  -- Both devices start, are resized and are closed.
  have hgoes (d : Device) (hstarts : ((storeAt (site d) {}).start 0 false "true").1 = .ok 0)
      (hresize : (((storeAt (site d) {}).start 0 false "true").2.resize 0 80 24).1 = .ok ()) (hclose : d.closeFault = none) :
      (d.exits = [] → (run (site d) ["exec", "true"]).exitCode = 0) ∧ ∀ delay code, d.exits = [(delay, code)] →
        (run (site d) ["exec", "true"]).exitCode = if delay ≤ d.outputEnd + 5 then code else 0 := by
    have hload : Settings.load (site d).files (site d).here (site d).environment none = (.ok {}, []) := hload
    have hclose : (site d).device.closeFault = none := hclose
    generalize hstart : (storeAt (site d) {}).start 0 false "true" = started at hstarts hresize
    obtain ⟨r, st⟩ := started
    obtain rfl : r = .ok 0 := hstarts
    obtain ⟨-, -, -, hnever, honce⟩ :=
      late_exits_are_taken_for_success ["exec", "true"] hread hload hstart hresize hclose
    exact ⟨hnever, fun delay code hexits => (honce delay code hexits).1⟩
  have hsilent : silentDevice.exits = [] := by decide +kernel
  have hlingering : lingeringDevice.exits = [(10, 3)] := by decide +kernel
  have hlate : ¬(10 : Rat) ≤ lingeringDevice.outputEnd + 5 := by
    have hended : lingeringDevice.outputEnd = 0 := by decide +kernel
    rw [hended]
    norm_num
  refine ⟨hsilent, (hgoes silentDevice (by decide +kernel) (by decide +kernel) rfl).1 hsilent, hlingering, ?_⟩
  rw [(hgoes lingeringDevice (by decide +kernel) (by decide +kernel) rfl).2 10 3 hlingering, if_neg hlate]

end Teletype.CommandLine
