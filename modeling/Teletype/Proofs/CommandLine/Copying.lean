import Teletype.Proofs.CommandLine.Exec
import Teletype.Proofs.Output.Attention
import Teletype.Proofs.Output.Copying
import Teletype.Proofs.Session.Credential

/-! # What a command copies

A command on a terminal is handed to the shell as it is given, as one word. What its terminal puts out is copied up to the
first item that is no chunk, whenever that comes, and the master is closed once, after all reading, however the command
goes. A command that is blank does not get that far. -/

namespace Teletype

open Output (Happening allArriving copied lastOf)

namespace CommandLine

/-! ### Reading the command -/

/-- The text that arguments give to be run on a terminal, whether anything comes of it or not. -/
def givenText? (args : List String) : Option String :=
  match readWords [helpForm] false args with
  | some { others := "exec" :: rest, .. } =>
    match readWords execForms true rest with
    | some { others := [text], .. } => some text
    | _ => none
  | _ => none

theorem execOf_singleton {w : Words} {text : String} (hothers : w.others = [text]) :
    execOf w = none ∨ Text.isAllBlank text = false ∧
      ∃ columns rows, execOf w = some (.exec text (w.has "--as-user") columns rows) := by
  unfold execOf
  rw [hothers]
  dsimp only
  cases numberOr w "--cols" 80 with
  | none => exact Or.inl rfl
  | some columns =>
    cases numberOr w "--rows" 24 with
    | none => exact Or.inl rfl
    | some rows =>
      cases hblank : Text.isAllBlank text with
      | true => exact Or.inl rfl
      | false => exact Or.inr ⟨rfl, columns, rows, rfl⟩

/-- Arguments that give a text ask for help, for nothing that can be made out, or for that text to be run; and a blank one is
    not run. -/
theorem read_of_givenText {args : List String} {text : String} (h : givenText? args = some text) :
    read args = .help ∨ read args = .misuse ∨ Text.isAllBlank text = false ∧
      ∃ common asUser columns rows, read args = .run common (.exec text asUser columns rows) := by
  unfold givenText? at h
  split at h
  · next given rest hwords =>
    split at h
    · next options rest' hrest =>
      cases h
      have hread : read args = if Words.has ⟨given, "exec" :: rest⟩ "--help" then .help else readCommand execForms execOf rest := by
        unfold read
        rw [hwords]
        rfl
      rw [hread]
      split
      · exact Or.inl rfl
      · unfold readCommand
        rw [hrest]
        dsimp only
        split
        · exact Or.inl rfl
        · rcases execOf_singleton (w := ⟨options, [text]⟩) rfl with hnone | ⟨hblank, columns, rows, hsome⟩
          · rw [hnone]
            exact Or.inr (Or.inl rfl)
          · rw [hsome]
            exact Or.inr (Or.inr ⟨hblank, _, _, _, _, rfl⟩)
    · cases h
  · cases h

/-! ### The journal -/

section
variable {site : Site} {s : ShellSettings} {text : String} {asUser : Bool} {columns rows : Int} {k : Nat} {st : Store}
  {device : Device} {terminal : Terminal}

/-- Whatever the start of a command spawns has its words. -/
theorem start_argv {x : Spawn} (hx : .spawning x ∈ ((storeAt site s).start 0 asUser text).2.host.journal) :
    x.argv = Shell.argv s text := by
  have htold {manager : Manager} : .spawning x ∉ ((storeAt site s).inquired manager asUser).host.journal := by
    simp [Store.inquired, storeAt]
  rcases Store.start_spawns (manager?_storeAt site s) asUser text with ⟨f, -, hresult⟩ | ⟨credential, events, -, -, hjournal, hspawns⟩
  · rw [hresult] at hx
    exact absurd hx htold
  · rw [hjournal] at hx
    replace hx := (List.mem_append.mp hx).resolve_left htold
    rcases hspawns with ⟨-, hnone⟩ | ⟨-, y, hy⟩
    · exact absurd hx (hnone x)
    · rw [hy.sole.eq hx]
      exact hy.argv

/-- A command that starts has asked the host for a terminal, a child and the end of the subordinate side. -/
theorem start_journal (hstart : (storeAt site s).start 0 asUser text = (.ok k, st)) : ∃ x, st.host.journal =
    [.opened (Host.masterHandle 0) (Host.subordinateOf (Host.masterHandle 0)), .spawning x,
      .closed (Host.subordinateOf (Host.masterHandle 0))] ∧ x.argv = Shell.argv s text := by
  have hbegins := Store.start_begins (manager?_storeAt site s) asUser text
  generalize hresult : (storeAt site s).start 0 asUser text = result at hbegins
  rw [hresult] at hstart
  cases hbegins with
  | unresolved | homeless | unstarted => cases hstart
  | started credential environment device session h r st' hgranted henvironment hstarts hreplaced =>
    cases hstarts with
    | connected hopening hspawning =>
      cases hreplaced
      cases hstart
      have hsilent : ((storeAt site s).inquired _ asUser).host.journal = [] :=
        congrArg (List.map Event.told) (Manager.notices_of_granted hgranted)
      exact ⟨_, congrArg (· ++ _) hsilent, rfl⟩

theorem Serves.resize_journal (h : Serves device terminal st) (columns rows : Int) :
    (st.resize 0 columns rows).2.host.journal = st.host.journal ++
      if Session.fits rows && Session.fits columns then [.resizing (Host.masterHandle 0) columns rows] else [] := by
  obtain ⟨hcurrent, e, he, -, hlive⟩ := h
  have hresizes := e.session.resize_resizes st.host columns rows
  have hhandle {m : Master} (hm : e.session.master = some m) : m.handle = Host.masterHandle 0 := by
    rw [hlive.master] at hm
    cases hm
    rfl
  unfold Store.resize
  rw [show (st.manager? 0).bind (·.current) = some 0 from hcurrent]
  dsimp only
  unfold Store.resizeSession
  rw [he]
  dsimp only
  generalize e.session.resize st.host columns rows = result at hresizes
  cases hresizes with
  | inactive hstatus =>
    rcases hstatus with hstatus | hm
    · exact absurd hlive.status hstatus
    · rw [hlive.master] at hm
      cases hm
  | misfit m n hstatus hm hn hmisfit =>
    have hnone : (Session.fits rows && Session.fits columns) = false := by
      rcases hn with rfl | ⟨-, rfl⟩
      · rw [hmisfit, Bool.false_and]
      · rw [hmisfit, Bool.and_false]
    rw [hnone]
    exact (List.append_nil _).symm
  | refused m f hstatus hm hrows hcolumns | resized m hstatus hm hrows hcolumns =>
    rw [hrows, hcolumns, ← hhandle hm]
    rfl

theorem copyOutput_host (st : Store) (k : Nat) : (st.copyOutput k).2.host = st.host := by
  unfold Store.copyOutput
  cases st.entry? k <;> rfl

theorem waitForExit_host (st : Store) (k : Nat) (span : Span) : (st.waitForExit k span).2.host = st.host := by
  unfold Store.waitForExit
  cases st.entry? k with
  | none => rfl
  | some e =>
    dsimp only
    split <;> rfl

/-- Leaving the scope of a session that is open closes its master, once. -/
theorem Serves.leaveScope_closes (h : Serves device terminal st) (o : Outcome) :
    (CommandLine.leaveScope st 0 o).journal = st.host.journal ++ [.closingMaster (Host.masterHandle 0)] ∧
      (CommandLine.leaveScope st 0 o).past = o.past ++ [.closed] ∧ (CommandLine.leaveScope st 0 o).output = o.output := by
  obtain ⟨-, e, he, -, hlive⟩ := h
  have hopen : e.session.isOpen = true := Session.isOpen_iff.mpr ⟨_, hlive.master, rfl⟩
  have hleave : st.leave 0 = (e.session.closing ⟨Host.masterHandle 0, true, device.closeFault⟩,
      (st.withHost (st.host.note (.closingMaster (Host.masterHandle 0)))).setEntry 0
        { e with session := e.session.shut ⟨Host.masterHandle 0, true, device.closeFault⟩ }) := by
    unfold Store.leave
    rw [he]
    dsimp only
    rw [if_pos hopen, Store.closeSession_of_open he hlive.master rfl]
  unfold CommandLine.leaveScope
  rw [he, hleave]
  simp only [Option.any_some, hopen, if_true]
  generalize e.session.closing _ = r
  cases r <;> exact ⟨rfl, rfl, rfl⟩

/-! ### The outcome -/

/-- What a command does once it has started: what it asks of the host for its terminal, what it reads there, and what it
    copies. -/
structure Copies (site : Site) (argv : List String) (columns rows : Int) (resized : Except Failure Unit) (outcome : Outcome) :
    Prop where
  journal : ∃ x, outcome.journal =
    [.opened (Host.masterHandle 0) (Host.subordinateOf (Host.masterHandle 0)), .spawning x,
      .closed (Host.subordinateOf (Host.masterHandle 0))] ++
    (if Session.fits rows && Session.fits columns then [.resizing (Host.masterHandle 0) columns rows] else []) ++
    [.closingMaster (Host.masterHandle 0)] ∧ x.argv = argv
  past : outcome.past = (if resized.isOk then site.copied.1.map .read else []) ++ [.closed]
  output : outcome.output = if resized.isOk then site.copied.1.flatMap Item.bytes else []
  status : resized.isOk = false → site.device.closeFault = none → outcome.exitCode = 1

theorem Outcome.fail_keeps (o : Outcome) (f : Failure) : (o.fail f).exitCode = 1 ∧ (o.fail f).journal = o.journal ∧
    (o.fail f).past = o.past ∧ (o.fail f).output = o.output := by
  unfold fail
  split <;> exact ⟨rfl, rfl, rfl, rfl⟩

theorem runExec_of_unstarted {f : Failure} (hstart : ((storeAt site s).start 0 asUser text).1 = .error f) (columns rows : Int)
    (o : Outcome) :
    (runExec site s text asUser columns rows o).journal = ((storeAt site s).start 0 asUser text).2.host.journal ∧
      (runExec site s text asUser columns rows o).past = o.past ∧
      (runExec site s text asUser columns rows o).output = o.output := by
  unfold runExec
  dsimp only
  generalize hbegun : Store.start _ 0 asUser text = begun
  obtain ⟨r, st⟩ := begun
  have hbegun : (storeAt site s).start 0 asUser text = (r, st) := hbegun
  rw [hbegun] at hstart ⊢
  obtain rfl : r = .error f := hstart
  exact (Outcome.fail_keeps _ f).2

/-- A command that has started copies what its terminal puts out if it is resized, and nothing otherwise. -/
theorem runExec_copies (hstart : (storeAt site s).start 0 asUser text = (.ok k, st)) (columns rows : Int) (o : Outcome)
    (hpast : o.past = []) (houtput : o.output = []) :
    Copies site (Shell.argv s text) columns rows (st.resize 0 columns rows).1 (runExec site s text asUser columns rows o) := by
  obtain ⟨rfl, hnow, hserves⟩ := start_serves hstart
  obtain ⟨x, hjournal, hargv⟩ := start_journal hstart
  obtain ⟨hresized, hnow'⟩ := hserves.resize columns rows
  have hasked := hserves.resize_journal columns rows
  rw [hjournal] at hasked
  unfold runExec
  dsimp only
  generalize hbegun : Store.start _ 0 asUser text = begun
  obtain rfl : (.ok 0, st) = begun := hstart.symm.trans hbegun
  dsimp only
  generalize st.resize 0 columns rows = resized at hresized hnow' hasked ⊢
  obtain ⟨r, st'⟩ := resized
  cases r with
  | error f =>
    dsimp only
    generalize hbefore : Outcome.mk _ _ _ _ _ _ _ _ _ = before
    obtain ⟨hexit, -, hkept, hsilent⟩ := before.fail_keeps f
    obtain ⟨hclosed, hpast', houtput'⟩ := hresized.leaveScope_closes (before.fail f)
    refine ⟨⟨x, by rw [hclosed, hasked], hargv⟩, ?_, ?_, fun _ hclose => ?_⟩
    · rw [hpast', hkept, ← hbefore]
      exact congrArg (· ++ _) hpast
    · rw [houtput', hsilent, ← hbefore]
      exact houtput
    · have hleaves := (hresized.leaveScope (before.fail f)).exitCode
      unfold closingFailure at hleaves
      rw [hclose] at hleaves
      exact hleaves.trans hexit
  | ok u =>
    have htime : st'.now = 0 := hnow'.trans hnow
    obtain ⟨hreads, -, hcopied⟩ := hresized.copyOutput
    have hhost := (waitForExit_host (st'.copyOutput 0).2 0 exitSpan).trans (copyOutput_host st' 0)
    have hwaited := (hcopied.waitForExit exitSpan).2
    rw [htime] at hreads
    dsimp only
    rw [hreads]
    generalize (st'.copyOutput 0).2.waitForExit 0 exitSpan = waited at hwaited hhost ⊢
    obtain ⟨code, st''⟩ := waited
    dsimp only
    generalize hbefore : Outcome.mk _ _ _ _ _ _ _ _ _ = before
    obtain ⟨hclosed, hpast', houtput'⟩ := hwaited.leaveScope_closes before
    refine ⟨⟨x, by rw [hclosed, hhost, hasked], hargv⟩, ?_, ?_, fun h => Bool.noConfusion h⟩
    · rw [hpast', ← hbefore]
      rfl
    · rw [houtput', ← hbefore]
      rfl

section
variable {words : List String} {outcome : Outcome}

theorem Copies.spawns {resized : Except Failure Unit} (h : Copies site words columns rows resized outcome) {x : Spawn}
    (hx : .spawning x ∈ outcome.journal) : x.argv = words := by
  obtain ⟨y, hjournal, hy⟩ := h.journal
  rw [hjournal] at hx
  have hxy : x = y := by
    rcases List.mem_append.mp hx with hx | hx
    · rcases List.mem_append.mp hx with hx | hx
      · simpa using hx
      · split at hx <;> simp at hx
    · simp at hx
  rw [hxy, hy]

/-- A command that is resized reads piece by piece and copies what it reads. -/
theorem Copies.of_ok (h : Copies site words columns rows (.ok ()) outcome) :
    outcome.output = (site.device.output.takeWhile Item.isChunk).flatMap Item.bytes ∧
    outcome.past =
      (copied site.device.output).map (fun bytes => .read (.chunk bytes)) ++ [.read (lastOf site.device.output), .closed] ∧
    (copied site.device.output).flatten = outcome.output ∧
    ∀ bytes ∈ copied site.device.output, bytes ≠ [] ∧ bytes.length ≤ 4096 := by
  obtain ⟨hcopied, hcoming, -⟩ := site.device.copy_begin
  have hreads : site.copied.1 = (copied site.device.output).map .chunk ++ [lastOf site.device.output] := by
    rw [← hcoming]
    exact hcopied.reads
  have houtput : outcome.output = (site.device.output.takeWhile Item.isChunk).flatMap Item.bytes := by
    rw [← Output.copied_bytes, ← hreads]
    exact h.output
  have hpast : outcome.past = site.copied.1.map .read ++ [.closed] := h.past
  refine ⟨houtput, ?_, ?_, fun bytes hbytes => ?_⟩
  · rw [hpast, hreads, List.map_append, List.map_map, List.append_assoc]
    rfl
  · rw [houtput, Output.flatten_copied]
  · obtain ⟨item, -, hpiece⟩ := List.mem_flatMap.mp hbytes
    exact Output.pieces_fit hpiece

theorem Copies.of_error {f : Failure} (h : Copies site words columns rows (.error f) outcome) :
    outcome.output = [] ∧ outcome.past = [.closed] ∧ (site.device.closeFault = none → outcome.exitCode = 1) :=
  ⟨h.output, h.past, h.status rfl⟩

end

end

/-- A text that is given to be run is not run if it is blank, and nothing is asked of the host. Any other reaches the shell as
    it is, as one word. Once the command has started, the master is closed once, as the last thing that is asked of the host,
    and after all reads. If the resizing succeeds, what is copied is just what the device queues, at once and as time goes on,
    before the first item that is no chunk, in reads of no more than their limit; if it fails, nothing is read, and the
    command exits with 1 unless closing meets a fault too. -/
theorem output_copied_and_master_closed_once (site : Site) (args : List String) {text : String}
    (hgiven : givenText? args = some text) :
    let outcome := run site args
    (Text.isAllBlank text = true → outcome = {} ∨ outcome = { exitCode := misuseCode }) ∧
    ∀ common command (s : Settings) environment, read args = .run common command →
      Settings.load site.files site.here site.environment common.config = (.ok s, environment) →
      ∃ asUser columns rows, command = .exec text asUser columns rows ∧
        let begun := (storeAt { site with environment } s.shell).start 0 asUser text
        let master := Host.masterHandle 0
        let queue := site.device.input.filterMap Effect.item? ++ allArriving (agendaOf site.device.events)
        (∀ x, .spawning x ∈ outcome.journal → x.argv = s.shell.shell :: s.shell.commandArgs ++ [text]) ∧
        (∀ f, begun.1 = .error f → outcome.output = [] ∧ outcome.past = []) ∧
        ∀ k st, begun = (.ok k, st) →
          let resized := (st.resize 0 columns rows).1
          (∃ x, outcome.journal =
            [.opened master (Host.subordinateOf master), .spawning x, .closed (Host.subordinateOf master)] ++
            (if Session.fits rows && Session.fits columns then [.resizing master columns rows] else []) ++
            [.closingMaster master]) ∧
          (resized = .ok () → outcome.output = (queue.takeWhile Item.isChunk).flatMap Item.bytes ∧
            outcome.past = (copied queue).map (fun bytes => .read (.chunk bytes)) ++ [.read (lastOf queue), .closed] ∧
            (copied queue).flatten = outcome.output ∧ ∀ bytes ∈ copied queue, bytes ≠ [] ∧ bytes.length ≤ 4096) ∧
          ∀ f, resized = .error f → outcome.output = [] ∧ outcome.past = [.closed] ∧
            (site.device.closeFault = none → outcome.exitCode = 1) := by
  intro outcome
  have hrequest := read_of_givenText hgiven
  constructor
  · intro hblank
    rcases hrequest with hhelp | hmisuse | ⟨hnot, -⟩
    · left
      show run site args = _
      rw [run, hhelp]
    · right
      show run site args = _
      rw [run, hmisuse]
    · cases hblank.symm.trans hnot
  · intro common command s environment hread hload
    obtain ⟨hnot, common', asUser, columns, rows, hread'⟩ := (hrequest.resolve_left (by simp [hread])).resolve_left (by simp [hread])
    obtain ⟨rfl, rfl⟩ := Request.run.inj (hread.symm.trans hread')
    have hargv : Shell.argv s.shell text = s.shell.shell :: s.shell.commandArgs ++ [text] := by
      rw [Shell.argv, hnot]
      rfl
    have hrun : outcome = runExec { site with environment } s.shell text asUser columns rows
        { logLevel := some (if common.verbose then 10 else 20) } := run_of_load hread hload
    refine ⟨asUser, columns, rows, rfl, ?_⟩
    intro begun master queue
    have hstarted {k : Nat} {st : Store} (h : begun = (.ok k, st)) := runExec_copies h columns rows
      { logLevel := some (if common.verbose then 10 else 20) } rfl rfl
    have hunstarted {f : Failure} (h : begun.1 = .error f) := runExec_of_unstarted h columns rows
      { logLevel := some (if common.verbose then 10 else 20) }
    rw [← hrun] at hstarted hunstarted
    refine ⟨fun x hx => ?_, fun f hf => ⟨(hunstarted hf).2.2, (hunstarted hf).2.1⟩, fun k st hbegun => ?_⟩
    · rw [← hargv]
      cases hbegun : begun with
      | mk r st =>
        cases r with
        | error f =>
          rw [(hunstarted (congrArg Prod.fst hbegun)).1] at hx
          exact start_argv hx
        | ok k => exact (hstarted hbegun).spawns hx
    · intro resized
      have hcopies := hstarted hbegun
      obtain ⟨x, hjournal, -⟩ := hcopies.journal
      refine ⟨⟨x, hjournal⟩, fun hok => ?_, fun f hf => ?_⟩
      · rw [show (st.resize 0 columns rows).1 = .ok () from hok] at hcopies
        exact hcopies.of_ok
      · rw [show (st.resize 0 columns rows).1 = .error f from hf] at hcopies
        exact hcopies.of_error

/-- A device whose first output is more than a read takes, and that goes on a second later, also after the end of its
    output. -/
def verboseDevice : Device where
  input := [.output (List.replicate 5000 97)]
  events := [(1, [.output [98], .endOfOutput, .output [99]])]

theorem long_output_is_copied :
    let site : Site := { devices := [verboseDevice] }
    (run site ["exec", "cat log"]).output = List.replicate 5000 97 ++ [98] ∧ .closed ∈ (run site ["exec", "cat log"]).past := by
  intro site
  have hgiven : givenText? ["exec", "cat log"] = some "cat log" := by decide +kernel
  have hread : read ["exec", "cat log"] = .run {} (.exec "cat log" false 80 24) := by decide +kernel
  have hload : Settings.load site.files site.here site.environment none = (.ok {}, []) := by decide +kernel
  have hstarts : ((storeAt { site with environment := [] } {}).start 0 false "cat log").1 = .ok 0 := by decide +kernel
  have hresize : (((storeAt { site with environment := [] } {}).start 0 false "cat log").2.resize 0 80 24).1 = .ok () := by
    decide +kernel
  have hqueue : ((site.device.input.filterMap Effect.item? ++
      allArriving (agendaOf site.device.events)).takeWhile Item.isChunk).flatMap Item.bytes = List.replicate 5000 97 ++ [98] := by
    have hlong (n : Nat) : Effect.item? (.output (List.replicate (n + 1) 97)) = some (.chunk (List.replicate (n + 1) 97)) := rfl
    show (([Effect.output (List.replicate 5000 97)].filterMap Effect.item? ++
      [Item.chunk [98], .endOfOutput, .chunk [99]]).takeWhile Item.isChunk).flatMap Item.bytes = _
    rw [List.filterMap_cons_some (hlong 4999)]
    rfl
  obtain ⟨asUser, columns, rows, hcommand, -, -, hbegun⟩ :=
    (output_copied_and_master_closed_once site ["exec", "cat log"] hgiven).2 {} _ {} [] hread hload
  obtain ⟨-, rfl, rfl, rfl⟩ := Command.exec.inj hcommand
  obtain ⟨-, hok, -⟩ := hbegun 0 _ (Prod.ext hstarts rfl)
  obtain ⟨houtput, hpast, -, -⟩ := hok hresize
  exact ⟨houtput.trans hqueue, by rw [hpast]; simp⟩

end CommandLine

end Teletype
