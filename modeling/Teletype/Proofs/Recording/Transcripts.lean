import Teletype.Proofs.Files.History
import Teletype.Proofs.Recording.Floor
import Teletype.Proofs.Session.Terminals
import Teletype.Proofs.Terminal.Changes

/-! # Transcripts by name

Where every device changes the transcript of its own recording at most, and all transcripts have names of their own in one
directory, each of them has the size that its own device has given it, whatever else happens. -/

namespace Teletype

variable {p : String → Prop}

/-! ### Sessions of managers -/

/-- The devices of all sessions change no file but at such a path. -/
def Store.ChangesOnly (p : String → Prop) (st : Store) : Prop := ∀ e ∈ st.entries, e.terminal.ChangesOnly p

/-- A device that changes no other file keeps to that, whatever is done at its terminal. -/
theorem lasting_changesOnly (p : String → Prop) : Terminal.Lasting (·.ChangesOnly p) (·.ChangesOnly p) where
  device := Device.changesOnly_default
  unused := Terminal.changesOnly_default
  begin hd now := Terminal.ChangesOnly.begin hd now
  advance ht now := ht.advance now
  exits ht now _ := ht.apply now trivial
  expect ht now exit := ht.expect now exit
  waitForExit ht now span := ht.waitForExit now span

namespace Recording

/-! ### Sessions of recordings -/

namespace Booth

/-- The booth makes the recording of this target on a device that changes no file but at such a path. -/
structure Serves (target : Target) (p : String → Prop) (b : Booth) : Prop where
  target : b.target = target
  changes : b.line.terminal.ChangesOnly p

namespace Serves
variable {b : Booth} {target : Target} {next : Booth → Booth}

theorem fresh (target : Target) (now : Time) : (Booth.fresh target now).Serves target p :=
  ⟨rfl, Terminal.changesOnly_default⟩

theorem begin (hb : b.Serves target p) (plan : Plan) {h : Host} (hdevices : ∀ d ∈ h.devices, d.ChangesOnly p) :
    (b.begin plan h).1.Serves target p := by
  cases hstart : Booth.start plan h with
  | mk r started =>
    obtain ⟨s, h'⟩ := started
    cases r with
    | error e =>
      rw [begin_of_error hstart]
      exact ⟨hb.target, hb.changes⟩
    | ok device =>
      have hd : device.ChangesOnly p := by
        unfold Booth.start at hstart
        dsimp only at hstart
        split at hstart
        · cases hstart
        · exact Session.start_device Device.changesOnly_default hstart hdevices
      have hopened := Terminal.ChangesOnly.begin hd b.now
      cases hscript : script plan.settings.recorder b.target with
      | error e =>
        rw [begin_of_unscripted hstart hscript]
        exact ⟨hb.target, hopened⟩
      | ok steps =>
        rw [begin_of_scripted hstart hscript]
        exact ⟨hb.target, hopened⟩

theorem type (hb : b.Serves target p) {text : String}
    (hnext : ∀ line : Output.Line, line.terminal.ChangesOnly p → (next { b with line }).Serves target p) :
    (b.type text next).Serves target p := by
  unfold Booth.type
  split
  · exact ⟨hb.target, hb.changes⟩
  · have hline := Output.Line.type_changesOnly hb.changes text
    split
    · next htyped =>
      rw [htyped] at hline
      exact ⟨hb.target, hline⟩
    · next htyped =>
      rw [htyped] at hline
      exact hnext _ hline

theorem typeCommand (hb : b.Serves target p) {step : Step}
    (hnext : ∀ line : Output.Line, line.terminal.ChangesOnly p → (next { b with line }).Serves target p) :
    (b.typeCommand step next).Serves target p := by
  unfold Booth.typeCommand
  split
  · exact hnext b.line hb.changes
  · exact hb.type hnext

theorem hear (hb : b.Serves target p) (index start : Nat) (span : Span) {next : Bool → Booth → Booth}
    (hnext : ∀ found (b : Booth), b.Serves target p → (next found b).Serves target p) :
    (b.hear index start span next).Serves target p :=
  hnext _ _ ⟨hb.target, Output.Line.waitFor_changesOnly hb.changes (marker index) start span⟩

theorem takeStep (hb : b.Serves target p) (index : Nat) (step : Step) (rest : List Step) :
    (b.takeStep index step rest).Serves target p := by
  have hnext (done : Bool) (b : Booth) (hb : b.Serves target p) :
      (if done then b.goTo (.between (index + 1) rest) else b.fail (unready step)).Serves target p := by
    cases done <;> exact ⟨hb.target, hb.changes⟩
  unfold Booth.takeStep
  dsimp only
  split
  · exact hb.type fun line hline => hear (b := { b with line }) ⟨hb.target, hline⟩ index _ _ hnext
  · exact hb.typeCommand fun line hline => hnext _ _ ⟨hb.target, Output.Line.waitForExit_changesOnly hline _⟩
  · exact hb.typeCommand fun line hline => ⟨hb.target, hline⟩

theorem takeProbe (hb : b.Serves target p) (plan : Plan) (h : Host) (index : Nat) (step : Step) (start : Nat)
    (deadline : Deadline) (rest : List Step) :
    (b.takeProbe plan h index step start deadline rest).1.Serves target p := by
  unfold Booth.takeProbe
  split
  · exact ⟨hb.target, hb.changes⟩
  · dsimp only
    refine hb.type fun line hline => hear (b := { b with line }) ⟨hb.target, hline⟩ index _ _ fun found b hb => ?_
    cases found <;> exact ⟨hb.target, hb.changes⟩

theorem close (hb : b.Serves target p) (h : Host) : (b.close h).2.1.Serves target p := by
  refine ⟨hb.target, ?_⟩
  have hdetached : b.line.detach.terminal.ChangesOnly p := by
    rw [Output.Line.detach_terminal]
    exact hb.changes
  unfold Booth.close
  dsimp only
  split <;> exact hdetached

theorem closeFailed (hb : b.Serves target p) (h : Host) (failure : Failure) :
    (b.closeFailed h failure).1.Serves target p := by
  have hclose := hb.close h
  unfold Booth.closeFailed
  split <;> next hclosed => rw [hclosed] at hclose; exact ⟨hclose.target, hclose.changes⟩

theorem closeDone (hb : b.Serves target p) (plan : Plan) (h : Host) : (b.closeDone plan h).1.Serves target p := by
  have hclose := hb.close h
  unfold Booth.closeDone
  split <;> next hclosed => rw [hclosed] at hclose; exact ⟨hclose.target, hclose.changes⟩

theorem look (hb : b.Serves target p) (files : Files.History) (h : Host) (deadline : Deadline) (last : Option Nat) :
    (b.look files h deadline last).1.Serves target p := by
  unfold Booth.look
  dsimp only
  split
  · split
    · exact ⟨hb.target, hb.changes⟩
    · split
      · exact ⟨hb.target, hb.changes⟩
      · exact ⟨hb.target, hb.changes.advance _⟩
  · exact ⟨hb.target, hb.changes⟩

theorem act (hb : b.Serves target p) (plan : Plan) (files : Files.History) {h : Host}
    (hdevices : ∀ d ∈ h.devices, d.ChangesOnly p) : (b.act plan files h).1.Serves target p := by
  unfold Booth.act
  split
  · exact hb.begin plan hdevices
  · exact hb.closeDone plan h
  · exact hb.takeStep _ _ _
  · exact hb.takeProbe plan h _ _ _ _ _
  · exact hb.closeFailed h _
  · exact hb.look files h _ _
  · exact hb

end Serves

end Booth

/-! ### Floors -/

/-- The devices that the surroundings have ready when something happens. -/
def Occurrence.devices : Occurrence → List Device
  | .act _ supply => supply.devices
  | .turn t => t.circumstances.devices

/-- The path is one that a device may change which is there for a recording, or for none, if these are the names of the
    transcripts: the name of its own, or a path beside it, and beside those of all others. -/
def Leaves (names : List String) (party : Option Nat) (path : String) : Prop :=
  ∀ (i : Nat) (name : String), names[i]? = some name →
    (party = some i ∧ Files.isTo name path = true) ∨ Files.isBeside name path = true

/-- If the names are different, a recording's device may change its own transcript. -/
theorem leaves_own {names : List String} (hplain : ∀ name ∈ names, Files.IsName name) (hnodup : names.Nodup) {i : Nat}
    {name : String} (hi : names[i]? = some name) : Leaves names (some i) name := by
  intro j other hj
  have hsteps := (hplain name (List.mem_of_getElem? hi)).pathSteps_eq
  by_cases hij : i = j
  · subst hij
    cases hi.symm.trans hj
    exact Or.inl ⟨rfl, by rw [Files.isTo, hsteps]; exact beq_self_eq_true _⟩
  · have hne : name ≠ other := by
      rintro rfl
      exact hij (List.getElem?_inj (List.getElem?_eq_some_iff.mp hi).1 hnodup |>.mp (hi.trans hj.symm))
    refine Or.inr ?_
    rw [Files.isBeside, hsteps]
    exact bne_iff_ne.mpr hne

/-- Whatever happens on the floor is done with devices that leave the transcripts of others alone. -/
def Occurrence.LeavesOthers (names : List String) (o : Occurrence) : Prop :=
  ∀ d ∈ o.devices, d.ChangesOnly (Leaves names o.party)

theorem Occurrence.leavesOthers_of_devices {o : Occurrence} (ho : o.devices = []) (names : List String) :
    o.LeavesOthers names := fun d hd => by
  rw [ho] at hd
  cases hd

namespace Floor

/-- Every transcript has the size that its own device has given it. -/
def FilesApart (f : Floor) : Prop := ∀ b ∈ f.booths, f.history.size? b.target.logFile b.now =
  (Files.History.mk f.files f.here b.changes).size? b.target.logFile b.now

/-- The transcripts have these names in the directory of the floor, and no device changes one that is not its own. -/
structure NamesApart (names : List String) (f : Floor) : Prop where
  directory : f.files.node? f.here = some .directory
  plain : ∀ name ∈ names, Files.IsName name
  booths : ∀ (i : Nat) (b : Booth), f.booths[i]? = some b → names[i]? = some b.target.logFile ∧
    b.line.terminal.ChangesOnly (Leaves names (some i))
  sessions : f.store.ChangesOnly (Leaves names none)

variable {f : Floor} {names : List String} {o : Occurrence}

theorem NamesApart.step (h : f.NamesApart names) (ho : o.LeavesOthers names) : (f.step o).NamesApart names := by
  obtain ⟨-, hfiles, hhere⟩ := f.setting_step o
  refine ⟨by rw [hfiles, hhere]; exact h.directory, h.plain, fun i b hb => ?_, ?_⟩
  · by_cases hparty : o.party = some i
    · cases o with
      | turn t => cases hparty
      | act j supply =>
        cases hparty
        obtain ⟨c, hc⟩ : ∃ c, f.booths[i]? = some c := by
          cases hc : f.booths[i]? with
          | some c => exact ⟨c, rfl⟩
          | none =>
            have hsame : (f.act i supply).booths[i]? = some b := hb
            rw [act_of_none hc, hc] at hsame
            cases hsame
        obtain ⟨hname, hchanges⟩ := h.booths i c hc
        have hact : b = (c.act f.plan f.history (f.host supply)).1 :=
          Option.some.inj (hb.symm.trans (booth_act hc supply))
        have hserves := Booth.Serves.act ⟨rfl, hchanges⟩ f.plan f.history (h := f.host supply) ho
        rw [hact, hserves.target]
        exact ⟨hname, hserves.changes⟩
    · rw [f.booth_step hparty] at hb
      exact h.booths i b hb
  · cases o with
    | turn t => exact Store.Terminals.turn (lasting_changesOnly _) h.sessions ho
    | act i supply =>
      rw [f.store_step (o := .act i supply) nofun]
      exact h.sessions

theorem NamesApart.after (h : f.NamesApart names) {occurrences : List Occurrence}
    (hall : ∀ o ∈ occurrences, o.LeavesOthers names) : (f.after occurrences).NamesApart names := by
  induction occurrences generalizing f with
  | nil => exact h
  | cons o occurrences ih =>
    obtain ⟨ho, hrest⟩ := List.forall_mem_cons.mp hall
    exact ih (h.step ho) hrest

/-- Only one of the lists that are put together has something to pick. -/
theorem filter_flatMap_eq {α β : Type} {f : α → List β} {p : β → Bool} {a : α} : ∀ {l : List α} {i : Nat}, l[i]? = some a →
    (∀ (j : Nat) (b : α), l[j]? = some b → j ≠ i → (f b).filter p = []) → (l.flatMap f).filter p = (f a).filter p
  | x :: l, 0, ha, hothers => by
    cases ha
    have hrest : (l.flatMap f).filter p = [] := by
      rw [List.filter_flatMap, List.flatMap_eq_nil_iff]
      intro b hb
      obtain ⟨j, hj⟩ := List.getElem?_of_mem hb
      exact hothers (j + 1) b hj (Nat.succ_ne_zero j)
    rw [List.flatMap_cons, List.filter_append, hrest, List.append_nil]
  | x :: l, i + 1, ha, hothers => by
    have hfirst := hothers 0 x rfl (Nat.succ_ne_zero i).symm
    rw [List.flatMap_cons, List.filter_append, hfirst, List.nil_append]
    exact filter_flatMap_eq ha fun j b hb hne => hothers (j + 1) b hb fun heq => hne (Nat.succ.inj heq)

theorem NamesApart.filesApart (h : f.NamesApart names) : f.FilesApart := by
  intro b hb
  obtain ⟨i, hi⟩ := List.getElem?_of_mem hb
  obtain ⟨hname, hown⟩ := h.booths i b hi
  have hothers (j : Nat) (c : Booth) (hc : f.booths[j]? = some c) (hne : j ≠ i) :
      ∀ x ∈ c.changes, Files.isBeside b.target.logFile x.path = true := fun x hx =>
    ((h.booths j c hc).2.allChanges x hx i _ hname).resolve_left fun hmine => hne (Option.some.inj hmine.1)
  have hsessions : ∀ x ∈ f.store.entries.flatMap fun e => e.terminal.allChanges,
      Files.isBeside b.target.logFile x.path = true := fun x hx => by
    obtain ⟨e, he, hx⟩ := List.mem_flatMap.mp hx
    exact ((h.sessions e he).allChanges x hx i _ hname).resolve_left nofun
  have hmine : ∀ x ∈ b.changes, Files.isTo b.target.logFile x.path = true ∨ Files.isBeside b.target.logFile x.path = true :=
    fun x hx => (hown.allChanges x hx i _ hname).imp_left And.right
  have hnone {l : List Change} (hl : ∀ x ∈ l, Files.isBeside b.target.logFile x.path = true) :
      (l.filter fun x => Files.isTo b.target.logFile x.path) = [] :=
    List.filter_eq_nil_iff.mpr fun x hx => by rw [Files.isTo_of_isBeside (hl x hx)]; exact Bool.false_ne_true
  refine Files.History.size?_congr f.history ⟨f.files, f.here, b.changes⟩ (h.plain _ (List.mem_of_getElem? hname)) h.directory
    rfl rfl (fun x hx => ?_) hmine ?_ _
  · rcases List.mem_append.mp hx with hx | hx
    · obtain ⟨c, hc, hx⟩ := List.mem_flatMap.mp hx
      obtain ⟨j, hj⟩ := List.getElem?_of_mem hc
      by_cases hji : j = i
      · subst hji
        cases hj.symm.trans hi
        exact hmine x hx
      · exact Or.inr (hothers j c hj hji x hx)
    · exact Or.inr (hsessions x hx)
  · show ((f.booths.flatMap Booth.changes ++ _).filter _) = _
    rw [List.filter_append, hnone hsessions, List.append_nil]
    exact filter_flatMap_eq hi fun j c hc hne => hnone (hothers j c hc hne)

/-- On a floor where recordings have transcripts of different names, and devices leave those of others alone, every
    transcript has at any time the size that its own device has given it. -/
theorem filesApart_of_names (settings : Settings) {files : Files.Tree} {here : Files.Place}
    (hdirectory : files.node? here = some .directory) (environment : Environment) (managers : List Manager)
    {recordings : List (Target × Time)} (hnames : ∀ r ∈ recordings, Files.IsName r.1.logFile) {occurrences : List Occurrence}
    (hall : ∀ o ∈ occurrences, o.LeavesOthers (recordings.map fun r => r.1.logFile)) :
    ∀ earlier, earlier <+: occurrences →
      ((opening settings files here environment managers recordings).after earlier).FilesApart := by
  intro earlier hearlier
  have hopening : (opening settings files here environment managers recordings).NamesApart
      (recordings.map fun r => r.1.logFile) := by
    refine ⟨hdirectory, fun name hname => ?_, fun i b hb => ?_, fun e he => (List.not_mem_nil he).elim⟩
    · obtain ⟨r, hr, rfl⟩ := List.mem_map.mp hname
      exact hnames r hr
    · have hb' : (recordings.map fun r => Booth.fresh r.1 r.2)[i]? = some b := hb
      rw [List.getElem?_map] at hb'
      obtain ⟨r, hr, rfl⟩ := Option.map_eq_some_iff.mp hb'
      rw [List.getElem?_map, hr]
      exact ⟨rfl, Terminal.changesOnly_default⟩
  have hearly : ∀ o ∈ earlier, o.LeavesOthers (recordings.map fun r => r.1.logFile) := fun o ho =>
    hall o (hearlier.subset ho)
  exact (hopening.after hearly).filesApart

end Floor

end Recording

end Teletype
