import Teletype.Proofs.Settings.Reading
import Teletype.Proofs.Text.Bytes
import Teletype.Settings.Load

/-! # Where settings come from

A setting that a variable gives is that of the variable, whatever the file holds in its place. Any other is
that of the file, or else the default. A variable counts if it is set to something in the environment once
this is completed by the nearest environment file, which gives only what was not there. -/

namespace Teletype.Settings

/-! ### The completed environment -/

/-- What the nearest environment file binds a name to. -/
def boundIn (files : Files.Tree) (here : Files.Place) (env : Environment) (name : String) : Option String :=
  match files.nearest? ".env" here with
  | none => none
  | some content => match fileText content with
    | .error _ => none
    | .ok text => (EnvFile.values env (EnvFile.read text)).findSome? fun (n, v) => if n = name then v else none

/-- Adding bindings to an environment gives a name that is not there the first value that it is bound to, and
    leaves any other as it is. -/
theorem addAll_get? (name : String) : ∀ {bindings : List (String × Option String)} {env E : Environment},
    EnvFile.addAll env bindings = (E, none) →
    E.get? name = (env.get? name).or (bindings.findSome? fun (n, v) => if n = name then v else none)
  | [], env, E, h => by
    cases h
    simp
  | (n, none) :: rest, env, E, h => by
    rw [@addAll_get? name rest _ _ h, List.findSome?_cons]
    simp
  | (n, some v) :: rest, env, E, h => by
    rw [EnvFile.addAll] at h
    split at h
    · next hbound =>
      rw [addAll_get? name h, List.findSome?_cons]
      by_cases hn : n = name
      · subst hn
        obtain ⟨w, hw⟩ := Option.isSome_iff_exists.mp hbound
        simp [hw]
      · simp [hn]
    · next hnew =>
      split at h
      · cases h
      · split at h
        · cases h
        · rw [addAll_get? name h, Data.Table.get?_put, List.findSome?_cons]
          by_cases hn : name = n
          · subst hn
            rw [Option.not_isSome_iff_eq_none.mp hnew]
            simp
          · simp [hn, Ne.symm hn]

theorem completeEnvironment_get? {files : Files.Tree} {here : Files.Place} {env E : Environment}
    (h : completeEnvironment files here env = (E, none)) (name : String) :
    E.get? name = (env.get? name).or (boundIn files here env name) := by
  unfold completeEnvironment at h
  unfold boundIn
  cases hfile : files.nearest? ".env" here with
  | none =>
    rw [hfile] at h
    cases h
    simp
  | some content =>
    rw [hfile] at h
    dsimp only at h ⊢
    cases htext : fileText content with
    | error f =>
      rw [htext] at h
      cases h
    | ok text =>
      rw [htext] at h
      exact addAll_get? name h

theorem setting?_of_empty {env : Environment} {name : String} (h : env.get? name = some "") : setting? env name = none := by
  simp [setting?, h]

/-! ### What variables give -/

/-- What the variables give for a field of the shell's settings. -/
def shellVariable (env : Environment) (field : String) : Option Data.Value :=
  if field = "shell" then (setting? env "PTYSHELL_SHELL").map .text
  else if field = "run_as_user" then (setting? env "PTYSHELL_RUN_AS_USER").map .text
  else if field = "identity_backend" then (setting? env "PTYSHELL_IDENTITY_BACKEND").map fun v =>
    .text (String.ofList (v.toList.map Char.toLower))
  else none

/-- What the variables give for a field of the settings of recordings. -/
def recorderVariable (env : Environment) (field : String) : Option Data.Value :=
  if field = "screen_buffer_size" then (setting? env "PTYSHELL_SCREEN_BUFFER_SIZE").bind fun v =>
    (Fault.integerOf v).toOption.map .int
  else if field = "session_logger" then (setting? env "PTYSHELL_SESSION_LOGGER").map .text
  else none

theorem foldlM_override (overrides : List (String × Data.Value)) : ∀ members : Data.Table Data.Value,
    overrides.foldlM (fun v (field, w) => override v field w) (.object members) =
      .ok (.object (members.putAll overrides)) := by
  induction overrides with
  | nil => exact fun _ => rfl
  | cons entry overrides ih => exact fun members => ih (members.put entry.1 entry.2)

/-- Values are written into a section one by one, and the rest of the data stays. -/
theorem overrideSection_ok {members : Data.Table Data.Value} {name : String} (h : IsSection members name)
    (overrides : List (String × Data.Value)) : ∃ changed, overrideSection members name overrides = .ok changed ∧
      sectionOf changed name = (sectionOf members name).putAll overrides ∧ IsSection changed name ∧
      ∀ other, other ≠ name → changed.get? other = members.get? other := by
  unfold overrideSection
  cases hempty : overrides.isEmpty with
  | true =>
    obtain rfl : overrides = [] := List.isEmpty_iff.mp hempty
    exact ⟨members, rfl, rfl, h, fun _ _ => rfl⟩
  | false =>
    have hsection : (members.get? name).getD (.object []) = .object (sectionOf members name) := by
      rcases h.get? with ⟨hget, hsection⟩ | hget
      · rw [hget, hsection]
        rfl
      · rw [hget]
        rfl
    rw [hsection, foldlM_override]
    refine ⟨members.put name (.object ((sectionOf members name).putAll overrides)), rfl, ?_, ?_, fun other hother => ?_⟩
    · rw [sectionOf, Data.Table.get?_put, if_pos rfl]
    · intro v hv
      rw [Data.Table.get?_put, if_pos rfl] at hv
      exact ⟨_, (Option.some.inj hv).symm⟩
    · rw [Data.Table.get?_put, if_neg hother]

/-- The size of the screen's buffer, if a variable gives one, is a number. -/
def SizeReads (env : Environment) : Prop :=
  ∀ v, setting? env "PTYSHELL_SCREEN_BUFFER_SIZE" = some v → ∃ n, Fault.integerOf v = .ok n

theorem get?_putAll_toList (t : Data.Table Data.Value) (name : String) (v? : Option Data.Value) (field : String) :
    (t.putAll (v?.map fun v => (name, v)).toList).get? field = (if field = name then v? else none).or (t.get? field) := by
  cases v? with
  | none => simp [Data.Table.putAll]
  | some v =>
    simp only [Option.map_some, Option.toList_some, Data.Table.putAll, List.foldl_cons, List.foldl_nil, Data.Table.get?_put]
    split <;> rfl

theorem putAll_append (t : Data.Table Data.Value) (first second : List (String × Data.Value)) :
    t.putAll (first ++ second) = (t.putAll first).putAll second := List.foldl_append

theorem shellOverrides_eq (env : Environment) :
    (shellOverrides env).map (fun (name, v) => (name, Data.Value.text v)) =
      ((shellVariable env "shell").map fun v => ("shell", v)).toList ++
      ((shellVariable env "run_as_user").map fun v => ("run_as_user", v)).toList ++
      ((shellVariable env "identity_backend").map fun v => ("identity_backend", v)).toList := by
  simp only [shellOverrides, shellVariable]
  cases setting? env "PTYSHELL_SHELL" <;> cases setting? env "PTYSHELL_RUN_AS_USER" <;>
    cases setting? env "PTYSHELL_IDENTITY_BACKEND" <;> rfl

/-- The shell's section, once it is overridden, holds what variables give, and else what it held. -/
theorem shellOverrides_get? (env : Environment) (members : Data.Table Data.Value) (field : String) :
    (members.putAll ((shellOverrides env).map fun (name, v) => (name, Data.Value.text v))).get? field =
      (shellVariable env field).or (members.get? field) := by
  rw [shellOverrides_eq, putAll_append, putAll_append, get?_putAll_toList, get?_putAll_toList, get?_putAll_toList]
  by_cases hshell : field = "shell"
  · simp [hshell]
  by_cases huser : field = "run_as_user"
  · simp [huser]
  by_cases hbackend : field = "identity_backend"
  · simp [hbackend]
  · simp [shellVariable, hshell, huser, hbackend]

/-- The section of recordings, likewise. -/
theorem recorderOverrides_get? {env : Environment} (h : SizeReads env) : ∃ overrides, recorderOverrides env = .ok overrides ∧
    ∀ (members : Data.Table Data.Value) (field : String),
      (members.putAll overrides).get? field = (recorderVariable env field).or (members.get? field) := by
  refine ⟨((recorderVariable env "screen_buffer_size").map fun v => ("screen_buffer_size", v)).toList ++
    ((recorderVariable env "session_logger").map fun v => ("session_logger", v)).toList, ?_, fun members field => ?_⟩
  · simp only [recorderOverrides, recorderVariable]
    cases hsize : setting? env "PTYSHELL_SCREEN_BUFFER_SIZE" with
    | none => cases setting? env "PTYSHELL_SESSION_LOGGER" <;> rfl
    | some v =>
      obtain ⟨n, hn⟩ := h v hsize
      cases setting? env "PTYSHELL_SESSION_LOGGER" <;> simp only [hn, Option.bind_some] <;> rfl
  · rw [putAll_append, get?_putAll_toList, get?_putAll_toList]
    by_cases hsize : field = "screen_buffer_size"
    · simp [hsize]
    by_cases hhelper : field = "session_logger"
    · simp [hhelper]
    · simp [recorderVariable, hsize, hhelper]

/-! ### Settings from sections -/

section
variable {env env' : Environment} {members members' shell recorder : Data.Table Data.Value} {s : Settings}

/-- The settings that the sections of the data give. -/
def ofSections (shell recorder : Data.Table Data.Value) : Except Failure Settings :=
  match Settings.mk <$> (ShellSettings.reader (.object shell)).within (.field "shell")
      <*> (RecorderSettings.reader (.object recorder)).within (.field "recorder") with
  | .valid s => .ok s
  | .invalid issues => .error (.settings issues)

theorem ofSections_congr {shell' recorder' : Data.Table Data.Value} (hshell : ∀ field, shell.get? field = shell'.get? field)
    (hrecorder : ∀ field, recorder.get? field = recorder'.get? field) :
    ofSections shell recorder = ofSections shell' recorder' := by
  unfold ofSections
  rw [ShellSettings.reader_congr hshell, RecorderSettings.reader_congr hrecorder]

theorem ofSections_eq_ok (h : ofSections shell recorder = .ok s) :
    ShellSettings.reader (.object shell) = .valid s.shell ∧ RecorderSettings.reader (.object recorder) = .valid s.recorder := by
  unfold ofSections at h
  split at h
  · next hvalid =>
    cases h
    simp only [Checked.seq_eq_valid, Checked.map_eq_valid, Checked.within_eq_valid] at hvalid
    obtain ⟨_, ⟨_, hshell, rfl⟩, _, hrecorder, rfl⟩ := hvalid
    exact ⟨hshell, hrecorder⟩
  · cases h

theorem reader_sections (hshell : IsSection members "shell") (hrecorder : IsSection members "recorder") :
    (match Settings.reader (.object members) with
      | .valid s => .ok s
      | .invalid issues => .error (.settings issues)) =
      ofSections (sectionOf members "shell") (sectionOf members "recorder") := by
  have hshells : optional members "shell" ShellSettings.reader {} = _ := optional_section hshell rfl
  have hrecorders : optional members "recorder" RecorderSettings.reader {} = _ := optional_section hrecorder rfl
  unfold Settings.reader record ofSections
  dsimp only
  rw [hshells, hrecorders]

/-- The settings are those of the sections of the file with the values of variables in them. -/
theorem ofData_eq (hshell : IsSection members "shell") (hrecorder : IsSection members "recorder") (hsize : SizeReads env) :
    ∃ shell recorder, ofData env (.object members) = ofSections shell recorder ∧
      (∀ field, shell.get? field = (shellVariable env field).or ((sectionOf members "shell").get? field)) ∧
      ∀ field, recorder.get? field = (recorderVariable env field).or ((sectionOf members "recorder").get? field) := by
  obtain ⟨first, hfirst, hfirstShell, hisShell, hfirstRest⟩ := overrideSection_ok hshell
    ((shellOverrides env).map fun (name, v) => (name, Data.Value.text v))
  obtain ⟨overrides, hoverrides, hput⟩ := recorderOverrides_get? hsize
  have hkept : first.get? "recorder" = members.get? "recorder" := hfirstRest "recorder" (by decide)
  have hisRecorder : IsSection first "recorder" := by
    unfold IsSection
    rw [hkept]
    exact hrecorder
  obtain ⟨last, hlast, hlastRecorder, hisLast, hlastRest⟩ := overrideSection_ok hisRecorder overrides
  have hstays : last.get? "shell" = first.get? "shell" := hlastRest "shell" (by decide)
  have hisLastShell : IsSection last "shell" := by
    unfold IsSection
    rw [hstays]
    exact hisShell
  have hshells : sectionOf last "shell" = sectionOf first "shell" := by rw [sectionOf, hstays, sectionOf]
  have hrecorders : sectionOf first "recorder" = sectionOf members "recorder" := by rw [sectionOf, hkept, sectionOf]
  have hoverridden : overridden env (.object members) = .ok (.object last) := by
    unfold overridden
    simp only [hfirst, hoverrides, hlast, bind, Except.bind, pure, Except.pure]
  refine ⟨sectionOf last "shell", sectionOf last "recorder", ?_, fun field => ?_, fun field => ?_⟩
  · unfold ofData
    rw [hoverridden]
    exact reader_sections hisLastShell hisLast
  · rw [hshells, hfirstShell]
    exact shellOverrides_get? env _ field
  · rw [hlastRecorder, hrecorders]
    exact hput _ field

end

/-! ### Layers -/

/-- Where settings are loaded from. -/
structure Source where
  files : Files.Tree := []
  here : Files.Place := []
  env : Environment := []
  path : Option String := none

/-- The settings that are loaded from a source, and the environment after that. -/
def Source.load (source : Source) : Except Failure Settings × Environment :=
  Settings.load source.files source.here source.env source.path

/-- The source completes its environment to this one, and has an object with these members in its file, whose
    sections are objects. -/
structure Source.Gives (source : Source) (env : Environment) (members : Data.Table Data.Value) : Prop where
  env : completeEnvironment source.files source.here source.env = (env, none)
  file : readFile source.files source.here source.path = .ok (.object members)
  shell : IsSection members "shell"
  recorder : IsSection members "recorder"

/-- A setting by its layers: what a variable means that is set to something, or else what the file holds, or else
    the default. -/
def ByLayers {α : Type} (written? : Option String) (means : String → α → Prop) (read : Reader α) (default : α)
    (member : Option Data.Value) (a : α) : Prop :=
  match written? with
  | some v => means v a
  | none => Held read default member a

/-- The variables that give settings. -/
def variableNames : List String := ["PTYSHELL_SHELL", "PTYSHELL_RUN_AS_USER", "PTYSHELL_IDENTITY_BACKEND",
  "PTYSHELL_SCREEN_BUFFER_SIZE", "PTYSHELL_SESSION_LOGGER"]

/-- The settings that variables may give, each by its layers. The name of a backend is taken in small letters, and
    a size is read as a number. -/
structure FromLayers (env : Environment) (members : Data.Table Data.Value) (s : Settings) : Prop where
  shell : ByLayers (setting? env "PTYSHELL_SHELL") (fun v a => a = v) .text "sh"
    ((sectionOf members "shell").get? "shell") s.shell.shell
  runAsUser : ByLayers (setting? env "PTYSHELL_RUN_AS_USER") (fun v a => a = v) .text "session-user"
    ((sectionOf members "shell").get? "run_as_user") s.shell.runAsUser
  backend : ByLayers (setting? env "PTYSHELL_IDENTITY_BACKEND")
    (fun v b => Backend.ofName? (String.ofList (v.toList.map Char.toLower)) = some b) Backend.reader .native
    ((sectionOf members "shell").get? "identity_backend") s.shell.backend
  screenBufferSize : ByLayers (setting? env "PTYSHELL_SCREEN_BUFFER_SIZE") (fun v n => Fault.integerOf v = .ok n) .whole
    30000 ((sectionOf members "recorder").get? "screen_buffer_size") s.recorder.screenBufferSize
  sessionLogger : ByLayers (setting? env "PTYSHELL_SESSION_LOGGER") (fun v a => a = v) .text "session-logger"
    ((sectionOf members "recorder").get? "session_logger") s.recorder.sessionLogger

/-- The settings with those that variables may give from others. -/
def withGiven (s given : Settings) : Settings where
  shell := { s.shell with
    shell := given.shell.shell, runAsUser := given.shell.runAsUser, backend := given.shell.backend }
  recorder := { s.recorder with
    screenBufferSize := given.recorder.screenBufferSize, sessionLogger := given.recorder.sessionLogger }

/-- Data that holds what other data holds, with the values that variables give written into it. -/
def Written (env : Environment) (members written : Data.Table Data.Value) : Prop :=
  (∀ field, (sectionOf written "shell").get? field =
    (shellVariable env field).or ((sectionOf members "shell").get? field)) ∧
  ∀ field, (sectionOf written "recorder").get? field =
    (recorderVariable env field).or ((sectionOf members "recorder").get? field)

/-- Data that is the same in all fields for which variables give nothing. -/
def SameBeside (env : Environment) (members others : Data.Table Data.Value) : Prop :=
  (∀ field, shellVariable env field = none →
    (sectionOf others "shell").get? field = (sectionOf members "shell").get? field) ∧
  ∀ field, recorderVariable env field = none →
    (sectionOf others "recorder").get? field = (sectionOf members "recorder").get? field

section
variable {source other : Source} {env env' : Environment} {members members' : Data.Table Data.Value} {s s' : Settings}

theorem Source.Gives.load_eq (h : source.Gives env members) : source.load = (ofData env (.object members), env) := by
  unfold Source.load Settings.load
  rw [h.env]
  dsimp only
  rw [h.file]

theorem ofData_of_unread {v : String} {f : Fault} (hshell : IsSection members "shell")
    (hset : setting? env "PTYSHELL_SCREEN_BUFFER_SIZE" = some v) (hread : Fault.integerOf v = .error f) :
    ofData env (.object members) = .error (.fault f) := by
  obtain ⟨first, hfirst, -⟩ := overrideSection_ok hshell ((shellOverrides env).map fun (name, v) => (name, Data.Value.text v))
  have hrecorder : recorderOverrides env = .error f := by
    simp only [recorderOverrides, hset, hread]
    rfl
  unfold ofData overridden
  simp only [hfirst, hrecorder, bind, Except.bind]

/-- A size that a variable gives is read before anything is checked. -/
theorem sizeReads_of_ok (hshell : IsSection members "shell") (h : ofData env (.object members) = .ok s) : SizeReads env := by
  intro v hset
  cases hread : Fault.integerOf v with
  | ok n => exact ⟨n, rfl⟩
  | error f =>
    rw [ofData_of_unread hshell hset hread] at h
    cases h

theorem sizeReads_of_unset (h : ∀ name ∈ variableNames, setting? env name = none) : SizeReads env := by
  intro v hset
  rw [h _ (by decide)] at hset
  cases hset

theorem shellVariable_of_unset (h : ∀ name ∈ variableNames, setting? env name = none) (field : String) :
    shellVariable env field = none := by
  unfold shellVariable
  rw [h _ (by decide), h _ (by decide), h _ (by decide)]
  simp

theorem recorderVariable_of_unset (h : ∀ name ∈ variableNames, setting? env name = none) (field : String) :
    recorderVariable env field = none := by
  unfold recorderVariable
  rw [h _ (by decide), h _ (by decide)]
  simp

/-- The settings depend only on what the sections hold once the values of variables are in them. -/
theorem Source.Gives.congr (h : source.Gives env members) (h' : other.Gives env' members') (hsize : SizeReads env)
    (hsize' : SizeReads env')
    (hshell : ∀ field, (shellVariable env' field).or ((sectionOf members' "shell").get? field) =
      (shellVariable env field).or ((sectionOf members "shell").get? field))
    (hrecorder : ∀ field, (recorderVariable env' field).or ((sectionOf members' "recorder").get? field) =
      (recorderVariable env field).or ((sectionOf members "recorder").get? field)) :
    other.load.1 = source.load.1 := by
  obtain ⟨shell, recorder, hdata, hshells, hrecorders⟩ := ofData_eq h.shell h.recorder hsize
  obtain ⟨shell', recorder', hdata', hshells', hrecorders'⟩ := ofData_eq h'.shell h'.recorder hsize'
  rw [h.load_eq, h'.load_eq, hdata, hdata']
  refine ofSections_congr (fun field => ?_) fun field => ?_
  · rw [hshells', hshells, hshell]
  · rw [hrecorders', hrecorders, hrecorder]

/-- The sections that settings were read from. -/
theorem Source.Gives.sections (h : source.Gives env members) (hload : source.load.1 = .ok s) :
    ∃ shell recorder : Data.Table Data.Value, ShellSettings.reader (.object shell) = .valid s.shell ∧
      RecorderSettings.reader (.object recorder) = .valid s.recorder ∧
      (∀ field, shell.get? field = (shellVariable env field).or ((sectionOf members "shell").get? field)) ∧
      ∀ field, recorder.get? field = (recorderVariable env field).or ((sectionOf members "recorder").get? field) := by
  rw [h.load_eq] at hload
  obtain ⟨shell, recorder, hdata, hshells, hrecorders⟩ := ofData_eq h.shell h.recorder (sizeReads_of_ok h.shell hload)
  obtain ⟨hshell, hrecorder⟩ := ofSections_eq_ok (hdata.symm.trans hload)
  exact ⟨shell, recorder, hshell, hrecorder, hshells, hrecorders⟩

/-- A field by its layers, when its member is what the variable gives, or else the file's. -/
theorem byLayers_of_held {α : Type} {written? : Option String} {means : String → α → Prop} {read : Reader α}
    {default a : α} {member merged given : Option Data.Value} (h : Held read default merged a)
    (hmerged : merged = given.or member) (hnone : written? = none → given = none)
    (hsome : ∀ v, written? = some v → ∃ w, given = some w ∧ (read w = .valid a → means v a)) :
    ByLayers written? means read default member a := by
  subst hmerged
  cases written? with
  | none =>
    rw [hnone rfl, Option.none_or] at h
    exact h
  | some v =>
    obtain ⟨w, hw, hmeans⟩ := hsome v rfl
    rw [hw] at h
    exact hmeans h

theorem text_layers {written? : Option String} {default a : String} {member merged : Option Data.Value}
    (h : Held .text default merged a) (hmerged : merged = (written?.map .text).or member) :
    ByLayers written? (fun v a => a = v) .text default member a := by
  refine byLayers_of_held h hmerged (fun hnone => by rw [hnone]; rfl) fun v hsome => ⟨.text v, by rw [hsome]; rfl, ?_⟩
  exact fun hread => (Checked.valid.inj hread).symm

theorem Source.Gives.fromLayers (h : source.Gives env members) (hload : source.load.1 = .ok s) :
    FromLayers env members s := by
  obtain ⟨shell, recorder, hshell, hrecorder, hshells, hrecorders⟩ := h.sections hload
  obtain ⟨hname, -, -, -, huser, -, hbackend⟩ := ShellSettings.held hshell
  obtain ⟨hsize, hhelper, -⟩ := RecorderSettings.held hrecorder
  have hreads : SizeReads env := sizeReads_of_ok h.shell (h.load_eq ▸ hload)
  refine ⟨text_layers hname (hshells _), text_layers huser (hshells _), ?_, ?_, text_layers hhelper (hrecorders _)⟩
  · refine byLayers_of_held hbackend (hshells _) (fun hnone => ?_) fun v hset => ?_
    · simp [shellVariable, hnone]
    · refine ⟨_, by simp only [shellVariable, hset]; rfl, fun hread => ?_⟩
      dsimp only [Backend.reader] at hread
      split at hread
      · next b hb =>
        cases hread
        exact hb
      · cases hread
  · refine byLayers_of_held hsize (hrecorders _) (fun hnone => ?_) fun v hset => ?_
    · simp [recorderVariable, hnone]
    · obtain ⟨n, hn⟩ := hreads v hset
      refine ⟨.int n, by simp [recorderVariable, hset, hn, Except.toOption], fun hread => ?_⟩
      cases hread
      exact hn

/-- Whatever variables there are, the other settings that are loaded with the same file are the same. -/
theorem Source.Gives.withGiven_eq (h : source.Gives env members) (h' : other.Gives env' members)
    (hload : source.load.1 = .ok s) (hload' : other.load.1 = .ok s') : s'.withGiven s = s := by
  obtain ⟨shell, recorder, hshell, hrecorder, hshells, hrecorders⟩ := h.sections hload
  obtain ⟨shell', recorder', hshell', hrecorder', hshells', hrecorders'⟩ := h'.sections hload'
  have hshell_eq := ShellSettings.eq_of_agree hshell hshell' fun field hfield => by
    simp only [List.mem_cons, List.not_mem_nil, or_false, not_or] at hfield
    refine (hshells field).trans (Eq.trans ?_ (hshells' field).symm)
    simp [shellVariable, hfield]
  have hrecorder_eq := RecorderSettings.eq_of_agree hrecorder hrecorder' fun field hfield => by
    simp only [List.mem_cons, List.not_mem_nil, or_false, not_or] at hfield
    refine (hrecorders field).trans (Eq.trans ?_ (hrecorders' field).symm)
    simp [recorderVariable, hfield]
  unfold withGiven
  rw [hshell_eq, hrecorder_eq]

end

/-- Five settings are those of their variables where these are set to something in the completed environment,
    and else those of the file or the default. The completed environment has what was there, be it empty, and
    else what the environment file binds. The other settings depend on the file alone: loading with variables
    is loading, without any, a file that holds their values, whatever the file held in their places. A size
    that is no number fails before anything is checked. -/
theorem load_by_layers {source : Source} {env : Environment} {members : Data.Table Data.Value}
    (h : source.Gives env members) :
    (source.load.2 = env ∧
      (∀ name, env.get? name = (source.env.get? name).or (boundIn source.files source.here source.env name)) ∧
      ∀ name, source.env.get? name = some "" → setting? env name = none) ∧
    (∀ s, source.load.1 = .ok s → FromLayers env members s) ∧
    (∀ (other : Source) (env' : Environment) (s s' : Settings), other.Gives env' members →
      source.load.1 = .ok s → other.load.1 = .ok s' → s'.withGiven s = s) ∧
    (SizeReads env →
      (∀ (other : Source) (env' : Environment) (written : Data.Table Data.Value), other.Gives env' written →
        (∀ name ∈ variableNames, setting? env' name = none) → Written env members written →
        other.load.1 = source.load.1) ∧
      ∀ (other : Source) (others : Data.Table Data.Value), other.Gives env others → SameBeside env members others →
        other.load.1 = source.load.1) ∧
    ∀ v f, setting? env "PTYSHELL_SCREEN_BUFFER_SIZE" = some v → Fault.integerOf v = .error f →
      source.load.1 = .error (.fault f) := by
  have hlayered := completeEnvironment_get? h.env
  refine ⟨⟨congrArg (·.2) h.load_eq, hlayered, fun name hempty => ?_⟩, fun s hload => h.fromLayers hload,
    fun other env' s s' h' hload hload' => h.withGiven_eq h' hload hload', fun hsize => ⟨?_, ?_⟩, fun v f hset hread => ?_⟩
  · refine setting?_of_empty ?_
    rw [hlayered, hempty, Option.some_or]
  · intro other env' written h' hunset hwritten
    refine h.congr h' hsize (sizeReads_of_unset hunset) (fun field => ?_) fun field => ?_
    · rw [shellVariable_of_unset hunset, Option.none_or, hwritten.1]
    · rw [recorderVariable_of_unset hunset, Option.none_or, hwritten.2]
  · intro other others h' hsame
    refine h.congr h' hsize hsize (fun field => ?_) fun field => ?_
    · cases hgiven : shellVariable env field with
      | none => rw [hsame.1 field hgiven]
      | some v => rfl
    · cases hgiven : recorderVariable env field with
      | none => rw [hsame.2 field hgiven]
      | some v => rfl
  · rw [h.load_eq]
    exact ofData_of_unread h.shell hset hread

theorem fileText_utf8 {s : String} (h : s.toList.all (fun c => decide (Text.isAscii c)) = true) :
    fileText (Text.utf8 s) = .ok (Text.plainLines s.toList) := by
  have hascii : ∀ c ∈ s.toList, Text.isAscii c := fun c hc => of_decide_eq_true (List.all_eq_true.mp h c hc)
  rw [fileText, Text.decode_utf8 hascii]

def shieldedSource : Source where
  files := [([".env"], .file (Text.utf8 "PTYSHELL_SHELL=zsh\nPTYSHELL_RUN_AS_USER=alice\n")),
    (["s.json"], .file (Text.utf8 "\x7b\"shell\": \x7b\"shell\": \"bash\", \"run_as_user\": 7\x7d\x7d"))]
  env := [("PTYSHELL_SHELL", "")]
  path := some "s.json"

theorem shielded_environment : completeEnvironment shieldedSource.files shieldedSource.here shieldedSource.env =
    ([("PTYSHELL_SHELL", ""), ("PTYSHELL_RUN_AS_USER", "alice")], none) := by
  have hfile : shieldedSource.files.nearest? ".env" shieldedSource.here =
      some (Text.utf8 "PTYSHELL_SHELL=zsh\nPTYSHELL_RUN_AS_USER=alice\n") := rfl
  have hvalues : EnvFile.values [("PTYSHELL_SHELL", "")]
      (EnvFile.read (Text.plainLines "PTYSHELL_SHELL=zsh\nPTYSHELL_RUN_AS_USER=alice\n".toList)) =
      [("PTYSHELL_SHELL", some "zsh"), ("PTYSHELL_RUN_AS_USER", some "alice")] := by decide +kernel
  rw [completeEnvironment, hfile]
  dsimp only
  rw [fileText_utf8 (by decide)]
  show EnvFile.addAll _ (EnvFile.values [("PTYSHELL_SHELL", "")] _) = _
  rw [hvalues]
  simp [EnvFile.addAll, shieldedSource, Data.Table.get?, Data.Table.put, String.contains_char_eq]

/-- The names and values of a section with a text and a number in it, as a file gives them. -/
def section? : Except Data.Json.Flaw Data.Value → Option (String × String × String × String × Int)
  | .ok (.object [(part, .object [(first, .text text), (second, .int number)])]) => some (part, first, text, second, number)
  | _ => none

theorem shielded_file : readFile shieldedSource.files shieldedSource.here shieldedSource.path =
    .ok (.object [("shell", .object [("shell", .text "bash"), ("run_as_user", .int 7)])]) := by
  have hread : section? (Data.Json.read (Text.plainLines
      "\x7b\"shell\": \x7b\"shell\": \"bash\", \"run_as_user\": 7\x7d\x7d".toList)) =
      some ("shell", "shell", "bash", "run_as_user", 7) := by decide +kernel
  have hplace : shieldedSource.files.place? shieldedSource.here "s.json" = some ["s.json"] := by decide +kernel
  rw [readFile, show shieldedSource.path.getD "" = "s.json" from rfl, Files.Tree.find?, hplace]
  show (fileText (Text.utf8 _)).bind _ = _
  rw [fileText_utf8 (by decide)]
  unfold section? at hread
  split at hread
  · next hvalue =>
    cases hread
    simp only [Except.bind, hvalue]
  · cases hread

/-- A variable that is there and empty keeps the environment file's from counting, and the file names the shell;
    the user of the environment file counts before that of the file, which is no name. -/
theorem shielded_variable_falls_through :
    let env : Environment := [("PTYSHELL_SHELL", ""), ("PTYSHELL_RUN_AS_USER", "alice")]
    let members : Data.Table Data.Value := [("shell", .object [("shell", .text "bash"), ("run_as_user", .int 7)])]
    shieldedSource.Gives env members ∧
      ∃ s, shieldedSource.load.1 = .ok s ∧ s.shell.shell = "bash" ∧ s.shell.runAsUser = "alice" := by
  intro env members
  have hgives : shieldedSource.Gives env members := by
    refine ⟨shielded_environment, shielded_file, fun v hv => ?_, fun v hv => ?_⟩
    · cases hv
      exact ⟨_, rfl⟩
    · cases hv
  obtain ⟨s, hs⟩ : ∃ s, shieldedSource.load.1 = .ok s := by
    rw [hgives.load_eq]
    exact ⟨_, rfl⟩
  have hlayers := (load_by_layers hgives).2.1 s hs
  have hshell := hlayers.shell
  have huser := hlayers.runAsUser
  rw [show setting? env "PTYSHELL_SHELL" = none by decide] at hshell
  rw [show setting? env "PTYSHELL_RUN_AS_USER" = some "alice" by decide] at huser
  exact ⟨hgives, s, hs, (Checked.valid.inj hshell).symm, huser⟩

end Teletype.Settings
