import Teletype.Proofs.Settings.Additions
import Teletype.Proofs.Settings.Precedence

/-! # Data of the wrong shape

Data that does not fit is refused with all that is wrong with it, and so is a value that cannot be read. It does not come
to that if the data is no object and is asked for its members, or if a variable is to be written into a section that is no
object. -/

namespace Teletype

/-- The failure is about values: settings that do not fit, or a fault that counts as one of values. -/
def Failure.isOfValues : Failure → Bool
  | .settings _ => true
  | .fault f => f.family == .value
  | _ => false

namespace Settings

/-- What data amounts to that is asked for its members and has none. -/
def noMembers : Fault := ⟨.wrongAttribute, ""⟩

/-! ### Faults of values -/

theorem addAll_fault {env E : Environment} {bindings : List EnvFile.Binding} {f : Fault}
    (h : EnvFile.addAll env bindings = (E, some f)) : f.family = .value := by
  have hadds := EnvFile.addAll_adds bindings env
  rw [h] at hadds
  cases hadds with
  | stopped _ before after name v _ hbindings habsorbs hnew hflaw =>
    unfold EnvFile.flaw? at hflaw
    split at hflaw
    · cases hflaw
      rfl
    · split at hflaw
      · cases hflaw
        rfl
      · cases hflaw

theorem fileText_fault {content : Text.Bytes} {f : Fault} (h : fileText content = .error f) : f.family = .value := by
  unfold fileText at h
  split at h
  · cases h
  · cases h
    rfl

theorem completeEnvironment_fault {files : Files.Tree} {here : Files.Place} {env E : Environment} {f : Fault}
    (h : completeEnvironment files here env = (E, some f)) : f.family = .value := by
  unfold completeEnvironment at h
  split at h
  · cases h
  · split at h
    · next htext =>
      cases h
      exact fileText_fault htext
    · exact addAll_fault h

theorem integerOf_fault {s : String} {f : Fault} (h : Fault.integerOf s = .error f) : f.family = .value := by
  unfold Fault.integerOf at h
  split at h
  · cases h
  · cases h
    rfl

/-! ### Sections in the way -/

/-- The variables that give settings of the shell. -/
def shellVariableNames : List String := ["PTYSHELL_SHELL", "PTYSHELL_RUN_AS_USER", "PTYSHELL_IDENTITY_BACKEND"]

/-- The variables that give settings of recordings. -/
def recorderVariableNames : List String := ["PTYSHELL_SCREEN_BUFFER_SIZE", "PTYSHELL_SESSION_LOGGER"]

/-- One of these variables is to be written into a section that is there and is no object. -/
def Obstructed (env : Environment) (members : Data.Table Data.Value) (name : String) (given : List String) : Prop :=
  ¬IsSection members name ∧ ∃ v ∈ given, setting? env v ≠ none

/-- A section is in the way of its variables. Those of recordings are only written if the size among them can be read. -/
def Blocked (env : Environment) (members : Data.Table Data.Value) : Prop :=
  Obstructed env members "shell" shellVariableNames ∨
    SizeReads env ∧ Obstructed env members "recorder" recorderVariableNames

section
variable {env : Environment} {members changed : Data.Table Data.Value} {name : String}

theorem shellOverrides_ne_nil (env : Environment) :
    shellOverrides env ≠ [] ↔ ∃ v ∈ shellVariableNames, setting? env v ≠ none := by
  simp only [shellOverrides, shellVariableNames, ne_eq, List.append_eq_nil_iff, Option.toList_eq_nil_iff, Option.map_eq_none_iff,
    List.mem_cons, List.not_mem_nil, or_false, exists_eq_or_imp, exists_eq_left, Classical.not_and_iff_not_or_not, or_assoc]

/-- What variables give for recordings is known if the size is a number, and is something if a variable is set. -/
theorem recorderOverrides_cases (env : Environment) :
    ¬SizeReads env ∧ (∃ f, recorderOverrides env = .error f ∧ f.family = .value) ∨
    SizeReads env ∧ ∃ overrides, recorderOverrides env = .ok overrides ∧
      (overrides ≠ [] ↔ ∃ v ∈ recorderVariableNames, setting? env v ≠ none) := by
  have hhelper {size : List (String × Data.Value)} (hsize : size = [] ↔ setting? env "PTYSHELL_SCREEN_BUFFER_SIZE" = none) :
      size ++ ((setting? env "PTYSHELL_SESSION_LOGGER").map fun v => ("session_logger", Data.Value.text v)).toList ≠ [] ↔
        ∃ v ∈ recorderVariableNames, setting? env v ≠ none := by
    simp only [recorderVariableNames, ne_eq, List.append_eq_nil_iff, hsize, Option.toList_eq_nil_iff, Option.map_eq_none_iff,
      List.mem_cons, List.not_mem_nil, or_false, exists_eq_or_imp, exists_eq_left, Classical.not_and_iff_not_or_not]
  unfold recorderOverrides
  cases hset : setting? env "PTYSHELL_SCREEN_BUFFER_SIZE" with
  | none =>
    refine Or.inr ⟨fun v hv => ?_, _, rfl, hhelper (by simp [hset])⟩
    cases hset.symm.trans hv
  | some v =>
    cases hread : Fault.integerOf v with
    | error f =>
      refine Or.inl ⟨fun hreads => ?_, f, by simp only [hread]; rfl, integerOf_fault hread⟩
      obtain ⟨n, hn⟩ := hreads v hset
      cases hread.symm.trans hn
    | ok n =>
      refine Or.inr ⟨fun w hw => ?_, _, by simp only [hread]; rfl, hhelper (by simp [hset])⟩
      cases hset.symm.trans hw
      exact ⟨n, hread⟩

/-- Something is written into a section unless it is no object, and no section changes its shape by that. -/
theorem overrideSection_cases (members : Data.Table Data.Value) (name : String) (overrides : List (String × Data.Value)) :
    (¬IsSection members name ∧ overrides ≠ []) ∧ overrideSection members name overrides = .error wrongType ∨
    ¬(¬IsSection members name ∧ overrides ≠ []) ∧ ∃ changed, overrideSection members name overrides = .ok changed ∧
      ∀ other, IsSection changed other ↔ IsSection members other := by
  by_cases hsection : IsSection members name
  · obtain ⟨changed, hchanged, -, hsection', hrest⟩ := overrideSection_ok hsection overrides
    refine Or.inr ⟨fun h => h.1 hsection, changed, hchanged, fun other => ?_⟩
    by_cases hother : other = name
    · subst hother
      exact ⟨fun _ => hsection, fun _ => hsection'⟩
    · unfold IsSection
      rw [hrest other hother]
  · cases overrides with
    | nil => exact Or.inr ⟨fun h => h.2 rfl, members, rfl, fun _ => Iff.rfl⟩
    | cons entry overrides =>
      refine Or.inl ⟨⟨hsection, List.cons_ne_nil _ _⟩, ?_⟩
      obtain ⟨v, hv⟩ := Classical.not_forall.mp hsection
      obtain ⟨hv, hshape⟩ := Classical.not_imp.mp hv
      have hrefused : override v entry.1 entry.2 = .error wrongType := by
        unfold override
        split
        · exact absurd ⟨_, rfl⟩ hshape
        · rfl
      unfold overrideSection
      rw [hv]
      simp only [List.isEmpty_cons, Option.getD_some, List.foldlM_cons, hrefused]
      rfl

/-- The values of variables are written into an object unless a section is in their way or the size is no number. -/
theorem overridden_cases (env : Environment) (members : Data.Table Data.Value) :
    Blocked env members ∧ overridden env (.object members) = .error wrongType ∨
    ¬Blocked env members ∧ ((∃ f, overridden env (.object members) = .error f ∧ f.family = .value) ∨
      ∃ changed, overridden env (.object members) = .ok (.object changed) ∧
        ∀ name, IsSection changed name ↔ IsSection members name) := by
  obtain ⟨given, hgiven, hoverridden⟩ : ∃ given : List (String × Data.Value), (given ≠ [] ↔ shellOverrides env ≠ []) ∧
      overridden env (.object members) = (overrideSection members "shell" given).bind fun first =>
        (recorderOverrides env).bind fun overrides => (overrideSection first "recorder" overrides).bind fun last =>
          .ok (.object last) :=
    ⟨_, not_congr List.map_eq_nil_iff, rfl⟩
  have hshell : _ ↔ Obstructed env members "shell" shellVariableNames :=
    and_congr_right fun _ => hgiven.trans (shellOverrides_ne_nil env)
  rw [hoverridden]
  rcases overrideSection_cases members "shell" given with ⟨hobstructed, hrefused⟩ | ⟨hclear, first, hfirst, hshapes⟩
  · rw [hrefused]
    exact Or.inl ⟨Or.inl (hshell.mp hobstructed), rfl⟩
  · rw [hshell] at hclear
    rw [hfirst]
    rcases recorderOverrides_cases env with ⟨hsize, f, hoverrides, hf⟩ | ⟨hsize, overrides, hoverrides, hset⟩
    · rw [hoverrides]
      exact Or.inr ⟨not_or.mpr ⟨hclear, fun h => hsize h.1⟩, Or.inl ⟨f, rfl, hf⟩⟩
    · have hrecorder : _ ↔ Obstructed env members "recorder" recorderVariableNames :=
        and_congr (not_congr (hshapes "recorder")) hset
      rw [hoverrides]
      dsimp only [Except.bind]
      rcases overrideSection_cases first "recorder" overrides with ⟨hobstructed, hrefused⟩ | ⟨hclear', last, hlast, hshapes'⟩
      · rw [hrefused]
        exact Or.inl ⟨Or.inr ⟨hsize, hrecorder.mp hobstructed⟩, rfl⟩
      · rw [hrecorder] at hclear'
        rw [hlast]
        exact Or.inr ⟨not_or.mpr ⟨hclear, fun h => hclear' h.2⟩, Or.inr ⟨last, rfl, fun name => (hshapes' name).trans (hshapes name)⟩⟩

theorem record_eq_valid {α : Type} {model : String} {read : List (String × Data.Value) → Checked α} {v : Data.Value} {a : α}
    (h : record model read v = .valid a) : ∃ members, v = .object members := by
  unfold record at h
  split at h
  · exact ⟨_, rfl⟩
  · cases h

/-- Settings are read only from sections that are objects. -/
theorem reader_eq_valid {s : Settings} (h : Settings.reader (.object members) = .valid s) :
    IsSection members "shell" ∧ IsSection members "recorder" := by
  simp only [Settings.reader, record, Checked.seq_eq_valid, Checked.map_eq_valid, optional_eq_valid] at h
  obtain ⟨_, ⟨_, hshell, rfl⟩, _, hrecorder, rfl⟩ := h
  constructor
  · intro v hv
    rw [Data.Table.get?] at hv
    rw [hv] at hshell
    exact record_eq_valid hshell
  · intro v hv
    rw [Data.Table.get?] at hv
    rw [hv] at hrecorder
    exact record_eq_valid hrecorder

end

/-! ### How data is taken -/

/-- How settings come of the data of a file: the data is no object; a section of it is in the way of a variable; the size
    that a variable gives is no number; the data does not fit; or there are settings. -/
inductive Takes (env : Environment) : Data.Value → Except Failure Settings → Prop
  | shapeless {file : Data.Value} (hfile : ∀ members, file ≠ .object members) : Takes env file (.error (.fault noMembers))
  | blocked {members : Data.Table Data.Value} (hblocked : Blocked env members) :
      Takes env (.object members) (.error (.fault wrongType))
  | unread {members : Data.Table Data.Value} {f : Fault} (hclear : ¬Blocked env members) (hf : f.family = .value) :
      Takes env (.object members) (.error (.fault f))
  | refused {members : Data.Table Data.Value} (hclear : ¬Blocked env members) (issues : List Issue) :
      Takes env (.object members) (.error (.settings issues))
  | read {members : Data.Table Data.Value} (hclear : ¬Blocked env members) (hshell : IsSection members "shell")
      (hrecorder : IsSection members "recorder") (s : Settings) : Takes env (.object members) (.ok s)

theorem ofData_takes (env : Environment) (file : Data.Value) : Takes env file (ofData env file) := by
  unfold ofData
  by_cases hfile : ∃ members, file = .object members
  · obtain ⟨members, rfl⟩ := hfile
    rcases overridden_cases env members with ⟨hblocked, hrefused⟩ | ⟨hclear, ⟨f, hunread, hf⟩ | ⟨changed, hchanged, hshapes⟩⟩
    · rw [hrefused]
      exact .blocked hblocked
    · rw [hunread]
      exact .unread hclear hf
    · rw [hchanged]
      dsimp only
      cases hread : Settings.reader (.object changed) with
      | invalid issues => exact .refused hclear issues
      | valid s =>
        obtain ⟨hshell, hrecorder⟩ := reader_eq_valid hread
        exact .read hclear ((hshapes _).mp hshell) ((hshapes _).mp hrecorder) s
  · have hshapeless : overridden env file = .error noMembers := by
      unfold overridden
      split
      · exact absurd ⟨_, rfl⟩ hfile
      · rfl
    rw [hshapeless]
    exact .shapeless (not_exists.mp hfile)

theorem load_of_readFile {source : Source} {file : Data.Value} {env : Environment} {fault? : Option Fault}
    (hfile : readFile source.files source.here source.path = .ok file)
    (hcompleted : completeEnvironment source.files source.here source.env = (env, fault?)) :
    source.load.1 = fault?.elim (ofData env file) fun f => .error (.fault f) := by
  unfold Source.load load
  rw [hcompleted]
  cases fault? with
  | some f => rfl
  | none =>
    dsimp only
    rw [hfile]
    rfl

/-- Whatever the file holds, what fails other than by values is an attribute or a type that is wrong: the one exactly if
    the file holds no object, the other exactly if it holds one with a section in the way of a variable. Settings are only
    loaded from an object whose sections are objects. -/
theorem load_fails_at_wrong_shape {source : Source} {file : Data.Value}
    (hfile : readFile source.files source.here source.path = .ok file) :
    let completed := completeEnvironment source.files source.here source.env
    let result := source.load.1
    (result = .error (.fault noMembers) ↔ completed.2 = none ∧ ∀ members, file ≠ .object members) ∧
    (result = .error (.fault wrongType) ↔
      completed.2 = none ∧ ∃ members, file = .object members ∧ Blocked completed.1 members) ∧
    (∀ e, result = .error e → e = .fault noMembers ∨ e = .fault wrongType ∨ e.isOfValues = true) ∧
    (∀ s, result = .ok s → ∃ members, file = .object members ∧ IsSection members "shell" ∧ IsSection members "recorder") := by
  intro completed result
  rcases hcompleted : completeEnvironment source.files source.here source.env with ⟨env, fault?⟩
  have hresult : result = _ := load_of_readFile hfile hcompleted
  have hdone : completed = (env, fault?) := hcompleted
  have hvalue {f : Fault} (hf : f.family = .value) : f ≠ noMembers ∧ f ≠ wrongType ∧ (Failure.fault f).isOfValues = true := by
    refine ⟨?_, ?_, beq_iff_eq.mpr hf⟩
    · rintro rfl
      exact absurd hf (by decide)
    · rintro rfl
      exact absurd hf (by decide)
  rw [hdone, hresult]
  cases fault? with
  | some f =>
    obtain ⟨hmembers, htype, hvalues⟩ := hvalue (completeEnvironment_fault hcompleted)
    simp [hmembers, htype, hvalues]
  | none =>
    have htakes := ofData_takes env file
    show (ofData env file = _ ↔ _) ∧ (ofData env file = _ ↔ _) ∧ (∀ e, ofData env file = _ → _) ∧ ∀ s, ofData env file = _ → _
    generalize ofData env file = taken at htakes
    have hapart : noMembers ≠ wrongType := by decide
    cases htakes with
    | shapeless hshapeless =>
      refine ⟨by simpa using hshapeless, ?_, fun e he => ?_, fun s hs => by cases hs⟩
      · simp [hapart, hshapeless]
      · cases he
        exact Or.inl rfl
    | blocked hblocked =>
      refine ⟨by simp [hapart.symm], by simpa using hblocked, fun e he => ?_, fun s hs => by cases hs⟩
      cases he
      exact Or.inr (Or.inl rfl)
    | unread hclear hf =>
      obtain ⟨hmembers, htype, hvalues⟩ := hvalue hf
      refine ⟨by simp [hmembers], by simp [htype, hclear], fun e he => ?_, fun s hs => by cases hs⟩
      cases he
      exact Or.inr (Or.inr hvalues)
    | refused hclear issues =>
      refine ⟨by simp, by simp [hclear], fun e he => ?_, fun s hs => by cases hs⟩
      cases he
      exact Or.inr (Or.inr rfl)
    | read hclear hshell hrecorder s =>
      refine ⟨by simp, by simp [hclear], fun e he => ?_, fun s' _ => ⟨_, rfl, hshell, hrecorder⟩⟩
      cases he

/-- A source with a text as its only file, which is that of the settings. -/
def sourceOf (text : String) (env : Environment) : Source where
  files := [(["s.json"], .file (Text.utf8 text))]
  env := env
  path := some "s.json"

theorem readFile_sourceOf {text : String} {v : Data.Value} (hascii : text.toList.all (fun c => decide (Text.isAscii c)) = true)
    (hread : Data.Json.read (Text.plainLines text.toList) = .ok v) (env : Environment) :
    readFile (sourceOf text env).files (sourceOf text env).here (sourceOf text env).path = .ok v := by
  have hplace : (sourceOf text env).files.place? (sourceOf text env).here "s.json" = some ["s.json"] := by
    have hparts : Text.parts '/' "s.json" = ["s.json"] := by decide +kernel
    unfold Files.Tree.place?
    rw [hparts]
    show (if "s.json".isEmpty then none else Files.Tree.follow _ (if "s.json".startsWith "/" then [] else []) _) = _
    rw [if_neg (by decide), ite_self]
    rfl
  rw [readFile, show (sourceOf text env).path.getD "" = "s.json" from rfl, Files.Tree.find?, hplace]
  show (fileText (Text.utf8 text)).bind _ = _
  rw [fileText_utf8 hascii]
  simp only [Except.bind, hread]

/-- The name and the number of data that has one member, a number. -/
def numbered? : Except Data.Json.Flaw Data.Value → Option (String × Int)
  | .ok (.object [(name, .int n)]) => some (name, n)
  | _ => none

theorem list_and_number_are_no_settings :
    let list := sourceOf "[]" []
    let number := sourceOf "\x7b\"shell\": 3\x7d" [("PTYSHELL_SHELL", "bash")]
    (readFile list.files list.here list.path = .ok (.list []) ∧ list.load.1 = .error (.fault noMembers)) ∧
    readFile number.files number.here number.path = .ok (.object [("shell", .int 3)]) ∧
      number.load.1 = .error (.fault wrongType) := by
  intro list number
  have hlist : readFile list.files list.here list.path = .ok (.list []) := readFile_sourceOf (by decide) rfl _
  have hnumber : readFile number.files number.here number.path = .ok (.object [("shell", .int 3)]) := by
    refine readFile_sourceOf (by decide) ?_ _
    have hread : numbered? (Data.Json.read (Text.plainLines "\x7b\"shell\": 3\x7d".toList)) = some ("shell", 3) := by
      decide +kernel
    unfold numbered? at hread
    split at hread
    · next hvalue =>
      cases hread
      exact hvalue
    · cases hread
  have hblocked : Blocked number.env [("shell", .int 3)] := by
    refine Or.inl ⟨fun hsection => ?_, "PTYSHELL_SHELL", by decide, by decide⟩
    obtain ⟨members, hmembers⟩ := hsection (.int 3) rfl
    cases hmembers
  obtain ⟨hmembers, -⟩ := load_fails_at_wrong_shape hlist
  obtain ⟨-, htype, -⟩ := load_fails_at_wrong_shape hnumber
  exact ⟨⟨hlist, hmembers.mpr ⟨rfl, fun members h => by cases h⟩⟩, hnumber, htype.mpr ⟨rfl, _, rfl, hblocked⟩⟩

end Settings

end Teletype
