import Teletype.Proofs.Identity.Printed
import Teletype.Proofs.Identity.Resolution
import Teletype.Proofs.Text.Quoting

/-! # Tables and commands agree

The same users and groups may be looked up in tables or by commands that print them. If every question has the same
answer, or none, from both, the same credential is found, or the same question has no answer, or the same ids are
refused. What the commands print is read as what the tables hold, as long as names have neither blanks nor colons. -/

namespace Teletype.Identity

/-! ### Databases that agree -/

/-- Two lookups agree: they have the same answer, or neither has one. -/
inductive Agree {α : Type} : Except Fault α → Except Fault α → Prop
  | answered (a : α) : Agree (.ok a) (.ok a)
  | unanswered (f g : Fault) (hf : f.refusesLookup = true) (hg : g.refusesLookup = true) : Agree (.error f) (.error g)

/-- Two databases agree about a user and the groups of that. -/
structure Database.Agrees (db db' : Database) (user : String) : Prop where
  uid : Agree (db.uid user) (db'.uid user)
  gid : Agree (db.gid user) (db'.gid user)
  groupNames : Agree (db.groupNames user) (db'.groupNames user)
  groupId : ∀ name ∈ db.knownGroups user, Agree (db.groupId name) (db'.groupId name)

/-- Two resolutions have the same outcome: the same credential, the same question without an answer, or the same ids
    that are refused. -/
inductive SameOutcome : Except Failure Credential → Except Failure Credential → Prop
  | found (credential : Credential) : SameOutcome (.ok credential) (.ok credential)
  | unanswered (step identity reason reason' : String) (cause cause' : Option Fault) :
      SameOutcome (.error (.query step identity reason cause)) (.error (.query step identity reason' cause'))
  | refused (user : String) (uid gid : Int) : SameOutcome (.error (.credential user uid gid)) (.error (.credential user uid gid))

/-- They ask the same questions, too. -/
structure Resolution.Alike (r r' : Resolution) : Prop where
  asked : r.asked = r'.asked
  outcome : SameOutcome r.result r'.result

section
variable {db db' : Database} {user : String}

theorem stopped_alike {f g : Fault} (hf : f.refusesLookup = true) (hg : g.refusesLookup = true) (asked : List Question)
    (q : Question) : (Resolution.stopped asked q f).Alike (.stopped asked q g) := by
  rw [Resolution.stopped, if_pos hf, Resolution.stopped, if_pos hg]
  exact ⟨rfl, .unanswered _ _ _ _ _ _⟩

/-- Groups that databases agree about are asked for alike, up to the same one without an id. -/
theorem groupIds_agree {names : List String} (h : ∀ name ∈ names, Agree (db.groupId name) (db'.groupId name)) :
    ∃ ids asked, (groupIds db names = (ids, asked, none) ∧ groupIds db' names = (ids, asked, none)) ∨
      ∃ name f g, f.refusesLookup = true ∧ g.refusesLookup = true ∧
        groupIds db names = (ids, asked, some (name, f)) ∧ groupIds db' names = (ids, asked, some (name, g)) := by
  induction names with
  | nil => exact ⟨[], [], Or.inl ⟨rfl, rfl⟩⟩
  | cons name names ih =>
    obtain ⟨ids, asked, hrest⟩ := ih fun x hx => h x (List.mem_cons_of_mem name hx)
    have hname := h name List.mem_cons_self
    rw [groupIds, groupIds]
    generalize db.groupId name = a, db'.groupId name = a' at hname
    cases hname with
    | unanswered f g hf hg => exact ⟨[], _, Or.inr ⟨name, f, g, hf, hg, rfl, rfl⟩⟩
    | answered id =>
      rcases hrest with ⟨hids, hids'⟩ | ⟨x, f, g, hf, hg, hids, hids'⟩
      · exact ⟨id :: ids, (.group, name) :: asked, Or.inl ⟨by dsimp only; rw [hids], by dsimp only; rw [hids']⟩⟩
      · exact ⟨id :: ids, (.group, name) :: asked, Or.inr ⟨x, f, g, hf, hg, by dsimp only; rw [hids], by dsimp only; rw [hids']⟩⟩

/-- Databases that agree about a user are resolved alike. -/
theorem resolve_alike (h : db.Agrees db' user) : (resolve db user).Alike (resolve db' user) := by
  obtain ⟨huid, hgid, hnames, hgroups⟩ := h
  unfold Database.knownGroups at hgroups
  unfold resolve
  generalize db.uid user = uid, db'.uid user = uid' at huid
  cases huid with
  | unanswered f g hf hg => exact stopped_alike hf hg _ _
  | answered uid =>
    generalize db.gid user = gid, db'.gid user = gid' at hgid
    cases hgid with
    | unanswered f g hf hg => exact stopped_alike hf hg _ _
    | answered gid =>
      generalize db.groupNames user = names, db'.groupNames user = names' at hnames hgroups
      cases hnames with
      | unanswered f g hf hg => exact stopped_alike hf hg _ _
      | answered names =>
        have hgroups : ∀ name ∈ names, Agree (db.groupId name) (db'.groupId name) := hgroups
        obtain ⟨ids, asked, ⟨hids, hids'⟩ | ⟨name, f, g, hf, hg, hids, hids'⟩⟩ := groupIds_agree hgroups
        · dsimp only
          rw [hids, hids']
          dsimp only
          split
          · exact ⟨rfl, .found _⟩
          · exact ⟨rfl, .refused _ _ _⟩
        · dsimp only
          rw [hids, hids']
          exact stopped_alike hf hg _ _

end

/-! ### What tables hold -/

/-- A name that records can hold: a word without a colon. -/
structure IsName (name : String) : Prop where
  word : Text.IsWord name.toList
  plain : ':' ∉ name.toList

instance (name : String) : Decidable (IsName name) :=
  decidable_of_iff (Text.IsWord name.toList ∧ ':' ∉ name.toList) ⟨fun h => ⟨h.1, h.2⟩, fun h => ⟨h.word, h.plain⟩⟩

/-- Tables that records can hold: their names are such names, and no number is too long to be read. -/
structure Tables.Recordable (t : Tables) : Prop where
  user : ∀ row ∈ t.users, IsName row.name ∧ Number.IsReadable row.uid ∧ Number.IsReadable row.gid
  group : ∀ row ∈ t.groups, IsName row.name ∧ Number.IsReadable row.gid

/-- A lookup in a table finds something of this kind, or what is looked up is missing. -/
inductive Held {α : Type} (kind : α → Prop) : Except Fault α → Prop
  | found (a : α) (hkind : kind a) : Held kind (.ok a)
  | missing (key : String) : Held kind (.error (.missing key))

theorem Held.bind {α β : Type} {kind : α → Prop} {kind' : β → Prop} {answer : Except Fault α} {next : α → Except Fault β}
    (h : Held kind answer) (hnext : ∀ a, kind a → Held kind' (next a)) : Held kind' (answer >>= next) := by
  cases h with
  | found a hkind => exact hnext a hkind
  | missing key => exact .missing key

namespace Tables

theorem user_held (t : Tables) (name : String) : Held (fun row => row ∈ t.users ∧ row.name = name) (t.user name) := by
  unfold user
  split
  · next row hrow => exact .found row ⟨List.mem_of_find?_eq_some hrow, by simpa using List.find?_some hrow⟩
  · exact .missing _

theorem group_held (t : Tables) (name : String) : Held (fun row => row ∈ t.groups ∧ row.name = name) (t.group name) := by
  unfold group
  split
  · next row hrow => exact .found row ⟨List.mem_of_find?_eq_some hrow, by simpa using List.find?_some hrow⟩
  · exact .missing _

theorem groupOfId_held (t : Tables) (gid : Int) : Held (· ∈ t.groups) (t.groupOfId gid) := by
  unfold groupOfId
  split
  · next row hrow => exact .found row (List.mem_of_find?_eq_some hrow)
  · exact .missing _

theorem mem_foldl_addName {x : String} (listed : List String) {names : List String} (hx : x ∈ listed.foldl addName names) :
    x ∈ names ∨ x ∈ listed := by
  induction listed generalizing names with
  | nil => exact Or.inl hx
  | cons name listed ih =>
    rcases ih hx with hx | hx
    · unfold addName at hx
      split at hx
      · exact Or.inl hx
      · refine (List.mem_append.mp hx).imp_right fun hx => ?_
        rw [List.mem_singleton.mp hx]
        exact List.mem_cons_self
    · exact Or.inr (List.mem_cons_of_mem name hx)

/-- The groups of a user are groups that there are. -/
theorem groupNames_held (t : Tables) (name : String) :
    Held (fun names => ∀ x ∈ names, ∃ row ∈ t.groups, row.name = x) (t.groupNames name) := by
  unfold groupNames
  refine (t.user_held name).bind fun user _ => (t.groupOfId_held user.gid).bind fun primary hprimary => .found _ fun x hx => ?_
  rcases mem_foldl_addName _ hx with hx | hx
  · exact ⟨primary, hprimary, (List.mem_singleton.mp hx).symm⟩
  · obtain ⟨row, hrow, rfl⟩ := List.mem_map.mp hx
    exact ⟨row, (List.mem_filter.mp hrow).1, rfl⟩

end Tables

/-! ### What commands print -/

/-- A command tells an answer: it prints what shows that, or ends with a status other than zero if there is none. -/
inductive Tells {α : Type} (shows : α → List Char → Prop) (argv : List String) : Except Fault α → Except Fault String → Prop
  | printed (a : α) (output : String) (hshows : shows a output.toList) : Tells shows argv (.ok a) (.ok output)
  | failed (f : Fault) (status : Int) (hstatus : status ≠ 0) : Tells shows argv (.error f) (.error (.commandStatus status argv))

/-- The record of a group: the name, the password, the id, and then the members. -/
def groupRecord (row : GroupRow) (members : List Char) : List Char :=
  row.name.toList ++ ':' :: 'x' :: ':' :: (Number.numeral row.gid ++ ':' :: members)

/-- Commands print what tables hold about a user: the ids in decimal, the user and a colon with the names of the
    groups after it, and the records of groups. -/
structure Renders (c : Commands) (t : Tables) (user : String) : Prop where
  uid : Tells (fun row => Text.Padded (Number.numeral row.uid)) (c.argv .uid user) (t.user user) (c.run (c.argv .uid user))
  gid : Tells (fun row => Text.Padded (Number.numeral row.gid)) (c.argv .gid user) (t.user user) (c.run (c.argv .gid user))
  groupNames : Tells (fun names => Text.Spaced (user.toList :: [':'] :: names.map String.toList)) (c.argv .groups user)
    (t.groupNames user) (c.run (c.argv .groups user))
  group : ∀ listed ∈ t.groups, Tells (fun row cs => ∃ members, Text.Padded (groupRecord row members) cs)
    (c.argv .group listed.name) (t.group listed.name) (c.run (c.argv .group listed.name))

/-- What a command tells is what is read from it, if its output is read as what it shows. -/
theorem Tells.agree {α β : Type} {kind : α → Prop} {shows : α → List Char → Prop} {argv : List String}
    {answer : Except Fault α} {printed : Except Fault String} {part : α → β} {read : String → Except Fault β}
    (h : Tells shows argv answer printed) (hheld : Held kind answer)
    (hread : ∀ a output, kind a → shows a output.toList → read output = .ok (part a)) :
    Agree (answer.map part) (printed >>= read) := by
  cases h with
  | printed a output hshows =>
    cases hheld with
    | found _ hkind =>
      show Agree (.ok (part a)) (read output)
      rw [hread a output hkind hshows]
      exact .answered (part a)
  | failed f status hstatus =>
    cases hheld with
    | missing key => exact .unanswered _ _ rfl rfl

theorem readGroupNames_of_spaced {user : String} (huser : IsName user) {names : List String}
    (hnames : ∀ name ∈ names, IsName name) {output : String}
    (h : Text.Spaced (user.toList :: [':'] :: names.map String.toList) output.toList) :
    readGroupNames output user = .ok names := by
  have hwords : ∀ w ∈ names.map String.toList, Text.IsWord w :=
    List.forall_mem_map.mpr fun name hname => (hnames name hname).word
  exact readGroupNames_eq_ok_iff.mpr
    ⟨List.forall_mem_cons.mpr ⟨huser.word, List.forall_mem_cons.mpr ⟨isWord_colon, hwords⟩⟩, h⟩

theorem groupRecord_eq (row : GroupRow) (members : List Char) :
    groupRecord row members = recordText row.name.toList ['x'] (Number.numeral row.gid) members := rfl

/-- Tables and commands that print what these hold agree about a user. -/
theorem Renders.agrees {t : Tables} {c : Commands} {user : String} (h : Renders c t user) (ht : t.Recordable)
    (huser : IsName user) : t.database.Agrees c.database user where
  uid := h.uid.agree (t.user_held user) fun row _ hrow hshows => readId_of_padded (ht.user row hrow.1).2.1 hshows
  gid := h.gid.agree (t.user_held user) fun row _ hrow hshows => readId_of_padded (ht.user row hrow.1).2.2 hshows
  groupNames := by
    have hnames (names : List String) (hheld : ∀ x ∈ names, ∃ row ∈ t.groups, row.name = x) : ∀ x ∈ names, IsName x := by
      intro x hx
      obtain ⟨row, hrow, rfl⟩ := hheld x hx
      exact (ht.group row hrow).1
    have hagree : Agree ((t.groupNames user).map id) (c.database.groupNames user) :=
      h.groupNames.agree (t.groupNames_held user) fun names _ hheld hshows =>
        readGroupNames_of_spaced huser (hnames names hheld) hshows
    have hsame : (t.groupNames user).map id = t.groupNames user := by cases t.groupNames user <;> rfl
    rwa [hsame] at hagree
  groupId := by
    intro name hname
    have hlisted : ∃ listed ∈ t.groups, listed.name = name := by
      have hheld := t.groupNames_held user
      unfold Database.knownGroups at hname
      have hsame : t.database.groupNames user = t.groupNames user := rfl
      rw [hsame] at hname
      generalize t.groupNames user = answer at hheld hname
      cases hheld with
      | found names hnames => exact hnames name hname
      | missing key => cases hname
    obtain ⟨listed, hrow, rfl⟩ := hlisted
    refine (h.group listed hrow).agree (t.group_held listed.name) fun row output hrow hshows => ?_
    obtain ⟨members, hrecord⟩ := hshows
    obtain ⟨hname, hid⟩ := ht.group row hrow.1
    rw [groupRecord_eq] at hrecord
    exact readGroupRecord_of_padded hname.plain (by decide) hid (Text.padded_self _) hrecord

/-! ### Commands that print tables -/

/-- The letter of a command line that tells what it asks. -/
def mark : Lookup → Char
  | .uid => 'u'
  | .gid => 'g'
  | .groups => 'p'
  | .group => 'n'

theorem mark_eq (question : Lookup) (name : String) : (commandLine question name).toList[4]? = some (mark question) := by
  cases question <;> rw [commandLine, String.toList_append] <;> rfl

/-- A command line tells what is asked, and about whom. -/
theorem commandLine_injective {q q' : Lookup} {name name' : String} (h : commandLine q name = commandLine q' name') :
    q = q' ∧ name = name' := by
  have hmark := (mark_eq q name).symm.trans ((congrArg (fun s : String => s.toList[4]?) h).trans (mark_eq q' name'))
  have hsame : q = q' := by cases q <;> cases q' <;> first | rfl | cases hmark
  subst hsame
  refine ⟨rfl, Text.Word.quote_injective (String.toList_injective ?_)⟩
  have hlists := congrArg String.toList h
  unfold commandLine at hlists
  rw [String.toList_append, String.toList_append] at hlists
  exact List.append_cancel_left hlists

namespace Tables

/-- What a command prints about a name, if there is an answer. -/
def output? (t : Tables) (question : Lookup) (name : String) : Option String :=
  match question with
  | .uid => (t.user name).toOption.map fun row => String.ofList (Number.numeral row.uid ++ ['\n'])
  | .gid => (t.user name).toOption.map fun row => String.ofList (Number.numeral row.gid ++ ['\n'])
  | .groups => (t.groupNames name).toOption.map fun names =>
    String.ofList (name.toList ++ ' ' :: ':' :: ((names.map String.toList).flatMap (fun x => ' ' :: x) ++ ['\n']))
  | .group => (t.group name).toOption.map fun row =>
    String.ofList (groupRecord row (",".intercalate row.members).toList ++ ['\n'])

/-- All questions that there can be an answer to. -/
def questions (t : Tables) : List Question :=
  (t.users.map (·.name) ++ t.groups.map (·.name)).flatMap fun name =>
    [(.uid, name), (.gid, name), (.groups, name), (.group, name)]

/-- Commands that print what tables hold, and fail with a status of 1 where there is no answer. -/
def console (t : Tables) (argv : List String) : Except Fault String :=
  match (t.questions.find? fun q => commandLine q.1 q.2 == argv.getLastD "").bind fun q => t.output? q.1 q.2 with
  | some output => .ok output
  | none => .error (.commandStatus 1 argv)

/-- The commands of a shell that print what tables hold. -/
def commands (t : Tables) (shell : String) (arguments : List String) : Commands := ⟨shell, arguments, t.console⟩

variable {t : Tables} {q : Lookup} {name : String}

theorem mem_questions (h : (∃ row ∈ t.users, row.name = name) ∨ ∃ row ∈ t.groups, row.name = name) : (q, name) ∈ t.questions := by
  refine List.mem_flatMap.mpr ⟨name, ?_, ?_⟩
  · rw [List.mem_append, List.mem_map, List.mem_map]
    exact h
  · cases q <;> simp

/-- A question with an answer is one of those. -/
theorem mem_questions_of_output {output : String} (h : t.output? q name = some output) : (q, name) ∈ t.questions := by
  cases q with
  | uid | gid =>
    have hheld := t.user_held name
    unfold output? at h
    generalize t.user name = answer at hheld h
    cases hheld with
    | found row hrow => exact mem_questions (Or.inl ⟨row, hrow⟩)
    | missing key => cases h
  | groups =>
    have hheld := t.user_held name
    unfold output? groupNames at h
    generalize t.user name = answer at hheld h
    cases hheld with
    | found row hrow => exact mem_questions (Or.inl ⟨row, hrow⟩)
    | missing key => cases h
  | group =>
    have hheld := t.group_held name
    unfold output? at h
    generalize t.group name = answer at hheld h
    cases hheld with
    | found row hrow => exact mem_questions (Or.inr ⟨row, hrow⟩)
    | missing key => cases h

theorem run_commands (t : Tables) (shell : String) (arguments : List String) (q : Lookup) (name : String) :
    (t.commands shell arguments).run ((t.commands shell arguments).argv q name) = match t.output? q name with
      | some output => .ok output
      | none => .error (.commandStatus 1 ((t.commands shell arguments).argv q name)) := by
  have hline : ((t.commands shell arguments).argv q name).getLastD "" = commandLine q name := by
    rw [Commands.argv, List.getLastD_eq_getLast?, List.getLast?_append]
    rfl
  generalize (t.commands shell arguments).argv q name = argv at hline
  show t.console argv = _
  rw [console, hline]
  cases hfind : t.questions.find? fun x => commandLine x.1 x.2 == commandLine q name with
  | some x =>
    obtain ⟨q', name'⟩ := x
    obtain ⟨rfl, rfl⟩ := commandLine_injective (beq_iff_eq.mp (List.find?_some hfind :))
    rfl
  | none =>
    cases houtput : t.output? q name with
    | none => rfl
    | some output =>
      have hother := List.find?_eq_none.mp hfind (q, name) (mem_questions_of_output houtput)
      exact absurd (beq_self_eq_true _) hother

end Tables

theorem padded_line (text : List Char) : Text.Padded text (String.ofList (text ++ ['\n'])).toList :=
  ⟨[], ['\n'], Text.allBlank_nil, by decide, String.toList_ofList⟩

theorem tells_of_output {α : Type} {shows : α → List Char → Prop} {print : α → String} (argv : List String)
    (answer : Except Fault α) (hshows : ∀ a, shows a (print a).toList) :
    Tells shows argv answer (match answer.toOption.map print with
      | some output => .ok output
      | none => .error (.commandStatus 1 argv)) := by
  cases answer with
  | ok a => exact .printed a _ (hshows a)
  | error f => exact .failed f 1 (by decide)

/-- Such commands print what the tables hold about anyone. -/
theorem renders_commands (t : Tables) (shell : String) (arguments : List String) (user : String) :
    Renders (t.commands shell arguments) t user where
  uid := by
    rw [t.run_commands]
    exact tells_of_output _ _ fun row => padded_line _
  gid := by
    rw [t.run_commands]
    exact tells_of_output _ _ fun row => padded_line _
  groupNames := by
    rw [t.run_commands]
    refine tells_of_output _ _ fun names => ?_
    rw [String.toList_ofList]
    exact Text.spaced_line user.toList ([':'] :: names.map String.toList)
  group := by
    intro listed _
    rw [t.run_commands]
    exact tells_of_output _ _ fun row => ⟨_, padded_line _⟩

/-! ### Resolutions -/

/-- Whoever is looked up in tables or by commands that print what they hold: the same credential is found, or the
    same question has no answer, or the same ids are refused. -/
theorem tables_and_commands_agree (t : Tables) (ht : t.Recordable) (c : Commands) (user : String) (huser : IsName user)
    (h : Renders c t user) : (resolve t.database user).Alike (resolve c.database user) :=
  resolve_alike (h.agrees ht huser)

theorem quoted_user_found_alike :
    let t : Tables := ⟨[⟨"o'neil", 1000, 100⟩], [⟨"users", 100, []⟩, ⟨"wheel", 10, ["root", "o'neil"]⟩]⟩
    let c := t.commands "sh" ["-c"]
    t.Recordable ∧ IsName "o'neil" ∧ Renders c t "o'neil" ∧
      (resolve t.database "o'neil").result = .ok ⟨1000, 100, [100, 10]⟩ ∧
      (resolve t.database "o'neil").Alike (resolve c.database "o'neil") := by
  intro t c
  have ht : t.Recordable := ⟨by decide, by decide⟩
  have huser : IsName "o'neil" := by decide
  have h : Renders c t "o'neil" := renders_commands t "sh" ["-c"] "o'neil"
  exact ⟨ht, huser, h, rfl, tables_and_commands_agree t ht c "o'neil" huser h⟩

end Teletype.Identity
