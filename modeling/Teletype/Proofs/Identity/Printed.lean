import Teletype.Identity.Command
import Teletype.Proofs.Number.Numerals
import Teletype.Proofs.Text.Splitting

/-! # What commands print is read as it was meant

A number is read with blanks around it. The names of a user's groups are read if the user and a colon are the first two
words, and then they are all the words that follow, whatever they look like. The id of a group is read between the
second colon and the third, whatever the other fields hold. Anything else is refused, so that no part of a header is
taken for a name, and no other field for the id. -/

namespace Teletype.Identity

open Text (IsWord HasWords Padded)

/-! ### Numbers -/

theorem readId_of_padded {id : Int} (hid : Number.IsReadable id) {output : String}
    (h : Padded (Number.numeral id) output.toList) : readId output = .ok id := by
  rw [readId, Text.trimmed, h.trim_eq (Number.isWord_numeral id), Fault.integerOf, String.toList_ofList,
    Number.readInteger_numeral hid]

/-! ### Names of groups -/

/-- The fault of an output that does not begin with the user and a colon. -/
def unexpectedGroups (output : String) : Fault :=
  ⟨.value, "unexpected groups output: " ++ Text.quoted (Text.trimmed output)⟩

theorem isWord_colon : IsWord [':'] := by decide

/-- The names are the words after the user and a colon. -/
theorem readGroupNames_of_header {output user : String} {names : List (List Char)}
    (h : Text.words output.toList = user.toList :: [':'] :: names) :
    readGroupNames output user = .ok (names.map String.ofList) := by
  rw [readGroupNames, h, List.map_cons, List.map_cons, String.ofList_toList]
  exact if_pos (beq_self_eq_true user)

/-- Where the first two words are not the user and a colon, nothing is read. -/
theorem readGroupNames_of_no_header {output user : String}
    (h : (Text.words output.toList).take 2 ≠ [user.toList, [':']]) :
    readGroupNames output user = .error (unexpectedGroups output) := by
  rw [readGroupNames]
  split
  · next first names hwords =>
    -- A colon comes second, so what is wrong with the header can only be the user.
    obtain ⟨w, ws, hws, rfl, hrest⟩ := List.map_eq_cons_iff.mp hwords
    obtain ⟨colon, ws', rfl, hcolon, -⟩ := List.map_eq_cons_iff.mp hrest
    have hcolon : colon = [':'] := String.ofList_injective hcolon
    refine if_neg fun hfirst => h ?_
    rw [hws, hcolon, ← eq_of_beq hfirst, String.toList_ofList]
    rfl
  · rfl

/-- Names are read from an output exactly if it shows them, after the user and a colon. -/
theorem readGroupNames_eq_ok_iff {output user : String} {names : List String} :
    readGroupNames output user = .ok names ↔ HasWords output.toList (user.toList :: [':'] :: names.map String.toList) := by
  rw [Text.hasWords_iff]
  constructor
  · intro h
    by_cases hheader : (Text.words output.toList).take 2 = [user.toList, [':']]
    · have hwords := (List.take_append_drop 2 (Text.words output.toList)).symm
      rw [hheader, List.cons_append, List.singleton_append] at hwords
      rw [readGroupNames_of_header hwords, Except.ok.injEq] at h
      rw [hwords, ← h, List.map_map, String.toList_comp_ofList, List.map_id]
    · rw [readGroupNames_of_no_header hheader] at h
      cases h
  · intro h
    rw [readGroupNames_of_header h, List.map_map, String.ofList_comp_toList, List.map_id]

/-! ### Records of groups -/

/-- The fault of a record without a third field. -/
def malformedRecord (record : String) : Fault :=
  ⟨.value, "malformed group record: " ++ Text.quoted (Text.trimmed record)⟩

/-- The record of a group: the name, the password, the id and the members. -/
def recordText (name password id members : List Char) : List Char :=
  name ++ ':' :: (password ++ ':' :: (id ++ ':' :: members))

theorem notBlank_colon : Text.isBlank ':' = false := rfl

/-- Trimming a record reaches into its first and its last field at most. -/
theorem trim_recordText (before name password id members after : List Char) :
    Text.trim (before ++ (recordText name password id members ++ after)) =
      recordText ((before ++ name).dropWhile Text.isBlank) password id (Text.trimEnd (members ++ after)) := by
  -- A colon is not blank, so trimming goes no further than the first from the left and the third from the right.
  have hfirst : before ++ (recordText name password id members ++ after) =
      (before ++ name) ++ ':' :: (password ++ ':' :: (id ++ ':' :: (members ++ after))) := by
    simp [recordText]
  rw [hfirst, Text.trim_append_cons notBlank_colon, Text.trimEnd_append_cons notBlank_colon,
    Text.trimEnd_append_cons notBlank_colon, recordText]

/-- The id is what stands between the second colon and the third. -/
theorem splitAt_recordText {name password id : List Char} (hname : ':' ∉ name) (hpassword : ':' ∉ password) (hid : ':' ∉ id)
    (members : List Char) :
    Text.splitAt ':' (recordText name password id members) = name :: password :: id :: Text.splitAt ':' members := by
  rw [recordText, Text.splitAt_append _ hname, Text.splitAt_append _ hpassword, Text.splitAt_append _ hid]

/-- The id of a record is read, whatever the record says apart from it. -/
theorem readGroupRecord_of_padded {name password id members : List Char} {n : Int} {record : String}
    (hname : ':' ∉ name) (hpassword : ':' ∉ password) (hn : Number.IsReadable n) (hid : Padded (Number.numeral n) id)
    (h : Padded (recordText name password id members) record.toList) : readGroupRecord record = .ok n := by
  obtain ⟨before, after, hbefore, -, hrecord⟩ := h
  have hfirst : ':' ∉ (before ++ name).dropWhile Text.isBlank := by
    intro hmem
    rcases List.mem_append.mp ((List.dropWhile_sublist _).subset hmem) with hmem | hmem
    · exact hbefore.notMem notBlank_colon hmem
    · exact hname hmem
  have hthird : ':' ∉ id := hid.notMem notBlank_colon (Number.colon_notMem_numeral n)
  rw [readGroupRecord, hrecord, trim_recordText, splitAt_recordText hfirst hpassword hthird]
  exact readId_of_padded hn (by rwa [String.toList_ofList])

/-- With fewer than two colons there is no third field. -/
theorem readGroupRecord_of_count {record : String} (h : (Text.trim record.toList).count ':' < 2) :
    readGroupRecord record = .error (malformedRecord record) := by
  have hlength := Text.length_splitAt ':' (Text.trim record.toList)
  rw [readGroupRecord]
  split
  · next first second id rest hfields =>
    rw [hfields, List.length_cons, List.length_cons, List.length_cons] at hlength
    omega
  · rfl

/-! ### What is read -/

/-- The groups that commands print are read as they were meant. Names are read exactly where the user, a colon and these
    names are the words of the output. Every output has its words, and if the first two are not the user and a colon it is
    refused; so it is for a user that is no word. The id of a record is read, with blanks around it and around the record,
    whatever the fields before and after it hold, and a record of fewer than three fields is refused. -/
theorem printed_groups_are_read_or_refused :
    (∀ (output user : String) (names : List String), readGroupNames output user = .ok names ↔
      HasWords output.toList (user.toList :: [':'] :: names.map String.toList)) ∧
    (∀ output : String, ∃ ws, HasWords output.toList ws) ∧
    (∀ (output user : String) (ws : List (List Char)), HasWords output.toList ws → ws.take 2 ≠ [user.toList, [':']] →
      readGroupNames output user = .error (unexpectedGroups output)) ∧
    (∀ output user : String, ¬IsWord user.toList → readGroupNames output user = .error (unexpectedGroups output)) ∧
    (∀ (name password id members : List Char) (n : Int) (record : String), ':' ∉ name → ':' ∉ password →
      Number.IsReadable n → Padded (Number.numeral n) id →
      Padded (recordText name password id members) record.toList → readGroupRecord record = .ok n) ∧
    ∀ record : String, (Text.trim record.toList).count ':' < 2 → readGroupRecord record = .error (malformedRecord record) := by
  refine ⟨fun output user names => readGroupNames_eq_ok_iff, fun output => ⟨_, Text.hasWords_words _⟩,
    fun output user ws hws hheader => ?_, fun output user huser => ?_,
    fun name password id members n record => readGroupRecord_of_padded, fun record => readGroupRecord_of_count⟩
  · refine readGroupNames_of_no_header ?_
    rwa [Text.hasWords_iff.mp hws]
  · refine readGroupNames_of_no_header fun hheader => huser ?_
    have hfirst : user.toList ∈ (Text.words output.toList).take 2 := by
      rw [hheader]
      exact List.mem_cons_self
    exact (Text.hasWords_words output.toList).word _ (List.mem_of_mem_take hfirst)

theorem odd_groups_are_read :
    readGroupNames "\t: : 1000 :\n" ":" = .ok ["1000", ":"] ∧
      readGroupNames "1000 :\n" ":" = .error (unexpectedGroups "1000 :\n") ∧
      readGroupNames "my user : users\n" "my user" = .error (unexpectedGroups "my user : users\n") ∧
      readGroupRecord "\n my wheel : :\t-42 :a:b " = .ok (-42) ∧
      readGroupRecord " wheel:42 " = .error (malformedRecord " wheel:42 ") := by
  obtain ⟨hnames, -, hheader, huser, hrecord, hshort⟩ := printed_groups_are_read_or_refused
  have hwords : HasWords "\t: : 1000 :\n".toList [[':'], [':'], "1000".toList, [':']] :=
    ⟨by decide, .cons_blank (by decide) (Text.spaced_line [':'] [[':'], "1000".toList, [':']])⟩
  have hother : HasWords "1000 :\n".toList ["1000".toList, [':']] :=
    ⟨by decide, Text.spaced_line "1000".toList [[':']]⟩
  have hid : Padded (Number.numeral (-42)) "\t-42 ".toList := ⟨['\t'], [' '], by decide, by decide, by decide⟩
  have hpadded : Padded (recordText " my wheel ".toList [' '] "\t-42 ".toList "a:b".toList) "\n my wheel : :\t-42 :a:b ".toList :=
    ⟨['\n'], [' '], by decide, by decide, by decide⟩
  exact ⟨(hnames _ _ _).mpr hwords, hheader _ _ _ hother (by decide), huser _ _ (by decide),
    hrecord _ _ _ _ _ _ (by decide) (by decide) (by decide) hid hpadded, hshort _ (by decide)⟩

end Teletype.Identity
