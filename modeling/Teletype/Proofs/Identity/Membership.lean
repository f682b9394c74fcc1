import Mathlib.Data.List.Induction
import Mathlib.Data.List.Nodup
import Teletype.Proofs.Identity.Resolution

/-! # The groups of a user in the tables

The tables give the primary group of a user and then every group that lists the user, each name once and in the order of
the rows. Where the groups have names of their own, each name leads back to its row, so the credential has the ids of just
these rows. -/

namespace Teletype.Identity

/-! ### Names in order -/

/-- The place of the first row that lists a user under a name. -/
def firstRow (rows : List GroupRow) (user name : String) : Nat :=
  rows.findIdx fun g => g.members.contains user && g.name == name

/-- These are the names of the rows that list a user, but for that of the primary group: each once, in the order of their
    first rows. -/
structure Lists (rows : List GroupRow) (user primary : String) (names : List String) : Prop where
  nodup : (primary :: names).Nodup
  mem : ∀ name, name ∈ names ↔ name ≠ primary ∧ ∃ g ∈ rows, user ∈ g.members ∧ g.name = name
  inOrder : names.Pairwise fun a b => firstRow rows user a < firstRow rows user b

section
variable {rows : List GroupRow} {g : GroupRow} {user primary name : String} {names : List String}

theorem isListed_iff : (g.members.contains user && g.name == name) = true ↔ user ∈ g.members ∧ g.name = name := by
  rw [Bool.and_eq_true, List.contains_iff_mem, beq_iff_eq]

/-- More rows do not move the first one. -/
theorem firstRow_append (h : ∃ g ∈ rows, user ∈ g.members ∧ g.name = name) (more : List GroupRow) :
    firstRow (rows ++ more) user name = firstRow rows user name ∧ firstRow rows user name < rows.length := by
  obtain ⟨g, hg, hlisted⟩ := h
  have hfirst : ∃ g ∈ rows, (g.members.contains user && g.name == name) = true := ⟨g, hg, isListed_iff.mpr hlisted⟩
  refine ⟨?_, List.findIdx_lt_length.mpr hfirst⟩
  unfold firstRow
  rw [List.findIdx_append, if_pos (List.findIdx_lt_length.mpr hfirst)]

/-- A row that lists a user under a name of which there is none before is the first. -/
theorem firstRow_last (h : ¬∃ g ∈ rows, user ∈ g.members ∧ g.name = name) (hlisted : user ∈ g.members) (hname : g.name = name) :
    firstRow (rows ++ [g]) user name = rows.length := by
  have hnone : ¬rows.findIdx (fun g => g.members.contains user && g.name == name) < rows.length := by
    rw [List.findIdx_lt_length]
    rintro ⟨g, hg, hlisted⟩
    exact h ⟨g, hg, isListed_iff.mp hlisted⟩
  have hhere : (g.members.contains user && g.name == name) = true := isListed_iff.mpr ⟨hlisted, hname⟩
  unfold firstRow
  rw [List.findIdx_append, if_neg hnone, List.findIdx_singleton, if_pos hhere, Nat.zero_add]

theorem lists_nil (user primary : String) : Lists [] user primary [] where
  nodup := List.nodup_singleton primary
  mem := by simp
  inOrder := .nil

/-- A row that adds no name leaves the names as they are. -/
theorem Lists.pass (h : Lists rows user primary names) (hknown : user ∈ g.members → g.name ∈ primary :: names) :
    Lists (rows ++ [g]) user primary names where
  nodup := h.nodup
  mem name := by
    rw [h.mem]
    refine and_congr_right fun hne => ⟨?_, ?_⟩
    · rintro ⟨r, hr, hlisted⟩
      exact ⟨r, List.mem_append_left _ hr, hlisted⟩
    · rintro ⟨r, hr, hlisted, rfl⟩
      rcases List.mem_append.mp hr with hr | hr
      · exact ⟨r, hr, hlisted, rfl⟩
      · obtain rfl := List.mem_singleton.mp hr
        exact ((h.mem r.name).mp ((List.mem_cons.mp (hknown hlisted)).resolve_left hne)).2
  inOrder := h.inOrder.imp_of_mem fun {a b} ha hb hlt => by
    rwa [(firstRow_append ((h.mem a).mp ha).2 [g]).1, (firstRow_append ((h.mem b).mp hb).2 [g]).1]

/-- A row with a new name adds it at the end. -/
theorem Lists.add (h : Lists rows user primary names) (hlisted : user ∈ g.members) (hnew : g.name ∉ primary :: names) :
    Lists (rows ++ [g]) user primary (names ++ [g.name]) where
  nodup := by
    rw [← List.cons_append, List.nodup_append]
    refine ⟨h.nodup, List.nodup_singleton _, fun a ha b hb hab => hnew ?_⟩
    rwa [← List.mem_singleton.mp hb, ← hab]
  mem name := by
    rw [List.mem_append, h.mem, List.mem_singleton]
    constructor
    · rintro (⟨hne, r, hr, hlisted, rfl⟩ | rfl)
      · exact ⟨hne, r, List.mem_append_left _ hr, hlisted, rfl⟩
      · exact ⟨fun heq => hnew (heq ▸ List.mem_cons_self), g, List.mem_append_right _ (List.mem_singleton_self g), hlisted, rfl⟩
    · rintro ⟨hne, r, hr, hlisted, rfl⟩
      rcases List.mem_append.mp hr with hr | hr
      · exact Or.inl ⟨hne, r, hr, hlisted, rfl⟩
      · exact Or.inr (congrArg GroupRow.name (List.mem_singleton.mp hr))
  inOrder := by
    have hnone : ¬∃ r ∈ rows, user ∈ r.members ∧ r.name = g.name := fun hold =>
      hnew (List.mem_cons_of_mem _ ((h.mem g.name).mpr ⟨fun heq => hnew (heq ▸ List.mem_cons_self), hold⟩))
    refine List.pairwise_append.mpr ⟨?_, List.pairwise_singleton _ _, fun a ha b hb => ?_⟩
    · exact h.inOrder.imp_of_mem fun {a b} ha hb hlt => by
        rwa [(firstRow_append ((h.mem a).mp ha).2 [g]).1, (firstRow_append ((h.mem b).mp hb).2 [g]).1]
    · obtain rfl := List.mem_singleton.mp hb
      obtain ⟨hsame, hlt⟩ := firstRow_append ((h.mem a).mp ha).2 [g]
      rwa [hsame, firstRow_last hnone hlisted rfl]

end

/-- Row by row the names of the groups that list a user are gathered behind that of the primary group. -/
theorem foldl_addName_lists (rows : List GroupRow) (user primary : String) : ∃ names,
    ((rows.filter fun g => g.members.contains user).map (·.name)).foldl Tables.addName [primary] = primary :: names ∧
      Lists rows user primary names := by
  -- The rows grow at the end, where the next name is added: what is first in them stays first.
  induction rows using List.reverseRecOn with
  | nil => exact ⟨[], rfl, lists_nil user primary⟩
  | append_singleton rows g ih =>
    obtain ⟨names, hnames, hlists⟩ := ih
    rw [List.filter_append, List.map_append, List.foldl_append, hnames]
    by_cases hlisted : user ∈ g.members
    · have hone : [g].filter (fun g => g.members.contains user) = [g] := by simp [hlisted]
      rw [hone]
      show ∃ names', Tables.addName (primary :: names) g.name = primary :: names' ∧ _
      unfold Tables.addName
      split
      · next hknown => exact ⟨names, rfl, hlists.pass fun _ => List.contains_iff_mem.mp hknown⟩
      · next hnew => exact ⟨names ++ [g.name], rfl, hlists.add hlisted fun h => hnew (List.contains_iff_mem.mpr h)⟩
    · have hnone : [g].filter (fun g => g.members.contains user) = [] := by simp [hlisted]
      rw [hnone]
      exact ⟨names, rfl, hlists.pass fun h => absurd h hlisted⟩

/-! ### Groups with names of their own -/

/-- The rows that make the groups of a user: that of the primary group, and then all others that list the user. -/
def Tables.rowsOf (t : Tables) (user : String) (primary : GroupRow) : List GroupRow :=
  primary :: t.groups.filter fun g => g.members.contains user && g != primary

section
variable {t : Tables} {user : String} {row : UserRow} {primary : GroupRow}

theorem mem_rowsOf (hprimary : primary ∈ t.groups) {g : GroupRow} :
    g ∈ t.rowsOf user primary ↔ g ∈ t.groups ∧ (g = primary ∨ user ∈ g.members) := by
  unfold Tables.rowsOf
  rw [List.mem_cons, List.mem_filter, Bool.and_eq_true, List.contains_iff_mem, bne_iff_ne]
  constructor
  · rintro (rfl | ⟨hg, hlisted, -⟩)
    · exact ⟨hprimary, Or.inl rfl⟩
    · exact ⟨hg, Or.inr hlisted⟩
  · rintro ⟨hg, rfl | hlisted⟩
    · exact Or.inl rfl
    · exact or_iff_not_imp_left.mpr fun hne => ⟨hg, hlisted, hne⟩

theorem nodup_rowsOf (hgroups : t.groups.Nodup) : (t.rowsOf user primary).Nodup := by
  refine List.nodup_cons.mpr ⟨fun h => ?_, hgroups.filter _⟩
  have hne := (List.mem_filter.mp h).2
  simp at hne

/-- A name of its own leads back to its row. -/
theorem group_of_nodup (hnames : (t.groups.map (·.name)).Nodup) {g : GroupRow} (hg : g ∈ t.groups) : t.group g.name = .ok g := by
  have hfind : t.groups.find? (·.name == g.name) = some g := by
    obtain ⟨before, after, hsplit⟩ := List.append_of_mem hg
    rw [hsplit, List.map_append, List.map_cons] at hnames
    have hbefore : ∀ r ∈ before, (r.name == g.name) = false := fun r hr => by
      have hne : r.name ≠ g.name :=
        (List.nodup_append.mp hnames).2.2 r.name (List.mem_map_of_mem hr) g.name List.mem_cons_self
      simpa using hne
    rw [hsplit, List.find?_append, List.find?_eq_none.mpr fun r hr => by simp [hbefore r hr], List.find?_cons_of_pos (by simp)]
    rfl
  unfold Tables.group
  rw [hfind]

/-- Names that are all different are gathered as they come, but for those that are there already. -/
theorem foldl_addName_of_nodup : ∀ {listed names : List String}, listed.Nodup →
    listed.foldl Tables.addName names = names ++ listed.filter fun name => !names.contains name
  | [], names, _ => (List.append_nil names).symm
  | name :: listed, names, hnodup => by
    obtain ⟨hnotMem, hrest⟩ := List.nodup_cons.mp hnodup
    rw [List.foldl_cons, foldl_addName_of_nodup hrest]
    unfold Tables.addName
    cases hknown : names.contains name with
    | true =>
      rw [if_pos rfl, List.filter_cons_of_neg (by simpa using hknown)]
    | false =>
      rw [if_neg Bool.false_ne_true, List.filter_cons_of_pos (by simpa using hknown), List.append_assoc, List.singleton_append]
      refine congrArg (names ++ name :: ·) (List.filter_congr fun x hx => ?_)
      have hne : x ≠ name := fun heq => hnotMem (heq ▸ hx)
      simp [hne]

theorem rowsOf_names (hnames : (t.groups.map (·.name)).Nodup) (hprimary : primary ∈ t.groups) :
    ((t.groups.filter fun g => g.members.contains user).map (·.name)).foldl Tables.addName [primary.name] =
      (t.rowsOf user primary).map (·.name) := by
  have hlisted : ((t.groups.filter fun g => g.members.contains user).map (·.name)).Nodup :=
    hnames.sublist (List.filter_sublist.map _)
  rw [foldl_addName_of_nodup hlisted, List.filter_map, List.filter_filter, List.singleton_append, Tables.rowsOf, List.map_cons]
  refine congrArg (primary.name :: List.map _ ·) (List.filter_congr fun g hg => ?_)
  -- Rows are told apart by their names.
  have hsame : g.name = primary.name ↔ g = primary :=
    ⟨List.inj_on_of_nodup_map hnames hg hprimary, congrArg GroupRow.name⟩
  rw [Bool.and_comm]
  congr 1
  rw [Bool.eq_iff_iff]
  simp [hsame]

end

/-- Of a user who has a row, and whose primary group has one, the tables name each group once: first the primary one, then
    those of all rows that list the user, in the order of their first rows. If all groups have names of their own, these
    lead back to just these rows: the user has a credential with their ids, each row once and the primary one first, unless
    an id of the user is not positive. -/
theorem groups_named_once_in_order {t : Tables} {user : String} {row : UserRow} {primary : GroupRow}
    (hrow : t.users.find? (·.name == user) = some row) (hprimary : t.groups.find? (·.gid == row.gid) = some primary) :
    (∃ names, t.database.groupNames user = .ok (primary.name :: names) ∧ (primary.name :: names).Nodup ∧
      (∀ name, name ∈ primary.name :: names ↔ name = primary.name ∨ ∃ g ∈ t.groups, user ∈ g.members ∧ g.name = name) ∧
      names.Pairwise fun a b => firstRow t.groups user a < firstRow t.groups user b) ∧
    ((t.groups.map (·.name)).Nodup →
      let rows := t.rowsOf user primary
      rows.Nodup ∧ (∀ g, g ∈ rows ↔ g ∈ t.groups ∧ (g = primary ∨ user ∈ g.members)) ∧
      (rows.map (·.gid)).head? = some row.gid ∧
      (resolve t.database user).result =
        if 0 < row.uid ∧ 0 < row.gid then .ok ⟨row.uid, row.gid, rows.map (·.gid)⟩
        else .error (.credential user row.uid row.gid)) := by
  have huser : t.user user = .ok row := by
    unfold Tables.user
    rw [hrow]
  have hgroup : t.groupOfId row.gid = .ok primary := by
    unfold Tables.groupOfId
    rw [hprimary]
  have hnamed : t.database.groupNames user =
      .ok (((t.groups.filter fun g => g.members.contains user).map (·.name)).foldl Tables.addName [primary.name]) := by
    show t.groupNames user = _
    unfold Tables.groupNames
    rw [huser]
    show (t.groupOfId row.gid >>= _) = _
    rw [hgroup]
    rfl
  have hmem : primary ∈ t.groups := List.mem_of_find?_eq_some hprimary
  have hgid : primary.gid = row.gid := by simpa using List.find?_some hprimary
  constructor
  · obtain ⟨names, hnames, hlists⟩ := foldl_addName_lists t.groups user primary.name
    refine ⟨names, hnamed.trans (congrArg _ hnames), hlists.nodup, fun name => ?_, hlists.inOrder⟩
    rw [List.mem_cons, hlists.mem]
    exact or_congr_right' fun hne => and_iff_right hne
  · intro hnames rows
    have hknows : t.database.Knows user row.uid row.gid (rows.map (·.name)) (rows.map (·.gid)) := by
      refine ⟨congrArg (·.map (·.uid)) huser, congrArg (·.map (·.gid)) huser,
        hnamed.trans (congrArg _ (rowsOf_names hnames hmem)), ?_⟩
      rw [List.map_map, List.map_map]
      refine List.map_congr_left fun g hg => ?_
      exact congrArg (·.map (·.gid)) (group_of_nodup hnames ((mem_rowsOf hmem).mp hg).1)
    refine ⟨nodup_rowsOf hnames.of_map, fun g => mem_rowsOf hmem, congrArg some hgid, ?_⟩
    rw [resolve_of_knows hknows]
    split <;> rfl

/-- Tables in which two groups share an id, and the primary group lists its user. -/
def sharingTables : Tables where
  users := [⟨"alice", 1001, 100⟩]
  groups := [⟨"staff", 100, ["alice"]⟩, ⟨"dev", 7, ["bob", "alice"]⟩, ⟨"ops", 9, ["bob"]⟩, ⟨"desk", 100, ["alice"]⟩]

theorem shared_id_listed_for_each_row :
    sharingTables.users.find? (·.name == "alice") = some ⟨"alice", 1001, 100⟩ ∧
    sharingTables.groups.find? (·.gid == 100) = some ⟨"staff", 100, ["alice"]⟩ ∧
    (sharingTables.groups.map (·.name)).Nodup ∧
    (resolve sharingTables.database "alice").result = .ok ⟨1001, 100, [100, 7, 100]⟩ := by
  have hrow : sharingTables.users.find? (·.name == "alice") = some ⟨"alice", 1001, 100⟩ := by decide
  have hprimary : sharingTables.groups.find? (·.gid == 100) = some ⟨"staff", 100, ["alice"]⟩ := by decide
  have hnames : (sharingTables.groups.map (·.name)).Nodup := by decide
  obtain ⟨-, -, -, hresult⟩ := (groups_named_once_in_order hrow hprimary).2 hnames
  exact ⟨hrow, hprimary, hnames, hresult⟩

end Teletype.Identity
