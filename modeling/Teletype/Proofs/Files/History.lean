import Mathlib.Data.List.Induction
import Teletype.Files.History
import Teletype.Proofs.Text.Splitting

/-! # Names in a directory

The size of the file that a plain name leads to goes by the changes to this file alone, whatever else is changed in
the directory, and when. -/

namespace Teletype

/-! ### Order of changes -/

/-- Sorting is stable, so what is picked out of a list is sorted in the same way by itself. -/
theorem filter_mergeSort {α : Type} {le : α → α → Bool} (trans : ∀ a b c, le a b → le b c → le a c)
    (total : ∀ a b, le a b || le b a) (p : α → Bool) (l : List α) :
    (l.mergeSort le).filter p = (l.filter p).mergeSort le := by
  induction l with
  | nil => rw [List.filter_nil, List.mergeSort_nil, List.filter_nil]
  | cons a l ih =>
    obtain ⟨l₁, l₂, hsort, hrest, hless⟩ := List.mergeSort_cons trans total a l
    rw [hrest, List.filter_append] at ih
    rw [hsort, List.filter_append]
    cases hpa : p a with
    | false =>
      have hskip : ¬p a = true := by rw [hpa]; exact Bool.false_ne_true
      rw [List.filter_cons_of_neg hskip, List.filter_cons_of_neg hskip, ih]
    | true =>
      obtain ⟨m₁, m₂, hsort', hrest', hless'⟩ := List.mergeSort_cons trans total a (l.filter p)
      -- Both ways what comes before `a` is what is strictly less.
      have hparts {l l' : List α} (hsorted : (l ++ a :: l').Pairwise fun a b => le a b) (hl : ∀ b ∈ l, !le a b) :
          (l ++ l').filter (fun b => !le a b) = l := by
        have hright : ∀ b ∈ l', ¬(!le a b) = true := fun b hb hlt => by
          rw [(List.pairwise_cons.mp (List.pairwise_append.mp hsorted).2.1).1 b hb] at hlt
          cases hlt
        rw [List.filter_append, List.filter_eq_self.mpr hl, List.filter_eq_nil_iff.mpr hright, List.append_nil]
      have hsorted := List.pairwise_mergeSort trans total (a :: l)
      rw [hsort] at hsorted
      have hsorted' := List.pairwise_mergeSort trans total (a :: l.filter p)
      rw [hsort'] at hsorted'
      have hsub : (l₁.filter p ++ a :: l₂.filter p).Pairwise fun a b => le a b := by
        rw [← List.filter_cons_of_pos hpa, ← List.filter_append]
        exact hsorted.filter p
      have hleft : l₁.filter p = m₁ := by
        rw [← hparts hsub fun b hb => hless b (List.mem_filter.mp hb).1, ih, hrest', hparts hsorted' hless']
      rw [hrest', hleft] at ih
      rw [List.filter_cons_of_pos hpa, List.filter_cons_of_pos hpa, hsort', hleft, List.append_cancel_left ih]

namespace Files

/-! ### Trees -/

namespace Tree
variable {t : Tree} {here place p : Place}

theorem lookup_filter_ne (h : p ≠ place) : ∀ t : Tree, (t.filter fun (q, _) => q != place).lookup p = t.lookup p
  | [] => rfl
  | (q, n) :: t => by
    by_cases hq : q = place
    · have hskip : (p == q) = false := beq_eq_false_iff_ne.mpr fun hpq => h (hpq.trans hq)
      rw [List.filter_cons_of_neg (by simpa using hq), lookup_filter_ne h t, List.lookup_cons, hskip]
    · rw [List.filter_cons_of_pos (by simpa using hq), List.lookup_cons, List.lookup_cons, lookup_filter_ne h t]

theorem lookup_put_ne (h : p ≠ place) (t : Tree) (n : Node) : (t.put place n).lookup p = t.lookup p := by
  rw [put, List.lookup_cons, beq_eq_false_iff_ne.mpr h]
  exact lookup_filter_ne h t

theorem node?_put_self (t : Tree) (place : Place) (n : Node) : (t.put place n).node? place = some n := by
  rw [node?, put, List.lookup_cons_self]

/-- What is put somewhere changes nothing but there and at the places above. -/
theorem node?_put_of_not_prefix (h : ¬p <+: place) (t : Tree) (n : Node) : (t.put place n).node? p = t.node? p := by
  have hne : p ≠ place := fun hp => h (hp ▸ List.prefix_rfl)
  have hany : ((t.put place n).any fun (q, _) => p.isPrefixOf q) = t.any fun (q, _) => p.isPrefixOf q := by
    rw [Bool.eq_iff_iff, List.any_eq_true, List.any_eq_true]
    constructor
    · rintro ⟨e, he, habove⟩
      rcases List.mem_cons.mp he with rfl | he
      · exact absurd (List.isPrefixOf_iff_prefix.mp habove) h
      · exact ⟨e, (List.mem_filter.mp he).1, habove⟩
    · rintro ⟨e, he, habove⟩
      refine ⟨e, List.mem_cons_of_mem _ (List.mem_filter.mpr ⟨he, ?_⟩), habove⟩
      exact bne_iff_ne.mpr fun heq => h (heq ▸ List.isPrefixOf_iff_prefix.mp habove)
  rw [node?, node?, lookup_put_ne hne, hany]

/-- A directory stays one when something is put below it. -/
theorem node?_put_below (h : t.node? here = some .directory) (habove : here <+: place) (hne : here ≠ place) (n : Node) :
    (t.put place n).node? here = some .directory := by
  rw [node?] at h ⊢
  rw [lookup_put_ne hne]
  cases hlookup : t.lookup here with
  | some d =>
    rw [hlookup] at h
    exact h
  | none =>
    have hany : ((t.put place n).any fun (q, _) => here.isPrefixOf q) = true :=
      List.any_eq_true.mpr ⟨_, List.mem_cons_self, List.isPrefixOf_iff_prefix.mpr habove⟩
    simp only [hany, Bool.or_true, if_true]

end Tree

/-! ### Paths that are too long -/

namespace Tree
variable {t : Tree} {here : Place} {path : String}

theorem isDirectory_iff : t.isDirectory here = true ↔ t.node? here = some .directory := by
  rw [isDirectory, Option.any_eq_true]
  constructor
  · rintro ⟨n, hn, hdirectory⟩
    cases n with
    | file content => cases hdirectory
    | directory => exact hn
  · exact fun hn => ⟨.directory, hn, rfl⟩

/-- A walk comes to a step that is too long just if the steps before one such lead to a directory. -/
theorem meetsLong_iff : ∀ {steps : List String} {here : Place}, t.meetsLong here steps = true ↔
    ∃ before step after, steps = before ++ step :: after ∧ stepLimit < step.utf8ByteSize ∧
      (t.follow here before).bind t.node? = some .directory
  | [], here => by simp [meetsLong]
  | first :: rest, here => by
    rw [meetsLong, Bool.and_eq_true, Bool.or_eq_true, decide_eq_true_eq, meetsLong_iff]
    constructor
    · rintro ⟨hdirectory, hlong | ⟨before, step, after, rfl, hlong, hleads⟩⟩
      · exact ⟨[], first, rest, rfl, hlong, isDirectory_iff.mp hdirectory⟩
      · refine ⟨first :: before, step, after, rfl, hlong, ?_⟩
        rwa [follow, if_pos hdirectory]
    · rintro ⟨before, step, after, hsteps, hlong, hleads⟩
      cases before with
      | nil =>
        obtain ⟨rfl, -⟩ := List.cons.inj hsteps
        exact ⟨isDirectory_iff.mpr hleads, Or.inl hlong⟩
      | cons _ before =>
        obtain ⟨rfl, rfl⟩ := List.cons.inj hsteps
        rw [follow] at hleads
        split at hleads
        · next hdirectory => exact ⟨hdirectory, Or.inr ⟨before, step, after, rfl, hlong, hleads⟩⟩
        · cases hleads

end Tree

/-- A path has a step, or as a whole is, longer than a file system takes. -/
def History.isTooLong (path : String) : Bool :=
  pathLimit < path.utf8ByteSize || (pathSteps path).any fun s => stepLimit < s.utf8ByteSize

/-! ### Names -/

/-- The path is the name of something in the directory that it is seen from. -/
structure IsName (name : String) : Prop where
  flat : '/' ∉ name.toList
  nonempty : name ≠ ""
  here : name ≠ "."
  parent : name ≠ ".."

namespace IsName
variable {name : String} {t : Tree} {here : Place}

theorem pathSteps_eq (h : IsName name) : pathSteps name = [name] := by
  rw [pathSteps, Text.parts_of_notMem h.flat]
  exact List.filter_cons_of_pos (by simp [h.nonempty, h.here])

theorem base_eq (h : IsName name) (here : Place) : Tree.base here name = here := by
  have hrelative : name.startsWith "/" = false := by
    rw [String.startsWith_string_eq_false_iff]
    exact fun hroot => h.flat (hroot.subset (List.mem_singleton_self '/'))
  rw [Tree.base, hrelative]
  rfl

theorem place?_eq (h : IsName name) (hdirectory : t.node? here = some .directory) :
    t.place? here name = some (here ++ [name]) := by
  have hempty : name.isEmpty = false := by
    rw [Bool.eq_false_iff]
    exact fun hempty => h.nonempty (String.isEmpty_iff.mp hempty)
  have henter : Tree.enter here name = here ++ [name] := by simp [Tree.enter, h.nonempty, h.here, h.parent]
  rw [Tree.place?, hempty, h.base_eq, Text.parts_of_notMem h.flat, Tree.follow,
    if_pos (Tree.isDirectory_iff.mpr hdirectory), henter]
  rfl

/-- A name is refused in a directory just if it is too long. -/
theorem refuses_eq (h : IsName name) (hdirectory : t.node? here = some .directory) :
    t.refuses here name = History.isTooLong name := by
  rw [Tree.refuses, History.isTooLong, h.base_eq, Text.parts_of_notMem h.flat, h.pathSteps_eq, Tree.meetsLong,
    Tree.isDirectory_iff.mpr hdirectory, Bool.true_and, Tree.meetsLong]
  rfl

end IsName

/-- The path leads to what has this name. -/
def isTo (name path : String) : Bool := pathSteps path == [name]

/-- The path leads neither to what has this name nor to something below it. -/
def isBeside (name path : String) : Bool := (pathSteps path).head?.any (· != name)

theorem isTo_of_isBeside {name path : String} (h : isBeside name path = true) : isTo name path = false := by
  rw [isTo, beq_eq_false_iff_ne]
  intro hto
  rw [isBeside, hto] at h
  simp at h

namespace History
variable {h : History} {name : String} {changes : List Change}

theorem before_filter (h : History) (p : Change → Bool) (now : Time) :
    (h.before now).filter p = { h with changes := h.changes.filter p }.before now := by
  rw [before, before, filter_mergeSort, List.filter_filter, List.filter_filter]
  · congr 2
    funext c
    exact Bool.and_comm _ _
  · intro a b c hab hbc
    exact decide_eq_true (Rat.le_trans (of_decide_eq_true hab) (of_decide_eq_true hbc))
  · intro a b
    rw [Bool.or_eq_true, decide_eq_true_eq, decide_eq_true_eq]
    exact Rat.le_total

/-- Changes to a name put a file there, and changes beside it leave there what there was. -/
theorem node?_tree (hdirectory : h.start.node? h.here = some .directory)
    (hchanges : ∀ c ∈ changes, isTo name c.path = true ∨ isBeside name c.path = true) :
    (h.tree changes).node? h.here = some .directory ∧
    (h.tree changes).node? (h.here ++ [name]) =
      if changes.any (fun c => isTo name c.path) then some (.file []) else h.start.node? (h.here ++ [name]) := by
  induction changes using List.reverseRecOn with
  | nil => exact ⟨hdirectory, rfl⟩
  | append_singleton changes c ih =>
    obtain ⟨ihdirectory, ihname⟩ := ih fun c' hc' => hchanges c' (List.mem_append_left _ hc')
    have htree : h.tree (changes ++ [c]) = (h.tree changes).put (h.place c) (.file []) := List.foldl_append
    rw [htree, List.any_append, List.any_cons, List.any_nil, Bool.or_false]
    have hbelow (first : String) (rest : List String) (hsteps : pathSteps c.path = first :: rest) :
        ((h.tree changes).put (h.place c) (.file [])).node? h.here = some .directory := by
      have hplace : h.place c = h.here ++ first :: rest := congrArg (h.here ++ ·) hsteps
      have hne : h.here ≠ h.here ++ first :: rest := fun heq => List.cons_ne_nil _ _ (List.append_right_eq_self.mp heq.symm)
      rw [hplace]
      exact Tree.node?_put_below ihdirectory (List.prefix_append _ _) hne _
    rcases hchanges c (List.mem_append_right _ List.mem_cons_self) with hto | hbeside
    · have hsteps : pathSteps c.path = [name] := eq_of_beq hto
      refine ⟨hbelow _ _ hsteps, ?_⟩
      rw [hto, Bool.or_true, if_pos rfl, place, hsteps, Tree.node?_put_self]
    · rw [isTo_of_isBeside hbeside, Bool.or_false]
      obtain ⟨first, hfirst, hne⟩ := (Option.any_eq_true _ _).mp hbeside
      obtain ⟨rest, hsteps⟩ := List.head?_eq_some_iff.mp hfirst
      refine ⟨hbelow _ _ hsteps, ?_⟩
      rw [Tree.node?_put_of_not_prefix, ihname]
      rw [place, hsteps, List.prefix_append_right_inj]
      intro habove
      exact bne_iff_ne.mp hne (List.cons_prefix_cons.mp habove).1.symm

/-- Looking at a path fails just if the path is refused. -/
theorem size?_eq_error_iff {path : String} {now : Time} {f : Fault} : h.size? path now = .error f ↔
    h.refuses path now = true ∧ f = .make .system [.int 36, .text "File name too long", .text path] := by
  unfold size?
  cases hnul : path.toList.contains '\x00' with
  | true =>
    have hnot : h.refuses path now = false := by
      rw [refuses, hnul]
      rfl
    simp [hnot]
  | false =>
    rw [if_neg Bool.false_ne_true]
    cases hrefuses : h.refuses path now with
    | true => simp [eq_comm]
    | false =>
      rw [if_neg Bool.false_ne_true]
      dsimp only
      split
      · simp
      · simp
      · split <;> simp

/-- A path is refused if it has no NUL, and as a whole or at a step that the ones before lead to it is too long. -/
theorem refuses_iff {path : String} {now : Time} : h.refuses path now = true ↔ '\x00' ∉ path.toList ∧
    (pathLimit < path.utf8ByteSize ∨ ∃ before step after, Text.parts '/' path = before ++ step :: after ∧
      stepLimit < step.utf8ByteSize ∧
      ((h.treeAt now).follow (Tree.base h.here path) before).bind (h.treeAt now).node? = some .directory) := by
  rw [refuses, Tree.refuses, Bool.and_eq_true, Bool.or_eq_true, decide_eq_true_eq, Tree.meetsLong_iff, Bool.not_eq_true',
    Bool.eq_false_iff, ne_eq, List.contains_iff_mem]

theorem isTooLong_of_refuses {path : String} {now : Time} (hrefuses : h.refuses path now = true) :
    isTooLong path = true := by
  rw [isTooLong, Bool.or_eq_true, decide_eq_true_eq]
  refine (refuses_iff.mp hrefuses).2.imp_right ?_
  rintro ⟨before, step, after, hsteps, hlong, -⟩
  refine List.any_eq_true.mpr ⟨step, List.mem_filter.mpr ⟨hsteps ▸ by simp, ?_⟩, decide_eq_true hlong⟩
  -- A step that leads nowhere else is short.
  rw [Bool.and_eq_true, bne_iff_ne, bne_iff_ne]
  constructor <;> rintro rfl <;> exact absurd hlong (by decide)

theorem refuses_of_name (hname : IsName name) (hnul : '\x00' ∉ name.toList) {now : Time}
    (hdirectory : (h.treeAt now).node? h.here = some .directory) : h.refuses name now = isTooLong name := by
  rw [refuses, hname.refuses_eq hdirectory, List.contains_eq_mem, decide_eq_false hnul]
  rfl

/-- The size of a file is the one that it was given last, or the one that it has had from the start. -/
theorem size?_of_name (hname : IsName name) (hdirectory : h.start.node? h.here = some .directory)
    (hchanges : ∀ c ∈ h.changes, isTo name c.path = true ∨ isBeside name c.path = true) (now : Time) :
    h.size? name now = if name.toList.contains '\x00' then .ok none
      else if isTooLong name then .error (.make .system [.int 36, .text "File name too long", .text name])
      else .ok (match ((h.before now).filter fun c => isTo name c.path).getLast? with
        | some c => some c.size
        | none => (h.start.node? (h.here ++ [name])).map fun
          | .file content => content.length
          | .directory => 0) := by
  have hbefore : ∀ c ∈ h.before now, isTo name c.path = true ∨ isBeside name c.path = true := fun c hc =>
    hchanges c (List.mem_filter.mp (List.mem_mergeSort.mp hc)).1
  obtain ⟨htree, hnode⟩ := node?_tree hdirectory hbefore
  have hplace : (h.tree (h.before now)).place? h.here name = some (h.here ++ [name]) := hname.place?_eq htree
  have hrefuses : (h.tree (h.before now)).refuses h.here name = isTooLong name := hname.refuses_eq htree
  have hfinds (c : Change) : (some (h.place c) == some (h.here ++ [name])) = isTo name c.path := by
    rw [Option.some_beq_some, place, isTo, Bool.eq_iff_iff, beq_iff_eq, beq_iff_eq, List.append_cancel_left_eq]
  have hlast : (h.before now).reverse.find? (fun c => isTo name c.path) =
      ((h.before now).filter fun c => isTo name c.path).getLast? := by
    rw [← List.head?_filter, List.filter_reverse, List.head?_reverse]
  unfold size? refuses treeAt
  dsimp only
  rw [Tree.find?, hplace, Option.bind_some, hnode, hrefuses]
  simp only [hfinds]
  rw [hlast]
  cases name.toList.contains '\x00' with
  | true => rfl
  | false =>
    rw [if_neg Bool.false_ne_true, if_neg Bool.false_ne_true, Bool.not_false, Bool.true_and]
    split
    · rfl
    · cases hto : ((h.before now).filter fun c => isTo name c.path).getLast? with
      | some c =>
        have hany : (h.before now).any (fun c => isTo name c.path) = true := by
          obtain ⟨hc, hc'⟩ := List.mem_filter.mp (List.mem_of_getLast? hto)
          exact List.any_eq_true.mpr ⟨c, hc, hc'⟩
        rw [if_pos hany]
      | none =>
        have hnone : (h.before now).any (fun c => isTo name c.path) = false := by
          rw [List.any_eq_false]
          exact List.filter_eq_nil_iff.mp (List.getLast?_eq_none_iff.mp hto)
        rw [hnone, if_neg Bool.false_ne_true]
        cases h.start.node? (h.here ++ [name]) with
        | none => rfl
        | some n => cases n <;> rfl

/-- Two histories in which the same has happened to a name give it the same sizes. -/
theorem size?_congr (h₁ h₂ : History) (hname : IsName name) (hdirectory : h₁.start.node? h₁.here = some .directory)
    (hstart : h₁.start = h₂.start) (hhere : h₁.here = h₂.here)
    (hchanges₁ : ∀ c ∈ h₁.changes, isTo name c.path = true ∨ isBeside name c.path = true)
    (hchanges₂ : ∀ c ∈ h₂.changes, isTo name c.path = true ∨ isBeside name c.path = true)
    (hsame : (h₁.changes.filter fun c => isTo name c.path) = h₂.changes.filter fun c => isTo name c.path) (now : Time) :
    h₁.size? name now = h₂.size? name now := by
  rw [size?_of_name hname hdirectory hchanges₁, size?_of_name hname (hstart ▸ hhere ▸ hdirectory) hchanges₂, before_filter,
    before_filter, hsame, hstart, hhere]

end History

end Files

end Teletype
