import Teletype.Identity.Resolver

/-! # What a resolution asks and finds

A database is asked about a user in a fixed order, up to the first question that it has no answer to. A credential
is found only if every question is answered and both ids are positive. It then has the answers, and all the groups
in the order of their names. -/

namespace Teletype.Identity

/-! ### Questions -/

namespace Database

/-- The fault that a database meets a question with, if it has no answer. -/
def fault? (db : Database) : Question → Option Fault
  | (.uid, name) => match db.uid name with | .ok _ => none | .error f => some f
  | (.gid, name) => match db.gid name with | .ok _ => none | .error f => some f
  | (.groups, name) => match db.groupNames name with | .ok _ => none | .error f => some f
  | (.group, name) => match db.groupId name with | .ok _ => none | .error f => some f

/-- The names of a user's groups, as far as they are known. -/
def knownGroups (db : Database) (user : String) : List String := (db.groupNames user).toOption.getD []

/-- All questions about a user, in their order. -/
def questions (db : Database) (user : String) : List Question :=
  (.uid, user) :: (.gid, user) :: (.groups, user) :: (db.knownGroups user).map fun name => (.group, name)

/-- The questions up to the first without an answer. -/
def answeredTo (db : Database) : List Question → List Question
  | [] => []
  | q :: rest => match db.fault? q with
    | some _ => [q]
    | none => q :: db.answeredTo rest

/-- All that there is to know about a user: its ids, the names of its groups, and their ids in the same order. -/
structure Knows (db : Database) (user : String) (uid gid : Int) (names : List String) (ids : List Int) : Prop where
  uid : db.uid user = .ok uid
  gid : db.gid user = .ok gid
  groupNames : db.groupNames user = .ok names
  groupIds : names.map db.groupId = ids.map .ok

section
variable {db : Database}

theorem answeredTo_of_fault {q : Question} {f : Fault} (hq : db.fault? q = some f) (rest : List Question) :
    db.answeredTo (q :: rest) = [q] := by
  rw [answeredTo, hq]

theorem answeredTo_of_answer {q : Question} (hq : db.fault? q = none) (rest : List Question) :
    db.answeredTo (q :: rest) = q :: db.answeredTo rest := by
  rw [answeredTo, hq]

/-- The questions up to the first without an answer are those before it, and it. -/
theorem answeredTo_of_split {before after : List Question} {q : Question} {f : Fault}
    (hbefore : ∀ p ∈ before, db.fault? p = none) (hfault : db.fault? q = some f) :
    db.answeredTo (before ++ q :: after) = before ++ [q] := by
  induction before with
  | nil => exact answeredTo_of_fault hfault after
  | cons p before ih =>
    obtain ⟨hp, hrest⟩ := List.forall_mem_cons.mp hbefore
    rw [List.cons_append, answeredTo_of_answer hp, ih hrest, List.cons_append]

theorem answeredTo_of_answered {qs : List Question} (h : ∀ q ∈ qs, db.fault? q = none) : db.answeredTo qs = qs := by
  induction qs with
  | nil => rfl
  | cons q qs ih =>
    rw [answeredTo_of_answer (h q List.mem_cons_self), ih fun p hp => h p (List.mem_cons_of_mem q hp)]

theorem Knows.knownGroups {user : String} {uid gid : Int} {names : List String} {ids : List Int}
    (h : db.Knows user uid gid names ids) : db.knownGroups user = names := by
  rw [Database.knownGroups, h.groupNames]
  rfl

/-- What is known of a user is known in one way. -/
theorem Knows.unique {user : String} {uid gid uid' gid' : Int} {names names' : List String} {ids ids' : List Int}
    (h : db.Knows user uid gid names ids) (h' : db.Knows user uid' gid' names' ids') : uid' = uid ∧ gid' = gid ∧ ids' = ids := by
  cases h.uid.symm.trans h'.uid
  cases h.gid.symm.trans h'.gid
  cases h.groupNames.symm.trans h'.groupNames
  have hsame : ids'.map (Except.ok (ε := Fault)) = ids.map .ok := h'.groupIds.symm.trans h.groupIds
  exact ⟨rfl, rfl, (List.map_inj_right fun _ _ => Except.ok.inj).mp hsame⟩

/-- Who is known completely is known without a fault. -/
theorem Knows.answered {user : String} {uid gid : Int} {names : List String} {ids : List Int}
    (h : db.Knows user uid gid names ids) : ∀ q ∈ db.questions user, db.fault? q = none := by
  have hgroup : ∀ name ∈ names, db.fault? (.group, name) = none := by
    intro name hname
    have hmem : db.groupId name ∈ ids.map Except.ok := h.groupIds ▸ List.mem_map_of_mem hname
    obtain ⟨id, -, hid⟩ := List.mem_map.mp hmem
    simp only [fault?, ← hid]
  intro q hq
  unfold questions at hq
  rw [h.knownGroups] at hq
  rcases List.mem_cons.mp hq with rfl | hq
  · simp only [fault?, h.uid]
  · rcases List.mem_cons.mp hq with rfl | hq
    · simp only [fault?, h.gid]
    · rcases List.mem_cons.mp hq with rfl | hq
      · simp only [fault?, h.groupNames]
      · obtain ⟨name, hname, rfl⟩ := List.mem_map.mp hq
        exact hgroup name hname

end

end Database

/-! ### Resolving -/

/-- The groups of these names are asked for in order up to the first without an id. -/
theorem groupIds_cases (db : Database) (names : List String) :
    (∃ ids, names.map db.groupId = ids.map .ok ∧ groupIds db names = (ids, names.map fun name => (.group, name), none)) ∨
    ∃ before name after f found, names = before ++ name :: after ∧ (∀ x ∈ before, db.fault? (.group, x) = none) ∧
      db.groupId name = .error f ∧
      groupIds db names = (found, (before ++ [name]).map fun name => (.group, name), some (name, f)) := by
  induction names with
  | nil => exact Or.inl ⟨[], rfl, rfl⟩
  | cons name names ih =>
    rw [List.map_cons, groupIds]
    cases hid : db.groupId name with
    | error f => exact Or.inr ⟨[], name, names, f, [], rfl, by simp, hid, rfl⟩
    | ok id =>
      have hanswer : db.fault? (.group, name) = none := by simp only [Database.fault?, hid]
      rcases ih with ⟨ids, hids, heq⟩ | ⟨before, x, after, f, found, rfl, hbefore, hf, heq⟩
      · exact Or.inl ⟨id :: ids, by rw [hids, List.map_cons], by rw [heq, List.map_cons]⟩
      · exact Or.inr ⟨name :: before, x, after, f, id :: found, rfl, List.forall_mem_cons.mpr ⟨hanswer, hbefore⟩, hf,
          by rw [heq, List.cons_append, List.map_cons]⟩

/-- How a resolution can go: it ends at the first question without an answer; the user is known but has no positive ids;
    or there is a credential, and it is the answers. -/
inductive Resolves (db : Database) (user : String) : Resolution → Prop
  | stopped (before after : List Question) (q : Question) (f : Fault) (hsplit : db.questions user = before ++ q :: after)
      (hbefore : ∀ p ∈ before, db.fault? p = none) (hfault : db.fault? q = some f) :
      Resolves db user (.stopped (before ++ [q]) q f)
  | refused (uid gid : Int) (names : List String) (ids : List Int) (hknows : db.Knows user uid gid names ids)
      (hids : ¬(0 < uid ∧ 0 < gid)) : Resolves db user
      ⟨.error (.credential user uid gid), db.questions user, [.credentialRefused user uid gid]⟩
  | found (uid gid : Int) (names : List String) (ids : List Int) (hknows : db.Knows user uid gid names ids)
      (huid : 0 < uid) (hgid : 0 < gid) : Resolves db user ⟨.ok ⟨uid, gid, ids⟩, db.questions user, []⟩

theorem resolve_resolves (db : Database) (user : String) : Resolves db user (resolve db user) := by
  unfold resolve
  cases huid : db.uid user with
  | error f => exact .stopped [] _ (.uid, user) f rfl (by simp) (by simp only [Database.fault?, huid])
  | ok uid =>
    have hanswer₁ : db.fault? (.uid, user) = none := by simp only [Database.fault?, huid]
    cases hgid : db.gid user with
    | error f => exact .stopped [(.uid, user)] _ (.gid, user) f rfl (by simpa using hanswer₁) (by simp only [Database.fault?, hgid])
    | ok gid =>
      have hanswer₂ : db.fault? (.gid, user) = none := by simp only [Database.fault?, hgid]
      cases hnames : db.groupNames user with
      | error f =>
        exact .stopped [(.uid, user), (.gid, user)] _ (.groups, user) f rfl (by simpa using ⟨hanswer₁, hanswer₂⟩)
          (by simp only [Database.fault?, hnames])
      | ok names =>
        have hanswer₃ : db.fault? (.groups, user) = none := by simp only [Database.fault?, hnames]
        have hquestions : db.questions user =
            [(.uid, user), (.gid, user), (.groups, user)] ++ names.map fun name => (.group, name) := by
          rw [Database.questions, Database.knownGroups, hnames]
          rfl
        dsimp only
        rcases groupIds_cases db names with ⟨ids, hids, heq⟩ | ⟨before, name, after, f, found, rfl, hbefore, hf, heq⟩
        · have hknows : db.Knows user uid gid names ids := ⟨huid, hgid, hnames, hids⟩
          rw [heq]
          dsimp only
          rw [← hquestions]
          split
          · next hpositive => exact .found uid gid names ids hknows hpositive.1 hpositive.2
          · next hpositive => exact .refused uid gid names ids hknows hpositive
        · rw [heq]
          dsimp only
          rw [List.map_append, ← List.append_assoc, List.map_singleton]
          refine .stopped _ (after.map fun name => (.group, name)) (.group, name) f ?_ ?_ (by simp only [Database.fault?, hf])
          · rw [hquestions, List.map_append, List.append_assoc, List.map_cons]
          · simpa [hanswer₁, hanswer₂, hanswer₃] using hbefore

section
variable {db : Database} {user : String}

/-- A resolution asks the questions up to the first without an answer. -/
theorem resolve_asked : (resolve db user).asked = db.answeredTo (db.questions user) := by
  have hresolves := resolve_resolves db user
  generalize resolve db user = r at hresolves
  cases hresolves with
  | stopped before after q f hsplit hbefore hfault =>
    rw [hsplit, Database.answeredTo_of_split hbefore hfault]
    unfold Resolution.stopped
    split <;> rfl
  | refused uid gid names ids hknows | found uid gid names ids hknows =>
    exact (Database.answeredTo_of_answered hknows.answered).symm

/-- A credential that is found is made from the answers, and its ids are positive. -/
theorem resolve_found {credential : Credential} (h : (resolve db user).result = .ok credential) :
    ∃ uid gid names ids, db.Knows user uid gid names ids ∧ 0 < uid ∧ 0 < gid ∧ credential = ⟨uid, gid, ids⟩ := by
  have hresolves := resolve_resolves db user
  generalize resolve db user = r at h hresolves
  cases hresolves with
  | stopped before after q f hsplit hbefore hfault =>
    unfold Resolution.stopped at h
    split at h <;> cases h
  | refused => cases h
  | found uid gid names ids hknows huid hgid =>
    cases h
    exact ⟨uid, gid, names, ids, hknows, huid, hgid, rfl⟩

/-- Nothing is told of a credential that is found. -/
theorem resolve_untold {credential : Credential} (h : (resolve db user).result = .ok credential) :
    (resolve db user).notices = [] := by
  have hresolves := resolve_resolves db user
  generalize resolve db user = r at h hresolves
  cases hresolves with
  | stopped before after q f hsplit hbefore hfault =>
    unfold Resolution.stopped at h
    split at h <;> cases h
  | refused => cases h
  | found => rfl

/-- A resolution ends at the first question without an answer, whatever has been answered before it. -/
theorem resolve_of_fault {before after : List Question} {q : Question} {f : Fault}
    (hsplit : db.questions user = before ++ q :: after) (hbefore : ∀ p ∈ before, db.fault? p = none)
    (hfault : db.fault? q = some f) : resolve db user = .stopped (before ++ [q]) q f := by
  have hasked : db.answeredTo (db.questions user) = before ++ [q] := hsplit ▸ Database.answeredTo_of_split hbefore hfault
  have hresolves := resolve_resolves db user
  generalize resolve db user = r at hresolves
  cases hresolves with
  | stopped before' after' q' f' hsplit' hbefore' hfault' =>
    rw [hsplit', Database.answeredTo_of_split hbefore' hfault'] at hasked
    obtain ⟨rfl, hlast⟩ := List.append_inj' hasked rfl
    obtain rfl := List.singleton_inj.mp hlast
    obtain rfl := Option.some.inj (hfault.symm.trans hfault')
    rfl
  | refused uid gid names ids hknows | found uid gid names ids hknows =>
    have hanswer := hknows.answered q (hsplit ▸ List.mem_append_right before List.mem_cons_self)
    cases hfault.symm.trans hanswer

/-- Who is known completely has a credential if both ids are positive, and is refused one otherwise. -/
theorem resolve_of_knows {uid gid : Int} {names : List String} {ids : List Int} (h : db.Knows user uid gid names ids) :
    resolve db user = if 0 < uid ∧ 0 < gid then ⟨.ok ⟨uid, gid, ids⟩, db.questions user, []⟩
      else ⟨.error (.credential user uid gid), db.questions user, [.credentialRefused user uid gid]⟩ := by
  have hresolves := resolve_resolves db user
  generalize resolve db user = r at hresolves
  cases hresolves with
  | stopped before after q f hsplit hbefore hfault =>
    have hanswer := h.answered q (hsplit ▸ List.mem_append_right before List.mem_cons_self)
    cases hfault.symm.trans hanswer
  | refused uid' gid' names' ids' hknows hids =>
    obtain ⟨rfl, rfl, -⟩ := h.unique hknows
    rw [if_neg hids]
  | found uid' gid' names' ids' hknows huid hgid =>
    obtain ⟨rfl, rfl, rfl⟩ := h.unique hknows
    rw [if_pos ⟨huid, hgid⟩]

end

end Teletype.Identity
