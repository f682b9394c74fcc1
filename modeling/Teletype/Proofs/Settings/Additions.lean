import Mathlib.Data.List.Forall2
import Teletype.Proofs.Data.Table
import Teletype.Settings.Load

/-! # What an environment file adds

The bindings of an environment file are added in order. The environment keeps all that it has, gets the first bindings of
the names that it has not, and stops at a binding that no environment can hold. When it has got so far, reading the file
again changes no value that it stopped at, unless a name is bound more than once. -/

namespace Teletype.Settings.EnvFile

open Data (Table)

/-! ### Adding -/

/-- What a text with a null in it amounts to where an environment is to hold it. -/
def nullByte : Fault := ⟨.value, "embedded null byte"⟩

/-- Why an environment cannot hold a binding, if it cannot. -/
def flaw? (name v : String) : Option Fault :=
  if name.contains '\x00' || v.contains '\x00' then some nullByte
  else if name.contains '=' then some ⟨.value, "illegal environment variable name"⟩
  else none

/-- The text has no null in it. -/
def Clean (s : String) : Prop := '\x00' ∉ s.toList

/-- An environment has come to hold a list of bindings: those with a value whose names it had not have come in, if it can
    hold them, and nothing else. -/
structure Absorbs (env : Environment) (bindings : List Binding) (E : Environment) : Prop where
  added : ∃ added : Environment, E = env ++ added ∧
    ∀ e ∈ added, env.get? e.1 = none ∧ (e.1, some e.2) ∈ bindings ∧ flaw? e.1 e.2 = none
  bound : ∀ name v, (name, some v) ∈ bindings → (E.get? name).isSome

section
variable {env E : Environment} {bindings : List Binding} {name v : String}

theorem addAll_cons_held (h : (env.get? name).isSome) :
    addAll env ((name, some v) :: bindings) = addAll env bindings := by
  rw [addAll, if_pos h]

theorem addAll_cons_new (h : env.get? name = none) : addAll env ((name, some v) :: bindings) =
    (flaw? name v).elim (addAll (env ++ [(name, v)]) bindings) fun f => (env, some f) := by
  rw [addAll, if_neg (by rw [h]; exact Bool.false_ne_true), Table.put_of_get?_none h]
  unfold flaw?
  split
  · rfl
  · split <;> rfl

/-- Bindings of names that are there add nothing. -/
theorem addAll_of_bound {before : List Binding} (h : ∀ name v, (name, some v) ∈ before → (E.get? name).isSome)
    (bindings : List Binding) : addAll E (before ++ bindings) = addAll E bindings := by
  induction before with
  | nil => rfl
  | cons e before ih =>
    obtain ⟨name, v⟩ := e
    have hrest := ih fun name v hmem => h name v (List.mem_cons_of_mem _ hmem)
    cases v with
    | none => exact hrest
    | some v => rwa [List.cons_append, addAll_cons_held (h name v List.mem_cons_self)]

namespace Absorbs

theorem nil (env : Environment) : Absorbs env [] env :=
  ⟨⟨[], (List.append_nil _).symm, fun _ h => absurd h List.not_mem_nil⟩, fun _ _ h => absurd h List.not_mem_nil⟩

theorem get? (h : Absorbs env bindings E) (hname : env.get? name = some v) : E.get? name = some v := by
  obtain ⟨added, rfl, -⟩ := h.added
  rw [Table.get?_append, hname, Option.some_or]

/-- What has come in is bound by the list, to a value that an environment can hold. -/
theorem of_get? (h : Absorbs env bindings E) (hnew : env.get? name = none) (hname : E.get? name = some v) :
    (name, some v) ∈ bindings ∧ flaw? name v = none := by
  obtain ⟨added, rfl, hadded⟩ := h.added
  rw [Table.get?_append, hnew, Option.none_or] at hname
  exact (hadded _ (Table.mem_of_get? hname)).2

/-- A binding adds nothing if it has no value or its name is there. -/
theorem cons_of_bound {e : Binding} (h : Absorbs env bindings E) (he : ∀ v, e.2 = some v → (E.get? e.1).isSome) :
    Absorbs env (e :: bindings) E := by
  obtain ⟨added, hE, hadded⟩ := h.added
  refine ⟨⟨added, hE, fun e he => ?_⟩, fun name v hmem => ?_⟩
  · obtain ⟨hnew, hmem, hflaw⟩ := hadded e he
    exact ⟨hnew, List.mem_cons_of_mem _ hmem, hflaw⟩
  · rcases List.mem_cons.mp hmem with rfl | hmem
    · exact he v rfl
    · exact h.bound name v hmem

theorem cons_none (h : Absorbs env bindings E) (name : String) : Absorbs env ((name, none) :: bindings) E :=
  h.cons_of_bound fun _ hv => by cases hv

theorem cons_held (h : Absorbs env bindings E) (hheld : (env.get? name).isSome) (v : String) :
    Absorbs env ((name, some v) :: bindings) E := by
  refine h.cons_of_bound fun _ _ => ?_
  obtain ⟨w, hw⟩ := Option.isSome_iff_exists.mp hheld
  exact Option.isSome_of_mem (h.get? hw)

theorem cons_new (h : Absorbs (env ++ [(name, v)]) bindings E) (hnew : env.get? name = none) (hflaw : flaw? name v = none) :
    Absorbs env ((name, some v) :: bindings) E := by
  obtain ⟨added, hE, hadded⟩ := h.added
  refine ⟨⟨(name, v) :: added, by rw [hE, List.append_assoc, List.singleton_append], fun e he => ?_⟩, fun n w hmem => ?_⟩
  · rcases List.mem_cons.mp he with rfl | he
    · exact ⟨hnew, List.mem_cons_self, hflaw⟩
    · obtain ⟨hnew', hmem, hflaw'⟩ := hadded e he
      rw [Table.get?_append, Option.or_eq_none_iff] at hnew'
      exact ⟨hnew'.1, List.mem_cons_of_mem _ hmem, hflaw'⟩
  · rcases List.mem_cons.mp hmem with heq | hmem
    · cases heq
      have hself : Table.get? (env ++ [(name, v)]) name = some v := by
        rw [Table.get?_append, hnew, Option.none_or, Table.get?, List.lookup_cons_self]
      rw [h.get? hself]
      rfl
    · exact h.bound n w hmem

end Absorbs

/-- How adding bindings goes: the environment comes to hold them all, or those before one that it cannot hold. -/
inductive Adds (env : Environment) (bindings : List Binding) : Environment × Option Fault → Prop
  | all (E : Environment) (habsorbs : Absorbs env bindings E) : Adds env bindings (E, none)
  | stopped (E : Environment) (before after : List Binding) (name v : String) (f : Fault)
      (hbindings : bindings = before ++ (name, some v) :: after) (habsorbs : Absorbs env before E)
      (hnew : E.get? name = none) (hflaw : flaw? name v = some f) : Adds env bindings (E, some f)

/-- A binding that an environment comes to hold may stand before the others. -/
theorem Adds.cons {env' : Environment} {e : Binding} {r : Environment × Option Fault} (h : Adds env' bindings r)
    (hcons : ∀ {before E}, Absorbs env' before E → Absorbs env (e :: before) E) : Adds env (e :: bindings) r := by
  cases h with
  | all E habsorbs => exact .all E (hcons habsorbs)
  | stopped E before after name v f hbindings habsorbs hnew hflaw =>
    exact .stopped E (e :: before) after name v f (congrArg (e :: ·) hbindings) (hcons habsorbs) hnew hflaw

/-- However it goes, only bindings of new names come in. -/
theorem Adds.added {r : Environment × Option Fault} (h : Adds env bindings r) :
    ∃ added : Environment, r.1 = env ++ added ∧ ∀ e ∈ added, env.get? e.1 = none ∧ (e.1, some e.2) ∈ bindings := by
  cases h with
  | all E habsorbs =>
    obtain ⟨added, hE, hadded⟩ := habsorbs.added
    exact ⟨added, hE, fun e he => ⟨(hadded e he).1, (hadded e he).2.1⟩⟩
  | stopped E before after name v f hbindings habsorbs hnew hflaw =>
    obtain ⟨added, hE, hadded⟩ := habsorbs.added
    exact ⟨added, hE, fun e he => ⟨(hadded e he).1, hbindings ▸ List.mem_append_left _ (hadded e he).2.1⟩⟩

theorem addAll_adds (bindings : List Binding) : ∀ env, Adds env bindings (addAll env bindings) := by
  induction bindings with
  | nil => exact fun env => .all env (.nil env)
  | cons e bindings ih =>
    intro env
    obtain ⟨name, v⟩ := e
    cases v with
    | none => exact (ih env).cons fun h => h.cons_none name
    | some v =>
      cases hname : env.get? name with
      | some w =>
        have hheld : (env.get? name).isSome := by rw [hname]; rfl
        rw [addAll_cons_held hheld]
        exact (ih env).cons fun h => h.cons_held hheld v
      | none =>
        rw [addAll_cons_new hname]
        cases hflaw : flaw? name v with
        | some f => exact .stopped env [] bindings name v f rfl (.nil env) hname hflaw
        | none => exact (ih _).cons fun h => h.cons_new hname hflaw

end

end Teletype.Settings.EnvFile
