import Mathlib.Data.List.Induction
import Teletype.Proofs.Settings.Additions
import Teletype.Proofs.Settings.Precedence

/-! # Loading settings again

Loading settings leaves the environment with all that it had and with what the nearest environment file adds. Loading them
once more adds nothing and gives the same, also if it fails. There is one exception: a value that is refused for a null in
it can be read without one the second time, if the file binds a name more than once. -/

namespace Teletype.Settings

namespace EnvFile

open Data (Table)

/-! ### Values that are read twice -/

/-- The value of a binding after those before it. -/
def valueOf (env : Environment) (done : Table (Option String)) (v : String) : String :=
  String.ofList (resolve (meaning env done) v.length v.toList)

theorem values_concat (env : Environment) (bindings : List Binding) (name : String) (v : Option String) :
    values env (bindings ++ [(name, v)]) = (values env bindings).put name (v.map (valueOf env (values env bindings))) := by
  rw [values, List.foldl_append]
  rfl

theorem mem_put {t : Table (Option String)} {name : String} {v : Option String} {e : Binding} (h : e ∈ t.put name v) :
    e ∈ t ∨ e = (name, v) := by
  induction t with
  | nil => exact Or.inr (List.mem_singleton.mp h)
  | cons b rest ih =>
    rw [Table.put] at h
    split at h
    · next heq =>
      rcases List.mem_cons.mp h with rfl | h
      · exact Or.inr (congrArg (·, v) (beq_iff_eq.mp heq))
      · exact Or.inl (List.mem_cons_of_mem _ h)
    · rcases List.mem_cons.mp h with rfl | h
      · exact Or.inl List.mem_cons_self
      · exact (ih h).imp_left (List.mem_cons_of_mem _)

/-- A name has a value only if it is bound with one. -/
theorem mem_values {env : Environment} {bindings : List Binding} {name v : String} (h : (name, some v) ∈ values env bindings) :
    ∃ w, (name, some w) ∈ bindings := by
  induction bindings using List.reverseRecOn with
  | nil => cases h
  | append_singleton bindings e ih =>
    obtain ⟨n, u⟩ := e
    rw [values_concat] at h
    rcases mem_put h with h | heq
    · obtain ⟨w, hw⟩ := ih h
      exact ⟨w, List.mem_append_left _ hw⟩
    · cases u with
      | none => cases heq
      | some u =>
        cases heq
        exact ⟨u, List.mem_append_right _ List.mem_cons_self⟩

/-- Where every name stands for a text without a null if it did before, so does a text with references to names. -/
theorem resolve_clean {first second : String → Option String}
    (h : ∀ name other, Clean ((first name).getD other) → Clean ((second name).getD other)) (fuel : Nat) :
    ∀ s, '\x00' ∉ resolve first fuel s → '\x00' ∉ resolve second fuel s := by
  induction fuel with
  | zero => exact fun s _ => List.not_mem_nil
  | succ fuel ih =>
    intro s hclean
    cases s with
    | nil => exact List.not_mem_nil
    | cons c rest =>
      rw [resolve] at hclean ⊢
      generalize (if c == '$' then readReference rest else none) = reference? at hclean ⊢
      cases reference? with
      | none =>
        rw [List.mem_cons, not_or] at hclean ⊢
        exact ⟨hclean.1, ih rest hclean.2⟩
      | some reference =>
        obtain ⟨name, other, tail⟩ := reference
        dsimp only at hclean ⊢
        rw [List.mem_append, not_or] at hclean ⊢
        exact ⟨h name other hclean.1, ih tail hclean.2⟩

/-- A value that is there if another is, and has no null in it if the other has none. -/
def Tamer : Option String → Option String → Prop := Option.Rel fun v w => Clean v → Clean w

/-- A binding of the same name to a tamer value. -/
inductive Alike : Binding → Binding → Prop
  | intro (name : String) {v w : Option String} (hvalue : Tamer v w) : Alike (name, v) (name, w)

section
variable {t t' : Table (Option String)} {env E : Environment} {bindings before before' after : List Binding}

theorem put_alike {v w : Option String} (h : List.Forall₂ Alike t t') (hvalue : Tamer v w) (name : String) :
    List.Forall₂ Alike (t.put name v) (t'.put name w) := by
  induction h with
  | nil => exact .cons (.intro name hvalue) .nil
  | @cons e e' t t' he ht ih =>
    obtain ⟨n, ha⟩ := he
    simp only [Table.put]
    split
    · exact .cons (.intro n hvalue) ht
    · exact .cons (.intro n ha) ih

theorem get?_alike (h : List.Forall₂ Alike t t') (name : String) : Option.Rel Tamer (t.get? name) (t'.get? name) := by
  induction h with
  | nil => exact .none
  | @cons e e' t t' he ht ih =>
    obtain ⟨n, ha⟩ := he
    simp only [Table.get?, List.lookup_cons]
    cases name == n with
    | true => exact .some ha
    | false => exact ih

theorem alike_bound (h : List.Forall₂ Alike t t') (hbound : ∀ name v, (name, some v) ∈ t → (E.get? name).isSome) :
    ∀ name v, (name, some v) ∈ t' → (E.get? name).isSome := by
  induction h with
  | nil => exact fun _ _ hmem => absurd hmem List.not_mem_nil
  | @cons e e' t t' he ht ih =>
    obtain ⟨n, ha⟩ := he
    intro name v hmem
    rcases List.mem_cons.mp hmem with heq | hmem
    · cases heq
      cases ha with
      | some _ => exact hbound n _ List.mem_cons_self
    · exact ih (fun name v hmem => hbound name v (List.mem_cons_of_mem _ hmem)) name v hmem

theorem alike_split {e : Binding} : ∀ {before : List Binding} {l : List Binding},
    List.Forall₂ Alike (before ++ e :: after) l →
    ∃ before' e' after', l = before' ++ e' :: after' ∧ List.Forall₂ Alike before before' ∧ Alike e e'
  | [], l, h => by
    obtain ⟨e', after', he, -, rfl⟩ := List.forall₂_cons_left_iff.mp h
    exact ⟨[], e', after', rfl, .nil, he⟩
  | b :: before, l, h => by
    obtain ⟨b', l', hb, hl, rfl⟩ := List.forall₂_cons_left_iff.mp h
    obtain ⟨before', e', after', rfl, hbefore, he⟩ := alike_split hl
    exact ⟨b' :: before', e', after', rfl, .cons hb hbefore, he⟩

theorem clean_of_flaw?_none {name v : String} (h : flaw? name v = none) : Clean v := by
  intro hv
  rw [flaw?, String.contains_char_eq (s := v), decide_eq_true hv, Bool.or_true] at h
  cases h

/-- A name that stood for a text without a null still does once its environment holds some of the bindings. -/
theorem Absorbs.meaning_clean (h : Absorbs env before E) (halike : List.Forall₂ Alike t t') (name other : String)
    (hclean : Clean ((meaning env t name).getD other)) : Clean ((meaning E t' name).getD other) := by
  unfold meaning at hclean ⊢
  cases hname : env.get? name with
  | some v =>
    rw [hname] at hclean
    rw [h.get? hname]
    exact hclean
  | none =>
    rw [hname] at hclean
    cases hadded : E.get? name with
    | some v => exact clean_of_flaw?_none (h.of_get? hname hadded).2
    | none =>
      have hrel := get?_alike halike name
      dsimp only at hclean ⊢
      generalize t.get? name = v at hclean hrel
      generalize t'.get? name = w at hrel ⊢
      cases hrel with
      | none => exact hclean
      | some hvalue =>
        cases hvalue with
        | none => exact hclean
        | some htamer => exact htamer hclean

/-- All bindings read again are alike. -/
theorem Absorbs.values_alike (h : Absorbs env before E) (bindings : List Binding) :
    List.Forall₂ Alike (values env bindings) (values E bindings) := by
  induction bindings using List.reverseRecOn with
  | nil => exact .nil
  | append_singleton bindings e ih =>
    obtain ⟨name, v⟩ := e
    rw [values_concat, values_concat]
    refine put_alike ih ?_ name
    cases v with
    | none => exact .none
    | some v =>
      refine .some fun hclean => ?_
      unfold Clean valueOf at hclean ⊢
      rw [String.toList_ofList] at hclean ⊢
      exact resolve_clean (h.meaning_clean ih) _ _ hclean

/-! ### Names that are bound once -/

theorem nodup_left {more : List Binding} (h : ((bindings ++ more).map (·.1)).Nodup) : (bindings.map (·.1)).Nodup := by
  rw [List.map_append] at h
  exact (List.nodup_append.mp h).1

/-- A name that no binding before has is new. -/
theorem get?_new {e : Binding} (hnodup : ((bindings ++ [e]).map (·.1)).Nodup) (hnames : t.map (·.1) = bindings.map (·.1)) :
    t.get? e.1 = none := by
  rw [List.map_append, ← hnames] at hnodup
  exact Table.get?_eq_none_of_not_mem fun hmem => (List.nodup_append.mp hnodup).2.2 e.1 hmem e.1 List.mem_cons_self rfl

theorem values_names (env : Environment) (hnodup : (bindings.map (·.1)).Nodup) :
    (values env bindings).map (·.1) = bindings.map (·.1) := by
  induction bindings using List.reverseRecOn with
  | nil => rfl
  | append_singleton bindings e ih =>
    have hnames := ih (nodup_left hnodup)
    rw [values_concat, Table.put_of_get?_none (get?_new hnodup hnames), List.map_append, List.map_append, hnames]
    rfl

/-- Where every name is bound once, the values come one after the other. -/
theorem values_snoc (env : Environment) {e : Binding} (hnodup : ((bindings ++ [e]).map (·.1)).Nodup) :
    values env (bindings ++ [e]) = values env bindings ++ [(e.1, e.2.map (valueOf env (values env bindings)))] := by
  rw [values_concat, Table.put_of_get?_none (get?_new hnodup (values_names env (nodup_left hnodup)))]

theorem values_prefix (env : Environment) (more : List Binding) (hnodup : ((bindings ++ more).map (·.1)).Nodup) :
    values env bindings <+: values env (bindings ++ more) := by
  induction more using List.reverseRecOn with
  | nil => exact (List.append_nil bindings).symm ▸ List.prefix_refl _
  | append_singleton more e ih =>
    rw [← List.append_assoc] at hnodup ⊢
    rw [values_snoc env hnodup]
    exact (ih (nodup_left hnodup)).trans (List.prefix_append _ _)

/-- Where every name is bound once, each value is that of its binding after those before it. -/
theorem values_at (hnodup : (bindings.map (·.1)).Nodup) {e : Binding} (h : values env bindings = before ++ e :: after) :
    ∃ first v last, bindings = first ++ (e.1, v) :: last ∧ first.length = before.length ∧ e.2 = v.map (valueOf env before) := by
  have hnames := values_names env hnodup
  rw [h, List.map_append, List.map_cons] at hnames
  obtain ⟨first, rest, rfl, hfirst, hrest⟩ := List.map_eq_append_iff.mp hnames.symm
  obtain ⟨⟨name, v⟩, last, rfl, hname, -⟩ := List.map_eq_cons_iff.mp hrest
  have hname : name = e.1 := hname
  subst hname
  have hlength : first.length = before.length := by
    have hlengths := congrArg List.length hfirst
    rwa [List.length_map, List.length_map] at hlengths
  have hsnoc : first ++ (e.1, v) :: last = first ++ [(e.1, v)] ++ last := by rw [List.append_assoc, List.singleton_append]
  rw [hsnoc] at h hnodup
  obtain ⟨more, hmore⟩ := values_prefix env last hnodup
  have hvalues : (values env first).length = before.length := by
    have hlengths := congrArg List.length (values_names env (nodup_left (nodup_left hnodup)))
    rw [List.length_map, List.length_map] at hlengths
    exact hlengths.trans hlength
  rw [h, values_snoc env (nodup_left hnodup), List.append_assoc] at hmore
  obtain ⟨hbefore, htail⟩ := List.append_inj hmore hvalues
  rw [hbefore] at htail
  refine ⟨first, v, last, hsnoc ▸ rfl, hlength, ?_⟩
  exact (congrArg Prod.snd (List.cons.inj htail).1).symm

/-- A name that is bound once, or not at all, means the same before and after its environment holds the bindings. -/
theorem Absorbs.meaning_eq (h : Absorbs env before E) (hnodup : (before.map (·.1)).Nodup)
    (halike : List.Forall₂ Alike before before') : meaning E before' = meaning env before := by
  funext name
  unfold meaning
  cases hname : env.get? name with
  | some v => rw [h.get? hname]
  | none =>
    cases hadded : E.get? name with
    | some v =>
      rw [Table.get?_of_mem hnodup (h.of_get? hname hadded).1]
      rfl
    | none =>
      have hrel := get?_alike halike name
      have hvalueless (v : String) : Table.get? before name ≠ some (some v) := fun hv => by
        have hbound := h.bound name v (Table.mem_of_get? hv)
        rw [hadded] at hbound
        cases hbound
      dsimp only
      generalize Table.get? before name = v at hrel hvalueless ⊢
      generalize Table.get? before' name = w at hrel ⊢
      cases hrel with
      | none => rfl
      | some hvalue =>
        cases hvalue with
        | none => rfl
        | some _ => exact absurd rfl (hvalueless _)

/-- Where every name is bound once, a value is read the same once the environment holds the bindings before it. -/
theorem Absorbs.value_eq (h : Absorbs env before E) (hnodup : (bindings.map (·.1)).Nodup) {name v w : String}
    (halike : List.Forall₂ Alike before before') (hv : values env bindings = before ++ (name, some v) :: after)
    {after' : List Binding} (hw : values E bindings = before' ++ (name, some w) :: after') : v = w := by
  obtain ⟨first, u, last, hfirst, hlength, hu⟩ := values_at hnodup hv
  obtain ⟨first', u', last', hfirst', hlength', hu'⟩ := values_at hnodup hw
  have hbefore : (before.map (·.1)).Nodup := by
    rw [← values_names env hnodup, hv] at hnodup
    exact nodup_left hnodup
  have hsame : first.length = first'.length := hlength.trans (halike.length_eq.trans hlength'.symm)
  obtain ⟨-, htail⟩ := List.append_inj (hfirst.symm.trans hfirst') hsame
  obtain rfl : u = u' := congrArg Prod.snd (List.cons.inj htail).1
  have hvalueOf : valueOf E before' = valueOf env before := by
    unfold valueOf
    rw [h.meaning_eq hbefore halike]
  rw [hvalueOf] at hu'
  exact Option.some.inj (hu.trans hu'.symm)

/-! ### Adding again -/

theorem flaw?_of_clean {v w : String} (name : String) (hv : Clean v) (hw : Clean w) : flaw? name v = flaw? name w := by
  unfold flaw?
  rw [String.contains_char_eq (s := v), String.contains_char_eq (s := w), decide_eq_false hv, decide_eq_false hw]

theorem flaw?_of_not_clean {v : String} (name : String) (hv : ¬Clean v) : flaw? name v = some nullByte := by
  unfold flaw?
  rw [String.contains_char_eq (s := v), decide_eq_true (not_not.mp hv), Bool.or_true, if_pos rfl]

/-- Adding the bindings of a file once more does what it did, unless a value that was refused for a null is read without
    one the second time. -/
theorem addAll_again (env : Environment) (bindings : List Binding) :
    let first := addAll env (values env bindings)
    addAll first.1 (values first.1 bindings) = first ∨
      first.2 = some nullByte ∧ ¬(bindings.map (·.1)).Nodup ∧ ∃ name v w,
        (name, some v) ∈ values env bindings ∧ ¬Clean v ∧ (name, some w) ∈ values first.1 bindings ∧ Clean w := by
  intro first
  have hadds : Adds env (values env bindings) first := addAll_adds _ env
  generalize first = r at hadds
  cases hadds with
  | all E habsorbs =>
    have hbound := alike_bound (habsorbs.values_alike bindings) habsorbs.bound
    have hnothing := addAll_of_bound hbound []
    rw [List.append_nil] at hnothing
    exact Or.inl hnothing
  | stopped E before after name v f hvalues habsorbs hnew hflaw =>
    have halike := habsorbs.values_alike bindings
    rw [hvalues] at halike
    obtain ⟨before', e', after', hvalues', hbefore, he⟩ := alike_split halike
    obtain ⟨name, hvalue⟩ := he
    cases hvalue with
    | @some _ w htamer =>
      -- The names before are all there, so the second time it comes to the same name.
      have hagain : addAll E (values E bindings) = (flaw? name w).elim (addAll (E ++ [(name, w)]) after')
          fun f => (E, some f) := by
        rw [hvalues', addAll_of_bound (alike_bound hbefore habsorbs.bound), addAll_cons_new hnew]
      by_cases hv : Clean v
      · rw [flaw?_of_clean name (htamer hv) hv, hflaw] at hagain
        exact Or.inl hagain
      · cases hflaw.symm.trans (flaw?_of_not_clean name hv)
        by_cases hw : Clean w
        · refine Or.inr ⟨rfl, fun hnodup => ?_, name, v, w, ?_, hv, ?_, hw⟩
          · rw [habsorbs.value_eq hnodup hbefore hvalues hvalues'] at hv
            exact hv hw
          · rw [hvalues]
            exact List.mem_append_right _ List.mem_cons_self
          · rw [hvalues']
            exact List.mem_append_right _ List.mem_cons_self
        · rw [flaw?_of_not_clean name hw] at hagain
          exact Or.inl hagain

end

end EnvFile

/-! ### Loading again -/

/-- The bindings of the nearest environment file: none if there is no such file or it holds no text. -/
def Source.bindings (source : Source) : List EnvFile.Binding :=
  match source.files.nearest? ".env" source.here with
  | none => []
  | some content => match fileText content with
    | .error _ => []
    | .ok text => EnvFile.read text

section
variable {source : Source} {env : Environment}

/-- An environment is completed by the bindings of the file, or by nothing if the file holds no text. -/
theorem completeEnvironment_cases (source : Source) :
    (∀ env, completeEnvironment source.files source.here env =
      EnvFile.addAll env (EnvFile.values env source.bindings)) ∨
    ∃ f, ∀ env, completeEnvironment source.files source.here env = (env, some f) := by
  unfold completeEnvironment Source.bindings
  cases source.files.nearest? ".env" source.here with
  | none => exact Or.inl fun env => rfl
  | some content =>
    dsimp only
    cases fileText content with
    | error f => exact Or.inr ⟨f, fun env => rfl⟩
    | ok text => exact Or.inl fun env => rfl

theorem load_env (source : Source) : source.load.2 = (completeEnvironment source.files source.here source.env).1 := by
  unfold Source.load load
  split
  · next hcompleted => rw [hcompleted]
  · next hcompleted =>
    rw [hcompleted]
    split <;> rfl

theorem load_of_fault {f : Fault} (h : completeEnvironment source.files source.here source.env = (env, some f)) :
    source.load = (.error (.fault f), env) := by
  unfold Source.load load
  rw [h]

/-- Sources that complete their environments to the same give the same. -/
theorem load_congr {other : Source} (hfiles : other.files = source.files) (hhere : other.here = source.here)
    (hpath : other.path = source.path) (hcompleted : completeEnvironment other.files other.here other.env =
      completeEnvironment source.files source.here source.env) : other.load = source.load := by
  unfold Source.load load
  rw [hcompleted, hfiles, hhere, hpath]

/-- Loading keeps all that the environment has and adds only names that the nearest environment file gives a value. -/
theorem load_adds (source : Source) : ∃ added : Environment, source.load.2 = source.env ++ added ∧
    ∀ e ∈ added, source.env.get? e.1 = none ∧ ∃ v, (e.1, some v) ∈ source.bindings := by
  rw [load_env]
  rcases completeEnvironment_cases source with hadds | ⟨f, hnothing⟩
  · rw [hadds]
    obtain ⟨added, hadded, hgiven⟩ := (EnvFile.addAll_adds (EnvFile.values source.env source.bindings) source.env).added
    refine ⟨added, hadded, fun e he => ?_⟩
    obtain ⟨hnew, hmem⟩ := hgiven e he
    exact ⟨hnew, EnvFile.mem_values hmem⟩
  · rw [hnothing]
    exact ⟨[], (List.append_nil _).symm, fun _ h => absurd h List.not_mem_nil⟩

/-- Loading keeps all that the environment has and adds only names that the nearest environment file gives a value, also if
    it fails. Loading once more gives the same and adds nothing, unless the first time ended at a value with a null in it
    that is read without one the second time, for which the file has to bind a name more than once. -/
theorem load_again (source : Source) :
    let first := source.load
    let again := { source with env := first.2 }.load
    (∃ added : Environment, first.2 = source.env ++ added ∧
      ∀ e ∈ added, source.env.get? e.1 = none ∧ ∃ v, (e.1, some v) ∈ source.bindings) ∧
    (∀ name v, source.env.get? name = some v → first.2.get? name = some v) ∧
    (again = first ∨ first.1 = .error (.fault EnvFile.nullByte) ∧ ¬(source.bindings.map (·.1)).Nodup ∧ ∃ name v w,
      (name, some v) ∈ EnvFile.values source.env source.bindings ∧ ¬EnvFile.Clean v ∧
      (name, some w) ∈ EnvFile.values first.2 source.bindings ∧ EnvFile.Clean w) := by
  intro first again
  obtain ⟨added, hadded, hnew⟩ := load_adds source
  refine ⟨⟨added, hadded, hnew⟩, fun name v hname => ?_, ?_⟩
  · show Data.Table.get? source.load.2 name = some v
    rw [hadded, Data.Table.get?_append, hname, Option.some_or]
  · have henv : first.2 = (completeEnvironment source.files source.here source.env).1 := load_env source
    rcases completeEnvironment_cases source with hadds | ⟨f, hnothing⟩
    · rw [hadds] at henv
      rcases EnvFile.addAll_again source.env source.bindings with hsame | ⟨hfault, hnodup, hread⟩
      · refine Or.inl (load_congr rfl rfl rfl ?_)
        show completeEnvironment source.files source.here first.2 = _
        rw [hadds, hadds, henv, hsame]
      · rw [← henv] at hread
        exact Or.inr ⟨congrArg (·.1) (load_of_fault ((hadds _).trans (Prod.ext rfl hfault))), hnodup, hread⟩
    · rw [hnothing] at henv
      refine Or.inl (load_congr rfl rfl rfl ?_)
      show completeEnvironment source.files source.here first.2 = _
      rw [henv]

end

/-- A name is bound to a null, referred to, and bound again: the reference is to the null until the environment holds the
    name. -/
theorem null_is_gone_the_second_time :
    let source : Source := { files := [([".env"], .file (Text.utf8 "X=\x00\nN=$\x7bX\x7d\nX=ok"))] }
    let first := source.load
    let again := { source with env := first.2 }.load
    first = (.error (.fault EnvFile.nullByte), [("X", "ok")]) ∧ again = (.ok {}, [("X", "ok"), ("N", "ok")]) ∧
      again ≠ first := by
  intro source first again
  have hbindings : EnvFile.read (Text.plainLines "X=\x00\nN=$\x7bX\x7d\nX=ok".toList) =
      [("X", some "\x00"), ("N", some "$\x7bX\x7d"), ("X", some "ok")] := by decide +kernel
  have hfile : source.files.nearest? ".env" source.here = some (Text.utf8 "X=\x00\nN=$\x7bX\x7d\nX=ok") := rfl
  have hcompleted (env : Environment) : completeEnvironment source.files source.here env = EnvFile.addAll env
      (EnvFile.values env [("X", some "\x00"), ("N", some "$\x7bX\x7d"), ("X", some "ok")]) := by
    rw [completeEnvironment, hfile]
    dsimp only
    rw [fileText_utf8 (by decide)]
    dsimp only
    rw [EnvFile.load, hbindings]
  have hfirst : first = (.error (.fault EnvFile.nullByte), [("X", "ok")]) := by
    have hvalues : EnvFile.values [] [("X", some "\x00"), ("N", some "$\x7bX\x7d"), ("X", some "ok")] =
        [("X", some "ok"), ("N", some "\x00")] := by decide +kernel
    refine load_of_fault ((hcompleted []).trans ?_)
    rw [hvalues]
    simp [EnvFile.addAll, Data.Table.get?, Data.Table.put, String.contains_char_eq, EnvFile.nullByte]
  have hagain : again = (.ok {}, [("X", "ok"), ("N", "ok")]) := by
    have hvalues : EnvFile.values [("X", "ok")] [("X", some "\x00"), ("N", some "$\x7bX\x7d"), ("X", some "ok")] =
        [("X", some "ok"), ("N", some "ok")] := by decide +kernel
    have hcomplete : completeEnvironment source.files source.here [("X", "ok")] = ([("X", "ok"), ("N", "ok")], none) := by
      rw [hcompleted, hvalues]
      simp [EnvFile.addAll, Data.Table.get?, Data.Table.put, String.contains_char_eq]
    show load source.files source.here first.2 source.path = _
    rw [hfirst, load, hcomplete]
    rfl
  refine ⟨hfirst, hagain, fun hsame => ?_⟩
  rw [hfirst, hagain] at hsame
  cases hsame

end Teletype.Settings
