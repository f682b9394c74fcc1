import Teletype.Proofs.Data.Table
import Teletype.Proofs.Session.Run

/-! # The variables that shells inherit

Only the operation that is there for it changes the variables of the process. A shell has them all: its terminal type,
its home directory and, if there is none, its language are set, and every other variable is as it was. -/

namespace Teletype

/-! ### The variables of a shell -/

namespace Settings
variable {env : Environment} {name : String}

theorem setting?_eq_some {v : String} : setting? env name = some v ↔ env.get? name = some v ∧ v ≠ "" := by
  unfold setting?
  rw [Option.filter_eq_some_iff, bne_iff_ne]

theorem setting?_eq_none : setting? env name = none ↔ (env.get? name).getD "" = "" := by
  unfold setting?
  cases env.get? name <;> simp

end Settings

namespace Shell
open Settings (setting? setting?_eq_some setting?_eq_none)

/-- What a child's variables are, next to those of its parent. -/
structure Inherits (s : ShellSettings) (home : String) (parent child : Environment) : Prop where
  term : child.get? "TERM" = some s.term
  home : child.get? "HOME" = some home
  language : child.get? "LANG" = some ((setting? parent "LANG").getD s.defaultLang)
  others : ∀ name, name ≠ "TERM" → name ≠ "HOME" → name ≠ "LANG" → child.get? name = parent.get? name

variable {s : ShellSettings} {home : String} {parent child : Environment}

/-- How the variables of a shell come about: a language is given only if the parent has none. -/
theorem environment_cases (h : environment s parent = .ok child) : ∃ home, s.home = .ok home ∧
    ((setting? parent "LANG" = none ∧
        child = ((parent.put "TERM" s.term).put "HOME" home).put "LANG" s.defaultLang) ∨
      ∃ lang, setting? parent "LANG" = some lang ∧ child = (parent.put "TERM" s.term).put "HOME" home) := by
  unfold environment at h
  cases hhome : s.home with
  | error e =>
    rw [hhome] at h
    cases h
  | ok home =>
    rw [hhome] at h
    refine ⟨home, rfl, ?_⟩
    dsimp only at h
    cases hlang : setting? parent "LANG" with
    | none =>
      rw [if_pos (beq_iff_eq.mpr (setting?_eq_none.mp hlang))] at h
      exact Or.inl ⟨rfl, (Except.ok.inj h).symm⟩
    | some lang =>
      have hset : (parent.get? "LANG").getD "" ≠ "" := fun hunset => by
        rw [setting?_eq_none.mpr hunset] at hlang
        cases hlang
      rw [if_neg (mt beq_iff_eq.mp hset)] at h
      exact Or.inr ⟨lang, rfl, (Except.ok.inj h).symm⟩

/-- The variables of a shell are those of its parent but for the three that a shell is given. -/
theorem environment_inherits (h : environment s parent = .ok child) : ∃ home, s.home = .ok home ∧
    Inherits s home parent child := by
  obtain ⟨home, hhome, ⟨hlang, rfl⟩ | ⟨lang, hlang, rfl⟩⟩ := environment_cases h
  · refine ⟨home, hhome, ?_, ?_, ?_, fun name hterm hhome hlanguage => ?_⟩
    · simp [Data.Table.get?_put]
    · simp [Data.Table.get?_put]
    · simp [Data.Table.get?_put, hlang]
    · simp [Data.Table.get?_put, hterm, hhome, hlanguage]
  · refine ⟨home, hhome, ?_, ?_, ?_, fun name hterm hhome hlanguage => ?_⟩
    · simp [Data.Table.get?_put]
    · simp [Data.Table.get?_put]
    · simp [Data.Table.get?_put, hlang, (setting?_eq_some.mp hlang).1]
    · simp [Data.Table.get?_put, hterm, hhome]

/-- A shell that is started with the variables of a shell like it has the same variables. -/
theorem environment_again (h : environment s parent = .ok child) : environment s child = .ok child := by
  obtain ⟨home, hhome, hchild⟩ := environment_inherits h
  unfold environment
  rw [hhome]
  dsimp only
  rw [Data.Table.put_of_get? hchild.term, Data.Table.put_of_get? hchild.home]
  by_cases hunset : (child.get? "LANG").getD "" = ""
  · -- Only a default that is empty leaves the language empty, and then it is given once more.
    have hdefault : child.get? "LANG" = some s.defaultLang := by
      rw [hchild.language] at hunset ⊢
      cases hlang : setting? parent "LANG" with
      | none => rfl
      | some lang =>
        rw [hlang] at hunset
        exact absurd hunset (setting?_eq_some.mp hlang).2
    rw [if_pos (beq_iff_eq.mpr hunset), Data.Table.put_of_get? hdefault]
  · rw [if_neg (mt beq_iff_eq.mp hunset)]

end Shell

/-! ### What changes the variables -/

/-- The operation changes the variables that children inherit. -/
def Operation.setsEnvironment : Operation → Bool
  | .setEnvironment _ => true
  | _ => false

namespace Store

theorem closeSession_environment (st : Store) (k : Nat) : (st.closeSession k).2.environment = st.environment := by
  unfold closeSession
  split <;> rfl

theorem closeReplaced_environment (st : Store) (previous : Option Nat) :
    (st.closeReplaced previous).2.environment = st.environment := by
  unfold closeReplaced
  split
  · rfl
  · next k s _ =>
    split
    · have hclose := closeSession_environment (st.withHost (st.host.tell (.replacing s.id))) k
      dsimp only
      split <;> next hclosed => rw [hclosed] at hclose; exact hclose
    · rfl

theorem onTerminal_environment (st : Store) (k : Nat) (f : Terminal → Terminal) :
    (st.onTerminal k f).environment = st.environment := by
  unfold onTerminal
  split <;> rfl

theorem waitForExit_environment (st : Store) (k : Nat) (span : Span) :
    (st.waitForExit k span).2.environment = st.environment := by
  unfold waitForExit
  split
  · rfl
  · split <;> rfl

theorem observe_environment (st : Store) (k : Nat) (f : Entry → Except Fault Reply) :
    (st.observe k f).2.environment = st.environment := by
  unfold observe
  split <;> rfl

theorem resizeSession_environment (st : Store) (k : Nat) (columns rows : Int) :
    (st.resizeSession k columns rows).2.environment = st.environment := by
  unfold resizeSession
  split <;> rfl

theorem start_environment (st : Store) (m : Nat) (restricted : Bool) (command : String) :
    (st.start m restricted command).2.environment = st.environment := by
  cases hm : st.manager? m with
  | none =>
    unfold start
    rw [hm]
  | some manager =>
    have hbegins := start_begins hm restricted command
    generalize st.start m restricted command = result at hbegins
    cases hbegins with
    | unresolved | homeless | unstarted => rfl
    | started credential environment device s h r st' hgranted henvironment hstarts hreplaced =>
      have hsame := closeReplaced_environment (((st.inquired manager restricted).joined ⟨s, .begin device st.now, []⟩ h).appoint
        m manager st.entries.length) manager.current
      rw [hreplaced] at hsame
      exact hsame

/-- All other operations leave the variables as they are. -/
theorem perform_environment (st : Store) {op : Operation} (hop : op.setsEnvironment = false) :
    (st.perform op).2.environment = st.environment := by
  cases op with
  | start m restricted command => exact st.start_environment m restricted command
  | stop m =>
    show (st.stop m).2.environment = _
    unfold stop
    split
    · rfl
    · exact st.closeSession_environment _
  | resize m columns rows =>
    show (st.resize m columns rows).2.environment = _
    unfold resize
    split
    · rfl
    · exact st.resizeSession_environment _ columns rows
  | create command environment => rfl
  | startSession k =>
    show (st.startSession k).2.environment = _
    unfold startSession
    split
    · rfl
    · split <;> rfl
  | resizeSession k columns rows => exact st.resizeSession_environment k columns rows
  | close k => exact st.closeSession_environment k
  | write k text answers =>
    show (st.write k text answers).2.environment = _
    unfold write
    split <;> rfl
  | scope k =>
    show (st.leave k).2.environment = _
    unfold leave
    split
    · split
      · exact st.closeSession_environment k
      · rfl
    · rfl
  | handle k | stream k | sameStream k | child k | exitCode k => exact st.observe_environment k _
  | childExits k code => exact st.onTerminal_environment k _
  | waitForExit k span exit => exact (waitForExit_environment _ k span).trans (st.onTerminal_environment k _)
  | setEnvironment entries => cases hop

theorem turn_environment (st : Store) {t : Turn} (ht : t.operation.setsEnvironment = false) :
    (st.turn t).2.environment = st.environment :=
  perform_environment (st.under t.circumstances) ht

/-- An operation that changes the variables does so in the same way in any store, and makes no session. -/
theorem turn_setsEnvironment {st st' : Store} (henvironment : st'.environment = st.environment) {t : Turn}
    (ht : t.operation.setsEnvironment = true) :
    (st'.turn t).2.environment = (st.turn t).2.environment ∧ (st'.turn t).2.entries = st'.entries := by
  obtain ⟨circumstances, operation⟩ := t
  cases operation with
  | setEnvironment entries => exact ⟨congrArg (·.putAll entries) henvironment, rfl⟩
  | _ => cases ht

end Store

end Teletype
