import Teletype.Proofs.Session.Renumbering

/-! # Numbers do not matter

What is done with a store depends on its numbers only as names. If one store has more sessions, terminals and names
than another from some numbers on, and is the same otherwise, then every operation does the same to both, up to the
numbers. What the one has in addition is never touched. -/

namespace Teletype

/-! ### Operations -/

/-- The operation starts sessions only for managers with numbers below this. -/
def Operation.StartsWithin (count : Nat) : Operation → Prop
  | .start m _ _ => m < count
  | _ => True

/-- Whether a session is active, as its scope reports it. -/
def Store.reportsActive (st : Store) (k : Nat) : Bool := ((st.entry? k).map fun e => e.session.isActive).getD false

namespace Leftover
variable {g : Renumbering} (l : Leftover g) {st : Store}

theorem closeSession_store (hp : g.Past st) (k : Nat) :
    (l.store st).closeSession (g.index k) = l.result (fun u => u) (st.closeSession k) := by
  unfold Store.closeSession
  rw [l.entry_store hp]
  cases st.entry? k with
  | none => rfl
  | some e =>
    have hclose : (g.entry e).session.close (l.store st).host = _ := l.close_session e.session st.host
    dsimp only [Option.map_some]
    rw [hclose]
    exact Prod.ext rfl (l.setEntry_store hp _ k { e with session := (e.session.close st.host).2.1 })

theorem resizeSession_store (hp : g.Past st) (k : Nat) (columns rows : Int) :
    (l.store st).resizeSession (g.index k) columns rows = l.result (fun u => u) (st.resizeSession k columns rows) := by
  unfold Store.resizeSession
  rw [l.entry_store hp]
  cases st.entry? k with
  | none => rfl
  | some e =>
    have hresize : (g.entry e).session.resize (l.store st).host columns rows = _ := l.resize_session e.session st.host columns rows
    dsimp only [Option.map_some]
    rw [hresize]
    exact Prod.ext rfl (l.setEntry_store hp _ k { e with session := (e.session.resize st.host columns rows).2.1 })

theorem startSession_store (hp : g.Past st) (k : Nat) :
    (l.store st).startSession (g.index k) = l.result (fun u => u) (st.startSession k) := by
  unfold Store.startSession
  rw [l.entry_store hp]
  cases st.entry? k with
  | none => rfl
  | some e =>
    have hstarts := e.session.start_starts st.host
    dsimp only [Option.map_some]
    generalize e.session.start st.host = started at hstarts
    obtain ⟨r, s, h⟩ := started
    have hstart : (g.entry e).session.start (l.store st).host = _ := (l.starts hp.terminals hstarts).start_eq
    rw [hstart]
    cases r with
    | error f => exact Prod.ext rfl (l.setEntry_store hp h k { e with session := s })
    | ok device => exact Prod.ext rfl (l.setEntry_store hp h k { e with session := s, terminal := .begin device st.now })

theorem create_store (hp : g.Past st) (command : List String) (environment : Environment) (credential : Option Credential) :
    (l.store st).create command environment credential =
      (g.index (st.create command environment credential).1, l.store (st.create command environment credential).2) := by
  have hname : (l.store st).host.name = _ := l.host_name st.host hp.names
  have hfresh : (l.store st).fresh command environment credential = g.session (st.fresh command environment credential) := by
    unfold Store.fresh
    rw [hname]
    rfl
  rw [Store.create_eq, Store.create_eq, hfresh, hname, l.length_store hp]
  exact Prod.ext rfl (l.joined_store hp st.host.name.2 ⟨st.fresh command environment credential, {}, []⟩)

theorem closeReplaced_store (hp : g.Past st) (previous : Option Nat) :
    (l.store st).closeReplaced (previous.map g.index) = l.result (fun u => u) (st.closeReplaced previous) := by
  unfold Store.closeReplaced
  cases previous with
  | none => rfl
  | some k =>
    simp only [Option.map_some, Option.bind_some]
    rw [l.entry_store hp]
    cases he : st.entry? k with
    | none => rfl
    | some e =>
      simp only [Option.map_some]
      have hactive : (g.entry e).session.isActive = e.session.isActive := rfl
      rw [hactive]
      split
      · have htell : (l.store st).withHost ((l.store st).host.tell (.replacing (g.entry e).session.id)) =
            l.store (st.withHost (st.host.tell (.replacing e.session.id))) :=
          congrArg (fun host => ({ l.store st with host } : Store)) (l.host_tell st.host (.replacing e.session.id))
        have hp' : g.Past (st.withHost (st.host.tell (.replacing e.session.id))) := ⟨hp.sessions, hp.terminals, hp.names⟩
        rw [htell, l.closeSession_store hp']
        generalize Store.closeSession _ k = r
        obtain ⟨r, st'⟩ := r
        cases r with
        | ok u => rfl
        | error f =>
          cases f with
          | close reason =>
            have htold : (l.store st').withHost ((l.store st').host.tell (g.notice (.replacedNotClosed (.close reason)))) = _ :=
              congrArg (fun host => ({ l.store st' with host } : Store)) (l.host_tell st'.host _)
            cases reason <;> exact Prod.ext rfl htold
          | resize reason => cases reason <;> rfl
          | start | query | credential | unready | fault | settings => rfl
      · rfl

/-- A manager that there is starts its sessions in the same way with other numbers. -/
theorem start_store (hp : g.Past st) {m : Nat} (hm : m < st.managers.length) (restricted : Bool) (command : String) :
    (l.store st).start m restricted command = l.result g.index (st.start m restricted command) := by
  have hmanager : st.manager? m = some st.managers[m] := List.getElem?_eq_getElem hm
  generalize st.managers[m] = manager at hmanager
  unfold Store.start
  rw [l.manager?_store, hmanager]
  dsimp only [Option.map_some]
  have hgranted : (g.manager manager).granted restricted = manager.granted restricted := rfl
  rw [Store.credential_eq, Store.credential_eq, hgranted, l.inquired_store]
  cases hcredential : manager.granted restricted with
  | error f => exact Prod.ext (congrArg Except.error (failure_granted hcredential).symm) rfl
  | ok credential =>
    have henvironment : Shell.environment (g.manager manager).settings (l.store (st.inquired manager restricted)).environment =
        Shell.environment manager.settings (st.inquired manager restricted).environment := rfl
    have hp₁ : g.Past (st.inquired manager restricted) := ⟨hp.sessions, hp.terminals, hp.names⟩
    dsimp only
    rw [henvironment]
    cases henv : Shell.environment manager.settings (st.inquired manager restricted).environment with
    | error f =>
      unfold Shell.environment at henv
      split at henv <;> cases henv
      rfl
    | ok environment =>
      -- From here on the store changes with every step, and its numbers only grow, so they stay past the bounds.
      have hargv : Shell.argv (g.manager manager).settings command = Shell.argv manager.settings command := rfl
      have hp₂ : g.Past ((st.inquired manager restricted).create (Shell.argv manager.settings command) environment credential).2 :=
        hp₁.mono (Store.Move.joined rfl _ _ _ : Store.Move (.create [] []) _ _).grows
      dsimp only
      rw [hargv, l.create_store hp₁]
      generalize (st.inquired manager restricted).create _ environment credential = created at hp₂
      obtain ⟨k, st₂⟩ := created
      have hp₃ : g.Past (st₂.startSession k).2 := hp₂.mono (Store.perform_grows st₂ (.startSession k))
      dsimp only
      rw [l.startSession_store hp₂]
      generalize st₂.startSession k = started at hp₃
      obtain ⟨r, st₃⟩ := started
      cases r with
      | error f => rfl
      | ok u =>
        have hp₄ : g.Past (st₃.appoint m manager k) := ⟨hp₃.sessions, hp₃.terminals, hp₃.names⟩
        have hreplaced : ((l.store st₃).appoint m (g.manager manager) (g.index k)).closeReplaced (g.manager manager).current =
            l.result (fun u => u) ((st₃.appoint m manager k).closeReplaced manager.current) := by
          rw [l.appoint_store]
          exact l.closeReplaced_store hp₄ manager.current
        unfold Store.appoint at hreplaced
        dsimp only [result, Renumbering.outcome] at hreplaced ⊢
        rw [hreplaced]
        generalize Store.closeReplaced _ manager.current = replaced
        obtain ⟨r, st₄⟩ := replaced
        cases r <;> rfl

theorem leave_store (hp : g.Past st) (k : Nat) : (l.store st).leave (g.index k) = l.result (fun u => u) (st.leave k) := by
  unfold Store.leave
  rw [l.entry_store hp]
  cases st.entry? k with
  | none => rfl
  | some e =>
    have hopen : (g.entry e).session.isOpen = e.session.isOpen := isOpen_session e.session
    dsimp only [Option.map_some]
    rw [hopen]
    split
    · exact l.closeSession_store hp k
    · rfl

theorem onTerminal_store (hp : g.Past st) (k : Nat) (f : Terminal → Terminal) :
    (l.store st).onTerminal (g.index k) f = l.store (st.onTerminal k f) := by
  unfold Store.onTerminal
  rw [l.entry_store hp]
  cases st.entry? k with
  | none => rfl
  | some e => exact l.setEntry_store hp st.host k { e with terminal := f e.terminal }

theorem waitForExit_store (hp : g.Past st) (k : Nat) (span : Span) : (l.store st).waitForExit (g.index k) span =
    ((st.waitForExit k span).1, l.store (st.waitForExit k span).2) := by
  unfold Store.waitForExit
  rw [l.entry_store hp]
  cases st.entry? k with
  | none => rfl
  | some e =>
    have hchild : (g.entry e).session.child = e.session.child := rfl
    have hterminal : (g.entry e).terminal = e.terminal := rfl
    have hnow : (l.store st).now = st.now := rfl
    dsimp only [Option.map_some]
    rw [hchild, hterminal, hnow]
    split
    · have hset := l.setEntry_store hp st.host k { e with terminal := (e.terminal.waitForExit st.now span).2.1 }
      exact Prod.ext rfl (congrArg (fun st' => ({ st' with now := (e.terminal.waitForExit st.now span).2.2 } : Store)) hset)
    · rfl

theorem observe_store (hp : g.Past st) (k : Nat) (f : Entry → Except Fault Reply) : (l.store st).observe (g.index k) f =
    ((match st.entry? k with
      | none => .ok .nothing
      | some e => match f (g.entry e) with
        | .ok r => .ok r
        | .error fault => .error (.fault fault)), l.store (st.observe k f).2) := by
  unfold Store.observe
  rw [l.entry_store hp]
  cases st.entry? k <;> rfl

/-- What is read off a session is the same up to numbers if this holds for every entry. -/
theorem observe_answers (hp : g.Past st) (op : Operation) (k : Nat) {f : Entry → Except Fault Reply}
    (hf : ∀ e, f (g.entry e) = (f e).map (g.reply op) ∨ ∃ kind before id after,
      f e = .error ⟨kind, before ++ id ++ after⟩ ∧ f (g.entry e) = .error ⟨kind, before ++ g.id id ++ after⟩) :
    ((l.store st).observe (g.index k) f).2 = l.store (st.observe k f).2 ∧
      g.Answers op (st.observe k f).1 ((l.store st).observe (g.index k) f).1 := by
  rw [l.observe_store hp]
  refine ⟨rfl, ?_⟩
  unfold Store.observe
  cases st.entry? k with
  | none => exact Or.inl (congrArg Except.ok (Renumbering.reply_nothing op).symm)
  | some e =>
    dsimp only
    rcases hf e with hsame | ⟨kind, before, id, after, hfault, hfault'⟩
    · rw [hsame]
      cases f e <;> exact Or.inl rfl
    · rw [hfault, hfault']
      exact Or.inr ⟨kind, before, id, after, rfl, rfl⟩

theorem write_store (hp : g.Past st) (k : Nat) (text : String) (answers : List Answer) :
    ((l.store st).write (g.index k) text answers).2 = l.store (st.write k text answers).2 ∧
      (((l.store st).write (g.index k) text answers).1 = g.outcome (fun u => u) (st.write k text answers).1 ∨
        ∃ kind before id after, (st.write k text answers).1 = .error (.fault ⟨kind, before ++ id ++ after⟩) ∧
          ((l.store st).write (g.index k) text answers).1 = .error (.fault ⟨kind, before ++ g.id id ++ after⟩)) := by
  unfold Store.write
  rw [l.entry_store hp]
  cases st.entry? k with
  | none => exact ⟨rfl, Or.inl rfl⟩
  | some e =>
    have hsession : (g.entry e).session = g.session e.session := rfl
    have hset := l.setEntry_store hp st.host k { e with written := e.written ++ (e.session.write text answers).1 }
    dsimp only [Option.map_some]
    rw [hsession]
    rcases write_session e.session text answers with hwrite | ⟨hwrite, hwrite'⟩
    · rw [hwrite]
      refine ⟨hset, Or.inl ?_⟩
      cases (e.session.write text answers).2 <;> rfl
    · rw [hwrite] at hset ⊢
      rw [hwrite']
      exact ⟨hset, Or.inr ⟨.system, _, _, _, rfl, rfl⟩⟩

theorem current?_store (st : Store) (m : Nat) : (l.store st).current? m = (st.current? m).map g.index := by
  unfold Store.current?
  rw [l.manager?_store]
  cases st.manager? m <;> rfl

theorem stop_store (hp : g.Past st) (m : Nat) : (l.store st).stop m = l.result (fun u => u) (st.stop m) := by
  have hcurrent := l.current?_store st m
  unfold Store.current? at hcurrent
  unfold Store.stop
  rw [hcurrent]
  cases (st.manager? m).bind (·.current) with
  | none => rfl
  | some k => exact l.closeSession_store hp k

theorem resize_store (hp : g.Past st) (m : Nat) (columns rows : Int) :
    (l.store st).resize m columns rows = l.result (fun u => u) (st.resize m columns rows) := by
  have hcurrent := l.current?_store st m
  unfold Store.current? at hcurrent
  unfold Store.resize
  rw [hcurrent]
  cases (st.manager? m).bind (·.current) with
  | none => rfl
  | some k => exact l.resizeSession_store hp k columns rows

theorem reportsActive_store (hp : g.Past st) (k : Nat) : (l.store st).reportsActive (g.index k) = st.reportsActive k := by
  unfold Store.reportsActive
  rw [l.entry_store hp, Option.map_map]
  rfl

/-- An answer that is not a handle is the same up to numbers if the result that it is made from is. -/
theorem answers_of_result {α : Type} {f : α → α} {r r' : Except Failure α × Store} (hr : r' = l.result f r) (op : Operation)
    (answer : α → Reply) (hanswer : ∀ a, g.reply op (answer a) = answer (f a)) :
    r'.2 = l.store r.2 ∧ g.Answers op (r.1.map answer) (r'.1.map answer) := by
  subst hr
  obtain ⟨r, st'⟩ := r
  refine ⟨rfl, Or.inl ?_⟩
  cases r with
  | error e => rfl
  | ok a => exact congrArg Except.ok (hanswer a).symm

/-- Every operation does the same with other numbers. -/
theorem perform_store (hp : g.Past st) {op : Operation} (hop : op.StartsWithin st.managers.length) :
    ((l.store st).perform (g.operation op)).2 = l.store (st.perform op).2 ∧
      g.Answers op (st.perform op).1 ((l.store st).perform (g.operation op)).1 := by
  cases op with
  | start m restricted command =>
    exact l.answers_of_result (l.start_store hp hop restricted command) (.start m restricted command) .session fun _ => rfl
  | stop m => exact l.answers_of_result (l.stop_store hp m) (.stop m) (fun _ => .nothing) fun _ => rfl
  | resize m columns rows =>
    exact l.answers_of_result (l.resize_store hp m columns rows) (.resize m columns rows) (fun _ => .nothing) fun _ => rfl
  | create command environment =>
    have hcreate := l.create_store hp command environment none
    refine ⟨congrArg Prod.snd hcreate, Or.inl ?_⟩
    exact congrArg (fun r : Nat × Store => (Except.ok (Reply.session r.1) : Except Failure Reply)) hcreate
  | startSession k => exact l.answers_of_result (l.startSession_store hp k) (.startSession k) (fun _ => .nothing) fun _ => rfl
  | resizeSession k columns rows =>
    exact l.answers_of_result (l.resizeSession_store hp k columns rows) (.resizeSession k columns rows) (fun _ => .nothing)
      fun _ => rfl
  | close k => exact l.answers_of_result (l.closeSession_store hp k) (.close k) (fun _ => .nothing) fun _ => rfl
  | write k text answers =>
    obtain ⟨hstore, hanswer⟩ := l.write_store hp k text answers
    refine ⟨hstore, ?_⟩
    rcases hanswer with hsame | ⟨kind, before, id, after, hfault, hfault'⟩
    · exact (l.answers_of_result (Prod.ext hsame hstore) (.write k text answers) (fun _ => .nothing) fun _ => rfl).2
    · exact Or.inr ⟨kind, before, id, after, congrArg (Except.map _) hfault, congrArg (Except.map _) hfault'⟩
  | scope k =>
    show ((l.store st).leave (g.index k)).2 = _ ∧
      g.Answers (.scope k) _ (((l.store st).leave (g.index k)).1.map fun _ => .scope ((l.store st).reportsActive (g.index k)))
    rw [l.reportsActive_store hp]
    exact l.answers_of_result (l.leave_store hp k) (.scope k) (fun _ => .scope (st.reportsActive k)) fun _ => rfl
  | handle k =>
    refine l.observe_answers hp (.handle k) k fun e => ?_
    obtain ⟨⟨name, command, environment, credential, columns, rows, status, master, child⟩, terminal, written⟩ := e
    cases master with
    | none => exact Or.inr ⟨.value, "PTY session ", name, " was never started", rfl, rfl⟩
    | some m =>
      obtain ⟨n, isOpen, closeFault⟩ := m
      cases isOpen <;> exact Or.inl rfl
  | stream k =>
    refine l.observe_answers hp (.stream k) k fun e => ?_
    obtain ⟨⟨name, command, environment, credential, columns, rows, status, master, child⟩, terminal, written⟩ := e
    cases master with
    | none => exact Or.inr ⟨.general, "PTY session ", name, " was never started", rfl, rfl⟩
    | some m => exact Or.inl rfl
  | sameStream k =>
    refine l.observe_answers hp (.sameStream k) k fun e => ?_
    obtain ⟨⟨name, command, environment, credential, columns, rows, status, master, child⟩, terminal, written⟩ := e
    cases master with
    | none => exact Or.inr ⟨.general, "PTY session ", name, " was never started", rfl, rfl⟩
    | some m => exact Or.inl rfl
  | child k => exact l.observe_answers hp (.child k) k fun e => Or.inl rfl
  | exitCode k => exact l.observe_answers hp (.exitCode k) k fun e => Or.inl rfl
  | childExits k code =>
    have hchange := l.onTerminal_store hp k fun t => (t.advance st.now).apply st.now (.exit code)
    exact ⟨hchange, Or.inl rfl⟩
  | waitForExit k span exit =>
    let expecting (t : Terminal) : Terminal := (t.advance st.now).expect st.now exit
    have hexpecting := l.onTerminal_store hp k expecting
    have hmoves : Store.Moves (.waitForExit k span exit) st _ := Store.moves_onTerminal st k expecting
    have hwait := l.waitForExit_store (hp.mono hmoves.grows) k span
    rw [← hexpecting] at hwait
    show (((l.store st).onTerminal (g.index k) expecting).waitForExit (g.index k) span).2 = _ ∧
      g.Answers _ _ (.ok (.number (((l.store st).onTerminal (g.index k) expecting).waitForExit (g.index k) span).1))
    rw [hwait]
    exact ⟨rfl, Or.inl rfl⟩
  | setEnvironment entries => exact ⟨rfl, Or.inl rfl⟩

/-! ### Turns -/

theorem under_store (st : Store) (c : Circumstances) : (l.store st).under c = l.store (st.under c) := by
  have hmanagers : ((l.store st).under c).managers = (l.store (st.under c)).managers := by
    refine List.ext_getElem? fun m => ?_
    simp [Store.under, store, Renumbering.manager, Function.comp_def]
  exact congrArg (fun managers => ({ l.store st with host := ((l.store st).under c).host, managers } : Store)) hmanagers

theorem turn_store (hp : g.Past st) {t : Turn} (ht : t.operation.StartsWithin st.managers.length) :
    ((l.store st).turn (g.turn t)).2 = l.store (st.turn t).2 ∧
      g.Answers t.operation (st.turn t).1 ((l.store st).turn (g.turn t)).1 := by
  have hp' : g.Past (st.under t.circumstances) := ⟨hp.sessions, hp.terminals, hp.names⟩
  have ht' : t.operation.StartsWithin (st.under t.circumstances).managers.length := by
    rwa [show (st.under t.circumstances).managers.length = st.managers.length from List.length_mapIdx]
  have hturn : (l.store st).turn (g.turn t) = (l.store (st.under t.circumstances)).perform (g.operation t.operation) :=
    congrArg (fun st' : Store => st'.perform (g.operation t.operation)) (l.under_store st t.circumstances)
  rw [hturn]
  exact l.perform_store hp' ht'

end Leftover

/-- The second deed is the first, up to numbers. -/
structure Renumbering.Repeats (g : Renumbering) (op : Operation) (d d' : Store.Deed) : Prop where
  reply : g.Answers op d.reply d'.reply
  events : d'.events = d.events.map g.event
  announced : d'.announced = d.announced
  asked : d'.asked = d.asked

/-- The second store is the first, up to numbers, and every turn does the same to it. -/
structure Renumbering.Alike (g : Renumbering) (st st' : Store) : Prop where
  current : ∀ m, st'.current? m = (st.current? m).map g.index
  entry : ∀ k, st'.entry? (g.index k) = (st.entry? k).map g.entry
  deed : ∀ t : Turn, t.operation.StartsWithin st.managers.length → g.Repeats t.operation (st.deed t) (st'.deed (g.turn t))

namespace Leftover
variable {g : Renumbering} (l : Leftover g) {st : Store}

theorem store_alike (hp : g.Past st) : g.Alike st (l.store st) where
  current := l.current?_store st
  entry := l.entry_store hp
  deed := by
    intro t ht
    obtain ⟨hstore, hanswers⟩ := l.turn_store hp ht
    refine ⟨hanswers, ?_, ?_, ?_⟩
    · show ((l.store st).turn (g.turn t)).2.host.journal.drop (l.journal ++ st.host.journal.map g.event).length = _
      rw [hstore]
      show (l.journal ++ (st.turn t).2.host.journal.map g.event).drop _ = _
      rw [Store.journal_turn, List.map_append, ← List.append_assoc, List.drop_left]
    · show ((l.store st).turn (g.turn t)).2.inquiry.announced.drop (l.inquiry.announced ++ st.inquiry.announced).length = _
      rw [hstore]
      show (l.inquiry.announced ++ (st.turn t).2.inquiry.announced).drop _ = _
      rw [Store.announced_turn, ← List.append_assoc, List.drop_left]
    · show ((l.store st).turn (g.turn t)).2.inquiry.asked.drop (l.inquiry.asked ++ st.inquiry.asked).length = _
      rw [hstore]
      show (l.inquiry.asked ++ (st.turn t).2.inquiry.asked).drop _ = _
      rw [Store.asked_turn, ← List.append_assoc, List.drop_left]

theorem after_store (hp : g.Past st) {turns : List Turn} (hturns : ∀ t ∈ turns, t.operation.StartsWithin st.managers.length) :
    (l.store st).after (turns.map g.turn) = l.store (st.after turns) := by
  induction turns generalizing st with
  | nil => rfl
  | cons t turns ih =>
    have hgrows := st.turn_grows t
    rw [List.map_cons, Store.after_cons, Store.after_cons, (l.turn_store hp (hturns t List.mem_cons_self)).1]
    exact ih (hp.mono hgrows) fun x hx => hgrows.count.symm ▸ hturns x (List.mem_cons_of_mem t hx)

end Leftover

end Teletype
