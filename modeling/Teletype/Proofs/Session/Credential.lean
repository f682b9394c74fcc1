import Teletype.Proofs.Identity.Resolution
import Teletype.Proofs.Session.Run

/-! # No shell without the credential that was looked up

A restricted shell is spawned only with what the identity database says of the user at that time, all of it and
nothing else. If announcing the user or looking it up fails, or an id is not positive, nothing is asked of the host.
An unrestricted shell is spawned without a credential, and nobody is announced or looked up for it. -/

namespace Teletype

/-! ### What is granted -/

/-- Announcing a user meets a fault, or a question about it does, or an id of it is not positive. -/
def Identity.Denied (db : Database) (announcement : Option Fault) (user : String) : Prop :=
  (∃ f, announcement = some f) ∨ (∃ q ∈ db.questions user, ∃ f, db.fault? q = some f) ∨
    ∃ uid gid, db.uid user = .ok uid ∧ db.gid user = .ok gid ∧ (uid ≤ 0 ∨ gid ≤ 0)

namespace Manager
variable {manager : Manager} {credential : Option Credential}

theorem inquiry_unrestricted (manager : Manager) : manager.inquiry false = {} := rfl

theorem inquiry_restricted (manager : Manager) : manager.inquiry true =
    ⟨[manager.settings.runAsUser], if (manager.announce manager.settings.runAsUser).isSome then []
      else manager.database.answeredTo (manager.database.questions manager.settings.runAsUser)⟩ := by
  unfold inquiry
  dsimp only [if_true]
  cases manager.announce manager.settings.runAsUser with
  | some f => rfl
  | none =>
    dsimp only
    rw [Identity.resolve_asked]
    rfl

/-- What is granted to a restricted shell is all that the database knows of the user, whose ids are positive. -/
theorem granted_restricted (h : manager.granted true = .ok credential) :
    manager.announce manager.settings.runAsUser = none ∧
    ∃ uid gid names ids, manager.database.Knows manager.settings.runAsUser uid gid names ids ∧ 0 < uid ∧ 0 < gid ∧
      credential = some ⟨uid, gid, ids⟩ := by
  unfold granted at h
  dsimp only [if_true] at h
  cases hannounce : manager.announce manager.settings.runAsUser with
  | some f =>
    rw [hannounce] at h
    cases h
  | none =>
    rw [hannounce] at h
    dsimp only at h
    cases hresult : (Identity.resolve manager.database manager.settings.runAsUser).result with
    | error f =>
      rw [hresult] at h
      cases h
    | ok found =>
      rw [hresult] at h
      cases h
      obtain ⟨uid, gid, names, ids, hknows, huid, hgid, rfl⟩ := Identity.resolve_found hresult
      exact ⟨rfl, uid, gid, names, ids, hknows, huid, hgid, rfl⟩

/-- Nothing is told of a credential that is granted. -/
theorem notices_of_granted {restricted : Bool} (h : manager.granted restricted = .ok credential) :
    manager.notices restricted = [] := by
  cases restricted with
  | false => rfl
  | true =>
    unfold granted at h
    unfold notices
    dsimp only [if_true] at h ⊢
    cases hannounce : manager.announce manager.settings.runAsUser with
    | some f => rfl
    | none =>
      rw [hannounce] at h
      dsimp only at h ⊢
      cases hresult : (Identity.resolve manager.database manager.settings.runAsUser).result with
      | error f =>
        rw [hresult] at h
        cases h
      | ok found => exact Identity.resolve_untold hresult

theorem granted_congr (manager manager' : Manager) (hsettings : manager.settings = manager'.settings)
    (hdatabase : manager.database = manager'.database) (hannounce : manager.announce = manager'.announce) (restricted : Bool) :
    manager.granted restricted = manager'.granted restricted := by
  unfold granted
  rw [hsettings, hdatabase, hannounce]

theorem granted_of_denied (h : Identity.Denied manager.database (manager.announce manager.settings.runAsUser)
    manager.settings.runAsUser) : ∃ f, manager.granted true = .error f := by
  cases hgranted : manager.granted true with
  | error f => exact ⟨f, rfl⟩
  | ok credential =>
    obtain ⟨hannounce, uid, gid, names, ids, hknows, huid, hgid, -⟩ := granted_restricted hgranted
    rcases h with ⟨f, hf⟩ | ⟨q, hq, f, hf⟩ | ⟨uid', gid', huid', hgid', hids⟩
    · rw [hannounce] at hf
      cases hf
    · rw [hknows.answered q hq] at hf
      cases hf
    · cases hknows.uid.symm.trans huid'
      cases hknows.gid.symm.trans hgid'
      omega

end Manager

/-! ### What is spawned -/

/-- Nothing was asked of a host, but the operator may have been told something. -/
def Host.OnlyTold (h h' : Host) : Prop := ∃ notices : List Notice, h' = { h with journal := h.journal ++ notices.map .told }

/-- The child is the only one that these events ask for. All its streams are the subordinate side of a terminal that is
    opened just before, and that side is closed just after. -/
def Spawn.Sole (x : Spawn) (events : List Event) : Prop := ∃ master before after,
  x.streams = List.replicate 3 (Host.subordinateOf master) ∧
  events = before ++ [.opened master (Host.subordinateOf master), .spawning x, .closed (Host.subordinateOf master)] ++ after ∧
  ∀ y, .spawning y ∉ before ++ after

namespace Spawn.Sole
variable {x y : Spawn} {events more : List Event}

theorem mem (h : x.Sole events) : .spawning x ∈ events := by
  obtain ⟨master, before, after, -, rfl, -⟩ := h
  simp

theorem eq (h : x.Sole events) (hy : .spawning y ∈ events) : y = x := by
  obtain ⟨master, before, after, -, rfl, hnone⟩ := h
  specialize hnone y
  simp only [List.mem_append, List.mem_cons, reduceCtorEq, Event.spawning.injEq, List.not_mem_nil, or_false, false_or] at hy hnone
  rcases hy with (hy | hy) | hy
  · exact absurd (Or.inl hy) hnone
  · exact hy
  · exact absurd (Or.inr hy) hnone

theorem prepend (h : x.Sole events) (hmore : ∀ y, .spawning y ∉ more) : x.Sole (more ++ events) := by
  obtain ⟨master, before, after, hstreams, rfl, hnone⟩ := h
  refine ⟨master, more ++ before, after, hstreams, by simp only [List.append_assoc], fun y hy => ?_⟩
  rw [List.append_assoc] at hy
  exact (List.mem_append.mp hy).elim (hmore y) (hnone y)

theorem append (h : x.Sole events) (hmore : ∀ y, .spawning y ∉ more) : x.Sole (events ++ more) := by
  obtain ⟨master, before, after, hstreams, rfl, hnone⟩ := h
  refine ⟨master, before, after ++ more, hstreams, by simp only [List.append_assoc], fun y hy => ?_⟩
  rw [← List.append_assoc] at hy
  exact (List.mem_append.mp hy).elim (hnone y) (hmore y)

end Spawn.Sole

/-- A start asks for no child, as it does if the host opens no terminal, or for the child of the session alone. -/
theorem Session.Starts.spawns {s s' : Session} {h h' : Host} {r : Except Failure Device} (hstarts : Starts s h (r, s', h')) :
    ∃ events, h'.journal = h.journal ++ events ∧
      ((∃ f, h.nextFaults.opening = some f) ∧ (∀ x, .spawning x ∉ events) ∨
        h.nextFaults.opening = none ∧ ∃ subordinate, (s.spawnOn subordinate).Sole events) := by
  have hattempt (master : Nat) : (s.spawnOn (Host.subordinateOf master)).Sole (s.attempt master) :=
    ⟨master, [], [], rfl, rfl, fun _ => List.not_mem_nil⟩
  cases hstarts with
  | unopened f hopening =>
    refine ⟨_, rfl, Or.inl ⟨⟨f, hopening⟩, fun x hx => ?_⟩⟩
    split at hx <;> simp at hx
  | refused f hopening hspawning hrefuses =>
    exact ⟨_, List.append_assoc .., Or.inr ⟨hopening, _, (hattempt _).append (by simp)⟩⟩
  | broken f hopening | connected hopening => exact ⟨_, rfl, Or.inr ⟨hopening, _, hattempt _⟩⟩

/-- A child that is asked for once: with the words that the settings make of a command, the variables that they make of
    those of a parent, and a credential. -/
structure Spawn.Configured (s : ShellSettings) (command : String) (parent : Environment) (credential : Option Credential)
    (events : List Event) (x : Spawn) : Prop where
  argv : x.argv = Shell.argv s command
  environment : Shell.environment s parent = .ok x.environment
  leads : x.leads = true
  credential : x.credential = credential
  sole : x.Sole events

namespace Store

section
variable {st : Store}

/-- Closing a session spawns nothing and looks up nobody. -/
theorem closeSession_spawns (st : Store) (k : Nat) : (st.closeSession k).2.inquiry = st.inquiry ∧
    ∃ events, (st.closeSession k).2.host.journal = st.host.journal ++ events ∧ ∀ x, .spawning x ∉ events := by
  cases he : st.entry? k with
  | none =>
    rw [closeSession_of_none he]
    exact ⟨rfl, [], (List.append_nil _).symm, fun _ => List.not_mem_nil⟩
  | some e =>
    cases hopen : e.session.isOpen with
    | false =>
      rw [closeSession_of_not_isOpen he hopen]
      exact ⟨rfl, [], (List.append_nil _).symm, fun _ => List.not_mem_nil⟩
    | true =>
      obtain ⟨m, hm, hmopen⟩ := Session.isOpen_iff.mp hopen
      rw [closeSession_of_open he hm hmopen]
      exact ⟨rfl, [.closingMaster m.handle], rfl, by simp⟩

theorem closeReplaced_spawns (st : Store) (previous : Option Nat) : (st.closeReplaced previous).2.inquiry = st.inquiry ∧
    ∃ events, (st.closeReplaced previous).2.host.journal = st.host.journal ++ events ∧ ∀ x, .spawning x ∉ events := by
  have hnothing : st.inquiry = st.inquiry ∧
      ∃ events, st.host.journal = st.host.journal ++ events ∧ ∀ x, .spawning x ∉ events :=
    ⟨rfl, [], (List.append_nil _).symm, fun _ => List.not_mem_nil⟩
  unfold closeReplaced
  split
  · exact hnothing
  · next k s _ =>
    split
    · obtain ⟨hinquiry, events, hjournal, hnone⟩ := closeSession_spawns (st.withHost (st.host.tell (.replacing s.id))) k
      have hjournal' : _ = st.host.journal ++ ([.told (.replacing s.id)] ++ events) := hjournal.trans (List.append_assoc ..)
      have hnone' : ∀ x, .spawning x ∉ [.told (.replacing s.id)] ++ events := by simpa using hnone
      dsimp only
      split
      · next reason st' hclosed =>
        rw [hclosed] at hinquiry hjournal'
        refine ⟨hinquiry, _, (congrArg (· ++ [Event.told (.replacedNotClosed (.close reason))]) hjournal').trans
          (List.append_assoc ..), ?_⟩
        simpa using hnone
      · next hclosed =>
        rw [hclosed] at hinquiry hjournal'
        exact ⟨hinquiry, _, hjournal', hnone'⟩
      · next hclosed =>
        rw [hclosed] at hinquiry hjournal'
        exact ⟨hinquiry, _, hjournal', hnone'⟩
    · exact hnothing

/-- A start ends with its inquiry unless a credential is granted. It asks for no child unless there are variables for it
    and the host opens a terminal, and then for one. -/
theorem start_spawns {m : Nat} {manager : Manager} (hm : st.manager? m = some manager) (restricted : Bool) (command : String) :
    (∃ f, manager.granted restricted = .error f ∧ st.start m restricted command = (.error f, st.inquired manager restricted)) ∨
    ∃ credential events, manager.granted restricted = .ok credential ∧
      (st.start m restricted command).2.inquiry = (st.inquired manager restricted).inquiry ∧
      (st.start m restricted command).2.host.journal = (st.inquired manager restricted).host.journal ++ events ∧
      (((∃ f, Shell.environment manager.settings st.environment = .error f) ∨ ∃ f, st.host.nextFaults.opening = some f) ∧
          (∀ x, .spawning x ∉ events) ∨
        st.host.nextFaults.opening = none ∧ ∃ x, Spawn.Configured manager.settings command st.environment credential events x) := by
  have hbegins := start_begins hm restricted command
  generalize st.start m restricted command = result at hbegins
  cases hbegins with
  | unresolved f hgranted => exact Or.inl ⟨f, hgranted, rfl⟩
  | homeless credential f hgranted henvironment =>
    exact Or.inr ⟨credential, [], hgranted, rfl, (List.append_nil _).symm, Or.inl ⟨Or.inl ⟨f, henvironment⟩,
      fun _ => List.not_mem_nil⟩⟩
  | unstarted credential environment f s h hgranted henvironment hstarts =>
    obtain ⟨events, hjournal, hspawns⟩ := hstarts.spawns
    refine Or.inr ⟨credential, events, hgranted, rfl, hjournal, ?_⟩
    rcases hspawns with ⟨hfault, hnone⟩ | ⟨hopens, subordinate, hsole⟩
    · exact Or.inl ⟨Or.inr hfault, hnone⟩
    · exact Or.inr ⟨hopens, _, rfl, henvironment, rfl, rfl, hsole⟩
  | started credential environment device s h r st' hgranted henvironment hstarts hreplaced =>
    obtain ⟨events, hjournal, hspawns⟩ := hstarts.spawns
    -- What comes after the spawn, in favour of the new session, spawns nothing more.
    obtain ⟨hinquiry, more, hmore, hnomore⟩ := closeReplaced_spawns (((st.inquired manager restricted).joined
      ⟨s, .begin device st.now, []⟩ h).appoint m manager st.entries.length) manager.current
    rw [hreplaced] at hinquiry hmore
    refine Or.inr ⟨credential, events ++ more, hgranted, hinquiry, ?_, ?_⟩
    · rw [hmore, ← List.append_assoc]
      exact congrArg (· ++ more) hjournal
    · rcases hspawns with ⟨hfault, hnone⟩ | ⟨hopens, subordinate, hsole⟩
      · exact Or.inl ⟨Or.inr hfault, fun x hx => (List.mem_append.mp hx).elim (hnone x) (hnomore x)⟩
      · exact Or.inr ⟨hopens, _, rfl, henvironment, rfl, rfl, hsole.append hnomore⟩

end

section
variable {st : Store} {c : Circumstances} {m : Nat} {now : Manager}

/-- A turn that starts a session announces and asks what the manager does, as it is then. -/
theorem deed_inquiry (hnow : (st.under c).manager? m = some now) (restricted : Bool) (command : String) :
    (st.deed ⟨c, .start m restricted command⟩).announced = (now.inquiry restricted).announced ∧
    (st.deed ⟨c, .start m restricted command⟩).asked = (now.inquiry restricted).asked := by
  have hsame : ((st.under c).start m restricted command).2.inquiry = ((st.under c).inquired now restricted).inquiry := by
    rcases start_spawns hnow restricted command with ⟨f, -, hresult⟩ | ⟨credential, events, -, hinquiry, -, -⟩
    · rw [hresult]
    · exact hinquiry
  show ((st.under c).start m restricted command).2.inquiry.announced.drop st.inquiry.announced.length = _ ∧
    ((st.under c).start m restricted command).2.inquiry.asked.drop st.inquiry.asked.length = _
  rw [hsame]
  exact ⟨List.drop_left, List.drop_left⟩

/-- Such a turn asks for no child, or for the one that the manager asks for then. It does if the manager is granted a
    credential, there are variables for the child and the host opens a terminal. -/
theorem deed_configured (hnow : (st.under c).manager? m = some now) (restricted : Bool) (command : String) :
    let events := (st.deed ⟨c, .start m restricted command⟩).events
    ((∃ f, now.granted restricted = .error f) ∨ (∃ f, Shell.environment now.settings st.environment = .error f) ∨
        ∃ f, (st.under c).host.nextFaults.opening = some f) ∧ (∀ x, .spawning x ∉ events) ∨
      (st.under c).host.nextFaults.opening = none ∧
        ∃ credential x, now.granted restricted = .ok credential ∧
          Spawn.Configured now.settings command st.environment credential events x := by
  intro events
  have hevents : events = ((st.under c).start m restricted command).2.host.journal.drop st.host.journal.length := rfl
  have htold {notices : List Notice} (x : Spawn) : .spawning x ∉ notices.map Event.told := by simp
  have hinquired : ((st.under c).inquired now restricted).host.journal =
      st.host.journal ++ (now.notices restricted).map .told := rfl
  rcases start_spawns hnow restricted command with ⟨f, hrefused, hresult⟩ | ⟨credential, asked, hgranted, -, hjournal, hspawns⟩
  · rw [hresult, hinquired, List.drop_left] at hevents
    exact Or.inl ⟨Or.inl ⟨f, hrefused⟩, hevents ▸ htold⟩
  · rw [hjournal, hinquired, List.append_assoc, List.drop_left] at hevents
    rw [hevents]
    rcases hspawns with ⟨hfault, hnone⟩ | ⟨hopens, x, hx⟩
    · exact Or.inl ⟨Or.inr hfault, fun x hx => (List.mem_append.mp hx).elim (htold x) (hnone x)⟩
    · exact Or.inr ⟨hopens, credential, x, hgranted, { hx with sole := hx.sole.prepend htold }⟩

/-- What such a turn spawns has the credential that the manager is granted then. -/
theorem deed_spawns (hnow : (st.under c).manager? m = some now) {restricted : Bool} {command : String} {x : Spawn}
    (hx : .spawning x ∈ (st.deed ⟨c, .start m restricted command⟩).events) : now.granted restricted = .ok x.credential := by
  rcases deed_configured hnow restricted command with ⟨-, hnone⟩ | ⟨-, credential, y, hgranted, hy⟩
  · exact absurd hx (hnone x)
  · rw [hy.sole.eq hx, hy.credential]
    exact hgranted

/-- Such a turn asks nothing of the host if the manager is granted nothing. -/
theorem turn_of_not_granted (hnow : (st.under c).manager? m = some now) {restricted : Bool} {f : Failure}
    (hgranted : now.granted restricted = .error f) (command : String) :
    (st.turn ⟨c, .start m restricted command⟩).1 = .error f ∧
      (st.under c).host.OnlyTold (st.turn ⟨c, .start m restricted command⟩).2.host := by
  show ((st.under c).start m restricted command).1.map Reply.session = _ ∧
    (st.under c).host.OnlyTold ((st.under c).start m restricted command).2.host
  rcases start_spawns hnow restricted command with ⟨f', hf, hresult⟩ | ⟨credential, events, hok, -⟩
  · cases hf.symm.trans hgranted
    rw [hresult]
    exact ⟨rfl, now.notices restricted, rfl⟩
  · cases hgranted.symm.trans hok

/-- The manager as a start finds it: with its own settings, and with the database and the hook of the turn. -/
theorem manager?_under_after {managers : List Manager} {manager : Manager} (hm : managers[m]? = some manager)
    (turns : List Turn) (c : Circumstances) : ∃ now, (((founded managers).after turns).under c).manager? m = some now ∧
      now.database = c.database m ∧ now.announce = c.announce m ∧ now.settings = manager.settings := by
  have hfounded : (founded managers).manager? m = some { manager with current := none } := by
    simp [manager?, founded, hm]
  obtain ⟨manager', hmanager', hsettings⟩ := (after_grows _ turns).manager? hfounded
  refine ⟨{ manager' with database := c.database m, announce := c.announce m }, ?_, rfl, rfl, hsettings⟩
  rw [manager?_under, hmanager']
  rfl

end

/-- Whatever went before, an unrestricted start announces and looks up nobody and spawns without a credential. A
    restricted one announces the user and then looks it up in the database as it is now. If that is denied, the
    start fails and nothing is asked of the host; and all that it spawns has exactly what the database knows. -/
theorem start_uses_credential_just_resolved (managers : List Manager) (turns : List Turn) (c : Circumstances) (m : Nat)
    (manager : Manager) (hm : managers[m]? = some manager) (restricted : Bool) (command : String) :
    let st := (founded managers).after turns
    let t : Turn := ⟨c, .start m restricted command⟩
    let deed := st.deed t
    let db := c.database m
    let user := manager.settings.runAsUser
    (restricted = false →
      deed.announced = [] ∧ deed.asked = [] ∧ ∀ x, .spawning x ∈ deed.events → x.credential = none) ∧
    (restricted = true →
      deed.announced = [user] ∧
      deed.asked = (if (c.announce m user).isSome then [] else db.answeredTo (db.questions user)) ∧
      (Identity.Denied db (c.announce m user) user →
        (∃ f, deed.reply = .error f) ∧ (st.under c).host.OnlyTold (st.turn t).2.host) ∧
      ∀ x, .spawning x ∈ deed.events → deed.asked = db.questions user ∧
        ∃ uid gid names ids, db.Knows user uid gid names ids ∧ 0 < uid ∧ 0 < gid ∧ x.credential = some ⟨uid, gid, ids⟩) := by
  intro st t deed db user
  obtain ⟨now, hnow, hdb, hhook, hsettings⟩ := manager?_under_after hm turns c
  have hinquiry := deed_inquiry hnow restricted command
  have hspawns {x : Spawn} (hx : .spawning x ∈ deed.events) : now.granted restricted = .ok x.credential := deed_spawns hnow hx
  constructor
  · rintro rfl
    rw [now.inquiry_unrestricted] at hinquiry
    refine ⟨hinquiry.1, hinquiry.2, fun x hx => ?_⟩
    exact (Except.ok.inj (hspawns hx)).symm
  · rintro rfl
    rw [now.inquiry_restricted, hsettings, hhook, hdb] at hinquiry
    refine ⟨hinquiry.1, hinquiry.2, fun hdenied => ?_, fun x hx => ?_⟩
    · have hnow_denied : Identity.Denied now.database (now.announce now.settings.runAsUser) now.settings.runAsUser := by
        rw [hsettings, hhook, hdb]
        exact hdenied
      obtain ⟨f, hf⟩ := now.granted_of_denied hnow_denied
      have hturn := turn_of_not_granted hnow hf command
      exact ⟨⟨f, hturn.1⟩, hturn.2⟩
    · obtain ⟨hannounce, uid, gid, names, ids, hknows, huid, hgid, hcredential⟩ := Manager.granted_restricted (hspawns hx)
      rw [hsettings, hhook] at hannounce
      rw [hsettings, hdb] at hknows
      refine ⟨?_, uid, gid, names, ids, hknows, huid, hgid, hcredential⟩
      rw [hinquiry.2, hannounce]
      exact Identity.Database.answeredTo_of_answered hknows.answered

/-- A database that knows everybody by the same two ids and in no group. -/
def groupless : Identity.Database where
  uid := fun _ => .ok 1001
  gid := fun _ => .ok 1002
  groupNames := fun _ => .ok []
  groupId := fun name => .error (.missing name)

theorem groupless_shell_has_no_groups :
    let managers : List Manager := [{ database := groupless }]
    let t : Turn := ⟨{ database := fun _ => groupless }, .start 0 true "id"⟩
    let deed := ((founded managers).after [t]).deed t
    managers[0]? = some { database := groupless } ∧ deed.announced = ["session-user"] ∧
      deed.asked = [(.uid, "session-user"), (.gid, "session-user"), (.groups, "session-user")] ∧
      ∃ x, .spawning x ∈ deed.events ∧ x.credential = some ⟨1001, 1002, []⟩ := by
  intro managers t deed
  obtain ⟨-, hrestricted⟩ :=
    start_uses_credential_just_resolved managers [t] t.circumstances 0 { database := groupless } rfl true "id"
  obtain ⟨hannounced, hasked, -, hspawns⟩ := hrestricted rfl
  have hspawned : ∃ x, .spawning x ∈ deed.events := by
    have hany : deed.events.any (fun event => event matches .spawning _) = true := by decide +kernel
    obtain ⟨event, hevent, hspawning⟩ := List.any_eq_true.mp hany
    cases event with
    | spawning x => exact ⟨x, hevent⟩
    | opened | closed | resizing | closingMaster | told => cases hspawning
  obtain ⟨x, hx⟩ := hspawned
  obtain ⟨-, uid, gid, names, ids, hknows, -, -, hcredential⟩ := hspawns x hx
  cases hknows.uid
  cases hknows.gid
  cases hknows.groupNames
  obtain rfl : ids = [] := by simpa using hknows.groupIds
  exact ⟨rfl, hannounced, hasked, x, hx, hcredential⟩

end Store

end Teletype
