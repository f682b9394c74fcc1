import Teletype.Proofs.Session.Credential

/-! # What a failing lookup leads to

The first question without an answer ends a resolution, and it is what the failure and the one notice are about; the ids
that were found before it do not matter. Where all questions are answered, only the ids do. A start that looks up the
restricted user puts the questions anew, and fails as they fail. -/

namespace Teletype

/-! ### One resolution -/

namespace Identity

/-- All faults that a database meets questions with are of the families that mean there is no answer. -/
def Database.Refuses (db : Database) : Prop := ∀ q f, db.fault? q = some f → f.refusesLookup = true

section
variable {db : Database} {user : String}

theorem Resolution.stopped_of_refuses (asked : List Question) (q : Question) {f : Fault} (h : f.refusesLookup = true) :
    Resolution.stopped asked q f = .failed asked q f := by
  rw [Resolution.stopped, if_pos h]

theorem resolve_asked_prefix (db : Database) (user : String) : (resolve db user).asked <+: db.questions user := by
  rw [resolve_asked]
  generalize db.questions user = questions
  induction questions with
  | nil => exact List.prefix_rfl
  | cons q questions ih =>
    cases hq : db.fault? q with
    | some f =>
      rw [Database.answeredTo_of_fault hq]
      exact (List.prefix_cons_inj q).mpr List.nil_prefix
    | none =>
      rw [Database.answeredTo_of_answer hq]
      exact (List.prefix_cons_inj q).mpr ih

/-- If all questions have an answer, all is known that there is to know. -/
theorem knows_of_answered (h : ∀ q ∈ db.questions user, db.fault? q = none) :
    ∃ uid gid names ids, db.Knows user uid gid names ids := by
  have hresolves := resolve_resolves db user
  generalize resolve db user = r at hresolves
  cases hresolves with
  | stopped before after q f hsplit hbefore hfault =>
    have hanswer := h q (hsplit ▸ List.mem_append_right before List.mem_cons_self)
    cases hfault.symm.trans hanswer
  | refused uid gid names ids hknows | found uid gid names ids hknows => exact ⟨uid, gid, names, ids, hknows⟩

/-- The operator gets one notice of a resolution that fails, an error, and none of one that does not. -/
theorem resolve_told (h : db.Refuses) (user : String) :
    (resolve db user).notices.map Notice.level = if (resolve db user).result.isOk then [] else [.error] := by
  have hresolves := resolve_resolves db user
  generalize resolve db user = r at hresolves
  cases hresolves with
  | stopped before after q f hsplit hbefore hfault =>
    rw [Resolution.stopped_of_refuses _ q (h q f hfault)]
    rfl
  | refused | found => rfl

end

end Identity

/-! ### Starts -/

namespace Store

section
variable {st : Store} {c : Circumstances} {m : Nat} {now : Manager}

/-- A start whose user is announced well puts the questions of the resolution, tells its notices first, and fails as it fails
    with nothing more told or done. What it spawns has the credential that was found. -/
theorem deed_resolves (hnow : (st.under c).manager? m = some now) (hannounce : now.announce now.settings.runAsUser = none)
    (command : String) :
    let r := Identity.resolve now.database now.settings.runAsUser
    let deed := st.deed ⟨c, .start m true command⟩
    deed.asked = r.asked ∧ (∀ f, r.result = .error f → deed.reply = .error f ∧ deed.events = r.notices.map .told) ∧
      ∀ x, .spawning x ∈ deed.events → ∃ credential, r.result = .ok credential ∧ x.credential = some credential := by
  intro r deed
  have hgranted : now.granted true = r.result.map some := by
    unfold Manager.granted
    simp only [if_true, hannounce]
    rfl
  have hinquiry : (now.inquiry true).asked = r.asked := by
    unfold Manager.inquiry
    simp only [if_true, hannounce]
    rfl
  have hnotices : now.notices true = r.notices := by
    unfold Manager.notices
    simp only [if_true, hannounce]
    rfl
  refine ⟨(deed_inquiry hnow true command).2.trans hinquiry, fun f hf => ?_, fun x hx => ?_⟩
  · rw [hf] at hgranted
    refine ⟨(turn_of_not_granted hnow hgranted command).1, ?_⟩
    have hresult : (st.under c).start m true command = (.error f, (st.under c).inquired now true) := by
      rcases start_spawns hnow true command with ⟨f', hf', hresult⟩ | ⟨credential, events, hok, -⟩
      · cases hf'.symm.trans hgranted
        exact hresult
      · cases hgranted.symm.trans hok
    show ((st.under c).start m true command).2.host.journal.drop st.host.journal.length = _
    rw [hresult, ← hnotices]
    exact List.drop_left
  · have hcredential := (deed_spawns hnow hx).symm.trans hgranted
    cases hresult : r.result with
    | error f =>
      rw [hresult] at hcredential
      cases hcredential
    | ok credential =>
      rw [hresult] at hcredential
      exact ⟨credential, rfl, Except.ok.inj hcredential⟩

end

/-- The questions of a resolution are asked in order up to the first one without an answer. If there is one, it is this
    question that the failure names, with the fault as its cause, whatever the ids are that were found before it. If there
    is none, the user has a credential of the answers if both ids are positive, and is refused one otherwise. A failure is
    told in one notice. After any turns the start of a restricted shell asks the database of its own turn these questions, and
    fails with their failure. -/
theorem lookups_end_at_first_failure (db : Identity.Database) (user : String) (hrefuses : db.Refuses) :
    let r := Identity.resolve db user
    let questions := db.questions user
    r.asked <+: questions ∧
    (∀ before q after f, questions = before ++ q :: after → (∀ p ∈ before, db.fault? p = none) → db.fault? q = some f →
      r.asked = before ++ [q] ∧ r.result = .error (.query q.1.name q.2 f.text (some f))) ∧
    ((∀ q ∈ questions, db.fault? q = none) → r.asked = questions ∧ ∃ uid gid names ids, db.Knows user uid gid names ids ∧
      r.result = if 0 < uid ∧ 0 < gid then .ok ⟨uid, gid, ids⟩ else .error (.credential user uid gid)) ∧
    r.notices.map Notice.level = (if r.result.isOk then [] else [.error]) ∧
    ∀ (managers : List Manager) (turns : List Turn) (c : Circumstances) (m : Nat) (manager : Manager) (command : String),
      managers[m]? = some manager → manager.settings.runAsUser = user → c.announce m user = none → c.database m = db →
      let deed := ((founded managers).after turns).deed ⟨c, .start m true command⟩
      deed.asked = r.asked ∧ (∀ f, r.result = .error f → deed.reply = .error f ∧ deed.events = r.notices.map .told) ∧
        ∀ x, .spawning x ∈ deed.events → ∃ credential, r.result = .ok credential ∧ x.credential = some credential := by
  intro r questions
  refine ⟨Identity.resolve_asked_prefix db user, fun before q after f hsplit hbefore hfault => ?_, fun hanswered => ?_, ?_, ?_⟩
  · have hr : r = .failed (before ++ [q]) q f := by
      rw [← Identity.Resolution.stopped_of_refuses _ q (hrefuses q f hfault)]
      exact Identity.resolve_of_fault hsplit hbefore hfault
    exact ⟨congrArg (·.asked) hr, congrArg (·.result) hr⟩
  · obtain ⟨uid, gid, names, ids, hknows⟩ := Identity.knows_of_answered hanswered
    refine ⟨?_, uid, gid, names, ids, hknows, ?_⟩
    · exact Identity.resolve_asked.trans (Identity.Database.answeredTo_of_answered hanswered)
    · show (Identity.resolve db user).result = _
      rw [Identity.resolve_of_knows hknows]
      split <;> rfl
  · exact Identity.resolve_told hrefuses user
  · rintro managers turns c m manager command hm rfl hannounce rfl
    obtain ⟨now, hnow, hdb, hhook, hsettings⟩ := manager?_under_after hm turns c
    have hresolves := deed_resolves hnow (by rw [hhook, hsettings]; exact hannounce) command
    rw [hdb, hsettings] at hresolves
    exact hresolves

/-- A database that gives everybody an id which is refused, and a group that is named twice and has no id. -/
def rootless : Identity.Database where
  uid := fun _ => .ok 0
  gid := fun _ => .ok 1002
  groupNames := fun _ => .ok ["staff", "wheel", "wheel"]
  groupId := fun name => if name = "staff" then .ok 50 else .error (.missing name)

theorem missing_group_outweighs_refused_id :
    let r := Identity.resolve rootless "alice"
    rootless.Refuses ∧
    r.asked = [(.uid, "alice"), (.gid, "alice"), (.groups, "alice"), (.group, "staff"), (.group, "wheel")] ∧
      r.result = .error (.query "group" "wheel" "'wheel'" (some (.missing "wheel"))) := by
  have hrefuses : rootless.Refuses := by
    rintro ⟨question, name⟩ f hf
    cases question with
    | uid | gid | groups => cases hf
    | group =>
      by_cases hname : name = "staff"
      · simp [Identity.Database.fault?, rootless, hname] at hf
      · simp only [Identity.Database.fault?, rootless, hname, if_false, Option.some.injEq] at hf
        rw [← hf]
        rfl
  have hfirst := (lookups_end_at_first_failure rootless "alice" hrefuses).2.1
    [(.uid, "alice"), (.gid, "alice"), (.groups, "alice"), (.group, "staff")] (.group, "wheel") [(.group, "wheel")]
    (.missing "wheel") (by decide) (by decide) (by decide)
  exact ⟨hrefuses, hfirst⟩

end Store

end Teletype
