import Teletype.Proofs.Recording.Conduct
import Teletype.Proofs.Recording.Floor
import Teletype.Proofs.Session.Ownership

/-! # Recordings keep to their own terminals

Everything that is asked of a host is asked for one of the recordings on a floor or for none of them. Each of these keeps
to the handles that were handed out to it: what a recording does to a handle it does to one of its own terminal, of which
there is one at most, and sessions that are not of recordings stay among themselves. -/

namespace Teletype

/-! ### Shares of a journal -/

/-- What is done for each of several parties, out of a journal: each does something only to handles that were handed out to
    it, as long as it holds them, and no handle is handed out to two. -/
structure Shares (journal : List Event) (done : Option Nat → List Event) : Prop where
  part : ∀ p, List.Sublist (done p) journal
  careful : ∀ p, IsCareful (done p)
  apart : ∀ p q n, n ∈ handedOut (done p) → n ∈ handedOut (done q) → p = q

namespace Shares
variable {journal events : List Event} {done : Option Nat → List Event} {p q : Option Nat} {n : Nat}

/-- What is done for the parties when something more is done for one. -/
def grow (done : Option Nat → List Event) (p : Option Nat) (events : List Event) : Option Nat → List Event :=
  fun q => done q ++ if p = q then events else []

theorem grow_self (done : Option Nat → List Event) (p : Option Nat) (events : List Event) :
    grow done p events p = done p ++ events := by rw [grow, if_pos rfl]

theorem grow_other (h : p ≠ q) (done : Option Nat → List Event) (events : List Event) : grow done p events q = done q := by
  rw [grow, if_neg h, List.append_nil]

theorem grow_nil (done : Option Nat → List Event) (p : Option Nat) : grow done p [] = done := by
  funext q
  rw [grow, ite_self, List.append_nil]

theorem handedOut_mem (h : Shares journal done) (hn : n ∈ handedOut (done p)) : n ∈ handedOut journal := by
  obtain ⟨event, hevent, hn⟩ := List.mem_flatMap.mp hn
  exact List.mem_flatMap.mpr ⟨event, (h.part p).mem hevent, hn⟩

theorem closings_mem (h : Shares journal done) (hn : n ∈ closings (done p)) : n ∈ closings journal := by
  obtain ⟨event, hevent, hn⟩ := List.mem_flatMap.mp hn
  exact List.mem_flatMap.mpr ⟨event, (h.part p).mem hevent, hn⟩

/-- A party that does something only to its own handles and to those that are handed out to it keeps to its own share. -/
theorem more (h : Shares journal done) (hcareful : IsCareful (journal ++ events))
    (hnodup : (handedOut (journal ++ events)).Nodup)
    (htargets : ∀ event ∈ events, ∀ n ∈ event.targets, n ∈ handedOut events ∨ n ∈ handedOut (done p)) :
    Shares (journal ++ events) (grow done p events) := by
  rw [handedOut_append] at hnodup
  have hfresh {n : Nat} (hnew : n ∈ handedOut events) (hold : n ∈ handedOut journal) : False :=
    List.disjoint_of_nodup_append hnodup hold hnew
  refine ⟨fun q => ?_, fun q => ?_, fun q r n hq hr => ?_⟩
  · by_cases hpq : p = q
    · subst hpq
      rw [grow_self]
      exact (h.part p).append (List.Sublist.refl _)
    · rw [grow_other hpq]
      exact (h.part q).trans (List.sublist_append_left _ _)
  · by_cases hpq : p = q
    · subst hpq
      rw [grow_self]
      let own (n : Nat) : Prop := n ∈ handedOut (done p) ∧ n ∉ closings journal
      have hown : Careful own events := by
        intro before event after hsplit n hn
        have hevent : event ∈ events := hsplit ▸ List.mem_append_right _ List.mem_cons_self
        obtain ⟨hheld, hopen⟩ := hcareful (journal ++ before) event after (by rw [hsplit, List.append_assoc]) n hn
        rw [closings_append, List.mem_append, not_or] at hopen
        rw [handedOut_append, List.mem_append] at hheld
        refine ⟨?_, hopen.2⟩
        rcases hheld.resolve_left id with hold | hnew
        · exact Or.inl ⟨(htargets event hevent n hn).resolve_left fun hnew => hfresh hnew hold, hopen.1⟩
        · exact Or.inr hnew
      refine Careful.append (h.careful p) hown (fun n hn => ⟨Or.inr hn.1, fun hclosed => hn.2 (h.closings_mem hclosed)⟩)
        fun n hn hclosed => ?_
      exact hfresh hn (h.handedOut_mem ((h.careful p).closed hclosed))
    · rw [grow_other hpq]
      exact h.careful q
  · -- What is handed out now was not handed out before, so if two have a handle both have it from before or are this party.
    have hcases {q : Option Nat} (hq : n ∈ handedOut (grow done p events q)) :
        n ∈ handedOut (done q) ∨ p = q ∧ n ∈ handedOut events := by
      by_cases hpq : p = q
      · subst hpq
        rw [grow_self, handedOut_append] at hq
        exact (List.mem_append.mp hq).imp_right fun hnew => ⟨rfl, hnew⟩
      · rw [grow_other hpq] at hq
        exact Or.inl hq
    rcases hcases hq with hq' | ⟨hpq, hq'⟩ <;> rcases hcases hr with hr' | ⟨hpr, hr'⟩
    · exact h.apart q r n hq' hr'
    · exact (hfresh hr' (h.handedOut_mem hq')).elim
    · exact (hfresh hq' (h.handedOut_mem hr')).elim
    · exact hpq.symm.trans hpr

end Shares

namespace Recording

namespace Booth

/-! ### What belongs to a recording -/

/-- What has been done for a recording so far: one terminal at most was opened for it, and none as long as it waits. Its
    session has no other master open, and no other was closed as one of its session. -/
structure Owns (b : Booth) (own : List Event) : Prop where
  orderly : b.Orderly
  master : ∀ n ∈ b.session.openMaster?, Opens own n
  closes : ∀ n, .closingMaster n ∈ own → Opens own n
  waiting : b.phase = .waiting → handedOut own = []
  terminal : handedOut own = [] ∨ ∃ n, Opens own n

variable {b b' : Booth} {h h' : Host} {own events : List Event} {n : Nat}

/-- A recording that has its terminal is handed out nothing else. -/
theorem Owns.opens_append (ho : b.Owns own) (hc : b.Conducts h events b' h') (hn : Opens own n) :
    Opens (own ++ events) n := by
  rcases hc.hands with hnone | ⟨hphase, -⟩
  · rw [Opens, handedOut_append, hn, hnone, List.append_nil]
  · cases hn.symm.trans (ho.waiting hphase)

/-- The terminal that an action opens is the first one of its recording. -/
theorem Owns.append_opens (ho : b.Owns own) (hc : b.Conducts h events b' h') (hn : Opens events n) :
    Opens (own ++ events) n := by
  rcases hc.hands with hnone | ⟨hphase, -⟩
  · cases hnone.symm.trans hn
  · rw [Opens, handedOut_append, ho.waiting hphase, List.nil_append, hn]

theorem Owns.conducts (ho : b.Owns own) (hc : b.Conducts h events b' h') : b'.Owns (own ++ events) where
  orderly := hc.orderly
  master n hn := by
    rcases hc.master n hn with hold | hopened
    · exact ho.opens_append hc (ho.master n hold)
    · exact ho.append_opens hc hopened
  closes n hn := by
    refine ho.opens_append hc ?_
    rcases List.mem_append.mp hn with hold | hclosed
    · exact ho.closes n hold
    · exact ho.master n (hc.closes n hclosed)
  waiting hphase := absurd hphase hc.begun
  terminal := by
    rcases hc.hands with hnone | ⟨-, n, hopened⟩
    · rw [handedOut_append, hnone, List.append_nil]
      exact ho.terminal.imp_right fun ⟨n, hn⟩ => ⟨n, ho.opens_append hc hn⟩
    · exact Or.inr ⟨n, ho.append_opens hc hopened⟩

end Booth

namespace Floor

/-- The open master of the session of a booth. -/
def openMaster? (f : Floor) (i : Nat) : Option Nat := f.booths[i]?.bind fun b => b.session.openMaster?

/-- All open masters are held, each by one session of the store or of a booth. What has been done for each recording, and
    for none, is its share of the journal, and what is open belongs to the one for whom it was opened. A recording has
    opened one terminal at most, and none yet as long as it waits. -/
structure Sound (f : Floor) (done : Option Nat → List Event) : Prop where
  lively : f.store.Lively
  keeps : f.store.host.Keeps (Sum.elim f.store.openMaster? f.openMaster?)
  shares : Shares f.store.host.journal done
  orderly : ∀ (i : Nat) (b : Booth), f.booths[i]? = some b → b.Orderly
  sessions : ∀ k, ∀ n ∈ f.store.openMaster? k, n ∈ handedOut (done none)
  masters : ∀ i, ∀ n ∈ f.openMaster? i, Opens (done (some i)) n
  closes : ∀ i n, .closingMaster n ∈ done (some i) → Opens (done (some i)) n
  waiting : ∀ (i : Nat) (b : Booth), f.booths[i]? = some b → b.phase = .waiting → handedOut (done (some i)) = []
  terminal : ∀ i, handedOut (done (some i)) = [] ∨ ∃ n, Opens (done (some i)) n

variable {f : Floor} {done : Option Nat → List Event} {i : Nat} {b : Booth} {supply : Supply} {o : Occurrence}

theorem openMaster?_of_booth (hb : f.booths[i]? = some b) : f.openMaster? i = b.session.openMaster? := by
  rw [openMaster?, hb, Option.bind_some]

theorem deed_eq {events : List Event} (h : (f.step o).store.host.journal = f.store.host.journal ++ events) :
    f.deed o = events := by
  rw [deed, h, List.drop_left]

/-! ### An action -/

/-- What an action of a recording comes to by these events: its booth is replaced, all else that changes is the host, and
    the two go by its conduct. -/
structure Acts (f : Floor) (i : Nat) (b : Booth) (events : List Event) (b' : Booth) (f' : Floor) : Prop where
  before : f.booths[i]? = some b
  booths : f'.booths = f.booths.set i b'
  store : f'.store = f.store.withHost f'.store.host
  conducts : b.Conducts f.store.host events b' f'.store.host

section
variable {f' : Floor} {b' : Booth} {events : List Event} {j : Nat}

theorem Acts.after (ha : f.Acts i b events b' f') : f'.booths[i]? = some b' := by
  rw [ha.booths, List.getElem?_set_self (List.getElem?_eq_some_iff.mp ha.before).1]

theorem Acts.elsewhere (ha : f.Acts i b events b' f') (hij : i ≠ j) : f'.booths[j]? = f.booths[j]? := by
  rw [ha.booths, List.getElem?_set_ne hij]

theorem Acts.openMaster?_elsewhere (ha : f.Acts i b events b' f') (hij : i ≠ j) :
    f'.openMaster? j = f.openMaster? j := by
  rw [openMaster?, openMaster?, ha.elsewhere hij]

theorem Acts.treats (ha : f.Acts i b events b' f') :
    f.store.host.Treats (f.openMaster? i) events f'.store.host (f'.openMaster? i) := by
  rw [openMaster?_of_booth ha.before, openMaster?_of_booth ha.after]
  exact ha.conducts.treats

theorem Sound.owns (h : f.Sound done) (hb : f.booths[i]? = some b) : b.Owns (done (some i)) where
  orderly := h.orderly i b hb
  master := openMaster?_of_booth hb ▸ h.masters i
  closes := h.closes i
  waiting := h.waiting i b hb
  terminal := h.terminal i

theorem Sound.keeps_of_acts (h : f.Sound done) (ha : f.Acts i b events b' f') :
    f'.store.host.Keeps (Sum.elim f'.store.openMaster? f'.openMaster?) := by
  have hsessions : f'.store.openMaster? = f.store.openMaster? := by
    rw [ha.store]
    rfl
  rw [hsessions]
  refine Host.Keeps.treat h.keeps (Sum.inr i) (fun j hj => ?_) ha.treats
  cases j with
  | inl k => rfl
  | inr j => exact ha.openMaster?_elsewhere fun hij => hj (congrArg Sum.inr hij.symm)

theorem Sound.shares_of_acts (h : f.Sound done) (ha : f.Acts i b events b' f') :
    Shares f'.store.host.journal (Shares.grow done (some i) events) := by
  have hkeeps := h.keeps_of_acts ha
  have hjournal := ha.treats.hands.journal
  rw [hjournal]
  refine h.shares.more (hjournal ▸ hkeeps.careful) (hjournal ▸ hkeeps.issued.nodup) fun event hevent n hn => ?_
  refine (ha.treats.careful.target hevent hn).symm.imp_right fun hheld => ?_
  rw [h.masters i n hheld]
  exact List.mem_cons_self

theorem Sound.owns_of_acts (h : f.Sound done) (ha : f.Acts i b events b' f') {c : Booth} (hc : f'.booths[j]? = some c) :
    c.Owns (Shares.grow done (some i) events (some j)) := by
  by_cases hij : i = j
  · subst hij
    cases ha.after.symm.trans hc
    rw [Shares.grow_self]
    exact (h.owns ha.before).conducts ha.conducts
  · rw [Shares.grow_other fun heq => hij (Option.some.inj heq)]
    exact h.owns (ha.elsewhere hij ▸ hc)

theorem Sound.of_acts (h : f.Sound done) (ha : f.Acts i b events b' f') :
    f'.Sound (Shares.grow done (some i) events) where
  lively := ha.store ▸ h.lively
  keeps := h.keeps_of_acts ha
  shares := h.shares_of_acts ha
  orderly j c hc := (h.owns_of_acts ha hc).orderly
  sessions k n hn := by
    rw [ha.store] at hn
    rw [Shares.grow_other (Option.some_ne_none i)]
    exact h.sessions k n hn
  masters j n hn := by
    obtain ⟨c, hc, hopen⟩ := Option.bind_eq_some_iff.mp hn
    exact (h.owns_of_acts ha hc).master n hopen
  closes j n hn := by
    by_cases hij : i = j
    · exact (h.owns_of_acts ha (hij ▸ ha.after)).closes n hn
    · rw [Shares.grow_other fun heq => hij (Option.some.inj heq)] at hn ⊢
      exact h.closes j n hn
  waiting j c hc := (h.owns_of_acts ha hc).waiting
  terminal j := by
    by_cases hij : i = j
    · exact (h.owns_of_acts ha (hij ▸ ha.after)).terminal
    · rw [Shares.grow_other fun heq => hij (Option.some.inj heq)]
      exact h.terminal j

end

theorem Sound.acts (h : f.Sound done) (hb : f.booths[i]? = some b) (supply : Supply) :
    ∃ b', f.Acts i b (f.deed (.act i supply)) b' (f.act i supply) := by
  obtain ⟨events, hconducts⟩ := Booth.act_conducts (h.orderly i b hb) f.plan f.history (f.host supply)
  have htreats : f.store.host.Treats _ events _ _ := hconducts.treats.of_host rfl rfl
  have hdeed : f.deed (.act i supply) = events := by
    refine deed_eq ?_
    show (f.act i supply).store.host.journal = _
    rw [act_of_some hb]
    exact htreats.hands.journal
  rw [hdeed, act_of_some hb]
  exact ⟨_, hb, rfl, rfl, htreats, hconducts.orderly, hconducts.begun, hconducts.hands, hconducts.master,
    hconducts.closes, hconducts.past⟩

/-- Nothing happens where there is no recording. -/
theorem deed_act_of_none (hb : f.booths[i]? = none) (supply : Supply) : f.deed (.act i supply) = [] := by
  refine deed_eq ?_
  show (f.act i supply).store.host.journal = _
  rw [act_of_none hb, List.append_nil]

theorem Sound.act (h : f.Sound done) (i : Nat) (supply : Supply) :
    (f.act i supply).Sound (Shares.grow done (some i) (f.deed (.act i supply))) := by
  cases hb : f.booths[i]? with
  | none =>
    rw [act_of_none hb, deed_act_of_none hb, Shares.grow_nil]
    exact h
  | some b =>
    obtain ⟨b', hacts⟩ := h.acts hb supply
    exact h.of_acts hacts

/-! ### All that happens -/

theorem Sound.turn (h : f.Sound done) (t : Turn) :
    (f.step (.turn t)).Sound (Shares.grow done none (f.deed (.turn t))) := by
  have hconfined := Store.turn_confined h.lively t
  obtain ⟨events, hjournal, htargets, hmasters⟩ := hconfined.handles
  have hdeed : f.deed (.turn t) = events := deed_eq hjournal
  have hkeeps := Store.turn_keeps h.lively h.keeps t
  have hsame (i : Nat) : Shares.grow done none events (some i) = done (some i) :=
    Shares.grow_other (Option.some_ne_none i).symm done events
  rw [hdeed]
  refine ⟨hconfined.lively h.lively, hkeeps, ?_, h.orderly, fun k n hn => ?_, fun i => ?_, fun i => ?_, fun i => ?_,
    fun i => ?_⟩
  · show Shares (f.store.turn t).2.host.journal _
    rw [hjournal]
    refine h.shares.more (hjournal ▸ hkeeps.careful) (hjournal ▸ hkeeps.issued.nodup) fun event hevent n hn => ?_
    refine (htargets event hevent n hn).imp_right ?_
    rintro ⟨k, -, hmine⟩
    exact h.sessions k n hmine
  · rw [Shares.grow_self, handedOut_append, List.mem_append]
    rcases hmasters k n hn with hold | ⟨-, hnew⟩
    · exact Or.inl (h.sessions k n hold)
    · exact Or.inr hnew
  · rw [hsame]
    exact h.masters i
  · rw [hsame]
    exact h.closes i
  · rw [hsame]
    exact h.waiting i
  · rw [hsame]
    exact h.terminal i

theorem Sound.step (h : f.Sound done) (o : Occurrence) : (f.step o).Sound (Shares.grow done o.party (f.deed o)) := by
  cases o with
  | act i supply => exact h.act i supply
  | turn t => exact h.turn t

theorem Sound.after (h : f.Sound done) (occurrences : List Occurrence) :
    (f.after occurrences).Sound fun p => done p ++ f.doneFor p occurrences := by
  induction occurrences generalizing f done with
  | nil =>
    simp only [doneFor, List.append_nil]
    exact h
  | cons o occurrences ih =>
    have hrest := ih (h.step o)
    simp only [Shares.grow, List.append_assoc] at hrest
    exact hrest

/-- The terminal of a recording stays the one that it has opened. -/
theorem Sound.opens_step (h : f.Sound done) (o : Occurrence) {n : Nat} (hn : Opens (done (some i)) n) :
    Opens (Shares.grow done o.party (f.deed o) (some i)) n := by
  rcases (h.step o).terminal i with hnone | ⟨m, hm⟩
  · rw [Shares.grow, handedOut_append, hn] at hnone
    cases hnone
  · rw [Opens, Shares.grow, handedOut_append, hn] at hm
    rw [Opens, Shares.grow, handedOut_append, hn, hm, (List.cons.inj hm).1]

/-- Nothing goes over the line of a recording but while its session is open. -/
theorem Sound.past_step (h : f.Sound done) (hb : f.booths[i]? = some b) {b' : Booth} (hb' : (f.step o).booths[i]? = some b')
    (hpast : b'.line.past ≠ b.line.past) : ∃ n, n ∈ b.session.openMaster? ∨ n ∈ b'.session.openMaster? := by
  by_cases ho : o.party = some i
  · cases o with
    | turn t => cases ho
    | act j supply =>
      obtain rfl : j = i := Option.some.inj ho
      obtain ⟨c, hacts⟩ := h.acts hb supply
      cases hacts.after.symm.trans hb'
      exact hacts.conducts.past hpast
  · rw [f.booth_step ho, hb] at hb'
    cases hb'
    exact absurd rfl hpast

theorem sound_opening (settings : Settings) (files : Files.Tree) (here : Files.Place) (environment : Environment)
    (managers : List Manager) (recordings : List (Target × Time)) :
    (opening settings files here environment managers recordings).Sound fun _ => [] := by
  have hfresh (i : Nat) (b : Booth) (hb : (opening settings files here environment managers recordings).booths[i]? = some b) :
      ∃ target now, b = .fresh target now := by
    obtain ⟨⟨target, now⟩, -, rfl⟩ := List.mem_map.mp (List.mem_of_getElem? hb)
    exact ⟨target, now, rfl⟩
  have hmaster (i : Nat) : openMaster? (opening settings files here environment managers recordings) i = none := by
    unfold openMaster?
    cases hb : (opening settings files here environment managers recordings).booths[i]? with
    | none => rfl
    | some b =>
      obtain ⟨target, now, rfl⟩ := hfresh i b hb
      rfl
  have hapart := Store.apart_founded managers
  have hsession (k : Nat) : (opening settings files here environment managers recordings).store.openMaster? k = none := rfl
  refine ⟨hapart.lively, ⟨hapart.numbered.issued, .nil _, ?_, ?_⟩, ⟨fun _ => List.nil_sublist _, fun _ => .nil _, nofun⟩,
    fun i b hb => ?_, nofun, fun i n hn => ?_, nofun, fun _ _ _ _ => rfl, fun _ => Or.inl rfl⟩
  · rintro (k | i) n hn
    · cases hn
    · cases (hmaster i).symm.trans hn
  · rintro (k | i) j n hn
    · cases hn
    · cases (hmaster i).symm.trans hn
  · obtain ⟨target, now, rfl⟩ := hfresh i b hb
    exact Booth.orderly_fresh target now
  · rw [hmaster] at hn
    cases hn

end Floor

end Recording

end Teletype
