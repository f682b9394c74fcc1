import Teletype.Proofs.Recording.Shares
import Teletype.Proofs.Recording.Transcripts
import Teletype.Proofs.Recording.Unnumbered
import Teletype.Proofs.Session.Environment

/-! # Recordings do not interfere

A recording that is made among others goes, up to numbers, as it would go alone: all that it finds around it is its own
device, the settings, the variables that its shell inherits, and the size of its transcript. -/

namespace Teletype

namespace Recording

/-! ### Recordings by themselves -/

/-- What is left of something that happens on a floor if all recordings but one are taken away, and all managers: an action
    of this recording, or a change of the variables that children inherit. -/
def Occurrence.alone (i : Nat) : Occurrence → Option Occurrence
  | .act j supply => if j = i then some (.act 0 supply) else none
  | .turn t => if t.operation.setsEnvironment then some (.turn t) else none

namespace Floor

/-- The floor with one of its booths only, on any host. -/
def aside (f : Floor) (i : Nat) (h : Host) : Floor :=
  { f with store := { host := h, environment := f.store.environment }, booths := f.booths[i]?.toList }

/-- A floor on which a booth of another one is by itself, up to numbers. -/
structure Mirrors (f : Floor) (i : Nat) (a : Floor) : Prop where
  settings : a.settings = f.settings
  files : a.files = f.files
  here : a.here = f.here
  environment : a.store.environment = f.store.environment
  entries : a.store.entries = []
  booths : a.booths.map Booth.unnumbered = f.booths[i]?.toList.map Booth.unnumbered

variable {f a : Floor} {i : Nat} {o : Occurrence}

theorem mirrors_aside (f : Floor) (i : Nat) (h : Host) : f.Mirrors i (f.aside i h) := ⟨rfl, rfl, rfl, rfl, rfl, rfl⟩

theorem Mirrors.act (h : f.Mirrors i a) (horderly : ∀ b ∈ f.booths, b.Orderly) (hfiles : f.FilesApart) (supply : Supply) :
    (f.act i supply).Mirrors i (a.act 0 supply) := by
  have hbooths := h.booths
  cases hb : f.booths[i]? with
  | none =>
    rw [hb] at hbooths
    have hnone : a.booths[0]? = none := by rw [List.map_eq_nil_iff.mp hbooths]; rfl
    rw [act_of_none hb, act_of_none hnone]
    exact h
  | some b =>
    rw [hb] at hbooths
    obtain ⟨c, hc, hbc⟩ := List.map_eq_singleton_iff.mp hbooths
    have hmem := List.mem_of_getElem? hb
    have hline : c.line = b.line := (Booth.unnumbered_eq_iff.mp hbc).2.2.2.1
    have hplan : a.plan = f.plan := by rw [plan, h.settings, h.environment, plan]
    have hsize : a.history.size? b.target.logFile b.now = f.history.size? b.target.logFile b.now := by
      have hhistory : a.history = ⟨f.files, f.here, b.changes⟩ := by
        rw [history, h.files, h.here, h.entries, hc, List.flatMap_singleton, List.flatMap_nil, List.append_nil, Booth.changes,
          hline, Booth.changes]
      rw [hhistory, hfiles b hmem]
    have hact : (c.act f.plan a.history (a.host supply)).1.unnumbered = (b.act f.plan f.history (f.host supply)).1.unnumbered :=
      Booth.act_unnumbered (horderly b hmem) hbc f.plan rfl rfl hsize
    have hfirst : a.booths[0]? = some c := by rw [hc]; rfl
    rw [act_of_some hb, act_of_some hfirst, hplan]
    refine ⟨h.settings, h.files, h.here, h.environment, h.entries, ?_⟩
    dsimp only
    rw [List.getElem?_set_self (List.getElem?_eq_some_iff.mp hb).1, hc]
    exact congrArg (fun b => [b]) hact

/-- What happens for others leaves a recording where it is by itself. -/
theorem Mirrors.step (h : f.Mirrors i a) (horderly : ∀ b ∈ f.booths, b.Orderly) (hfiles : f.FilesApart) (o : Occurrence) :
    (f.step o).Mirrors i (a.after (o.alone i).toList) := by
  cases o with
  | act j supply =>
    by_cases hji : j = i
    · subst hji
      rw [Occurrence.alone, if_pos rfl]
      exact h.act horderly hfiles supply
    · rw [Occurrence.alone, if_neg hji]
      have hparty : (Occurrence.act j supply).party ≠ some i := fun heq => hji (Option.some.inj heq)
      have hbooth := f.booth_step hparty
      have hstore := f.store_step (o := .act j supply) nofun
      obtain ⟨hsettings, hfiles, hhere⟩ := f.setting_step (.act j supply)
      refine ⟨h.settings.trans hsettings.symm, h.files.trans hfiles.symm, h.here.trans hhere.symm, ?_, h.entries,
        hbooth ▸ h.booths⟩
      rw [hstore]
      exact h.environment
  | turn t =>
    cases ht : t.operation.setsEnvironment with
    | true =>
      obtain ⟨henvironment, hentries⟩ := Store.turn_setsEnvironment h.environment ht
      rw [Occurrence.alone, if_pos ht]
      exact ⟨h.settings, h.files, h.here, henvironment, hentries.trans h.entries, h.booths⟩
    | false =>
      rw [Occurrence.alone, if_neg (by rw [ht]; exact Bool.false_ne_true)]
      exact ⟨h.settings, h.files, h.here, h.environment.trans (f.store.turn_environment ht).symm, h.entries, h.booths⟩

theorem Sound.all_orderly {done : Option Nat → List Event} (h : f.Sound done) : ∀ b ∈ f.booths, b.Orderly := by
  intro b hb
  obtain ⟨i, hi⟩ := List.getElem?_of_mem hb
  exact h.orderly i b hi

theorem Mirrors.after {done : Option Nat → List Event} (h : f.Mirrors i a) (hf : f.Sound done) (occurrences : List Occurrence)
    (hfiles : ∀ earlier, earlier <+: occurrences → (f.after earlier).FilesApart) :
    (f.after occurrences).Mirrors i (a.after (occurrences.filterMap (·.alone i))) := by
  induction occurrences generalizing f a done with
  | nil => exact h
  | cons o occurrences ih =>
    have hstep := h.step hf.all_orderly (hfiles [] List.nil_prefix) o
    have hrest := ih hstep (hf.step o) fun earlier hearlier =>
      hfiles (o :: earlier) ((List.prefix_cons_inj o).mpr hearlier)
    rw [after_cons]
    cases ho : o.alone i with
    | none =>
      rw [ho] at hrest
      rw [List.filterMap_cons_none ho]
      exact hrest
    | some o' =>
      rw [ho] at hrest
      rw [List.filterMap_cons_some ho]
      exact hrest

/-- Recordings that are made at the same time do not interfere, whatever their devices and the managers do, whatever faults
    are met, and in whatever order things happen, as long as every transcript has the size that its own device has given it.
    What a recording does to a handle it does while it holds that, and to no handle that was handed out to another or to a
    manager: it opens at most one terminal, and the one master that it closes is that of this terminal. Its watcher is
    attached, and something goes over its line, only while this master is open. What happens for it changes no other
    recording and nothing of any manager or of its sessions, and what happens for others does not change it. By itself, on
    any other host that has the same ready for it, it is in the same place with the same line, up to ids and handles. -/
theorem recordings_stay_apart (settings : Settings) (files : Files.Tree) (here : Files.Place) (environment : Environment)
    (managers : List Manager) (recordings : List (Target × Time)) (occurrences : List Occurrence) (o : Occurrence)
    (hfiles : ∀ earlier, earlier <+: occurrences →
      ((opening settings files here environment managers recordings).after earlier).FilesApart) :
    let f₀ := opening settings files here environment managers recordings
    let f := f₀.after occurrences
    let f' := f₀.after (occurrences ++ [o])
    let done (party : Option Nat) := f₀.doneFor party (occurrences ++ [o])
    (∀ p, IsCareful (done p)) ∧
    (∀ p q n, n ∈ handedOut (done p) → n ∈ handedOut (done q) → p = q) ∧
    (∀ i, handedOut (done (some i)) = [] ∨ ∃ n, Opens (done (some i)) n) ∧
    (∀ i n, .closingMaster n ∈ done (some i) → Opens (done (some i)) n) ∧
    (∀ i b b', f.booths[i]? = some b → f'.booths[i]? = some b' →
      b'.line.past ≠ b.line.past ∨ b'.line.watcher.attached = true →
      ∃ n, Opens (done (some i)) n ∧ (n ∈ b.session.openMaster? ∨ n ∈ b'.session.openMaster?)) ∧
    (∀ i, o.party ≠ some i → f'.booths[i]? = f.booths[i]?) ∧
    (o.party ≠ none → f'.store = f.store.withHost f'.store.host) ∧
    ∀ i h, ((f₀.aside i h).after ((occurrences ++ [o]).filterMap (·.alone i))).booths.map Booth.unnumbered =
      f'.booths[i]?.toList.map Booth.unnumbered := by
  intro f₀ f f' done
  have hopening : f₀.Sound fun _ => [] := sound_opening settings files here environment managers recordings
  have hsound : f.Sound fun p => f₀.doneFor p occurrences := hopening.after occurrences
  have hstep : f' = f.step o := f₀.after_append occurrences [o]
  have hdone : done = Shares.grow (fun p => f₀.doneFor p occurrences) o.party (f.deed o) := by
    funext p
    show f₀.doneFor p (occurrences ++ [o]) = _
    rw [doneFor_append, Shares.grow]
    congr 1
    exact List.append_nil _
  have hsound' : f'.Sound done := by
    rw [hstep, hdone]
    exact hsound.step o
  refine ⟨hsound'.shares.careful, hsound'.shares.apart, hsound'.terminal, hsound'.closes, fun i b b' hb hb' htouched => ?_,
    fun i hi => ?_, fun ho => ?_, fun i h => ?_⟩
  · obtain ⟨n, hn⟩ : ∃ n, n ∈ b.session.openMaster? ∨ n ∈ b'.session.openMaster? := by
      rcases htouched with hpast | hattached
      · exact hsound.past_step hb (hstep ▸ hb') hpast
      · have horderly := hsound'.orderly i b' hb'
        obtain ⟨n, hn⟩ := Booth.openMaster?_of_isOpen (horderly.isOpen.trans (horderly.attached hattached))
        exact ⟨n, Or.inr hn⟩
    refine ⟨n, ?_, hn⟩
    rcases hn with hold | hnew
    · rw [hdone]
      exact hsound.opens_step o (hsound.masters i n (openMaster?_of_booth hb ▸ hold))
    · exact hsound'.masters i n (openMaster?_of_booth hb' ▸ hnew)
  · rw [hstep]
    exact f.booth_step hi
  · rw [hstep]
    exact f.store_step ho
  · have hbefore : f.Mirrors i _ := (f₀.mirrors_aside i h).after hopening occurrences hfiles
    have hnow := hbefore.step hsound.all_orderly (hfiles occurrences List.prefix_rfl) o
    have halone : [o].filterMap (·.alone i) = (o.alone i).toList := by
      rw [List.filterMap_cons]
      cases o.alone i <;> rfl
    rw [hstep, List.filterMap_append, after_append, halone]
    exact hnow.booths

/-- A shell that answers every text with the next marker and writes to its transcript, and has exited already. -/
def scribe (path : String) : Device where
  exitCode := some 0
  react before _ := { atOnce := [.output (marker (before.length + 1)), .file path (before.length + 1)] }

theorem scribe_changesOnly {names : List String} (hplain : ∀ name ∈ names, Files.IsName name) (hnodup : names.Nodup) {i : Nat}
    {name : String} (hi : names[i]? = some name) : (scribe name).ChangesOnly (Leaves names (some i)) := by
  refine ⟨nofun, nofun, fun before text e he => ?_, nofun⟩
  rcases List.mem_pair.mp he with rfl | rfl
  · trivial
  · exact leaves_own hplain hnodup hi

/-- A pair of recordings that do not wait for their transcripts, and a manager. -/
def pair : Floor := opening { patientPlan.settings with recorder.flushTimeout := .infinite true } [] [] []
  [{ database := Identity.Tables.database {} }]
  [({ logFile := "a.log", ipcFile := "a.ipc" }, 0), ({ logFile := "b.log", ipcFile := "b.ipc" }, 0)]

/-- The two begin once the manager has started a session, and take turns. In between the manager stops its session. -/
def rounds : List Occurrence :=
  let quiet : Circumstances := { database := fun _ => Identity.Tables.database {} }
  [.turn ⟨quiet, .start 0 false ""⟩, .act 0 ⟨{}, [scribe "a.log"]⟩, .act 1 ⟨{}, [scribe "b.log"]⟩] ++
    (List.replicate 14 [.act 0 {}, .act 1 {}]).flatten ++ [.turn ⟨quiet, .stop 0⟩, .act 0 {}]

/-- Both recordings of the pair are made without a failure, and so is either by itself, on any host. -/
theorem pair_stays_apart :
    (∀ earlier, earlier <+: rounds → (pair.after earlier).FilesApart) ∧
    (∀ h, ((pair.aside 0 h).after ((rounds ++ [Occurrence.act 1 {}]).filterMap (Occurrence.alone 0))).booths.map
      (fun b => b.unnumbered.phase) = [.done (.ok "a.log")]) ∧
    ∀ h, ((pair.aside 1 h).after ((rounds ++ [Occurrence.act 1 {}]).filterMap (Occurrence.alone 1))).booths.map
      (fun b => b.unnumbered.phase) = [.done (.ok "b.log")] := by
  have hplain : ∀ name ∈ ["a.log", "b.log"], Files.IsName name := by
    intro name hname
    rcases List.mem_pair.mp hname with rfl | rfl <;> exact ⟨by decide, by decide, by decide, by decide⟩
  have hscribe {i : Nat} {name : String} (hi : ["a.log", "b.log"][i]? = some name) :
      ∀ d ∈ [scribe name], d.ChangesOnly (Leaves ["a.log", "b.log"] (some i)) :=
    List.forall_mem_singleton.mpr (scribe_changesOnly hplain (by decide) hi)
  have hidle {o : Occurrence} (ho : o.devices = []) : o.LeavesOthers ["a.log", "b.log"] := o.leavesOthers_of_devices ho _
  have hleaves : ∀ o ∈ rounds, o.LeavesOthers ["a.log", "b.log"] := by
    simp only [rounds, List.forall_mem_append, List.forall_mem_cons, List.not_mem_nil, IsEmpty.forall_iff, implies_true,
      and_true]
    refine ⟨⟨⟨hidle rfl, hscribe (i := 0) rfl, hscribe (i := 1) rfl⟩, fun o ho => ?_⟩, hidle rfl, hidle rfl⟩
    obtain ⟨turns, hturns, ho⟩ := List.mem_flatten.mp ho
    rw [(List.mem_replicate.mp hturns).2] at ho
    rcases List.mem_pair.mp ho with rfl | rfl <;> exact hidle rfl
  have hfiles : ∀ earlier, earlier <+: rounds → (pair.after earlier).FilesApart := by
    refine filesApart_of_names _ rfl [] _ (fun r hr => ?_) hleaves
    rcases List.mem_pair.mp hr with rfl | rfl <;> exact hplain _ (by decide)
  have hphases (i : Nat) (h : Host) : ((pair.aside i h).after ((rounds ++ [Occurrence.act 1 {}]).filterMap
      (Occurrence.alone i))).booths.map (fun b => b.unnumbered.phase) =
        ((pair.after (rounds ++ [Occurrence.act 1 {}])).booths[i]?.toList.map fun b => b.unnumbered.phase) := by
    have hsolo := (recordings_stay_apart _ [] [] [] _ _ rounds (Occurrence.act 1 {}) hfiles).2.2.2.2.2.2.2 i h
    have hmap := congrArg (List.map fun b => b.phase) hsolo
    rw [List.map_map, List.map_map] at hmap
    exact hmap
  have hfirst : ((pair.after (rounds ++ [Occurrence.act 1 {}])).booths[0]?.toList.map fun b => b.unnumbered.phase) =
      [.done (.ok "a.log")] := by decide +kernel
  have hsecond : ((pair.after (rounds ++ [Occurrence.act 1 {}])).booths[1]?.toList.map fun b => b.unnumbered.phase) =
      [.done (.ok "b.log")] := by decide +kernel
  refine ⟨hfiles, fun h => ?_, fun h => ?_⟩
  · rw [hphases]
    with_reducible exact hfirst
  · rw [hphases]
    with_reducible exact hsecond

end Floor

end Recording

end Teletype
