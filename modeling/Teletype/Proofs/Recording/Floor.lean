import Teletype.Proofs.Recording.Run
import Teletype.Proofs.Session.Run

/-! # Recordings on one floor

Recordings that are made at the same time share a host, the variables that children inherit, and the files; so do
managers that go about sessions of their own meanwhile. On a floor booths act and managers have their turns in any order
at all. While a booth waits within an action it only reads from its own line, so nothing is lost by others having their
turns before it or after it. -/

namespace Teletype.Recording

/-- What the surroundings have ready for an action of a booth: faults, and the devices of the terminals that are opened
    next. -/
structure Supply where
  faults : Faults := {}
  devices : List Device := []

/-- What happens on a floor: a booth acts, or an operation is done that has nothing to do with recordings. -/
inductive Occurrence where
  | act (booth : Nat) (supply : Supply)
  | turn (t : Turn)

/-- For which recording something happens, if it is for one. -/
def Occurrence.party : Occurrence → Option Nat
  | .act i _ => some i
  | .turn _ => none

/-- Booths with the settings that they share, and a store of sessions that are not theirs, all on the host of that store;
    and the files as they were at the start, with the directory they are seen from. -/
structure Floor where
  settings : Settings := {}
  files : Files.Tree := []
  here : Files.Place := []
  store : Store := {}
  booths : List Booth := []

namespace Floor

/-- A floor on which nothing has happened yet, with a booth for each of these recordings. -/
def opening (settings : Settings) (files : Files.Tree) (here : Files.Place) (environment : Environment)
    (managers : List Manager) (recordings : List (Target × Time)) : Floor where
  settings := settings
  files := files
  here := here
  store := { Store.founded managers with environment }
  booths := recordings.map fun (target, now) => .fresh target now

def plan (f : Floor) : Plan := ⟨f.settings, f.store.environment⟩

/-- The files over time. Devices of all sessions may change them. -/
def history (f : Floor) : Files.History :=
  ⟨f.files, f.here, f.booths.flatMap Booth.changes ++ f.store.entries.flatMap fun e => e.terminal.allChanges⟩

/-- The host that a booth acts on. -/
def host (f : Floor) (supply : Supply) : Host :=
  { f.store.host with faults := supply.faults, devices := supply.devices }

/-- Lets a booth act. -/
def act (f : Floor) (i : Nat) (supply : Supply) : Floor :=
  match f.booths[i]? with
  | none => f
  | some b =>
    let (b, host) := b.act f.plan f.history (f.host supply)
    { f with store := f.store.withHost host, booths := f.booths.set i b }

def step (f : Floor) : Occurrence → Floor
  | .act i supply => f.act i supply
  | .turn t => { f with store := (f.store.turn t).2 }

/-- The floor after one thing after the other. -/
def after (f : Floor) (occurrences : List Occurrence) : Floor := occurrences.foldl step f

/-- What is asked of the host and told to the operator when something happens. -/
def deed (f : Floor) (o : Occurrence) : List Event := (f.step o).store.host.journal.drop f.store.host.journal.length

/-- All that is asked of the host and told to the operator for this recording, or for none. -/
def doneFor (party : Option Nat) (f : Floor) : List Occurrence → List Event
  | [] => []
  | o :: occurrences => (if o.party = party then f.deed o else []) ++ doneFor party (f.step o) occurrences

variable {f : Floor} {i : Nat} {b : Booth} {o : Occurrence}

@[simp] theorem after_cons (f : Floor) (o : Occurrence) (occurrences : List Occurrence) :
    f.after (o :: occurrences) = (f.step o).after occurrences := rfl

theorem doneFor_append (party : Option Nat) (occurrences more : List Occurrence) :
    f.doneFor party (occurrences ++ more) = f.doneFor party occurrences ++ (f.after occurrences).doneFor party more := by
  induction occurrences generalizing f with
  | nil => rfl
  | cons o occurrences ih => rw [List.cons_append, doneFor, doneFor, ih, List.append_assoc, after_cons]

theorem after_append (f : Floor) (occurrences more : List Occurrence) :
    f.after (occurrences ++ more) = (f.after occurrences).after more := List.foldl_append

theorem act_of_some (hb : f.booths[i]? = some b) (supply : Supply) : f.act i supply =
    { f with
      store := f.store.withHost (b.act f.plan f.history (f.host supply)).2
      booths := f.booths.set i (b.act f.plan f.history (f.host supply)).1 } := by
  unfold act
  rw [hb]

theorem act_of_none (hb : f.booths[i]? = none) (supply : Supply) : f.act i supply = f := by
  unfold act
  rw [hb]

theorem booth_act (hb : f.booths[i]? = some b) (supply : Supply) :
    (f.act i supply).booths[i]? = some (b.act f.plan f.history (f.host supply)).1 := by
  rw [act_of_some hb]
  exact List.getElem?_set_self (List.getElem?_eq_some_iff.mp hb).1

/-! ### What is left alone -/

/-- A booth stays as it is unless something happens for it. -/
theorem booth_step (f : Floor) (h : o.party ≠ some i) : (f.step o).booths[i]? = f.booths[i]? := by
  cases o with
  | turn t => rfl
  | act j supply =>
    have hji : j ≠ i := fun hji => h (congrArg some hji)
    show (f.act j supply).booths[i]? = _
    cases hb : f.booths[j]? with
    | none => rw [act_of_none hb]
    | some b =>
      rw [act_of_some hb]
      exact List.getElem?_set_ne hji

theorem setting_step (f : Floor) (o : Occurrence) :
    (f.step o).settings = f.settings ∧ (f.step o).files = f.files ∧ (f.step o).here = f.here := by
  cases o with
  | turn t => exact ⟨rfl, rfl, rfl⟩
  | act i supply =>
    show (f.act i supply).settings = _ ∧ (f.act i supply).files = _ ∧ (f.act i supply).here = _
    cases hb : f.booths[i]? with
    | none => rw [act_of_none hb]; exact ⟨rfl, rfl, rfl⟩
    | some b => rw [act_of_some hb]; exact ⟨rfl, rfl, rfl⟩

/-- What happens for a recording changes nothing in the store but its host. -/
theorem store_step (f : Floor) (h : o.party ≠ none) : (f.step o).store = f.store.withHost (f.step o).store.host := by
  cases o with
  | turn t => exact absurd rfl h
  | act j supply =>
    show (f.act j supply).store = f.store.withHost (f.act j supply).store.host
    cases hb : f.booths[j]? with
    | none => rw [act_of_none hb]; rfl
    | some b => rw [act_of_some hb]; rfl

end Floor

/-! ### Sessions of recordings -/

theorem start_fresh {plan : Plan} {st : Store} (henvironment : st.environment = plan.environment) : Booth.start plan st.host =
    match Shell.environment plan.settings.shell st.environment with
    | .error f => (.error f, { id := "" }, st.host)
    | .ok environment => (st.fresh (Shell.argv plan.settings.shell "") environment none).start st.host.name.2 := by
  unfold Booth.start
  rw [henvironment]
  rfl

/-- A recording starts its session as a new manager of its own starts its first: with the same session, device and host, or
    the same failure. -/
theorem start_as_manager {plan : Plan} {st : Store} {m : Nat} {manager : Manager} (hm : st.manager? m = some manager)
    (hsettings : manager.settings = plan.settings.shell) (hcurrent : manager.current = none)
    (henvironment : st.environment = plan.environment) :
    match Booth.start plan st.host with
    | (.error f, _, h) => (st.start m false "").1 = .error f ∧ (st.start m false "").2.host = h ∧
        (st.start m false "").2.managers = st.managers
    | (.ok device, s, h) => st.start m false "" =
        (.ok st.entries.length, (st.joined ⟨s, .begin device st.now, []⟩ h).appoint m manager st.entries.length) := by
  have hinquired : st.inquired manager false = st := by
    unfold Store.inquired Manager.notices Manager.inquiry
    simp
  have hbegins := Store.start_begins hm false ""
  rw [start_fresh henvironment, ← hsettings]
  generalize st.start m false "" = result at hbegins ⊢
  cases hbegins with
  | unresolved f hgranted => cases hgranted
  | homeless credential f hgranted henvironment =>
    rw [henvironment, hinquired]
    exact ⟨rfl, rfl, rfl⟩
  | unstarted credential environment f s h hgranted henvironment hstarts =>
    cases hgranted
    rw [hinquired] at hstarts ⊢
    rw [henvironment]
    dsimp only
    rw [hstarts.start_eq]
    exact ⟨rfl, rfl, rfl⟩
  | started credential environment device s h r st' hgranted henvironment hstarts hreplaced =>
    cases hgranted
    rw [hinquired] at hstarts hreplaced
    rw [hcurrent] at hreplaced
    cases hreplaced
    rw [henvironment]
    dsimp only
    rw [hstarts.start_eq]
    rfl

/-! ### Studios -/

/-- A studio is a floor on which no managers are at work. -/
def Studio.floor (s : Studio) : Floor where
  settings := s.plan.settings
  files := s.files
  here := s.here
  store := { host := s.host, environment := s.plan.environment }
  booths := s.booths

/-- A step of a studio is an action on its floor, of a booth that is not done. -/
theorem Studio.floor_step {s t : Studio} (h : s.step = some t) :
    ∃ i, t.floor = s.floor.step (.act i ⟨s.host.faults, s.host.devices⟩) := by
  obtain ⟨⟨i, b⟩, hnext, rfl⟩ := Option.map_eq_some_iff.mp h
  obtain ⟨-, hb⟩ := Studio.nextFrom_eq_some hnext
  have hhistory : s.floor.history = s.history := congrArg (Files.History.mk s.files s.here) (List.append_nil _)
  refine ⟨i, ?_⟩
  show _ = s.floor.act i _
  rw [Floor.act_of_some (b := b) hb, hhistory]
  rfl

theorem Studio.floor_run : ∀ (fuel : Nat) (s : Studio), ∃ occurrences, (s.run fuel).floor = s.floor.after occurrences
  | 0, _ => ⟨[], rfl⟩
  | fuel + 1, s => by
    rw [Studio.run]
    cases hs : s.step with
    | none => exact ⟨[], rfl⟩
    | some t =>
      obtain ⟨i, hstep⟩ := Studio.floor_step hs
      obtain ⟨occurrences, hrun⟩ := Studio.floor_run fuel t
      exact ⟨.act i ⟨s.host.faults, s.host.devices⟩ :: occurrences, by rw [hrun, hstep, Floor.after_cons]⟩

end Teletype.Recording
