import Teletype.CommandLine.Run
import Teletype.Proofs.Recording.Run

/-! # What comes of failures

A failure of one of the program's own kinds is printed, any other ends the command as it is; either way the command exits
with 1. The command that makes a recording comes to what the one booth in its studio comes to. -/

namespace Teletype.CommandLine

open Recording (Booth Studio Surroundings)

/-- A command that met this failure has printed it. -/
structure Outcome.Prints (before after : Outcome) (f : Failure) : Prop where
  exitCode : after.exitCode = 1
  errors : after.errors = before.errors ++ [f.message]
  unhandled : after.unhandled = before.unhandled

/-- A command that met this failure has ended by it. -/
structure Outcome.EndedBy (before after : Outcome) (f : Failure) : Prop where
  exitCode : after.exitCode = 1
  errors : after.errors = before.errors
  unhandled : after.unhandled = some f

/-- A failure is printed if it is one of the program's own kinds. -/
theorem Outcome.fail_cases (o : Outcome) (f : Failure) :
    f.isOwn = true ∧ o.Prints (o.fail f) f ∨ f.isOwn = false ∧ o.EndedBy (o.fail f) f := by
  unfold fail
  split
  · next hown => exact Or.inl ⟨hown, rfl, rfl, rfl⟩
  · next hother => exact Or.inr ⟨by simpa using hother, rfl, rfl, rfl⟩

/-- What a command comes to whose settings are loaded. -/
theorem run_of_load {site : Site} {args : List String} {common : Common} {command : Command} {s : Settings}
    {environment : Environment} (hread : read args = .run common command)
    (hload : Settings.load site.files site.here site.environment common.config = (.ok s, environment)) :
    run site args = runWith { site with environment } s { logLevel := some (if common.verbose then 10 else 20) } command := by
  unfold run
  rw [hread]
  dsimp only
  rw [hload]

/-! ### Recordings -/

/-- The studio that a command makes its recording in. -/
def studioAt (site : Site) (s : Settings) : Studio where
  plan := ⟨s, site.environment⟩
  files := site.files
  here := site.here
  host := { devices := site.devices }

variable {site : Site} {s : Settings} {target : Target} {o : Outcome} {b : Booth}

/-- The one booth of the studio has gone through a run that begins on the host of the site, or not begun. -/
theorem recordInTurn_alone (site : Site) (s : Settings) (target : Target) :
    ∃ b, ((studioAt site s).recordInTurn [target]).booths = [b] ∧ (b = .fresh target 0 ∨
      ∃ (first : Surroundings) (around : List Surroundings), first.host = { devices := site.devices } ∧
        b = (Booth.fresh target 0).run ⟨s, site.environment⟩ (first :: around)) := by
  have halone : ((studioAt site s).add (studioAt site s).latest target).booths = [Booth.fresh target 0] := rfl
  rcases Studio.run_alone _ halone with hbooths | ⟨around, hbooths⟩
  · exact ⟨_, hbooths, Or.inl rfl⟩
  · exact ⟨_, hbooths, Or.inr ⟨_, around, rfl, rfl⟩⟩

/-- The command succeeds with the recording, and prints its failure if that is one of the program's own kinds. -/
theorem runRecord_of_done (hbooths : ((studioAt site s).recordInTurn [target]).booths = [b]) (o : Outcome)
    {result : Except Failure String} (hdone : b.phase = .done result) :
    (∃ path, result = .ok path ∧ (runRecord site s target o).output = printed ["Transcript: " ++ path] ∧
      (runRecord site s target o).exitCode = o.exitCode ∧ (runRecord site s target o).errors = o.errors ∧
      (runRecord site s target o).unhandled = o.unhandled) ∨
    ∃ f, result = .error f ∧ (f.isOwn = true ∧ o.Prints (runRecord site s target o) f ∨
      f.isOwn = false ∧ o.EndedBy (runRecord site s target o) f) := by
  unfold studioAt at hbooths
  unfold runRecord
  dsimp only
  generalize Studio.recordInTurn _ [target] = made at hbooths ⊢
  rw [hbooths, List.head?_cons, Option.map_some, hdone]
  cases result with
  | ok path => exact Or.inl ⟨path, rfl, rfl, rfl, rfl, rfl⟩
  | error f =>
    refine Or.inr ⟨f, rfl, ?_⟩
    dsimp only
    generalize hbefore : Outcome.mk _ _ _ _ _ _ _ _ _ = before
    have hsame : before.errors = o.errors ∧ before.unhandled = o.unhandled := by
      rw [← hbefore]
      exact ⟨rfl, rfl⟩
    rcases before.fail_cases f with ⟨hown, hprints⟩ | ⟨hother, hends⟩
    · exact Or.inl ⟨hown, hprints.exitCode, hsame.1 ▸ hprints.errors, hsame.2 ▸ hprints.unhandled⟩
    · exact Or.inr ⟨hother, hends.exitCode, hsame.1 ▸ hends.errors, hends.unhandled⟩

/-- A recording that is not over yet leaves nothing to print. -/
theorem runRecord_of_not_done (hbooths : ((studioAt site s).recordInTurn [target]).booths = [b]) (o : Outcome)
    (hgoing : ∀ result, b.phase ≠ .done result) : (runRecord site s target o).unhandled = o.unhandled := by
  unfold studioAt at hbooths
  unfold runRecord
  dsimp only
  generalize Studio.recordInTurn _ [target] = made at hbooths ⊢
  rw [hbooths, List.head?_cons, Option.map_some]
  split
  · next path hdone => exact absurd (Option.some.inj hdone) (hgoing _)
  · next f hdone => exact absurd (Option.some.inj hdone) (hgoing _)
  · rfl

end Teletype.CommandLine
