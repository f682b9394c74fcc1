import Teletype.Recording.Booth

/-!
# Studios

A studio makes recordings on one host, one after the other or all at once. Of booths at work at the
same time the one that is earliest in time acts next; of two at one time the one to which the other has
not given way yet, and then the one that began first.
-/

namespace Teletype.Recording

/-- A host with the booths of a studio, the files as they were at the start, and the directory they
    are seen from. -/
structure Studio where
  plan : Plan := {}
  host : Host := {}
  files : Files.Tree := []
  here : Files.Place := []
  booths : List Booth := []

namespace Studio

/-- The files over time. -/
def history (s : Studio) : Files.History := ⟨s.files, s.here, s.booths.flatMap Booth.changes⟩

/-- One booth acts before another. -/
def isBefore (a b : Booth) : Bool :=
  a.now < b.now || (a.now == b.now && !a.gaveWay && b.gaveWay)

/-- The index of the booth that acts next, `index` being that of the first of the list. -/
def nextFrom (index : Nat) : List Booth → Option (Nat × Booth)
  | [] => none
  | b :: rest =>
    match nextFrom (index + 1) rest with
    | none => if b.isDone then none else some (index, b)
    | some (i, c) => if b.isDone || isBefore c b then some (i, c) else some (index, b)

/-- The booth that acts next, if one is at work. -/
def next? (s : Studio) : Option (Nat × Booth) := nextFrom 0 s.booths

/-- Lets one booth act. -/
def step (s : Studio) : Option Studio :=
  s.next?.map fun (i, b) =>
    let (b, host) := b.act s.plan s.history s.host
    { s with host, booths := s.booths.set i b }

/-- Lets booths act until all are done, at most `fuel` times. -/
def run (fuel : Nat) (s : Studio) : Studio :=
  match fuel with
  | 0 => s
  | fuel + 1 =>
    match s.step with
    | none => s
    | some s => run fuel s

/-- The most actions in a span with one action in every interval; an amount that is far beyond any use
    if there is no such limit. -/
def actionsIn (span interval : Span) : Nat :=
  match span, interval with
  | .finite s, .finite i => if 0 < i then (s / i).ceil.toNat + 2 else 100000
  | .past, _ => 2
  | _, _ => 100000

/-- The most actions that a recording takes. -/
def budget (r : RecorderSettings) : Nat :=
  let interval := Span.ofNumber r.probeInterval
  let probes (timeout : Number.Binary64) := actionsIn (.ofNumber timeout) interval
  16 + 3 * probes r.readyTimeout + 2 * probes r.exitTimeout
    + actionsIn (.ofNumber r.flushTimeout) (.finite Booth.settleInterval)

/-- The studio with one more booth, at a time. -/
def add (s : Studio) (now : Time) (target : Target) : Studio :=
  { s with booths := s.booths ++ [{ target, line := { now } }] }

/-- Lets all booths finish. -/
def finish (s : Studio) : Studio := s.run (s.booths.length * budget s.plan.settings.recorder)

/-- The time at which the last booth is. -/
def latest (s : Studio) : Time := (s.booths.map Booth.now).foldl later 0

/-- Makes recordings all at once. -/
def recordTogether (s : Studio) (targets : List Target) : Studio :=
  (targets.foldl (fun s t => s.add 0 t) s).finish

/-- Makes recordings one after the other. -/
def recordInTurn (s : Studio) (targets : List Target) : Studio :=
  targets.foldl (fun s t => (s.add s.latest t).finish) s

end Studio

end Teletype.Recording
