import Teletype.Files.History
import Teletype.Output.Line
import Teletype.Recording.Script
import Teletype.Session.Basic
import Teletype.Shell

/-!
# Booths

A booth makes one recording: it starts a session of its own, watches its terminal, goes through the
script, closes the session, and waits for the transcript to settle. It advances by one action at a
time. An action touches the host only to start or close the session and to tell the operator
something; all else is the booth's own.
-/

namespace Teletype.Recording

open Output (Line Watcher)

/-- What a booth does next. -/
inductive Phase where
  /-- Start the session. -/
  | waiting
  /-- Take the first of the steps that are left, which has this index. -/
  | between (index : Nat) (steps : List Step)
  /-- Probe whether a step is done. -/
  | probing (index : Nat) (step : Step) (start : Nat) (deadline : Deadline) (rest : List Step)
  /-- Close the session after a failure. -/
  | failing (failure : Failure)
  /-- Look at the transcript, which had this size when it was last there. -/
  | settling (deadline : Deadline) (last : Option Nat)
  | done (result : Except Failure String)

/-- The making of one recording. `gaveWay` tells that others could act since it began. -/
structure Booth where
  target : Target
  phase : Phase := .waiting
  session : Session := { id := "" }
  line : Line := {}
  gaveWay : Bool := false

/-- What booths go by: the settings, and the variables that shells inherit. -/
structure Plan where
  settings : Settings := {}
  environment : Environment := []

namespace Booth

/-- The time in the booth. -/
def now (b : Booth) : Time := b.line.now

def isDone (b : Booth) : Bool := b.phase matches .done _

/-- The booth with another phase. -/
def goTo (b : Booth) (phase : Phase) : Booth := { b with phase }

/-- The booth after a failure in its session. -/
def fail (b : Booth) (failure : Failure) : Booth := b.goTo (.failing failure)

/-- The recording is over. -/
def finish (b : Booth) (result : Except Failure String) : Booth := b.goTo (.done result)

/-- Starts the session of a booth: an interactive shell without a credential. -/
def start (plan : Plan) (h : Host) : Session.Started :=
  let shell := plan.settings.shell
  match Shell.environment shell plan.environment with
  | .error f => (.error f, { id := "" }, h)
  | .ok environment =>
    let (id, h) := h.name
    let session : Session := { id, command := Shell.argv shell "", environment }
    session.start h

/-- Starts the session and attaches the watcher. The script is made then, so a script that cannot be
    made fails the recording with its session open. -/
def begin (plan : Plan) (b : Booth) (h : Host) : Booth × Host :=
  match start plan h with
  | (.error f, session, h) => ({ b with session }.finish (.error f), h)
  | (.ok device, session, h) =>
    let line := { b.line with terminal := .begin device b.now, watcher := {} }.attach
    let b := { b with session, line }
    match script plan.settings.recorder b.target with
    | .error e => (b.fail (.fault e.fault), h)
    | .ok steps => (b.goTo (.between 1 steps), h)

/-- Types a text; a fault fails the recording. -/
def type (b : Booth) (text : String) (next : Booth → Booth) : Booth :=
  match b.session.writeRefusal? with
  | some f => b.fail (.fault f)
  | none =>
    match b.line.type text with
    | (some f, line) => { b with line }.fail (.fault f)
    | (none, line) => next { b with line }

/-- Types the command of a step, if it has one. -/
def typeCommand (b : Booth) (step : Step) (next : Booth → Booth) : Booth :=
  if step.text.isEmpty then next b else b.type step.line next

/-- Waits for the marker of a step. -/
def hear (b : Booth) (index start : Nat) (span : Span) (next : Bool → Booth → Booth) : Booth :=
  let wait := b.line.waitFor (marker index) start span
  next wait.found { b with line := wait.line, gaveWay := b.gaveWay || wait.gaveWay }

/-- The failure of a step that was not done in time. -/
def unready (step : Step) : Failure := .unready step.name step.timeout

/-- Takes a step. -/
def takeStep (b : Booth) (index : Nat) (step : Step) (rest : List Step) : Booth :=
  let start := b.line.watcher.position
  let span := Span.ofNumber step.timeout
  let next (done : Bool) (b : Booth) : Booth :=
    if done then b.goTo (.between (index + 1) rest) else b.fail (unready step)
  match step.readiness with
  | .chained => b.type (step.chainedLine index) fun b => b.hear index start span next
  | .exit => b.typeCommand step fun b =>
      let (code, line) := b.line.waitForExit span
      next code.isSome { b with line, gaveWay := b.gaveWay || b.now < line.now }
  | .probe => b.typeCommand step fun b =>
      b.goTo (.probing index step start (.after b.now span) rest)

/-- Types a probe and listens for its answer, until it is time for the next probe or the step has taken
    too long. -/
def takeProbe (plan : Plan) (b : Booth) (h : Host) (index : Nat) (step : Step) (start : Nat)
    (deadline : Deadline) (rest : List Step) : Booth × Host :=
  if b.line.watcher.ended || deadline.isOver b.now then
    (b.fail (unready step), h.tell (.stepUnready step.name (b.line.watcher.window.tail 200)))
  else
    let interval := Span.ofNumber plan.settings.recorder.probeInterval
    (b.type (probeLine index) fun b =>
      b.hear index start (interval.orShorter (deadline.left b.now)) fun found b =>
        if found then b.goTo (.between (index + 1) rest) else b, h)

/-- Detaches the watcher and closes the session. -/
def close (b : Booth) (h : Host) : Except Failure Unit × Booth × Host :=
  let line := b.line.detach
  let line := if b.session.isOpen then line.note .closed else line
  let (r, session, h) := b.session.close h
  (r, { b with session, line }, h)

/-- Closes the session after a failure. That the handle is not closed is only told; any other fault
    takes the place of the failure. -/
def closeFailed (b : Booth) (h : Host) (failure : Failure) : Booth × Host :=
  match b.close h with
  | (.ok (), b, h) => (b.finish (.error failure), h)
  | (.error (.close reason), b, h) =>
    (b.finish (.error failure), h.tell (.recordingNotClosed (.close reason)))
  | (.error f, b, h) => (b.finish (.error f), h)

/-- Closes the session after the last step. -/
def closeDone (plan : Plan) (b : Booth) (h : Host) : Booth × Host :=
  match b.close h with
  | (.error f, b, h) => (b.finish (.error f), h)
  | (.ok (), b, h) =>
    (b.goTo (.settling (.after b.now (.ofNumber plan.settings.recorder.flushTimeout)) none), h)

/-- The time between two looks at a transcript. -/
def settleInterval : Rat := 1 / 5

/-- Looks at the transcript. It is settled when it has the size that it had at the last look at which
    it was there. -/
def look (files : Files.History) (b : Booth) (h : Host) (deadline : Deadline) (last : Option Nat) :
    Booth × Host :=
  let path := b.target.logFile
  if deadline.isAhead b.now then
    match files.size? path b.now with
    | .error f => (b.finish (.error (.fault f)), h)
    | .ok size =>
      if size.isSome && size == last then (b.finish (.ok path), h)
      else
        let now := b.now + settleInterval
        let line := { b.line with now, terminal := b.line.terminal.advance now }
        ({ b with line, gaveWay := true }.goTo (.settling deadline (size <|> last)), h)
  else (b.finish (.ok path), h.tell (.transcriptUnsettled path))

/-- Does the next action of a booth. -/
def act (plan : Plan) (files : Files.History) (b : Booth) (h : Host) : Booth × Host :=
  match b.phase with
  | .waiting => b.begin plan h
  | .between _ [] => b.closeDone plan h
  | .between index (step :: rest) => (b.takeStep index step rest, h)
  | .probing index step start deadline rest => b.takeProbe plan h index step start deadline rest
  | .failing failure => b.closeFailed h failure
  | .settling deadline last => b.look files h deadline last
  | .done _ => (b, h)

/-- The files that the booth's device changes. -/
def changes (b : Booth) : List Change := b.line.terminal.allChanges

end Booth

end Teletype.Recording
