import Teletype.Failure
import Teletype.Text.Utf8
import Teletype.Text.Word

/-!
# Recording scripts

A recording types a fixed sequence of commands into a shell: it opens a screen, starts the transcript in
it, replays a session, and leaves each layer again. Each step has its own way to prove that it is done:
a probe that is typed until its marker comes back, the same probe on the line of the command, or the
end of the shell. A probe holds its marker in two parts, so its echo is no answer.
-/

namespace Teletype.Recording

/-- How a step proves that it is done. -/
inductive Readiness where
  | probe
  | chained
  | exit
  deriving DecidableEq, Repr

def Readiness.name : Readiness → String
  | .probe => "probe"
  | .chained => "chained"
  | .exit => "exit"

/-- A step of a recording: the command it types, and how long it may take. -/
structure Step where
  name : String
  text : String
  timeout : Number.Binary64
  readiness : Readiness := .probe
  deriving DecidableEq, Repr

/-- What the templates of commands are filled with. Paths are spelled as single words. -/
def bindings (r : RecorderSettings) (t : Target) : Text.Template.Bindings := [
  ("buffer_size", .number r.screenBufferSize),
  ("log_file", .text (Text.Word.quote t.logFile)),
  ("ipc_file", .text (Text.Word.quote t.ipcFile)),
  ("logger", .text r.sessionLogger),
  ("blocking", .text (if t.blocking then "true" else "false"))]

/-- The steps of a recording, first to last. -/
def script (r : RecorderSettings) (t : Target) : Except Text.Template.Error (List Step) := do
  let values := bindings r t
  let screen ← Text.Template.fill values r.screenCommand
  let record ← Text.Template.fill values r.recordCommand
  let logger ← Text.Template.fill values r.loggerCommand
  return [
    ⟨"shell", "", r.readyTimeout, .probe⟩,
    ⟨"screen", screen, r.readyTimeout, .probe⟩,
    ⟨"record", record, r.readyTimeout, .probe⟩,
    ⟨"logger", logger, r.loggerTimeout, .chained⟩,
    ⟨"exit record", r.exitCommand, r.exitTimeout, .probe⟩,
    ⟨"exit screen", r.exitCommand, r.exitTimeout, .probe⟩,
    ⟨"exit shell", r.exitCommand, r.exitTimeout, .exit⟩]

/-- The first part of every marker. -/
def markerHead : String := "__ptyshell_"

/-- The second part of the marker of a step. -/
def markerTail (index : Nat) : String := "ready_" ++ toString index ++ "__"

/-- What a step prints to prove that it is done. -/
def marker (index : Nat) : Text.Bytes := Text.utf8 (markerHead ++ markerTail index)

/-- The command that prints the marker of a step. -/
def probe (index : Nat) : String := "printf '%s%s\\n' " ++ markerHead ++ " " ++ markerTail index

/-- The line that asks whether a step is done. -/
def probeLine (index : Nat) : String := probe index ++ "\n"

/-- The line of a step's command. -/
def Step.line (s : Step) : String := s.text ++ "\n"

/-- The line of a step's command with the probe behind it. -/
def Step.chainedLine (s : Step) (index : Nat) : String := s.text ++ "; " ++ probe index ++ "\n"

end Teletype.Recording
