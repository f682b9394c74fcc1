import Teletype.Identity.Command
import Teletype.Proofs.Shell.Reading
import Teletype.Proofs.Text.Templates
import Teletype.Recording.Script

/-! # Commands as a shell reads them

Names of users and groups, and the paths of a recording, are spelled for a command line, so that a shell reads each as one
word. What a template is filled with is not looked at again for fields, so braces in it are text as well. -/

namespace Teletype

/-! ### Questions -/

/-- The words that a question about a name is asked with. -/
def Lookup.words (question : Lookup) (name : String) : List String :=
  match question with
  | .uid => ["id", "-u", name]
  | .gid => ["id", "-g", name]
  | .groups => ["groups", name]
  | .group => ["getent", "group", name]

theorem words?_question {name : String} (hname : '\x00' ∉ name.toList) (question : Lookup) :
    Shell.words? (Identity.commandLine question name) = some (question.words name) := by
  have hpair {w : String} (hw : '\x00' ∉ w.toList) : ∀ v ∈ [w, name], '\x00' ∉ v.toList := by
    simpa using ⟨hw, hname⟩
  cases question with
  | uid =>
    show Shell.words? (Shell.commandLine "id" ["-u", name]) = _
    exact Shell.words?_commandLine (by decide) (hpair (by decide))
  | gid =>
    show Shell.words? (Shell.commandLine "id" ["-g", name]) = _
    exact Shell.words?_commandLine (by decide) (hpair (by decide))
  | groups =>
    show Shell.words? (Shell.commandLine "groups" [name]) = _
    exact Shell.words?_commandLine (by decide) (by simpa using hname)
  | group =>
    show Shell.words? (Shell.commandLine "getent" ["group", name]) = _
    exact Shell.words?_commandLine (by decide) (hpair (by decide))

/-! ### Templates -/

/-- The word that tells the logger whether to block. -/
def Target.flag (t : Target) : String := if t.blocking then "true" else "false"

namespace Recording

open Text.Template (fill fill_parts filledAll Part Slot)

/-- The commands of the first three steps are those of the default settings, whatever they are filled with. -/
structure HasDefaultTemplates (r : RecorderSettings) : Prop where
  screen : r.screenCommand = ({} : RecorderSettings).screenCommand
  record : r.recordCommand = ({} : RecorderSettings).recordCommand
  logger : r.loggerCommand = ({} : RecorderSettings).loggerCommand

/-- The command that opens a screen is two words and the size. -/
theorem fill_screen (r : RecorderSettings) (t : Target) : fill (bindings r t) ({} : RecorderSettings).screenCommand =
    (Text.Template.numberText r.screenBufferSize).map fun digits => "screen -h " ++ digits := by
  have htemplate : ({} : RecorderSettings).screenCommand =
      String.ofList ([Part.literal "screen -h ".toList, Part.field "buffer_size".toList].flatMap Part.written) := rfl
  have hvalue : (bindings r t).value "buffer_size".toList = .ok (.number r.screenBufferSize) := rfl
  rw [htemplate, fill_parts (by decide)]
  simp only [filledAll, Part.filled, hvalue, Except.bind, Slot.plain]
  cases Text.Template.numberText r.screenBufferSize with
  | error e => rfl
  | ok digits =>
    have hchars : "screen -h ".toList ++ (digits.toList ++ []) = ("screen -h " ++ digits).toList := by
      rw [List.append_nil, String.toList_append]
    exact congrArg Except.ok ((congrArg String.ofList hchars).trans String.ofList_toList)

/-- The command that starts the transcript is one word and the path. -/
theorem fill_record (r : RecorderSettings) (t : Target) : fill (bindings r t) ({} : RecorderSettings).recordCommand =
    .ok (Shell.commandLine "script" [t.logFile]) := by
  have htemplate : ({} : RecorderSettings).recordCommand =
      String.ofList ([Part.literal "script ".toList, Part.field "log_file".toList].flatMap Part.written) := rfl
  have hfill : fill (bindings r t) ({} : RecorderSettings).recordCommand =
      .ok (String.ofList ("script ".toList ++ ((Text.Word.quote t.logFile).toList ++ []))) := by
    rw [htemplate, fill_parts (by decide)]
    rfl
  rw [hfill, List.append_nil, ← String.toList_append, String.ofList_toList]
  rfl

theorem quote_flag (t : Target) : Text.Word.quote t.flag = t.flag := by
  unfold Target.flag
  split <;> decide

/-- The command that replays a session is the logger as it stands, the path and a flag. -/
theorem fill_logger (r : RecorderSettings) (t : Target) : fill (bindings r t) ({} : RecorderSettings).loggerCommand =
    .ok (Shell.commandLine r.sessionLogger [t.ipcFile, t.flag]) := by
  have hfill : fill (bindings r t) ({} : RecorderSettings).loggerCommand =
      .ok (String.ofList (r.sessionLogger.toList ++ (" ".toList ++ ((Text.Word.quote t.ipcFile).toList ++
        (" ".toList ++ (t.flag.toList ++ [])))))) := by
    have htemplate : ({} : RecorderSettings).loggerCommand = String.ofList ([Part.field "logger".toList, Part.literal [' '],
      Part.field "ipc_file".toList, Part.literal [' '], Part.field "blocking".toList].flatMap Part.written) := rfl
    rw [htemplate, fill_parts (by decide)]
    rfl
  have hline : Shell.commandLine r.sessionLogger [t.ipcFile, t.flag] =
    r.sessionLogger ++ " " ++ Text.Word.quote t.ipcFile ++ " " ++ Text.Word.quote t.flag := rfl
  rw [hfill, hline, quote_flag, List.append_nil]
  simp only [← String.toList_append, String.ofList_toList, ← String.append_assoc]

/-- With these commands a script can be made unless the size has more digits than are written. -/
theorem script_of_default_templates {r : RecorderSettings} (hr : HasDefaultTemplates r) (t : Target) : script r t =
    (Text.Template.numberText r.screenBufferSize).map fun digits => [
      ⟨"shell", "", r.readyTimeout, .probe⟩,
      ⟨"screen", "screen -h " ++ digits, r.readyTimeout, .probe⟩,
      ⟨"record", Shell.commandLine "script" [t.logFile], r.readyTimeout, .probe⟩,
      ⟨"logger", Shell.commandLine r.sessionLogger [t.ipcFile, t.flag], r.loggerTimeout, .chained⟩,
      ⟨"exit record", r.exitCommand, r.exitTimeout, .probe⟩,
      ⟨"exit screen", r.exitCommand, r.exitTimeout, .probe⟩,
      ⟨"exit shell", r.exitCommand, r.exitTimeout, .exit⟩] := by
  unfold script
  dsimp only
  rw [hr.screen, hr.record, hr.logger, fill_screen, fill_record, fill_logger]
  cases Text.Template.numberText r.screenBufferSize with
  | error e => rfl
  | ok digits => rfl

end Recording

/-! ### Words -/

theorem numberText_eq_error {n : Int} {e : Text.Template.Error} (h : Text.Template.numberText n = .error e) :
    e = .beyondDecimal ∧ Number.pow10 Number.digitLimit ≤ n.natAbs := by
  unfold Text.Template.numberText at h
  generalize Number.pow10 Number.digitLimit = limit at h ⊢
  split at h
  · next hlong =>
    cases h
    exact ⟨rfl, hlong⟩
  · cases h

open Recording in
/-- Whatever is in a name or a path, as long as it has no null character in it, a shell reads it as one word and as nothing
    else. A question about a user or a group is the words of its command and the name. With the default commands a script
    can be made unless its size has more digits than are written, and then the transcript is started with the words of its
    command and the path, and a session is replayed with the logger, the path and a flag, if the logger is one word. -/
theorem names_and_paths_are_single_words :
    (∀ (c : Identity.Commands) (question : Lookup) (name : String), '\x00' ∉ name.toList →
      (c.argv question name).getLast?.bind Shell.words? = some (question.words name)) ∧
    ∀ (r : RecorderSettings) (t : Target), HasDefaultTemplates r → '\x00' ∉ t.logFile.toList → '\x00' ∉ t.ipcFile.toList →
      (∃ steps record logger, script r t = .ok steps ∧
        steps[2]? = some record ∧ record.name = "record" ∧ Shell.words? record.text = some ["script", t.logFile] ∧
        steps[3]? = some logger ∧ logger.name = "logger" ∧
        (Shell.words? r.sessionLogger = some [r.sessionLogger] →
          Shell.words? logger.text = some [r.sessionLogger, t.ipcFile, if t.blocking then "true" else "false"])) ∨
      script r t = .error .beyondDecimal ∧ Number.pow10 Number.digitLimit ≤ r.screenBufferSize.natAbs := by
  refine ⟨fun c question name hname => ?_, fun r t hr hlog hipc => ?_⟩
  · have hlast : (c.argv question name).getLast? = some (Identity.commandLine question name) := by
      rw [Identity.Commands.argv, List.getLast?_concat]
    rw [hlast, Option.bind_some, words?_question hname]
  · have hflag : '\x00' ∉ t.flag.toList := by
      unfold Target.flag
      split <;> decide
    rw [script_of_default_templates hr]
    cases hdigits : Text.Template.numberText r.screenBufferSize with
    | error e =>
      obtain ⟨rfl, hlong⟩ := numberText_eq_error hdigits
      exact Or.inr ⟨rfl, hlong⟩
    | ok digits =>
      refine Or.inl ⟨_, _, _, rfl, rfl, rfl, ?_, rfl, rfl, fun hlogger => ?_⟩
      · exact Shell.words?_commandLine (by decide) (by simpa using hlog)
      · exact Shell.words?_commandLine hlogger (by simpa using ⟨hipc, hflag⟩)

/-- Settings whose logger has braces in its name. -/
def bracedLogger : RecorderSettings := { sessionLogger := "\x7blogger\x7d" }

/-- Paths with quotes, blanks and braces, a line end, an operator and expansions. -/
def awkwardTarget : Target where
  logFile := "it's $HOME; \"#1\""
  ipcFile := "~/\x7blog_file\x7d\n*"

theorem awkward_words_stay_whole :
    ((⟨"sh", ["-c"], fun _ => .ok ""⟩ : Identity.Commands).argv .group "wheel && id -u").getLast?.bind Shell.words? =
      some ["getent", "group", "wheel && id -u"] ∧
    ∃ steps record logger, Recording.script bracedLogger awkwardTarget = .ok steps ∧
      steps[2]? = some record ∧ Shell.words? record.text = some ["script", awkwardTarget.logFile] ∧
      steps[3]? = some logger ∧ Shell.words? logger.text = some ["\x7blogger\x7d", awkwardTarget.ipcFile, "false"] := by
  obtain ⟨hquestions, hscripts⟩ := names_and_paths_are_single_words
  refine ⟨hquestions ⟨"sh", ["-c"], fun _ => .ok ""⟩ .group "wheel && id -u" (by decide), ?_⟩
  have hlogger : Shell.words? bracedLogger.sessionLogger = some [bracedLogger.sessionLogger] := by decide
  have hok : (Recording.script bracedLogger awkwardTarget).isOk = true := by decide +kernel
  rcases hscripts bracedLogger awkwardTarget ⟨rfl, rfl, rfl⟩ (by decide) (by decide) with
    ⟨steps, record, logger, hscript, hrecord, -, hlog, hstep, -, hwords⟩ | ⟨herror, -⟩
  · exact ⟨steps, record, logger, hscript, hrecord, hlog, hstep, hwords hlogger⟩
  · rw [herror] at hok
    cases hok

end Teletype
