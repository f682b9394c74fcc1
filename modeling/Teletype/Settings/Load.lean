import Teletype.Data.Json
import Teletype.Failure
import Teletype.Files.Tree
import Teletype.Settings.EnvFile

/-!
# Loading settings

Settings come from variables of the environment, from a file, and from defaults, the earlier of these
winning. The environment is first completed by the nearest environment file.
-/

namespace Teletype

/-- The variables of a process. -/
abbrev Environment := Data.Table String

namespace Settings

/-- A variable that is set to something. -/
def setting? (env : Environment) (name : String) : Option String :=
  (env.get? name).filter (· != "")

/-- What bytes that are no text amount to. -/
def undecodable (flaw : Text.Utf8.Flaw) : Fault :=
  let place := match flaw.span with
    | [b] => "byte 0x" ++ Text.hex [b] ++ " in position " ++ toString flaw.offset
    | span => "bytes in position " ++ toString flaw.offset ++ "-" ++ toString (flaw.offset + span.length - 1)
  ⟨.undecodable, "'utf-8' codec can't decode " ++ place ++ ": " ++ flaw.reason.text⟩

/-- The text of a file, its line ends made plain. -/
def fileText (content : Text.Bytes) : Except Fault (List Char) :=
  match Text.Utf8.decode content with
  | .ok cs => .ok (Text.plainLines cs)
  | .error flaw => .error (undecodable flaw)

/-- Completes an environment by the nearest file `.env`. -/
def completeEnvironment (files : Files.Tree) (here : Files.Place) (env : Environment) :
    Environment × Option Fault :=
  match files.nearest? ".env" here with
  | none => (env, none)
  | some content =>
    match fileText content with
    | .error f => (env, some f)
    | .ok text => EnvFile.load env text

/-- The data of a settings file: an empty object if there is no such file. -/
def readFile (files : Files.Tree) (here : Files.Place) (path : Option String) : Except Fault Data.Value :=
  let path := path.getD ""
  match files.find? here path with
  | none => .ok (.object [])
  | some .directory =>
    .error ⟨.isDirectory, Fault.numberedText (.int 21) (.text "Is a directory") (.text path)⟩
  | some (.file content) => do
    let text ← fileText content
    match Data.Json.read text with
    | .ok v => .ok v
    | .error (.tooManyDigits n) => .error ⟨.value, Number.tooManyDigitsText n⟩
    | .error flaw => .error ⟨.malformedJson, flaw.message⟩

/-- A value of the wrong type in a place that is looked into. -/
def wrongType : Fault := ⟨.wrongType, ""⟩

/-- Writes a member into a section, which has to be an object. -/
def override (section? : Data.Value) (name : String) (v : Data.Value) : Except Fault Data.Value :=
  match section? with
  | .object members => .ok (.object (Data.Table.put members name v))
  | _ => .error wrongType

/-- The settings of the shell that variables give, with the names they have in the file. -/
def shellOverrides (env : Environment) : List (String × String) :=
  ((setting? env "PTYSHELL_SHELL").map fun v => ("shell", v)).toList
    ++ ((setting? env "PTYSHELL_RUN_AS_USER").map fun v => ("run_as_user", v)).toList
    ++ ((setting? env "PTYSHELL_IDENTITY_BACKEND").map fun v =>
      ("identity_backend", String.ofList (v.toList.map Char.toLower))).toList

/-- The settings of recordings that variables give. The size is read as a number. -/
def recorderOverrides (env : Environment) : Except Fault (List (String × Data.Value)) := do
  let size ← match setting? env "PTYSHELL_SCREEN_BUFFER_SIZE" with
    | none => pure []
    | some v => (Fault.integerOf v).map fun n => [("screen_buffer_size", .int n)]
  let helper := (setting? env "PTYSHELL_SESSION_LOGGER").map fun v => ("session_logger", Data.Value.text v)
  return size ++ helper.toList

/-- Writes overriding values into a section of the file's data; a section that is not there is made. -/
def overrideSection (members : Data.Table Data.Value) (name : String)
    (overrides : List (String × Data.Value)) : Except Fault (Data.Table Data.Value) := do
  if overrides.isEmpty then return members
  let changed ← overrides.foldlM (fun v (field, w) => override v field w) ((members.get? name).getD (.object []))
  return members.put name changed

/-- The file's data with the values that variables give. -/
def overridden (env : Environment) (file : Data.Value) : Except Fault Data.Value :=
  match file with
  | .object members => do
    let members ← overrideSection members "shell"
      ((shellOverrides env).map fun (name, v) => (name, Data.Value.text v))
    let overrides ← recorderOverrides env
    return .object (← overrideSection members "recorder" overrides)
  | _ => .error ⟨.wrongAttribute, ""⟩

/-- The settings that an environment and the data of a file give. -/
def ofData (env : Environment) (file : Data.Value) : Except Failure Settings :=
  match overridden env file with
  | .error f => .error (.fault f)
  | .ok data => match Settings.reader data with
    | .valid s => .ok s
    | .invalid issues => .error (.settings issues)

/-- Loads the settings: the result, and the environment as it is afterwards. -/
def load (files : Files.Tree) (here : Files.Place) (env : Environment) (path : Option String) :
    Except Failure Settings × Environment :=
  match completeEnvironment files here env with
  | (env, some f) => (.error (.fault f), env)
  | (env, none) =>
    match readFile files here path with
    | .error f => (.error (.fault f), env)
    | .ok file => (ofData env file, env)

end Settings

end Teletype
