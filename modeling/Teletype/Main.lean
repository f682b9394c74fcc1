import Teletype.CommandLine.Run
import Teletype.Identity.Records

/-!
# The program

The command line on a real host: its variables, its record files, the environment files on the way up
from the working directory, and the settings file. Terminals and commands are not within reach of this
program, so what needs one is refused as the host would refuse it.
-/

namespace Teletype.Main

/-- What a host says that lacks a facility. -/
def lacking : Fault := .make .system [.int 38, .text "Function not implemented"]

/-- The variables in a block of them, each ended by a zero byte. -/
def environmentOf (block : Text.Bytes) : Environment :=
  let entries := (String.ofList ((Text.Utf8.decode block).toOption.getD [])).splitOn "\x00"
  .ofList (entries.filterMap fun e =>
    match e.splitOn "=" with
    | name :: value@(_ :: _) => if name.isEmpty then none else some (name, "=".intercalate value)
    | _ => none)

/-- What stands at a path. -/
def readNode (path : String) : IO (Option Files.Node) := do
  try
    return some (.file (← IO.FS.readBinFile path).toList)
  catch e =>
    match e with
    | .noFileOrDirectory .. => return none
    | _ => return some .directory

/-- A tree of what stands at some paths. -/
def readTree (here : Files.Place) (paths : List String) : IO Files.Tree := do
  let mut tree : Files.Tree := [(here, .directory)]
  for path in paths do
    if let some node ← readNode path then
      let place := (if path.startsWith "/" then [] else here) ++ Files.pathSteps path
      tree := tree.put place node
  return tree

/-- The text of a file, empty if there is none. -/
def readText (path : String) : IO String := do
  match ← readNode path with
  | some (.file content) => return (Text.Utf8.text? content).getD ""
  | _ => return ""

/-- The paths of environment files, from the root down to a place. -/
def environmentFiles (here : Files.Place) : List String :=
  (List.range (here.length + 1)).map fun n => "/" ++ "/".intercalate (here.take n ++ [".env"])

/-- The settings file that arguments name. -/
def settingsFile (args : List String) : List String :=
  match CommandLine.read args with
  | .run common _ => common.config.toList
  | _ => []

end Teletype.Main

open Teletype Teletype.Main in
/-- Runs the program on this host. -/
def main (args : List String) : IO UInt32 := do
  let here := Files.pathSteps (← IO.currentDir).toString
  let files ← readTree here (environmentFiles here ++ settingsFile args)
  let block ← readNode "/proc/self/environ"
  let environment := match block with
    | some (.file content) => environmentOf content
    | _ => []
  let tables := Identity.Tables.ofText (← readText "/etc/passwd") (← readText "/etc/group")
  let outcome := CommandLine.run {
    files, here, environment, identities := { tables, run := fun _ => .error lacking },
    devices := [{ faults := { opening := some lacking } }] } args
  let output ← IO.getStdout
  output.write ⟨outcome.output.toArray⟩
  output.flush
  let errors ← IO.getStderr
  for event in outcome.journal do
    if let .told notice := event then
      errors.putStrLn ("[" ++ notice.level.name ++ "] " ++ notice.channel ++ ": " ++ notice.text)
  for error in outcome.errors do
    errors.putStrLn ("Error: " ++ error)
  if let some failure := outcome.unhandled then
    errors.putStrLn failure.message
  return (outcome.exitCode % 256).toNat.toUInt32
