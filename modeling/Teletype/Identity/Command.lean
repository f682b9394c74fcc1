import Teletype.Identity.Database
import Teletype.Text.Blank
import Teletype.Text.Split
import Teletype.Text.Word

/-!
# Records from commands

Identity records as the commands `id`, `groups` and `getent` print them. A question becomes a command
line, and the answer is read from what the command prints.
-/

namespace Teletype.Identity

/-- Reads a number that a command prints, blanks around it aside. -/
def readId (output : String) : Except Fault Int := Fault.integerOf (Text.trimmed output)

/-- Reads the names of a user's groups: the user and a colon, and then the names, all separated by
    blanks. -/
def readGroupNames (output user : String) : Except Fault (List String) :=
  match (Text.words output.toList).map String.ofList with
  | first :: ":" :: names =>
    if first == user then .ok names
    else .error ⟨.value, "unexpected groups output: " ++ Text.quoted (Text.trimmed output)⟩
  | _ => .error ⟨.value, "unexpected groups output: " ++ Text.quoted (Text.trimmed output)⟩

/-- Reads the id of a group from its record: the third of the fields between colons. -/
def readGroupRecord (record : String) : Except Fault Int :=
  match Text.splitAt ':' (Text.trim record.toList) with
  | _ :: _ :: id :: _ => readId (String.ofList id)
  | _ => .error ⟨.value, "malformed group record: " ++ Text.quoted (Text.trimmed record)⟩

/-- The command line that asks a question about a name. -/
def commandLine (question : Lookup) (name : String) : String :=
  (match question with
    | .uid => "id -u "
    | .gid => "id -g "
    | .groups => "groups "
    | .group => "getent group ") ++ Text.Word.quote name

/-- Commands that can be run: the shell they are given to, and what running one prints. -/
structure Commands where
  shell : String
  arguments : List String
  run : List String → Except Fault String

namespace Commands

/-- The words that are run to ask a question. -/
def argv (c : Commands) (question : Lookup) (name : String) : List String :=
  c.shell :: c.arguments ++ [commandLine question name]

/-- The database of what commands print. -/
def database (c : Commands) : Database where
  uid name := c.run (c.argv .uid name) >>= readId
  gid name := c.run (c.argv .gid name) >>= readId
  groupNames name := do readGroupNames (← c.run (c.argv .groups name)) name
  groupId name := c.run (c.argv .group name) >>= readGroupRecord

end Commands

end Teletype.Identity
