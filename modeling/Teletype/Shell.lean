import Teletype.Settings.Load
import Teletype.Text.Blank

/-!
# What a shell is started with

The words and the variables that a shell starts with: a function of the settings, the command and the
parent's variables.
-/

namespace Teletype.Shell

/-- The words that start the shell: alone for a blank command, which makes it interactive, and
    otherwise with the whole command as its last argument. -/
def argv (s : ShellSettings) (command : String) : List String :=
  if Text.isAllBlank command then [s.shell] else s.shell :: s.commandArgs ++ [command]

/-- The variables of the shell: those of the parent, with the terminal type and the home directory set
    and a language given if the parent has none. -/
def environment (s : ShellSettings) (parent : Environment) : Except Failure Environment :=
  match s.home with
  | .error e => .error (.fault e.fault)
  | .ok home =>
    let env := (parent.put "TERM" s.term).put "HOME" home
    .ok (if (parent.get? "LANG").getD "" == "" then env.put "LANG" s.defaultLang else env)

end Teletype.Shell
