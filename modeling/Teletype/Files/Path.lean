import Teletype.Text.Split

/-!
# Paths

A path is a text with slashes. Its tidy form has no empty steps, no steps to the same place, and no
slash at its end; steps to the parent stay, since a link may stand before them.
-/

namespace Teletype.Files

/-- The steps of a path that lead somewhere. -/
def pathSteps (path : String) : List String :=
  (Text.parts '/' path).filter fun s => s != "" && s != "."

/-- The root that a path starts from: two slashes are a root of their own, three or more are one. -/
def pathRoot (path : String) : String :=
  match path.toList with
  | '/' :: '/' :: '/' :: _ => "/"
  | '/' :: '/' :: _ => "//"
  | '/' :: _ => "/"
  | _ => ""

/-- The tidy form of a path. The place itself is a single point. -/
def tidyPath (path : String) : String :=
  let tidy := pathRoot path ++ "/".intercalate (pathSteps path)
  if tidy.isEmpty then "." else tidy

/-- The most bytes in a step of a path, and in a whole path, that a file system takes. -/
def stepLimit : Nat := 255

def pathLimit : Nat := 4095

end Teletype.Files
