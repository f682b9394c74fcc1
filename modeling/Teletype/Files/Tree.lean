import Teletype.Text.Utf8
import Teletype.Files.Path

/-!
# File trees

The files that a program can see, by their places below one root. Steps of a path are followed one by
one, so a file has nothing below it, not even its own parent.
-/

namespace Teletype.Files

/-- The steps from the root of a tree to a place in it. -/
abbrev Place := List String

/-- What stands at a place. -/
inductive Node where
  | file (content : Text.Bytes)
  | directory
  deriving Repr

def Node.isDirectory : Node → Bool
  | .file _ => false
  | .directory => true

/-- The files and the named directories of a tree. A directory that holds one of them need not be
    named. -/
abbrev Tree := List (Place × Node)

namespace Tree

/-- What stands at a place. -/
def node? (t : Tree) (place : Place) : Option Node :=
  match t.lookup place with
  | some n => some n
  | none =>
    if place.isEmpty || t.any fun (p, _) => place.isPrefixOf p then some .directory else none

/-- There is a directory at a place. -/
def isDirectory (t : Tree) (place : Place) : Bool := (t.node? place).any Node.isDirectory

/-- Puts a file or a directory at a place. -/
def put (t : Tree) (place : Place) (n : Node) : Tree := (place, n) :: t.filter fun (p, _) => p != place

/-- The place that a step leads to. The parent of the root is the root. -/
def enter (here : Place) (step : String) : Place :=
  if step == "" || step == "." then here else if step == ".." then here.dropLast else here ++ [step]

/-- Follows steps from a place. Each but the last has to lead to a directory. -/
def follow (t : Tree) (here : Place) : List String → Option Place
  | [] => some here
  | step :: rest => if t.isDirectory here then follow t (enter here step) rest else none

/-- Following steps from a place comes to one that is too long for a name. Steps are looked up in directories only, so
    one that leads nowhere or to a file keeps those after it from being looked up. -/
def meetsLong (t : Tree) (here : Place) : List String → Bool
  | [] => false
  | step :: rest =>
    t.isDirectory here && (stepLimit < step.utf8ByteSize || meetsLong t (enter here step) rest)

/-- The place that a path starts from: an absolute one starts from the root. -/
def base (here : Place) (path : String) : Place := if path.startsWith "/" then [] else here

/-- The place that a path leads to, seen from a directory. The empty path leads nowhere. -/
def place? (t : Tree) (here : Place) (path : String) : Option Place :=
  if path.isEmpty then none
  else t.follow (base here path) (Text.parts '/' path)

/-- A file system does not look up a path that is too long, as a whole or at a step that the ones before lead to. -/
def refuses (t : Tree) (here : Place) (path : String) : Bool :=
  pathLimit < path.utf8ByteSize || t.meetsLong (base here path) (Text.parts '/' path)

/-- What stands at a path, seen from a directory. -/
def find? (t : Tree) (here : Place) (path : String) : Option Node :=
  (t.place? here path).bind t.node?

/-- The nearest file of a name in a directory or in one that holds it. -/
def nearest? (t : Tree) (name : String) (here : Place) : Option Text.Bytes :=
  let places := (List.range (here.length + 1)).map fun i => here.take (here.length - i) ++ [name]
  places.findSome? fun p => match t.node? p with
    | some (.file content) => some content
    | _ => none

end Tree

end Teletype.Files
