import Teletype.Files.Tree
import Teletype.Terminal.Basic

/-!
# Files over time

The sizes that files have at a time: from the tree at the start, and the changes up to then.
-/

namespace Teletype.Files

/-- A tree as it was at the start, the directory that paths are seen from, and the changes made
    since. -/
structure History where
  start : Tree := []
  here : Place := []
  changes : List Change := []

namespace History

/-- The changes up to a time, the latest last. -/
def before (h : History) (now : Time) : List Change :=
  (h.changes.filter fun c => c.time ≤ now).mergeSort fun a b => a.time ≤ b.time

/-- The place of the file of a change. -/
def place (h : History) (c : Change) : Place := h.here ++ pathSteps c.path

/-- The tree with the files of some changes in it. -/
def tree (h : History) (changes : List Change) : Tree :=
  changes.foldl (fun t c => t.put (h.place c) (.file [])) h.start

/-- The tree at a time. -/
def treeAt (h : History) (now : Time) : Tree := h.tree (h.before now)

/-- At a time a path is too long to be looked up. A path with a NUL in it is not looked up at all. -/
def refuses (h : History) (path : String) (now : Time) : Bool :=
  !path.toList.contains '\x00' && (h.treeAt now).refuses h.here path

/-- The size of what stands at a path at a time: none if there is nothing, and a fault if the path is too long to be
    looked up. A directory has a size of its own, which does not change. -/
def size? (h : History) (path : String) (now : Time) : Except Fault (Option Nat) :=
  if path.toList.contains '\x00' then .ok none
  else if h.refuses path now then .error (.make .system [.int 36, .text "File name too long", .text path])
  else
    let tree := h.treeAt now
    match tree.find? h.here path with
    | none => .ok none
    | some .directory => .ok (some 0)
    | some (.file content) =>
      match (h.before now).reverse.find? fun c => some (h.place c) == tree.place? h.here path with
      | some c => .ok (some c.size)
      | none => .ok (some content.length)

end History

end Teletype.Files
