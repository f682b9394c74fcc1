import Teletype.Identity.Database

/-!
# Native records

The user and group tables of a host. Of two rows for one name or id the first counts.
-/

namespace Teletype.Identity

/-- A user: name, id, and the id of its primary group. -/
structure UserRow where
  name : String
  uid : Int
  gid : Int
  deriving DecidableEq, Repr

/-- A group: name, id, and the names of the users listed in it. -/
structure GroupRow where
  name : String
  gid : Int
  members : List String := []
  deriving DecidableEq, Repr

/-- The tables of a host. -/
structure Tables where
  users : List UserRow := []
  groups : List GroupRow := []
  deriving DecidableEq, Repr

namespace Tables

/-- The row of a user. -/
def user (t : Tables) (name : String) : Except Fault UserRow :=
  match t.users.find? (·.name == name) with
  | some row => .ok row
  | none => .error (.missing ("getpwnam(): name not found: " ++ Text.quoted name))

/-- The row of a group. -/
def group (t : Tables) (name : String) : Except Fault GroupRow :=
  match t.groups.find? (·.name == name) with
  | some row => .ok row
  | none => .error (.missing ("getgrnam(): name not found: " ++ Text.quoted name))

/-- The row of a group with an id. -/
def groupOfId (t : Tables) (gid : Int) : Except Fault GroupRow :=
  match t.groups.find? (·.gid == gid) with
  | some row => .ok row
  | none => .error (.missing ("getgrgid(): gid not found: " ++ toString gid))

/-- The names with a name added at the end, unless it is among them. -/
def addName (names : List String) (name : String) : List String :=
  if names.contains name then names else names ++ [name]

/-- The groups of a user: the primary group, then every group that lists the user, each once. -/
def groupNames (t : Tables) (name : String) : Except Fault (List String) := do
  let row ← t.user name
  let primary ← t.groupOfId row.gid
  let listed := t.groups.filter fun g => g.members.contains name
  return (listed.map (·.name)).foldl addName [primary.name]

/-- The database of a host's tables. -/
def database (t : Tables) : Database where
  uid name := (t.user name).map (·.uid)
  gid name := (t.user name).map (·.gid)
  groupNames := t.groupNames
  groupId name := (t.group name).map (·.gid)

end Tables

end Teletype.Identity
