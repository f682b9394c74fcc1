import Teletype.Identity.Command
import Teletype.Identity.Native

/-!
# Record files

The user and group tables of a host as text: a record a line, its fields between colons. A line that
is no record is passed over.
-/

namespace Teletype.Identity

/-- A user from a line: name, password, uid, gid. -/
def UserRow.ofLine? (line : String) : Option UserRow :=
  match Text.parts ':' line with
  | name :: _ :: uid :: gid :: _ => do
    let uid ← (readId uid).toOption
    let gid ← (readId gid).toOption
    return ⟨name, uid, gid⟩
  | _ => none

/-- A group from a line: name, password, gid, members. -/
def GroupRow.ofLine? (line : String) : Option GroupRow :=
  match Text.parts ':' line with
  | name :: _ :: gid :: members :: _ => do
    let gid ← (readId gid).toOption
    return ⟨name, gid, (Text.parts ',' members).filter (· != "")⟩
  | _ => none

/-- The tables of two record files. -/
def Tables.ofText (users groups : String) : Tables :=
  ⟨(Text.parts '\n' users).filterMap UserRow.ofLine?, (Text.parts '\n' groups).filterMap GroupRow.ofLine?⟩

end Teletype.Identity
