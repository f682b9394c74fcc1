import Teletype.Fault
import Teletype.Failure

/-!
# Identity databases

An identity database answers four questions about users and groups. A question without an answer ends
by a fault.
-/

namespace Teletype

/-- The identity that a shell runs under. -/
structure Credential where
  uid : Int
  gid : Int
  groups : List Int := []
  deriving DecidableEq, Repr

namespace Identity

/-- The answers to the four questions: the ids of a user, the names of its groups, the id of a
    group. -/
structure Database where
  uid : String → Except Fault Int
  gid : String → Except Fault Int
  groupNames : String → Except Fault (List String)
  groupId : String → Except Fault Int

end Identity

end Teletype
