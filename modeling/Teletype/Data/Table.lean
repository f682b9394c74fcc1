/-!
# Tables

A table binds names to values and keeps the order in which the names came in. A name that is bound
again keeps its place.
-/

namespace Teletype.Data

/-- Values by name, in order. No operation binds a name twice. -/
abbrev Table (α : Type) := List (String × α)

namespace Table

variable {α : Type}

/-- The value of a name. -/
def get? (t : Table α) (name : String) : Option α := t.lookup name

/-- Binds a name. -/
def put (t : Table α) (name : String) (a : α) : Table α :=
  match t with
  | [] => [(name, a)]
  | (n, b) :: rest => if n == name then (n, a) :: rest else (n, b) :: put rest name a

/-- Binds all names of a list; of two bindings of one name the later counts. -/
def putAll (t : Table α) (entries : List (String × α)) : Table α :=
  entries.foldl (fun t (name, a) => t.put name a) t

/-- The table of a list of bindings. -/
def ofList (entries : List (String × α)) : Table α := putAll [] entries

theorem get?_put (t : Table α) (name other : String) (a : α) :
    (t.put name a).get? other = if other = name then some a else t.get? other := by
  induction t with
  | nil => simp only [put, get?, List.lookup_cons, List.lookup_nil]; grind
  | cons e rest ih =>
    obtain ⟨n, b⟩ := e
    simp only [get?] at ih
    simp only [put, get?]
    split <;> simp only [List.lookup_cons] <;> grind

end Table

end Teletype.Data
