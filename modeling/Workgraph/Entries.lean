/-!
# Ordered entries

Tables from names to values that remember the order in which the names first arrived. Setting a
present name keeps its place; a new name goes to the end.
-/

namespace Workgraph

/-- Named values in order of arrival. -/
abbrev Entries (α : Type) := List (String × α)

namespace Entries

variable {α : Type}

/-- The value of a name. -/
def get? : Entries α → String → Option α
  | [], _ => none
  | (k, v) :: rest, name => if k = name then some v else get? rest name

/-- Whether the name has a value. -/
def has (entries : Entries α) (name : String) : Bool := (entries.get? name).isSome

/-- Sets the value of a name, in place if the name is present. -/
def set : Entries α → String → α → Entries α
  | [], name, v => [(name, v)]
  | (k, w) :: rest, name, v => if k = name then (k, v) :: rest else (k, w) :: set rest name v

/-- Sets every entry of the second table in the first, in order. -/
def merge (entries other : Entries α) : Entries α :=
  other.foldl (fun acc e => acc.set e.1 e.2) entries

/-- Entries in the order of arrival of their names, the last value of a repeated name. -/
def ofList (pairs : List (String × α)) : Entries α := merge [] pairs

/-- The names in order. -/
def names (entries : Entries α) : List String := entries.map (·.1)

/-- The entries without a name. -/
def without (entries : Entries α) (name : String) : Entries α := entries.filter (·.1 ≠ name)

end Entries

end Workgraph
