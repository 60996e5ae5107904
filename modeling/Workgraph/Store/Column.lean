import Workgraph.Number.Places
import Workgraph.Number.Word
import Workgraph.Store.Database
import Workgraph.Value.Literal
/-!
# Columns of texts

The names of entities and the ids of records are stored in columns of texts. A number becomes the
text of it, a binary64 number with at most 15 digits; lists and objects cannot be stored, and null
must not be.
-/

namespace Workgraph

/-- The most digits of a binary64 number in a column. -/
def columnDigits : Nat := 15

/-- Numbers in columns are written positionally from `10 ^ (-4)` to below `10 ^ 15`. -/
def columnLayout : Layout where
  plainFrom := -4
  plainBelow := columnDigits
  singleDigit := ".0"
  exponentWidth := 2
  nan := ""
  infinity := "Inf"

/-- The decimal nearest to a positive number that has at most 15 digits. -/
def columnDecimal (units : Nat) : Digits :=
  let exponent := Binary64.decimalScale units - columnDigits
  let digits :=
    if exponent ≥ 0 then roundDivUp units (oneUnit * Nat.pow 10 exponent.toNat)
    else roundDivUp (units * Nat.pow 10 (-exponent).toNat) oneUnit
  (Digits.mk digits exponent).stripZeros (columnDigits + 1)

/-- The text of a binary64 number in a column. Zero has no sign. -/
def columnReal : Binary64 → String
  | .finite s u _ =>
    if u = 0 then "0.0" else (if s then "-" else "") ++ columnLayout.write (columnDecimal u)
  | x => columnLayout.render x

/-- The text that a column stores for a value at a position of a statement. -/
def columnText? (position : Nat) : Value → Except Defect (Option String)
  | .null => .ok none
  | .bool b => .ok (some (if b then "1" else "0"))
  | .int n =>
    if isWord n then .ok (some (intText n)) else .error .storedInteger
  | .real x => .ok (if x.isNaN then none else some (columnReal x))
  | .text s => .ok (some s)
  | v => .error (.unstorable position v.kind)

namespace Database

/-- The id under which a record is stored, for a statement that has it at a position. -/
def idOf (position : Nat) (r : Record) : Except Defect (Option String) :=
  match r.get? "id" with
  | some v => columnText? position v
  | none => .error (.missingField "id")

/-- Registers an entity. Null names none. -/
def registerEntity (d : Database) (entity : Value) : Except Defect Database := do
  return ((← columnText? 1 entity).map d.register).getD d

/-- Whether an entity is registered. -/
def existsEntity (d : Database) (entity : Value) : Except Defect Bool := do
  return (← columnText? 1 entity).any d.hasEntity

/-- The records of an entity. -/
def recordsOf (d : Database) (entity : Value) : Except Defect (List Record) := do
  return ((← columnText? 1 entity).map d.records).getD []

/-- The record of an entity with an id. -/
def recordOf? (d : Database) (entity id : Value) : Except Defect (Option Record) := do
  let entity ← columnText? 1 entity
  let id ← columnText? 2 id
  return entity.bind fun e => id.bind (d.record? e)

/-- Adds a record under its own id. -/
def insertRecord (d : Database) (entity : Value) (r : Record) : Except Defect Database := do
  if !r.has "id" then throw (.missingField "id")
  let _ ← Json.document (.object r)
  match ← columnText? 1 entity, ← idOf 2 r with
  | some entity, some id => d.insert entity id r
  | none, _ => throw (.emptyColumn "entity_records.entity")
  | _, none => throw (.emptyColumn "entity_records.id")

/-- Replaces the record that has the id of a record, if there is one. -/
def replaceRecord (d : Database) (entity : Value) (r : Record) : Except Defect Database := do
  let _ ← Json.document (.object r)
  if !r.has "id" then throw (.missingField "id")
  match ← columnText? 2 entity, ← idOf 3 r with
  | some entity, some id => d.replace entity id r
  | _, _ => return d

/-- Removes the record of an entity with an id, if there is one. -/
def removeRecord (d : Database) (entity id : Value) : Except Defect Database := do
  match ← columnText? 1 entity, ← columnText? 2 id with
  | some entity, some id => return d.remove entity id
  | _, _ => return d

end Database

end Workgraph
