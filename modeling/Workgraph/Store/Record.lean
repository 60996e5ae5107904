import Workgraph.Value.Document
/-!
# Records

The records of an entity: objects with a text id. A record matches criteria when it has an equal
value for each of their names.
-/

namespace Workgraph

/-- A record of an entity. -/
abbrev Record := Entries Value

namespace Record

/-- The id of a record. -/
def id (r : Record) : Value := (r.get? "id").getD .null

/-- Whether a record has the id. -/
def hasId (r : Record) (id : String) : Bool := r.id.same (.text id)

/-- Whether a record has an equal value for each name of the criteria. Missing fields are null. -/
def fulfils (r : Record) (criteria : Entries Value) : Bool :=
  criteria.all fun c => ((r.get? c.1).getD .null).same c.2

/-- An id and the time of creation, which the data may replace. -/
def draft (id stamp : String) (data : Entries Value) : Record :=
  Entries.merge [("id", .text id), ("created_date", .text stamp)] data

/-- A new record: what is drafted, but the id becomes a text. -/
def create (id stamp : String) (data : Entries Value) : Record :=
  (draft id stamp data).set "id" (.text (Record.id (draft id stamp data)).shown)

/-- A new record, if its id can be written. -/
def ofData (id stamp : String) (data : Entries Value) : Except Defect Record :=
  if (Record.id (draft id stamp data)).hasLongInteger then .error .longInteger
  else .ok (create id stamp data)

/-- A record with new data, whose id stays, and the time of the change. -/
def change (r : Record) (stamp : String) (data : Entries Value) : Record :=
  (r.merge (data.without "id")).set "updated_date" (.text stamp)

end Record

end Workgraph
