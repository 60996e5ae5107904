import Workgraph.Schema.Part
/-!
# Settings

The settings of an engine. Every setting has a default.
-/

namespace Workgraph

/-- The settings of an engine. -/
structure Settings where
  /-- The cap of loops that set none. -/
  maxIterations : Int
  /-- Seconds to wait for an answer to a call. -/
  httpTimeout : Binary64
  /-- The headers of every call. -/
  defaultHeaders : Entries String
  /-- Where the database is. -/
  databasePath : String
  entities : List String
  recordHistory : Bool
  logLevel : String

namespace Settings

/-- The default headers. -/
def standardHeaders : Entries String := [("Content-Type", "application/json")]

/-- The default place of the database. -/
def standardDatabase : String := ".nodeflow/state.db"

/-- The defaults. -/
def standard : Settings where
  maxIterations := 1000
  httpTimeout := Binary64.ofInt 30
  defaultHeaders := standardHeaders
  databasePath := standardDatabase
  entities := []
  recordHistory := true
  logLevel := "INFO"

open Schema

/-- A place of a file. -/
def place : Value → Fit String
  | .text s => .fits s
  | _ => .refuse .notPath

/-- Settings from fields. -/
def ofFields (fields : Entries Value) : Fit Settings :=
  Settings.mk
    <$> optionalField standard.maxIterations "max_iterations" "max_iterations" (integerAbove 0)
      fields
    <*> optionalField standard.httpTimeout "http_timeout" "http_timeout" (realAbove 0) fields
    <*> optionalField standard.defaultHeaders "default_headers" "default_headers"
      (dictionary text) fields
    <*> optionalField standard.databasePath "database_path" "database_path" place fields
    <*> optionalField standard.entities "entities" "entities" (list text) fields
    <*> optionalField standard.recordHistory "record_history" "record_history" boolean fields
    <*> optionalField standard.logLevel "log_level" "log_level" text fields

end Settings

end Workgraph
