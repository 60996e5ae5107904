/-!
# Allowed origins

The origins from which browsers may call the service: the usual ports of the local machine, and the
port at which the service listens.
-/

namespace Workgraph.Service

/-- The origins that are always allowed. -/
def standardOrigins : List String :=
  ["http://localhost:3000", "http://localhost:5173", "http://127.0.0.1:3000",
    "http://127.0.0.1:5173", "http://127.0.0.1:8000", "http://localhost:8000"]

/-- The ports of the origins that are always allowed. -/
def standardPorts : List String := ["3000", "5173", "8000"]

/-- The allowed origins of a service with a port. -/
def allowedOrigins (port : Option String) : List String :=
  match port with
  | some p =>
    if p = "" || standardPorts.contains p then standardOrigins
    else standardOrigins ++ ["http://localhost:" ++ p, "http://127.0.0.1:" ++ p]
  | none => standardOrigins

end Workgraph.Service
