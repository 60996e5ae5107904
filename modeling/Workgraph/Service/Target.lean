import Workgraph.Http.Address
import Workgraph.Value.Json
/-!
# Targets of requests

The place of a service to which a request is sent: a path and named parameters. Both are written
with escapes for octets; a plus sign in a parameter is a blank.
-/

namespace Workgraph.Service

/-- The octets of a text in which escapes stand for octets. -/
def octets : List Char → List UInt8
  | '%' :: a :: b :: rest =>
    match Json.hexValue? a, Json.hexValue? b with
    | some m, some n => UInt8.ofNat (16 * m + n) :: octets rest
    | _, _ => '%'.toUInt8 :: octets (a :: b :: rest)
  | c :: rest => (String.singleton c).toUTF8.toList ++ octets rest
  | [] => []

/-- The text that a text with escapes stands for. One whose octets are no text stays as it is. -/
def unescape (s : String) : String :=
  (String.fromUTF8? ⟨(octets s.toList).toArray⟩).getD s

/-- A path, and parameters in order; a name may occur several times. -/
structure Target where
  path : String
  parameters : List (String × String)
deriving DecidableEq, Repr

namespace Target

/-- A parameter from its written form. Without an equals sign its value is empty. -/
def parameter (s : String) : String × String :=
  let cs := s.toList.map fun c => if c = '+' then ' ' else c
  let (name, value) := Http.cutAt '=' cs
  (unescape (String.ofList name), unescape (String.ofList (value.getD [])))

/-- The target that a text spells. What follows a number sign is not sent. -/
def ofText (s : String) : Target :=
  let (cs, _) := Http.cutAt '#' s.toList
  let (path, query) := Http.cutAt '?' cs
  let rooted := "/" ++ String.ofList (path.dropWhile (· = '/'))
  let parts := ((String.ofList (query.getD [])).splitOn "&").filter (· ≠ "")
  ⟨unescape (Http.normalPath rooted), parts.map parameter⟩

/-- The last value of a parameter. -/
def parameter? (t : Target) (name : String) : Option String :=
  (t.parameters.reverse.find? fun p => p.1 = name).map Prod.snd

end Target

end Workgraph.Service
