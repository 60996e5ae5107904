/-!
# Names of files

The names of files and folders, with slashes between the steps of the way. A name is brought into
one form: no empty steps, no steps to the same folder, and no slash at the end.
-/

namespace Workgraph.FileName

/-- Whether a name starts from the root of all folders. -/
def isAbsolute (name : String) : Bool := name.toList.head? = some '/'

/-- The steps of a name. -/
def steps (name : String) : List String := (name.splitOn "/").filter fun s => s ≠ "" && s ≠ "."

/-- The name with given steps. -/
def ofSteps (absolute : Bool) (steps : List String) : String :=
  let way := "/".intercalate steps
  if absolute then "/" ++ way else if way = "" then "." else way

/-- A name in its one form. -/
def normal (name : String) : String := ofSteps (isAbsolute name) (steps name)

/-- A name as it is seen from a folder. -/
def join (folder name : String) : String :=
  if isAbsolute name then normal name else normal (folder ++ "/" ++ name)

/-- The folder that holds a file. -/
def parent (name : String) : String := ofSteps (isAbsolute name) (steps name).dropLast

/-- The last step of a name. -/
def last (name : String) : String := (steps name).getLastD ""

/-- The last step without the ending after its last point. -/
def stem (name : String) : String :=
  let back := (last name).toList.reverse
  let ending := back.takeWhile (· ≠ '.')
  let before := back.drop (ending.length + 1)
  if ending.isEmpty || before.isEmpty then last name else String.ofList before.reverse

/-- Takes the steps to the upper folder. -/
def climb (taken : List String) : List String → List String
  | [] => taken.reverse
  | ".." :: rest => climb taken.tail rest
  | step :: rest => climb (step :: taken) rest

/-- The file that a name means in a folder. -/
def resolve (folder name : String) : String :=
  let full := join folder name
  ofSteps (isAbsolute full) (climb [] (steps full))

end Workgraph.FileName
