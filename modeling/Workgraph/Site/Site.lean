import Workgraph.Engine.Run
import Workgraph.Settings.File
/-!
# Sites

Where workflows are run from: files with texts, and databases, each with entities and a history of
runs. A database comes into being when it is first opened. Names are seen from a folder and are
resolved before they are looked up.
-/

namespace Workgraph

/-- A database of entities and the history of runs that it holds. -/
structure Archive where
  database : Database
  history : History

/-- An archive without anything. -/
def Archive.empty : Archive := ⟨.empty, .empty⟩

/-- Files and databases by their names, and how many ids have been drawn from the supply. -/
structure Site where
  files : Entries String
  archives : Entries Archive
  drawn : Nat

/-- A text whose lines all end alike. -/
def evenLines : List Char → List Char
  | '\r' :: '\n' :: rest => '\n' :: evenLines rest
  | '\r' :: rest => '\n' :: evenLines rest
  | c :: rest => c :: evenLines rest
  | [] => []

namespace Site

/-- The text of a file. -/
def text? (s : Site) (file : String) : Option String :=
  (s.files.get? file).map fun t => String.ofList (evenLines t.toList)

/-- The names of all files and databases. -/
def names (s : Site) : List String := s.files.names ++ s.archives.names

/-- Whether there is a file or database of a name. -/
def hasFile (s : Site) (file : String) : Bool := s.names.contains file

/-- Whether a name is that of a folder, because there is something in it. -/
def hasFolder (s : Site) (folder : String) : Bool :=
  s.names.any fun name => (folder ++ "/").toList.isPrefixOf name.toList

/-- Whether there is anything of a name. -/
def has (s : Site) (name : String) : Bool := s.hasFile name || s.hasFolder name

/-- Whether there is a file among so many folders upward from a name. -/
def hasFileAbove (s : Site) : Nat → String → Bool
  | 0, _ => false
  | n + 1, name => s.hasFile (FileName.parent name) || hasFileAbove s n (FileName.parent name)

/-- Checks that a name that is seen from a folder can be that of a folder. -/
def checkFolder (s : Site) (seenFrom name : String) : Except Defect Unit :=
  let folder := FileName.resolve seenFrom name
  if s.hasFile folder then
    .error (.raised "FileExistsError" ("[Errno 17] File exists: " ++ Text.quoted name))
  else if s.hasFileAbove (FileName.steps folder).length folder then
    .error (.raised "NotADirectoryError" ("[Errno 20] Not a directory: " ++ Text.quoted name))
  else .ok ()

/-- The archive of a name. -/
def archive (s : Site) (file : String) : Archive := (s.archives.get? file).getD .empty

/-- Opens a database, which comes into being unless there is one. Neither a folder nor a file with a
text is one. -/
def openArchive (s : Site) (seenFrom name : String) : Except Defect Site := do
  s.checkFolder seenFrom (FileName.parent name)
  let file := FileName.resolve seenFrom name
  if s.hasFolder file then throw (.raised "OperationalError" "unable to open database file")
  if (s.files.get? file).any (· ≠ "") then throw (.raised "DatabaseError" "file is not a database")
  return { s with
    files := s.files.without file
    archives := s.archives.set file (s.archive file) }

/-- Registers entities in a database. -/
def register (s : Site) (file : String) (entities : List String) : Site :=
  let a := s.archive file
  let database := entities.foldl Database.register a.database
  { s with archives := s.archives.set file ⟨database, a.history⟩ }

/-- The start of a session with a database, and with its history if runs are recorded. -/
def session (s : Site) (file : String) (recorded : Bool) : Session :=
  let a := s.archive file
  { scene := ⟨⟨⟨.database a.database, s.drawn⟩, #[], #[], #[]⟩, Binary64.zero false⟩
    history := if recorded then some a.history else none }

/-- The site after a session with a database. -/
def afterSession (s : Site) (file : String) (after : Session) : Site :=
  let a := s.archive file
  let repository := after.scene.world.repository
  let database := match repository.store with
    | .database d => d
    | .memory _ => a.database
  { s with
    archives := s.archives.set file ⟨database, after.history.getD a.history⟩
    drawn := repository.drawn }

/-- The nearest folder upward, among so many, that holds the settings of a project. -/
def projectAbove? (s : Site) : Nat → String → Option String
  | 0, _ => none
  | n + 1, folder =>
    if s.has (FileName.join folder Settings.folderName) then some folder
    else projectAbove? s n (FileName.parent folder)

/-- The folder of the project in which a folder lies: the nearest one upward that holds settings, or
else the folder itself. -/
def projectOf (s : Site) (folder : String) : String :=
  (s.projectAbove? ((FileName.steps folder).length + 1) folder).getD folder

end Site

/-- What is there beside a site: the moment and the ids, and what answers the calls of engines with
given settings. -/
structure Host where
  env : Surroundings
  connect : Settings → Transport

/-- The engine of a host for given settings. -/
def Host.engine (host : Host) (settings : Settings) : Engine :=
  ⟨host.env, settings, host.connect settings⟩

/-- A run that has ended well, as a value. -/
def runResponse (context : Context) (trace : Array TraceEntry) : Value :=
  .object [("success", .bool true), ("context", .object context),
    ("executionLog", .list ((Engine.traceValues trace).map Value.object))]

end Workgraph
