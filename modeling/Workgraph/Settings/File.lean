import Workgraph.Settings.Basic
import Workgraph.Site.FileName
import Workgraph.Yaml.Read
/-!
# Settings from a file

The settings of a project stand in a YAML file in a folder of their own. The place of the database
is seen from the folder that holds that folder, not from where the program runs.
-/

namespace Workgraph

namespace Settings

/-- The folder of a project that holds its settings and its database. -/
def folderName : String := ".nodeflow"

/-- The name of the file of settings. -/
def fileName : String := "config.yaml"

/-- The file of settings: the one that is asked for, or the one of the project. -/
def fileOf (asked : Option String) (project : String) : String :=
  match asked with
  | some name =>
    if name = "" then FileName.join project (folderName ++ "/" ++ fileName)
    else FileName.normal name
  | none => FileName.join project (folderName ++ "/" ++ fileName)

end Settings

/-- Why a file gives no settings. -/
inductive SettingsFault where
  | yaml (file : String) (problem : Yaml.Misread)
  | notMapping (file kind : String)
  /-- Reading the file fails in a way that is not about its form. -/
  | defect (cause : Defect)
  | misfits (file : String) (found : List Schema.Misfit)
deriving DecidableEq, Repr

namespace SettingsFault

/-- The words for a fault. -/
def message : SettingsFault → String
  | .yaml file problem => "Invalid YAML in " ++ file ++ ": " ++ problem.message file
  | .defect cause => cause.message
  | .notMapping file kind => file ++ " must contain a mapping, got " ++ kind
  | .misfits file found =>
    "Invalid settings in " ++ file ++ ": " ++ "; ".intercalate (found.map Schema.Misfit.line)

/-- The name of a fault. -/
def name : SettingsFault → String
  | .defect cause => cause.name
  | _ => "ConfigError"

end SettingsFault

namespace Settings

/-- The folder from which the place of the database is seen. -/
def baseOf (file : String) : String :=
  let folder := FileName.parent file
  if FileName.last folder = folderName then FileName.parent folder else folder

/-- The settings of a value that a file holds. -/
def ofValue (file : String) (v : Value) : Except SettingsFault Settings :=
  let fields? : Except SettingsFault (Entries Value) :=
    if !v.isPresent then .ok []
    else match v with
      | .object fields => .ok fields
      | v => .error (.notMapping file v.kind)
  match fields? with
  | .error f => .error f
  | .ok fields =>
    match ofFields fields with
    | .misfits found => .error (.misfits file found)
    | .fits s => .ok { s with databasePath := FileName.join (baseOf file) s.databasePath }

/-- The defect that a key that is no text is: it names no setting. -/
def namelessKey : Defect := .raised "TypeError" "keywords must be strings"

/-- The settings of a file with a text. Without file there are the defaults. -/
def load (file : String) (text : Option String) : Except SettingsFault Settings :=
  match text with
  | none => .ok standard
  | some t =>
    match Yaml.read t with
    | .error (.longNumeral digits) => .error (.defect (.longNumeral digits))
    | .error problem => .error (.yaml file problem)
    | .ok (.object fields) =>
      if Yaml.hasTextKeys t then ofValue file (.object fields) else .error (.defect namelessKey)
    | .ok v => ofValue file v

end Settings

end Workgraph
