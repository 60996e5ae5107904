import Std.Time.DateTime.Timestamp
import Workgraph.Command.Lines
import Workgraph.Command.Perform
import Workgraph.Http.Client
import Workgraph.Site.ArchiveText
/-!
# The program

The command line: the files that a command may need are read, the command is performed, and what it
has changed and shown is written.
-/

namespace Workgraph

/-- The text of a file, if it can be read. -/
def readFile? (file : String) : IO (Option String) := do
  try
    return some (← IO.FS.readFile file)
  catch _ => return none

/-- Reads files into a site. A file that holds an archive is a database. -/
def readSite (files : List String) : IO Site := do
  let mut site : Site := ⟨[], [], 0⟩
  for file in files.eraseDups do
    match ← readFile? file with
    | none => pure ()
    | some text =>
      match Archive.ofText? text with
      | some archive => site := { site with archives := site.archives.set file archive }
      | none => site := { site with files := site.files.set file text }
  return site

/-- Writes a file, in a folder that comes into being if need be. -/
def writeFile (file text : String) : IO Unit := do
  IO.FS.createDirAll (FileName.parent file)
  IO.FS.writeFile file text

/-- Writes what a command has changed. -/
def writeSite (before after : Site) : IO Unit := do
  for (file, text) in after.files do
    if before.files.get? file ≠ some text then writeFile file text
  for (file, archive) in after.archives do
    if (before.archives.get? file).map Archive.text ≠ some archive.text then
      writeFile file archive.text

/-- The present moment, and ids from a random number. -/
def surroundings : IO Surroundings := do
  let bytes ← IO.getRandomBytes 16
  let seed := 2 * bytes.toList.foldl (fun n b => 256 * n + b.toNat) 0 + 1
  let now ← Std.Time.Timestamp.now
  let micros := now.toNanosecondsSinceUnixEpoch.val / 1000
  let idText (n : Nat) : String :=
    padLeft 32 '0' (String.ofList (Nat.toDigits 16 (seed * (2 * n + 1) % Nat.pow 2 128)))
  return ⟨⟨Calendar.epoch + micros, some 0⟩, idText⟩

/-- A host without any connection. -/
def Host.disconnected (env : Surroundings) : Host :=
  ⟨env, fun settings =>
    (Http.Client.mk (realText settings.httpTimeout) Http.disconnected).transport⟩

/-- The files that a command line may need, in a folder: those that it names, the settings, and the
database. -/
def neededFiles (folder : String) (line : List String) : IO (List String) := do
  let file := Settings.fileOf none folder
  let database := match Settings.load file (← readFile? file) with
    | .ok settings => settings.databasePath
    | .error _ => Settings.standardDatabase
  return (file :: (database :: Settings.standardDatabase :: line).map (FileName.resolve folder))

/-- Shows what a command has shown. -/
def showReport (r : CommandReport) : IO Unit := do
  for p in r.printed do
    for line in p.block.lines do
      match p.channel with
      | .output => IO.println line
      | .error => IO.eprintln line
  IO.print r.written
  for n in r.notices do IO.eprintln n.words
  if let some line := r.ending.line? then IO.eprintln line

end Workgraph

open Workgraph in
/-- Performs the command of the command line in the current folder. -/
def main (line : List String) : IO UInt32 := do
  let folder := (← IO.currentDir).toString
  let before ← readSite (← neededFiles folder line)
  let host := Host.disconnected (← surroundings)
  let (report, after) := before.command host folder line
  writeSite before after
  showReport report
  return UInt32.ofNat report.ending.code
