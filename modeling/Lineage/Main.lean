import Lineage.Program

/-!
# Running the program

Takes a picture of the files and variables that a run may look at, runs the program on it, and
carries out what the run changed.
-/

namespace Lineage

namespace Main

/-- What a path leads to on the disk. -/
def look (path : String) : IO (Option FileEntry) := do
  try
    let bytes ← IO.FS.readBinFile path
    return some (.file bytes)
  catch
    | .noFileOrDirectory .. => return none
    | _ =>
      try
        let _ ← IO.FS.readBinFile (path ++ "/.")
        return none
      catch
        | .inappropriateType .. => return some .folder
        | .noFileOrDirectory .. => return none
        | _ => return some .folder

/-- All places on the way to a place, and the place itself. -/
def along (place : Place) : List Place :=
  place.outward.dropLast.reverse

/-- A picture of some places on the disk, with the folders around them. -/
def picture (places : List Place) : IO Files := do
  let mut files : Files := {}
  for place in places.flatMap along do
    if (files.entry? place).isNone then
      if let some entry ← look place.path then
        files := files.put place entry
  return files

/-- The place of an absolute path, or of a path in a folder. -/
def placeOf (folder : Place) (path : Path) : Place :=
  let start : Place := if Path.isAbsolute path then [] else folder
  (splitAll '/' path).foldl Files.stepTo start

def environment : IO Environment := do
  let text := (String.fromUTF8? (← IO.FS.readBinFile "/proc/self/environ")).getD ""
  return (splitAll '\x00' text).filterMap fun entry =>
    match entry.toList.dropWhile (· ≠ '=') with
    | _ :: value => some (String.ofList (entry.toList.takeWhile (· ≠ '=')), String.ofList value)
    | [] => none

/-- Writes what a run has changed. -/
def carryOut (old new : Files) : IO Unit := do
  for (place, entry) in new.entries.reverse do
    if old.entry? place ≠ some entry then
      match entry with
      | .folder => IO.FS.createDirAll place.path
      | .file bytes => IO.FS.writeBinFile place.path bytes

end Main

end Lineage

open Lineage in
/-- Runs the program on the disk. -/
def main (args : List String) : IO UInt32 := do
  let folder := Main.placeOf [] (← IO.currentDir).toString
  let paths :=
    match CommandLine.parse args with
    | .ok invocation => Workspace.settingsFile :: invocation.paths
    | .error _ => []
  let places := paths.flatMap fun path => folder.outward.map (Main.placeOf · path)
  let files ← Main.picture (folder :: places)
  let workspace : Workspace := { files, folder, environment := ← Main.environment }
  let run := Program.run workspace args
  Main.carryOut files run.workspace.files
  (← IO.getStdout).putStr run.output
  (← IO.getStderr).putStr run.errors
  return UInt32.ofNat run.exit
