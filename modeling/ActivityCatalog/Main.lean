import ActivityCatalog.Archive.Stored
import ActivityCatalog.Command.Run

namespace ActivityCatalog.Command

/-!
# The program

The program reads the files that its arguments and settings name, runs on them,
writes what changed and prints the outcome.
-/

/-- What a path is called on the disk. -/
def nameOnDisk (path : FilePath) : String :=
  Text.Utf8.decodeLossy path

/-- What stands under a path of the disk. -/
def nodeOnDisk? (path : FilePath) : IO (Option (FileNode StoredFile)) := do
  try
    let bytes ← IO.FS.readBinFile (nameOnDisk path)
    return some (.file (.ofBytes bytes.toList))
  catch
    | .inappropriateType .. => return some .folder
    | _ => return none

/-- Add what stands on the disk under a path and those it goes through. -/
def addFromDisk (files : Files) (path : FilePath) : IO Files :=
  (FilePath.stations path).foldlM
    (fun held station => do
      match ← nodeOnDisk? station with
      | some node => return held.put (FilePath.place station) node
      | none => return held)
    files

/-- Write what stands in a place to the disk if it changed. -/
def writeChanged (before : Files) (place : Place) (node : FileNode StoredFile) : IO Unit :=
  if before.node? place == some node then
    return
  else
    match node with
    | .folder => IO.FS.createDirAll (nameOnDisk place.path)
    | .file content =>
        IO.FS.writeBinFile (nameOnDisk place.path) ⟨content.toBytes.toArray⟩

/-- Take away from the disk what was taken away from a place, if nothing stands there now. -/
def removeVacated (before after : Files) (place : Place) : IO Unit :=
  if (before.node? place).isSome && (after.node? place).isNone then
    IO.FS.removeFile (nameOnDisk place.path)
  else
    return

/-- The variables of the environment that matter. -/
def readEnvironment : IO Settings.Environment := do
  let names := "HOME" :: Settings.knownVariables.map Settings.Variable.name
  let values ← names.filterMapM fun name => do
    return (← IO.getEnv name).map (name, ·)
  return fun name => (values.find? fun entry => entry.1 == name).map Prod.snd

/-- The files that arguments and settings name. -/
def readFiles (arguments : List String) (environment : Settings.Environment) : IO Files := do
  match Invocation.parse? arguments with
  | none =>
      return .empty
  | some invocation => do
      let settingsPath := invocation.settingsPath environment
      let files ← addFromDisk .empty (FilePath.ofText settingsPath)
      match Settings.load environment files settingsPath with
      | .error _ => return files
      | .ok settings => (invocation.request.paths settings).foldlM addFromDisk files

end ActivityCatalog.Command

open ActivityCatalog.Command in
/-- Run the program on the disk. -/
def main (arguments : List String) : IO UInt32 := do
  let environment ← readEnvironment
  let before ← readFiles arguments environment
  let (outcome, after) := run arguments environment before
  for place in (after.vacated.map Prod.fst).eraseDups do
    removeVacated before after place
  for (place, node) in after.nodes.reverse do
    writeChanged before place node
  IO.print outcome.output
  IO.eprint outcome.errors
  return UInt32.ofNat outcome.code
