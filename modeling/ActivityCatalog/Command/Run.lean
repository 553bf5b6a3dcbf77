import ActivityCatalog.Command.Arguments
import ActivityCatalog.Http.Host
import ActivityCatalog.Import
import ActivityCatalog.Outline
import ActivityCatalog.Service
import ActivityCatalog.Settings.File
import ActivityCatalog.Source

namespace ActivityCatalog.Command

/-!
# Running commands

A run takes the arguments, the environment and the files, and gives what the
program prints, the code it ends with and the files afterwards.  It ends with 0
if it succeeds, with 1 if it fails and with 2 if the arguments are unusable.

A failure is told by its text and the texts of its causes.  A server whose source can
be had fails to be bound to its host, since no listener is at hand here.
-/

/-- What a run prints, and the code it ends with. -/
structure Outcome where
  code : Nat
  output : String
  errors : String
  deriving Repr, DecidableEq

/-- Why a run fails. -/
structure Failure where
  text : String
  causes : List String
  deriving Repr, DecidableEq

namespace Failure

/-- A text whose further lines are indented. -/
def indented (indentation text : String) : String :=
  ("\n" ++ indentation).intercalate (text.splitOn "\n")

/-- A number with spaces before it, five characters wide. -/
def columnNumber (number : Nat) : String :=
  String.ofList (List.leftpad 5 ' ' (toString number).toList)

/-- The line of a cause that has a number. -/
def numberedCause (number : Nat) (cause : String) : String :=
  "\n" ++ columnNumber number ++ ": " ++ indented "       " cause

/-- The lines of the causes. -/
def causeLines : List String → String
  | [] =>
      ""
  | [cause] =>
      "\n\nCaused by:\n    " ++ indented "    " cause
  | causes =>
      "\n\nCaused by:" ++
        String.join (causes.zipIdx.map fun (cause, number) => numberedCause number cause)

/-- What is printed of a failure. -/
def report (failure : Failure) : String :=
  "Error: " ++ failure.text ++ causeLines failure.causes ++ "\n"

end Failure

namespace Outcome

/-- The outcome of a success. -/
def succeeded (output : String) : Outcome :=
  ⟨0, output, ""⟩

/-- The outcome of a failure. -/
def failed (failure : Failure) : Outcome :=
  ⟨1, "", failure.report⟩

/-- How the program is used. -/
def usage : String :=
  "Usage: aldb [--config <CONFIG>] <serve|import|tree> [OPTIONS]\n"

/-- The outcome of unusable arguments. -/
def unusable : Outcome :=
  ⟨2, "", usage⟩

end Outcome

/-- The settings of a directory after what the arguments say. -/
def SourceChoice.apply (choice : SourceChoice) (settings : DirectorySettings) :
    DirectorySettings where
  source := choice.kind.getD settings.source
  path := choice.path <|> settings.path
  rootActivity := choice.root <|> settings.rootActivity

/-- A source that is open, and the archive it reads if it is one. -/
structure OpenSource where
  source : Source
  archive : OpenArchive

namespace OpenSource

/-- What loading the source gives. -/
def load (opened : OpenSource) (files : Files) : Load :=
  fun _ => opened.source.load files opened.archive

/-- Close the source. -/
def close (opened : OpenSource) (files : Files) : Files :=
  opened.archive.close files

/-- A source that reads no archive. -/
def plain (source : Source) : OpenSource :=
  ⟨source, .transient (.ofFile [])⟩

/-- Open the source of the settings. -/
def ofSettings (settings : DirectorySettings) (files : Files) :
    Except Failure OpenSource × Files :=
  let path := settings.path.getD ""
  match settings.source with
  | .sample =>
      (.ok (.plain (.fixed Sample.listing)), files)
  | .json =>
      (.ok (.plain (.jsonFile path)), files)
  | .sqlite =>
      match (OpenArchive.ofText path []).on files with
      | (.ok opened, files) =>
          (.ok ⟨.archive path, opened⟩, files)
      | (.error fault, files) =>
          (.error ⟨"Failed to open database " ++ path, [fault.message]⟩, files)

end OpenSource

/-- Check the settings, and open the source that they tell. -/
def openChecked (settings : Settings) (files : Files) : Except Failure OpenSource × Files :=
  match settings.validate with
  | .error fault => (.error ⟨"Invalid settings", fault.chain⟩, files)
  | .ok _ => OpenSource.ofSettings settings.directory files

/-- What is printed of a navigation tree, or of why there is none. -/
def viewOutcome (asJson : Bool) (view : Except DirectoryFault NavNode) : Outcome :=
  if asJson then
    .succeeded ((NavView.written view).prettyText ++ "\n")
  else
    match view with
    | .ok tree => .succeeded tree.outline
    | .error fault => .failed ⟨fault.code ++ ": " ++ fault.message, []⟩

/-- Print the navigation tree. -/
def runTree (settings : Settings) (locale : Option String) (depth : Option Nat)
    (asJson : Bool) (files : Files) : Outcome × Files :=
  match openChecked settings files with
  | (.error failure, files) =>
      (.failed failure, files)
  | (.ok opened, files) =>
      let presenter :=
        Presenter.of settings.presenter.defaultLocale settings.presenter.maxDepth
      let directory := Directory.unloaded settings.directory.rootActivity
      let (view, _) := presenter.navTree locale depth (opened.load files) directory
      (viewOutcome asJson view, opened.close files)

/-- Import a file. -/
def runImport (file archive : String) (root : Option String) (files : Files) :
    Outcome × Files :=
  match Import.run file archive root files with
  | (.ok report, files) =>
      let output :=
        "imported " ++ toString report.written ++ " activities into " ++ archive ++
          " (" ++ toString report.stored ++ " stored)\n"
      (.succeeded output, files)
  | (.error fault, files) =>
      (.failed ⟨fault.message, fault.causes⟩, files)

/-- Start the server, which fails to bind at last. -/
def runServe (settings : Settings) (files : Files) : Outcome × Files :=
  match openChecked settings files with
  | (.error failure, files) =>
      (.failed failure, files)
  | (.ok opened, files) =>
      let address := settings.server.host ++ ":" ++ toString settings.server.port
      let failure : Failure :=
        ⟨"Failed to bind " ++ address, [(Http.Host.fault settings.server.host).message]⟩
      (.failed failure, opened.close files)

/-- The settings after what the arguments say of a source. -/
def withSource (choice : SourceChoice) (settings : Settings) : Settings :=
  { settings with directory := choice.apply settings.directory }

/-- The settings after what the arguments say of an address. -/
def withAddress (host : Option String) (port : Option Nat) (settings : Settings) : Settings :=
  { settings with
    server := ⟨host.getD settings.server.host, port.getD settings.server.port⟩ }

/-- What the names of files beside an archive have after that of the archive. -/
def endings : List String :=
  ["", Files.journalEnding, Files.logEnding, Files.indexEnding, Files.lockEnding]

/-- The paths that may lead to the source or the archive that a text tells. -/
def pathsOf (text : String) : List FilePath :=
  let path := FilePath.ofText text
  match ArchiveLocation.ofText text with
  | .ok location =>
      let place := FilePath.place location.path
      path :: endings.map (fun ending => (place.beside ending).path) ++ location.modeFile.toList
  | .error _ =>
      [path]

/-- The paths of the files that a command reads or writes under settings. -/
def Request.paths (settings : Settings) : Request → List FilePath
  | .serve _ _ source | .tree _ _ _ source =>
      (source.apply settings.directory).path.toList.flatMap pathsOf
  | .importFile file archive _ =>
      FilePath.ofText file :: pathsOf archive

/-- Run a command under settings. -/
def runRequest (settings : Settings) (files : Files) : Request → Outcome × Files
  | .serve host port source =>
      runServe (withAddress host port (withSource source settings)) files
  | .importFile file archive root =>
      runImport file archive root files
  | .tree locale depth asJson source =>
      runTree (withSource source settings) locale depth asJson files

/-- The path of the settings file that a command uses. -/
def Invocation.settingsPath (invocation : Invocation)
    (environment : Settings.Environment) : String :=
  invocation.settingsFile.getD (Settings.pathFor environment)

/-- Run a command that was read from the arguments. -/
def runInvocation (invocation : Invocation) (environment : Settings.Environment)
    (files : Files) : Outcome × Files :=
  let path := invocation.settingsPath environment
  match Settings.load environment files path with
  | .ok settings =>
      runRequest settings files invocation.request
  | .error fault =>
      (.failed ⟨"Failed to load settings from " ++ path, fault.chain⟩, files)

/-- Run the program. -/
def run (arguments : List String) (environment : Settings.Environment) (files : Files) :
    Outcome × Files :=
  match Invocation.parse? arguments with
  | some invocation => runInvocation invocation environment files
  | none => (.unusable, files)

end ActivityCatalog.Command
