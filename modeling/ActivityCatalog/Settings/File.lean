import ActivityCatalog.Files
import ActivityCatalog.Settings.Layers

namespace ActivityCatalog.Settings

/-!
# The settings file

Settings are loaded from a file, if there is one, and the variables of the
environment.
-/

/-- The values of the variables of an environment. -/
abbrev Environment :=
  String → Option String

/-- The settings of a file, which are the defaults if it is missing. -/
def ofFile (files : Files) (path : String) : Except SettingsFault Settings :=
  if files.contains (FilePath.ofText path) then
    match files.readText path with
    | .ok text => ofText text
    | .error fault => .error (.unreadable fault.message)
  else
    .ok default

/-- The settings of a file under the variables of an environment. -/
def load (environment : Environment) (files : Files) (path : String) :
    Except SettingsFault Settings :=
  (ofFile files path).map (withEnvironment environment)

/-- The path of the settings file of an environment. -/
def pathFor (environment : Environment) : String :=
  path (environment "HOME")

end ActivityCatalog.Settings
