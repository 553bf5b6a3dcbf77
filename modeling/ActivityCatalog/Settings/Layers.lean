import ActivityCatalog.Json.Merge
import ActivityCatalog.Settings.Basic

namespace ActivityCatalog.Settings

/-!
# The layers of settings

Settings are the defaults under a description in JSON under variables of the
environment.  A variable that is empty or has no valid value changes nothing.
-/

/-- The path of the settings file, relative to a home directory. -/
def fileName : String :=
  ".aldb/settings.json"

/-- The directory that serves as home where none is known. -/
def defaultHome : String :=
  "/tmp"

/-- The path of the settings file of a home directory. -/
def path (home : Option String) : String :=
  let home := home.getD defaultHome
  if home = "" then
    fileName
  else if home.endsWith "/" then
    home ++ fileName
  else
    home ++ "/" ++ fileName

/-- The settings of a description laid over the defaults. -/
def ofValue (value : Json.Value) : Except SettingsFault Settings :=
  (Json.Reader.ofValue reader (default.toValue.overlay value)).mapError .malformed

/-- The settings of the text of a description. -/
def ofText (text : String) : Except SettingsFault Settings :=
  match Json.Value.ofText text with
  | .ok value => ofValue value
  | .error error => .error (.malformed error)

/-- The truth value of a word, in any case. -/
def truth? (text : String) : Option Bool :=
  let lowered := String.ofList (Text.lowered text.toList)
  if ["true", "1", "yes", "on"].contains lowered then
    some true
  else if ["false", "0", "no", "off"].contains lowered then
    some false
  else
    none

/-- A variable of the environment and the settings that a valid value of it makes. -/
structure Variable where
  name : String
  setIn? : Settings → String → Option Settings

/-- The variables that change settings, in the order in which they are read. -/
def knownVariables : List Variable :=
  [ ⟨"ALDB_HOST", fun settings value =>
      some { settings with server := { settings.server with host := value } }⟩,
    ⟨"ALDB_PORT", fun settings value =>
      (Text.naturalWithin? 0 Text.greatestShort value).map fun port =>
        { settings with server := { settings.server with port } }⟩,
    ⟨"ALDB_SOURCE", fun settings value =>
      (SourceKind.parse value).toOption.map fun source =>
        { settings with directory := { settings.directory with source } }⟩,
    ⟨"ALDB_SOURCE_PATH", fun settings value =>
      some { settings with directory := { settings.directory with path := some value } }⟩,
    ⟨"ALDB_ROOT_ACTIVITY", fun settings value =>
      some { settings with
        directory := { settings.directory with rootActivity := some value } }⟩,
    ⟨"ALDB_LOCALE", fun settings value =>
      some { settings with presenter := { settings.presenter with defaultLocale := value } }⟩,
    ⟨"ALDB_MAX_DEPTH", fun settings value =>
      (Text.naturalWithin? 1 256 value).map fun maxDepth =>
        { settings with presenter := { settings.presenter with maxDepth } }⟩,
    ⟨"ALDB_LOG_LEVEL", fun settings value =>
      some { settings with logging := { settings.logging with level := value } }⟩,
    ⟨"ALDB_LOG_JSON", fun settings value =>
      (truth? value).map fun json =>
        { settings with logging := { settings.logging with json } }⟩ ]

/-- Apply one variable, if it is set, not empty and valid. -/
def applyVariable (lookup : String → Option String) (settings : Settings)
    (entry : Variable) : Settings :=
  match lookup entry.name with
  | none => settings
  | some value =>
      if value = "" then settings else (entry.setIn? settings value).getD settings

/-- Apply the variables of an environment. -/
def withEnvironment (lookup : String → Option String) (settings : Settings) : Settings :=
  knownVariables.foldl (applyVariable lookup) settings

end ActivityCatalog.Settings
