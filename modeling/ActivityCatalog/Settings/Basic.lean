import ActivityCatalog.Json.Reader
import ActivityCatalog.Participation
import ActivityCatalog.Text.Blank
import ActivityCatalog.Text.Number

namespace ActivityCatalog

/-!
# Settings

Settings have four sections, each with a default for every field, so that a
partial description changes only what it names.  `Settings.written` is the JSON
object of all sections and `Settings.reader` reads one back.
-/

/-- The kinds of sources that a directory can be loaded from. -/
inductive SourceKind where
  | sample
  | json
  | sqlite
  deriving Repr, DecidableEq

/-- Where the server listens. -/
structure ServerSettings where
  host : String
  port : Nat
  deriving Repr, DecidableEq

/-- Where activities come from and which is the main one. -/
structure DirectorySettings where
  source : SourceKind
  path : Option String
  rootActivity : Option String
  deriving Repr, DecidableEq

/-- How the navigation tree is shown. -/
structure PresenterSettings where
  defaultLocale : String
  maxDepth : Nat
  deriving Repr, DecidableEq

/-- What is logged. -/
structure LoggingSettings where
  level : String
  json : Bool
  moduleLevels : Dictionary String
  deriving Repr, DecidableEq

/-- All settings. -/
structure Settings where
  server : ServerSettings
  directory : DirectorySettings
  presenter : PresenterSettings
  logging : LoggingSettings
  deriving Repr, DecidableEq

namespace SourceKind

/-- All kinds of sources. -/
def all : List SourceKind :=
  [.sample, .json, .sqlite]

/-- The name of a kind of source. -/
def name : SourceKind → String
  | .sample => "sample"
  | .json => "json"
  | .sqlite => "sqlite"

/-- The kind of source with a name. -/
def ofName? (name : String) : Option SourceKind :=
  all.find? fun kind => kind.name == name

/-- The kind of source of an argument, in any case; in the error its lower case. -/
def parse (text : String) : Except String SourceKind :=
  let lowered := String.ofList (Text.lowered text.toList)
  match ofName? lowered with
  | some kind => .ok kind
  | none => .error ("unknown source kind: " ++ lowered)

/-- Read the name of a kind of source. -/
def ofVariant (name : String) : Except Json.ReadError SourceKind :=
  match ofName? name with
  | some kind => .ok kind
  | none => .error (.unknownVariant name (all.map SourceKind.name))

/-- Read a kind of source: its name, or an object with null under its name. -/
def reader : Json.Reader SourceKind
  | _, .string (some name) =>
      ofVariant name
  | _, .object [(some name, content)] => do
      let kind ← ofVariant name
      match content with
      | .null => pure kind
      | other => throw (other.mismatch "unit")
  | _, .object _ =>
      .error .notSingleMember
  | _, document =>
      .error (document.mismatch "string or map")

end SourceKind

namespace ServerSettings

/-- The default section. -/
def default : ServerSettings :=
  ⟨"127.0.0.1", 8080⟩

/-- The section as a JSON object. -/
def written (settings : ServerSettings) : Json.Value :=
  .object [("host", .string settings.host), ("port", .ofNat settings.port)]

/-- Read the section. -/
def reader : Json.Reader ServerSettings :=
  Json.Reader.record "struct ServerSettings"
    [ .of "host" Json.Reader.text fun settings host => { settings with host },
      .of "port" (Json.Reader.natural "u16" Text.greatestShort)
        fun settings port => { settings with port } ]
    default

end ServerSettings

namespace DirectorySettings

/-- The default section. -/
def default : DirectorySettings :=
  ⟨.sample, none, none⟩

/-- The section as a JSON object. -/
def written (settings : DirectorySettings) : Json.Value :=
  .object <|
    ("source", .string settings.source.name) ::
      (Json.textMember "path" settings.path ++
        Json.textMember "rootActivity" settings.rootActivity)

/-- Read the section. -/
def reader : Json.Reader DirectorySettings :=
  Json.Reader.record "struct DirectorySettings"
    [ .of "source" SourceKind.reader fun settings source => { settings with source },
      .of "path" (Json.Reader.optional Json.Reader.text)
        fun settings path => { settings with path },
      .of "rootActivity" (Json.Reader.optional Json.Reader.text)
        fun settings rootActivity => { settings with rootActivity } ]
    default

end DirectorySettings

namespace PresenterSettings

/-- The default section. -/
def default : PresenterSettings :=
  ⟨"en", 8⟩

/-- The section as a JSON object. -/
def written (settings : PresenterSettings) : Json.Value :=
  .object
    [ ("defaultLocale", .string settings.defaultLocale),
      ("maxDepth", .ofNat settings.maxDepth) ]

/-- Read the section. -/
def reader : Json.Reader PresenterSettings :=
  Json.Reader.record "struct PresenterSettings"
    [ .of "defaultLocale" Json.Reader.text
        fun settings defaultLocale => { settings with defaultLocale },
      .of "maxDepth" (Json.Reader.natural "usize" Text.greatestLong)
        fun settings maxDepth => { settings with maxDepth } ]
    default

end PresenterSettings

namespace LoggingSettings

/-- The default section. -/
def default : LoggingSettings :=
  ⟨"info", false, []⟩

/-- The section as a JSON object. -/
def written (settings : LoggingSettings) : Json.Value :=
  .object
    [ ("level", .string settings.level),
      ("json", .bool settings.json),
      ("moduleLevels", .object <|
        settings.moduleLevels.map fun (name, level) => (name, .string level)) ]

/-- Read the section. -/
def reader : Json.Reader LoggingSettings :=
  Json.Reader.record "struct LoggingSettings"
    [ .of "level" Json.Reader.text fun settings level => { settings with level },
      .of "json" Json.Reader.bool fun settings json => { settings with json },
      .of "moduleLevels" (Json.Reader.dictionary Json.Reader.text)
        fun settings moduleLevels => { settings with moduleLevels } ]
    default

end LoggingSettings

/-- Settings that cannot be had or used. -/
inductive SettingsFault where
  | unreadable (detail : String)
  | malformed (error : Json.ReadError)
  | missingPath (source : SourceKind)
  | zeroDepth
  deriving Repr, DecidableEq

namespace SettingsFault

/-- The text of a fault. -/
def message : SettingsFault → String
  | .unreadable detail =>
      "failed to read settings file: " ++ detail
  | .malformed error =>
      "failed to parse settings JSON: " ++ error.message
  | .missingPath source =>
      "invalid settings value: " ++ source.name ++ " source needs directory.path"
  | .zeroDepth =>
      "invalid settings value: presenter.maxDepth must be at least 1"

/-- The texts of the fault and of what it stems from, outermost first. -/
def chain (fault : SettingsFault) : List String :=
  match fault with
  | .unreadable detail => [fault.message, detail]
  | .malformed error => [fault.message, error.message]
  | _ => [fault.message]

end SettingsFault

namespace Settings

/-- The default settings. -/
def default : Settings :=
  ⟨.default, .default, .default, .default⟩

/-- The settings as a JSON object. -/
def written (settings : Settings) : Json.Value :=
  .object
    [ ("server", settings.server.written),
      ("directory", settings.directory.written),
      ("presenter", settings.presenter.written),
      ("logging", settings.logging.written) ]

/-- The settings as a JSON value, members by name. -/
def toValue (settings : Settings) : Json.Value :=
  settings.written.canonical

/-- Read settings. -/
def reader : Json.Reader Settings :=
  Json.Reader.record "struct AldbSettings"
    [ .of "server" ServerSettings.reader fun settings server => { settings with server },
      .of "directory" DirectorySettings.reader
        fun settings directory => { settings with directory },
      .of "presenter" PresenterSettings.reader
        fun settings presenter => { settings with presenter },
      .of "logging" LoggingSettings.reader
        fun settings logging => { settings with logging } ]
    default

/-- Whether the path of the source is there and not empty. -/
def hasPath (settings : Settings) : Bool :=
  settings.directory.path.getD "" != ""

/-- Check what no section alone can tell. -/
def validate (settings : Settings) : Except SettingsFault Unit :=
  if settings.directory.source ≠ .sample ∧ !settings.hasPath then
    .error (.missingPath settings.directory.source)
  else if settings.presenter.maxDepth = 0 then
    .error .zeroDepth
  else
    .ok ()

end Settings

end ActivityCatalog
