import ActivityCatalog.Settings.Basic

namespace ActivityCatalog

/-!
# What is logged

Levels are given by name in any case, or by number from 1 for errors to 5 for
traces.  A level that is neither is set aside and told later; in its place the
general level is `info` and the level of a module is left out.
-/

/-- The levels of log entries. -/
inductive LogLevel where
  | error
  | warn
  | info
  | debug
  | trace
  deriving Repr, DecidableEq

namespace LogLevel

/-- The name of a level in upper case. -/
def name : LogLevel → String
  | .error => "ERROR"
  | .warn => "WARN"
  | .info => "INFO"
  | .debug => "DEBUG"
  | .trace => "TRACE"

/-- The name of a level in lower case. -/
def word : LogLevel → String
  | .error => "error"
  | .warn => "warn"
  | .info => "info"
  | .debug => "debug"
  | .trace => "trace"

/-- All levels, from the first number on. -/
def all : List LogLevel :=
  [.error, .warn, .info, .debug, .trace]

/-- The level with a number. -/
def ofNumber? : Nat → Option LogLevel
  | 0 =>
      none
  | number + 1 =>
      all[number]?

/-- The level of a text. -/
def parse? (text : String) : Option LogLevel :=
  match Text.readNatural Text.greatestLong text with
  | .ok number =>
      ofNumber? number
  | .error _ =>
      let lowered := String.ofList (Text.lowered text.toList)
      all.find? fun level => level.word == lowered

end LogLevel

/-- What is logged, and the entries of the settings that were set aside. -/
structure LogPlan where
  level : LogLevel
  moduleLevels : List (String × LogLevel)
  json : Bool
  rejected : List String
  deriving Repr, DecidableEq

namespace LogPlan

/-- What is logged without settings. -/
def default : LogPlan :=
  ⟨.info, [], false, []⟩

/-- What the settings ask to be logged. -/
def ofSettings (settings : LoggingSettings) : LogPlan where
  level := (LogLevel.parse? settings.level).getD .info
  moduleLevels := settings.moduleLevels.filterMap fun (name, level) =>
    (LogLevel.parse? level).map (name, ·)
  json := settings.json
  rejected :=
    (if (LogLevel.parse? settings.level).isNone then ["level=" ++ settings.level] else []) ++
      settings.moduleLevels.filterMap fun (name, level) =>
        if (LogLevel.parse? level).isNone then some (name ++ "=" ++ level) else none

/-- The plan in one line: the general level, then the modules'. -/
def directive (plan : LogPlan) : String :=
  plan.moduleLevels.foldl
    (fun line entry => line ++ "," ++ entry.1 ++ "=" ++ entry.2.word) plan.level.word

end LogPlan

end ActivityCatalog
