import ActivityCatalog.Activity.Validation

namespace ActivityCatalog

/-!
# Faults of a directory

A question to a directory fails because something is not found, because the
source cannot be read, or because the source holds an invalid record.
-/

/-- Why a directory does not answer. -/
inductive DirectoryFault where
  | notFound (what : String)
  | unavailable (reason : String)
  | invalid (fault : RecordFault)
  deriving Repr, DecidableEq

namespace DirectoryFault

/-- The short name of the kind of fault. -/
def kind : DirectoryFault → String
  | .notFound _ => "not_found"
  | .unavailable _ => "source_unavailable"
  | .invalid _ => "validation"

/-- The code of the fault in responses. -/
def code : DirectoryFault → String
  | .notFound _ => "NOT_FOUND"
  | .unavailable _ => "SOURCE_UNAVAILABLE"
  | .invalid _ => "VALIDATION_ERROR"

/-- The text of a fault. -/
def message : DirectoryFault → String
  | .notFound what => "not found: " ++ what
  | .unavailable reason => "source unavailable: " ++ reason
  | .invalid fault => "validation failed: " ++ fault.message

/-- The texts of the fault and of what it stems from, outermost first. -/
def chain (fault : DirectoryFault) : List String :=
  match fault with
  | .invalid inner => [fault.message, inner.message]
  | _ => [fault.message]

/-- Nothing is stored under an id. -/
def noActivity (id : String) : DirectoryFault :=
  .notFound ("activity " ++ id)

end DirectoryFault

end ActivityCatalog
