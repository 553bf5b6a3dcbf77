import ActivityCatalog.Activity.Validation

namespace ActivityCatalog

/-!
# Listings

A listing is everything a source holds: its records in order and perhaps the id
of the main activity.  Its JSON text is an array of records, an object with the
records under `activities` and the id under `root`, or a single record, which is
then the main activity.
-/

/-- The records of a source and the id of its main activity. -/
structure Listing where
  root : Option String
  activities : List Activity
  deriving Repr, BEq, Inhabited

namespace Listing

/-- The listing whose first record is the main activity. -/
def rooted (activities : List Activity) : Listing :=
  ⟨activities.head?.bind Activity.id, activities⟩

/-- Read a listing that has its records under a name. -/
def reader : Json.Reader Listing :=
  Json.Reader.record "struct Listing"
    [ .of "root" (Json.Reader.optional Json.Reader.text)
        fun listing root => { listing with root },
      .of "activities" (Json.Reader.list Activity.reader)
        fun listing activities => { listing with activities } ]
    ⟨none, []⟩

/-- What a value that is no listing is called. -/
def kindOf : Json.Value → String
  | .null => "null"
  | .bool _ => "a boolean"
  | .number _ => "a number"
  | .string _ => "a string"
  | .array _ => "an array"
  | .object _ => "an object"

/-- Read a listing from a value. -/
def ofValue (value : Json.Value) : Except RecordFault Listing :=
  match value with
  | .array _ =>
      match Json.Reader.ofValue (Json.Reader.list Activity.reader) value with
      | .ok activities => .ok ⟨none, activities⟩
      | .error error => .error (.ofRead error)
  | .object members =>
      if (Dictionary.get? "activities" members).isSome then
        match Json.Reader.ofValue reader value with
        | .ok listing => .ok listing
        | .error error => .error (.ofRead error)
      else
        match Activity.ofValue value with
        | .ok activity => .ok ⟨activity.id, [activity]⟩
        | .error error => .error (.ofRead error)
  | other =>
      .error (.malformed ("expected an activity object or array, got " ++ kindOf other))

/-- Read a listing from a text. -/
def ofText (text : String) : Except RecordFault Listing :=
  match Json.Value.ofText text with
  | .ok value => ofValue value
  | .error error => .error (.ofRead error)

end Listing

end ActivityCatalog
