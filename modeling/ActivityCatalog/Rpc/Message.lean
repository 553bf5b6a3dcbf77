import ActivityCatalog.Fault
import ActivityCatalog.Json.Reader

namespace ActivityCatalog.Rpc

/-!
# Calls and their answers

A call names a method and may carry parameters and an id of any kind.  The
answer carries the id of the call and either a result or the code and the text
of a fault; `Response.written` fixes the order of its members.
-/

/-- A call. -/
structure Request where
  method : String
  params : Option Json.Value
  id : Option Json.Value
  deriving Repr, BEq

/-- Why a call has no result. -/
inductive Fault where
  | unreadable
  | unknownMethod (method : String)
  | invalidParams (detail : String)
  | internal (detail : String)
  | directory (fault : DirectoryFault)
  deriving Repr, DecidableEq

/-- The answer to a call. -/
structure Response where
  id : Option Json.Value
  outcome : Except Fault Json.Value
  deriving Repr

namespace Fault

/-- The code of a fault. -/
def code : Fault → String
  | .unreadable => "PARSE_ERROR"
  | .unknownMethod _ => "METHOD_NOT_FOUND"
  | .invalidParams _ => "INVALID_PARAMS"
  | .internal _ => "INTERNAL_ERROR"
  | .directory fault => fault.code

/-- The text of a fault. -/
def message : Fault → String
  | .unreadable => "Parse error"
  | .unknownMethod method => "Method not found: " ++ method
  | .invalidParams detail => detail
  | .internal detail => detail
  | .directory fault => fault.message

end Fault

namespace Response

/-- The answer to a text that is no call. -/
def unreadable : Response :=
  ⟨none, .error .unreadable⟩

/-- The members that tell the outcome. -/
def outcomeMembers : Except Fault Json.Value → List (String × Json.Value)
  | .ok result =>
      [("success", .bool true), ("result", result)]
  | .error fault =>
      [ ("success", .bool false),
        ("error", .object
          [("code", .string fault.code), ("message", .string fault.message)]) ]

/-- The answer as a JSON object. -/
def written (response : Response) : Json.Value :=
  .object (("id", response.id.getD .null) :: outcomeMembers response.outcome)

/-- The JSON text of an answer. -/
def text (response : Response) : String :=
  response.written.text

end Response

/-- A call of which fields may be missing still. -/
structure Draft where
  method : Option String
  params : Option Json.Value
  id : Option Json.Value

namespace Draft

/-- The call without fields. -/
def blank : Draft :=
  ⟨none, none, none⟩

/-- The fields of a call. -/
def fields : List (Json.Field Draft) :=
  [ .of "method" Json.Reader.text fun draft method => { draft with method := some method },
    .of "params" (Json.Reader.optional Json.Reader.value)
      fun draft params => { draft with params },
    .of "id" (Json.Reader.optional Json.Reader.value) fun draft id => { draft with id } ]

/-- The call of a draft that has a method. -/
def finish (draft : Draft) : Except Json.ReadError Request :=
  match draft.method with
  | some method => .ok ⟨method, draft.params, draft.id⟩
  | none => .error (.missingField "method")

end Draft

namespace Request

/-- Refuse an array that does not have all fields of a call. -/
def checkItems : Json.Document → Except Json.ReadError Unit
  | .array items =>
      if items.length < Draft.fields.length then
        .error (.tooFewItems items.length)
      else
        .ok ()
  | _ =>
      .ok ()

/-- Read a call. -/
def reader : Json.Reader Request := fun room document => do
  let draft ← Json.Reader.record "a request" Draft.fields Draft.blank room document
  checkItems document
  draft.finish

/-- Read a call from a text. -/
def ofText (text : String) : Except Json.ReadError Request :=
  Json.Reader.ofText reader text

/-- The parameters of a call, none at all where they are absent. -/
def paramsValue (request : Request) : Json.Value :=
  request.params.getD (.object [])

end Request

/-- Why a parameter cannot be used. -/
inductive ParamFault where
  | missing (key : String)
  | notNatural (key : String)
  deriving Repr, DecidableEq

/-- The text of a fault of a parameter. -/
def ParamFault.message : ParamFault → String
  | .missing key => "Missing required parameter: " ++ key
  | .notNatural key => "Parameter " ++ key ++ " must be a non-negative integer"

namespace Params

/-- The text of a parameter, if it is one. -/
def text? (key : String) (params : Json.Value) : Option String :=
  (params.member? key).bind Json.Value.text?

/-- The text of a parameter that must not be missing or empty. -/
def text (key : String) (params : Json.Value) : Except ParamFault String :=
  match text? key params with
  | none => .error (.missing key)
  | some value => if value = "" then .error (.missing key) else .ok value

/-- The natural of a parameter, which may be absent or null. -/
def natural? (key : String) (params : Json.Value) : Except ParamFault (Option Nat) :=
  match params.member? key with
  | none | some .null =>
      .ok none
  | some (.number (.integer value)) =>
      if 0 ≤ value then .ok (some value.toNat) else .error (.notNatural key)
  | some _ =>
      .error (.notNatural key)

end Params

end ActivityCatalog.Rpc
