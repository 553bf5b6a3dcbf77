import ActivityCatalog.Http.Form
import ActivityCatalog.Http.Target
import ActivityCatalog.Rpc.Method
import ActivityCatalog.Text.Number

namespace ActivityCatalog.Http

/-!
# Requests and responses

Four targets are served: the health of the directory, its main activity and the
navigation tree are got, and calls are posted.  Any origin may read a response,
and the options of every target may be asked for.

A target that is not served is not found; another verb than that of the target is
not allowed, and the response tells which are.
-/

/-- A request. -/
structure Request where
  verb : String
  target : Target
  body : List UInt8
  deriving Repr, DecidableEq

/-- The kinds of bodies. -/
inductive ContentType where
  | json
  | plainText
  deriving Repr, DecidableEq

/-- A response. -/
structure Response where
  status : Nat
  contentType : Option ContentType
  allow : Option String
  body : String
  deriving Repr, DecidableEq

/-- What is served. -/
inductive Route where
  | health
  | mainActivity
  | navTree
  | calls
  deriving Repr, DecidableEq

/-- The header of a kind of body. -/
def ContentType.header : ContentType → String
  | .json => "application/json"
  | .plainText => "text/plain; charset=utf-8"

/-- The status of a fault of a directory. -/
def statusOf : DirectoryFault → Nat
  | .notFound _ => 404
  | .unavailable _ => 503
  | .invalid _ => 422

namespace Response

/-- The origins that may read a response. -/
def allowedOrigin : String :=
  "*"

/-- A response without a body. -/
def bare (status : Nat) (allow : Option String) : Response :=
  ⟨status, none, allow, ""⟩

/-- A response with a JSON value. -/
def json (status : Nat) (value : Json.Value) : Response :=
  ⟨status, some .json, none, value.text⟩

/-- A response that refuses a request with a reason. -/
def refusal (status : Nat) (reason : String) : Response :=
  ⟨status, some .plainText, none, reason⟩

/-- The response without its body. -/
def withoutBody (response : Response) : Response :=
  { response with body := "" }

/-- A response with a fault of a directory. -/
def ofFault (fault : DirectoryFault) : Response :=
  json (statusOf fault) (.object [("error", fault.written)])

end Response

namespace Route

/-- What is served under a path. -/
def ofPath? : String → Option Route
  | "/health" => some .health
  | "/activities" => some .mainActivity
  | "/nav" => some .navTree
  | "/rpc" => some .calls
  | _ => none

/-- The verbs that are allowed, as a response tells them. -/
def allow : Route → String
  | .calls => "POST"
  | _ => "GET,HEAD"

/-- Whether a verb is allowed. -/
def allows (route : Route) (verb : String) : Bool :=
  match route with
  | .calls => verb == "POST"
  | _ => verb == "GET" || verb == "HEAD"

end Route

/-- What a query asks of the navigation tree. -/
structure TreeQuery where
  locale : Option String
  depth : Option Nat
  deriving Repr, DecidableEq

/-- Why a query cannot be used. -/
inductive QueryFault where
  | repeated (name : String)
  | badDepth (fault : Text.NumberFault)
  deriving Repr, DecidableEq

/-- The text of a fault of a query. -/
def QueryFault.message : QueryFault → String
  | .repeated name =>
      "Failed to deserialize query string: duplicate field " ++ Json.ticked name
  | .badDepth fault =>
      "Failed to deserialize query string: depth: " ++ fault.message

namespace TreeQuery

/-- The query that asks for nothing. -/
def blank : TreeQuery :=
  ⟨none, none⟩

/-- Read one field of a query; those of other names are skipped. -/
def readField (query : TreeQuery) (field : String × String) : Except QueryFault TreeQuery :=
  match field.1 with
  | "locale" =>
      if query.locale.isSome then
        .error (.repeated "locale")
      else
        .ok { query with locale := some field.2 }
  | "depth" =>
      if query.depth.isSome then
        .error (.repeated "depth")
      else
        match Text.readNatural Text.greatestLong field.2 with
        | .ok depth => .ok { query with depth := some depth }
        | .error fault => .error (.badDepth fault)
  | _ =>
      .ok query

/-- Read the fields of a query. -/
def ofFields (fields : List (String × String)) : Except QueryFault TreeQuery :=
  fields.foldlM readField blank

end TreeQuery

/-- The response with a navigation tree, or with why there is none. -/
def viewResponse (view : Except DirectoryFault NavNode) : Response :=
  match view with
  | .ok _ => .json 200 (NavView.written view)
  | .error fault => .json (statusOf fault) (NavView.written view)

/-- No body of a call is longer. -/
def greatestBody : Nat :=
  2 * 1024 * 1024

/-- The text of a body, or the response that refuses it. -/
def readBody (body : List UInt8) : Except Response String :=
  if greatestBody < body.length then
    .error (.refusal 413 "Failed to buffer the request body: length limit exceeded")
  else
    match Text.Utf8.decode body with
    | .ok text =>
        .ok text
    | .error fault =>
        .error (.refusal 400 ("Request body didn't contain valid UTF-8: " ++ fault.message))

/-- Serve a request that its route allows. -/
def serveRoute (service : Service) (load : Load) (request : Request)
    (directory : Directory) : Route → Response × Directory
  | .health =>
      let (health, directory) := service.health load directory
      (.json (if health.isHealthy then 200 else 503) health.toValue, directory)
  | .mainActivity =>
      match directory.mainActivity load with
      | (.ok activity, directory) => (.json 200 activity.written, directory)
      | (.error fault, directory) => (.ofFault fault, directory)
  | .navTree =>
      match TreeQuery.ofFields (Form.parse request.target.query) with
      | .error fault => (.refusal 400 fault.message, directory)
      | .ok query =>
          let (view, directory) := service.navTree query.locale query.depth load directory
          (viewResponse view, directory)
  | .calls =>
      match readBody request.body with
      | .error refusal => (refusal, directory)
      | .ok text =>
          let (response, directory) := Rpc.respondToText service load text directory
          (.json 200 response.written, directory)

/-- Serve a request. -/
def serve (service : Service) (load : Load) (request : Request) (directory : Directory) :
    Response × Directory :=
  let route := Route.ofPath? request.target.path
  if request.verb = "OPTIONS" then
    (.bare 200 (route.map Route.allow), directory)
  else
    match route with
    | none => (.bare 404 none, directory)
    | some route =>
        if !route.allows request.verb then
          (.bare 405 (some route.allow), directory)
        else
          let (response, directory) := serveRoute service load request directory route
          if request.verb = "HEAD" then
            (response.withoutBody, directory)
          else
            (response, directory)

end ActivityCatalog.Http
