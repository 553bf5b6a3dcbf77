import ActivityCatalog.Rpc.Message
import ActivityCatalog.Service

namespace ActivityCatalog.Rpc

/-!
# Methods

A method answers a call about a directory.  Its parameters are checked before
the directory is asked, so that a call with unusable ones loads nothing.
-/

/-- The methods that can be called. -/
inductive Method where
  | mainActivity
  | activity
  | links (direction : Direction)
  | walk (direction : Direction)
  | navTree
  | reload
  | consistency
  | health
  deriving Repr, DecidableEq

/-- What a method gives: its outcome, and the directory after it. -/
abbrev Answer :=
  Except Fault Json.Value × Directory

/-- The answer of a directory, its result written as a value. -/
def answered {Result : Type} (write : Result → Json.Value)
    (answer : Except DirectoryFault Result × Directory) : Answer :=
  ((answer.1.mapError .directory).map write, answer.2)

/-- Go on with parameters that can be used. -/
def withParams {Param : Type} (params : Except ParamFault Param) (directory : Directory)
    (goOn : Param → Answer) : Answer :=
  match params with
  | .ok params => goOn params
  | .error fault => (.error (.invalidParams fault.message), directory)

/-- A key as a JSON object. -/
def keyValue (key : Key) : Json.Value :=
  .object [("id", .string key.id), ("version", .string key.version)]

/-- An issue as a JSON value. -/
def issueValue (issue : Issue) : Json.Value :=
  Json.Value.canonical <| .object
    [ ("from", keyValue issue.source),
      ("to", keyValue issue.target),
      ("relation", .string issue.direction.linkName),
      ("message", .string issue.message) ]

/-- The steps of a walk as a JSON value. -/
def walkValue (steps : List (Nat × Activity)) : Json.Value :=
  Json.Value.canonical <| .array <| steps.map fun (depth, activity) =>
    .object [("depth", .ofNat depth), ("activity", activity.written)]

namespace Method

/-- The method with a name. -/
def ofName? : String → Option Method
  | "activity.getMain" => some .mainActivity
  | "activity.get" => some .activity
  | "activity.subs" => some (.links .down)
  | "activity.supers" => some (.links .up)
  | "activity.descendants" => some (.walk .down)
  | "activity.ancestors" => some (.walk .up)
  | "nav.tree" => some .navTree
  | "directory.reload" => some .reload
  | "directory.consistency" => some .consistency
  | "system.ping" | "health" => some .health
  | _ => none

/-- Answer a call of a method. -/
def run (service : Service) (load : Load) (params : Json.Value) (directory : Directory) :
    Method → Answer
  | .mainActivity =>
      answered Activity.toValue (directory.mainActivity load)
  | .activity =>
      withParams (Params.text "id" params) directory fun id =>
        answered Activity.toValue <|
          directory.ask (fun catalog => catalog.record id (Params.text? "version" params)) load
  | .links direction =>
      withParams (Params.text "id" params) directory fun id =>
        answered (fun activities => .array (activities.map Activity.toValue)) <|
          directory.ask (fun catalog => catalog.linkedTo id direction) load
  | .walk direction =>
      withParams (Params.text "id" params) directory fun id =>
        withParams (Params.natural? "maxDepth" params) directory fun limit =>
          answered walkValue <|
            directory.ask (fun catalog => catalog.walkFrom id direction limit) load
  | .navTree =>
      withParams (Params.natural? "maxDepth" params) directory fun depth =>
        answered (fun tree => tree.written.canonical) <|
          service.navTree (Params.text? "locale" params) depth load directory
  | .reload =>
      answered (fun records => .object [("records", .ofNat records)]) (directory.reload load)
  | .consistency =>
      answered (fun issues => .object [("issues", .array (issues.map issueValue))]) <|
        directory.ask (fun catalog => .ok catalog.issues) load
  | .health =>
      let (found, directory) := service.health load directory
      (.ok found.toValue, directory)

end Method

/-- The outcome of a call of the method with a name. -/
def call (service : Service) (load : Load) (method : String) (params : Json.Value)
    (directory : Directory) : Answer :=
  match Method.ofName? method with
  | some known => known.run service load params directory
  | none => (.error (.unknownMethod method), directory)

/-- Answer a call. -/
def respond (service : Service) (load : Load) (request : Request) (directory : Directory) :
    Response × Directory :=
  let (outcome, directory) :=
    call service load request.method request.paramsValue directory
  (⟨request.id, outcome⟩, directory)

/-- Answer a text, which may be no call. -/
def respondToText (service : Service) (load : Load) (text : String) (directory : Directory) :
    Response × Directory :=
  match Request.ofText text with
  | .ok request => respond service load request directory
  | .error _ => (.unreadable, directory)

end ActivityCatalog.Rpc
