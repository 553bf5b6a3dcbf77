import ActivityCatalog.Dictionary
import ActivityCatalog.Text.Blank
import ActivityCatalog.Text.Quoted

namespace ActivityCatalog

/-!
# Media types

A media type is `type/subtype; key=value`.  Type, subtype and keys are taken in
lower case; blanks around every part are dropped, as are the quotes around a
value; parameters without any text between semicolons are skipped, and the last
of several parameters with one key wins.
-/

/-- A media type: its two parts and its parameters. -/
structure MediaType where
  kind : String
  subtype : String
  params : Dictionary String
  deriving Repr, DecidableEq

namespace MediaType

/-- Why a text is no media type. -/
inductive Fault where
  | empty
  | missingSlash (text : String)
  | emptyPart (text : String)
  | badParameter (text : String)
  deriving Repr, DecidableEq

/-- The text of a fault. -/
def Fault.message : Fault → String
  | .empty =>
      "empty media type"
  | .missingSlash text =>
      "media type " ++ Text.quoted text ++ " has no '/'"
  | .emptyPart text =>
      "media type " ++ Text.quoted text ++ " has an empty type or subtype"
  | .badParameter text =>
      "malformed media type parameter " ++ Text.quoted text

/-- Read one parameter, already trimmed and not empty. -/
def parameter? (chars : List Char) : Option (String × String) :=
  match Text.cut? '=' chars with
  | none =>
      none
  | some (before, after) =>
      let key := Text.trim before
      if key = [] then
        none
      else
        let value := Text.trimWhile (· == '"') (Text.trim after)
        some (String.ofList (Text.lowered key), String.ofList value)

/-- Read the parameters after the first semicolon into a dictionary. -/
def readParameters : List (List Char) → Dictionary String →
    Except Fault (Dictionary String)
  | [], held =>
      .ok held
  | piece :: rest, held =>
      let trimmed := Text.trim piece
      if trimmed = [] then
        readParameters rest held
      else
        match parameter? trimmed with
        | none => .error (.badParameter (String.ofList trimmed))
        | some (key, value) => readParameters rest (Dictionary.insert key value held)

/-- Read a trimmed media type. -/
def ofTrimmed (chars : List Char) : Except Fault MediaType :=
  if chars = [] then
    .error .empty
  else
    let pieces := Text.pieces ';' chars
    match Text.cut? '/' (Text.trim (pieces.headD [])) with
    | none =>
        .error (.missingSlash (String.ofList chars))
    | some (before, after) =>
        let kind := Text.trim before
        let subtype := Text.trim after
        if kind = [] ∨ subtype = [] then
          .error (.emptyPart (String.ofList chars))
        else
          (readParameters pieces.tail []).map fun params =>
            { kind := String.ofList (Text.lowered kind)
              subtype := String.ofList (Text.lowered subtype)
              params }

/-- Read a media type. -/
def parse (text : String) : Except Fault MediaType :=
  ofTrimmed (Text.trim text.toList)

/-- The media type without its parameters. -/
def essence (mediaType : MediaType) : String :=
  mediaType.kind ++ "/" ++ mediaType.subtype

/-- The value of a parameter, whatever the case of the key asked for. -/
def param? (mediaType : MediaType) (key : String) : Option String :=
  Dictionary.get? (String.ofList (Text.lowered key.toList)) mediaType.params

/-- The text of a media type, its parameters in the order of their keys. -/
def display (mediaType : MediaType) : String :=
  mediaType.params.foldl (fun text param => text ++ "; " ++ param.1 ++ "=" ++ param.2)
    mediaType.essence

end MediaType

end ActivityCatalog
