import ActivityCatalog.Json.Document
import ActivityCatalog.Json.Writer
import ActivityCatalog.Text.Quoted

namespace ActivityCatalog.Json

/-!
# Reading records out of JSON

A reader takes a document and the room for nesting: how many containers may
still be opened inside one another.  A text is read with the fixed room of
`Reader.textRoom`, so what a reader uses of it may be nested only so deep, while
what it skips is not limited.  A value is read with as much room as it needs.

A record is an object of its fields or an array of them in declaration order;
a field that is absent keeps its start value, an unknown one is skipped, and one
that occurs twice is an error.
-/

/--
Why a document does not read as what was asked for.  A fault met while reading a
text is told by a mark alone, not by its place or wording.
-/
inductive ReadError where
  | wrongType (found : String) (expected : String)
  | outOfRange (value : Int) (expected : String)
  | unknownVariant (name : String) (known : List String)
  | notSingleMember
  | repeatedField (name : String)
  | missingField (name : String)
  | tooManyItems (count : Nat)
  | tooFewItems (count : Nat)
  | tooDeep
  | valueless
  | notJson
  | inText (cause : ReadError)
  deriving Repr, DecidableEq

/-- A text between backticks. -/
def ticked (text : String) : String :=
  "\x60" ++ text ++ "\x60"

namespace ReadError

/-- The text of a reading error. -/
def message : ReadError → String
  | .wrongType found expected =>
      "invalid type: " ++ found ++ ", expected " ++ expected
  | .outOfRange value expected =>
      "invalid value: integer " ++ ticked (toString value) ++ ", expected " ++ expected
  | .unknownVariant name known =>
      "unknown variant " ++ ticked name ++ ", expected one of " ++
        ", ".intercalate (known.map ticked)
  | .notSingleMember =>
      "invalid value: map, expected map with a single key"
  | .repeatedField name =>
      "duplicate field " ++ ticked name
  | .missingField name =>
      "missing field " ++ ticked name
  | .tooManyItems count =>
      "invalid length " ++ toString count ++ ", expected fewer elements in array"
  | .tooFewItems count =>
      "invalid length " ++ toString count ++ ", expected more elements in array"
  | .tooDeep =>
      "recursion limit exceeded"
  | .valueless =>
      "number or string without a value"
  | .notJson =>
      "not a JSON text"
  | .inText _ =>
      "<json>"

end ReadError

/-- What a document is, as a message tells it. -/
def Document.description : Document → String
  | .null => "null"
  | .bool value => "boolean " ++ ticked (if value then "true" else "false")
  | .number (some (.integer value)) => "integer " ++ ticked (toString value)
  | .number (some (.double value)) => "floating point " ++ ticked (doubleText value)
  | .number none => "number"
  | .string (some text) => "string " ++ Text.quoted text
  | .string none => "string"
  | .array _ => "sequence"
  | .object _ => "map"

/-- The error of a document that is not what was expected. -/
def Document.mismatch (expected : String) : Document → ReadError
  | .number none => .valueless
  | .string none => .valueless
  | document => .wrongType document.description expected

/-- A reader of documents, given the room for nesting. -/
abbrev Reader (Result : Type) :=
  Nat → Document → Except ReadError Result

/-- A named field and how reading it changes a record. -/
structure Field (Record : Type) where
  name : String
  read : Nat → Document → Record → Except ReadError Record

/-- A field that is read by itself and then stored. -/
def Field.of {Record Result : Type} (name : String) (reader : Reader Result)
    (store : Record → Result → Record) : Field Record where
  name := name
  read room document held := (reader room document).map (store held)

namespace Reader

variable {Record Result : Type}

/-- The room for nesting in a text. -/
def textRoom : Nat :=
  127

/-- Read a text. -/
def text : Reader String
  | _, .string (some text) =>
      .ok text
  | _, document =>
      .error (document.mismatch "a string")

/-- Read a truth value. -/
def bool : Reader Bool
  | _, .bool value =>
      .ok value
  | _, document =>
      .error (document.mismatch "a boolean")

/-- Read a natural up to a bound, described by the name of its type. -/
def natural (name : String) (greatest : Nat) : Reader Nat
  | _, .number (some (.integer value)) =>
      if 0 ≤ value ∧ value ≤ greatest then
        .ok value.toNat
      else
        .error (.outOfRange value name)
  | _, document =>
      .error (document.mismatch name)

/-- Null is nothing, and anything else is read. -/
def optional (reader : Reader Result) : Reader (Option Result)
  | _, .null =>
      .ok none
  | room, document =>
      (reader room document).map some

/-- Read every item of an array. -/
def list (reader : Reader Result) : Reader (List Result)
  | 0, .array _ =>
      .error .tooDeep
  | room + 1, .array items =>
      items.mapM (reader room)
  | _, document =>
      .error (document.mismatch "a sequence")

/-- The name of a member, which has a value only without a lone surrogate. -/
def nameOf : Option String → Except ReadError String
  | some name =>
      .ok name
  | none =>
      .error .valueless

/-- Read one more member into a dictionary. -/
def insertMember (reader : Document → Except ReadError Result)
    (held : Dictionary Result) (member : Option String × Document) :
    Except ReadError (Dictionary Result) := do
  let name ← nameOf member.1
  let value ← reader member.2
  pure (Dictionary.insert name value held)

/-- Read every member of an object; the last of a name wins. -/
def dictionary (reader : Reader Result) : Reader (Dictionary Result)
  | 0, .object _ =>
      .error .tooDeep
  | room + 1, .object members =>
      members.foldlM (insertMember (reader room)) []
  | _, document =>
      .error (document.mismatch "a map")

/-- Read any document as a value. -/
def value : Reader Value
  | _, .null => .ok .null
  | _, .bool value => .ok (.bool value)
  | _, .number (some value) => .ok (.number value)
  | _, .number none => .error .valueless
  | _, .string (some text) => .ok (.string text)
  | _, .string none => .error .valueless
  | 0, .array _ => .error .tooDeep
  | 0, .object _ => .error .tooDeep
  | room + 1, .array items => .array <$> items.mapM (value room)
  | room + 1, .object members =>
      .object <$> members.foldlM (insertMember (value room)) []

/-- A record being read and the names of the fields seen so far. -/
abbrev Progress (Record : Type) :=
  Record × List String

/-- Read a named field, once only. -/
def readField (field : Field Record) (room : Nat) (progress : Progress Record)
    (document : Document) : Except ReadError (Progress Record) :=
  if progress.2.contains field.name then
    .error (.repeatedField field.name)
  else
    (field.read room document progress.1).map fun record =>
      (record, field.name :: progress.2)

/-- Read one member of a record, skipping it if its name is unknown. -/
def readMember (fields : List (Field Record)) (room : Nat) (progress : Progress Record)
    (member : Option String × Document) : Except ReadError (Progress Record) := do
  let name ← nameOf member.1
  match fields.find? fun field => field.name == name with
  | some field => readField field room progress member.2
  | none => pure progress

/-- Read fields in declaration order from the items of an array. -/
def readItems (room : Nat) : List (Field Record) → List Document → Record →
    Except ReadError Record
  | field :: fields, item :: items, record => do
      let record ← field.read room item record
      readItems room fields items record
  | _, _, record =>
      .ok record

/-- Read a record, described by its name, from an object or an array. -/
def record (name : String) (fields : List (Field Record)) (start : Record) :
    Reader Record
  | 0, .array _ =>
      .error .tooDeep
  | 0, .object _ =>
      .error .tooDeep
  | room + 1, .object members =>
      (members.foldlM (readMember fields room) (start, [])).map Prod.fst
  | room + 1, .array items => do
      let record ← readItems room fields items start
      if fields.length < items.length then
        throw (.tooManyItems items.length)
      pure record
  | _, document =>
      .error (document.mismatch name)

/-- Read one member of an open record, keeping it if its name is unknown. -/
def readOpenMember (fields : List (Field Record))
    (keep : Record → String → Value → Record) (room : Nat)
    (progress : Progress Record) (member : Option String × Document) :
    Except ReadError (Progress Record) := do
  let name ← nameOf member.1
  match fields.find? fun field => field.name == name with
  | some field => readField field room progress member.2
  | none =>
      let value ← value room member.2
      pure (keep progress.1 name value, progress.2)

/-- Read a record that keeps its unknown members; only an object is one. -/
def openRecord (name : String) (fields : List (Field Record))
    (keep : Record → String → Value → Record) (start : Record) : Reader Record
  | 0, .object _ =>
      .error .tooDeep
  | room + 1, .object members =>
      (members.foldlM (readOpenMember fields keep room) (start, [])).map Prod.fst
  | _, document =>
      .error (document.mismatch name)

/-- Read a text as a whole. -/
def ofText (reader : Reader Result) (text : String) : Except ReadError Result :=
  match Document.ofText? text with
  | some document => (reader textRoom document).mapError .inText
  | none => .error (.inText .notJson)

/-- Read a value, whose nesting is no hindrance. -/
def ofValue (reader : Reader Result) (value : Value) : Except ReadError Result :=
  reader value.depth (Document.ofValue value)

end Reader

/-- Read a text as a value. -/
def Value.ofText (text : String) : Except ReadError Value :=
  Reader.ofText Reader.value text

end ActivityCatalog.Json
