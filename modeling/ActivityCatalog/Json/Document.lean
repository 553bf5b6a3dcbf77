import ActivityCatalog.Json.Token

namespace ActivityCatalog.Json

/-!
# JSON documents

A document is a JSON text as a tree, before anything is made of it: members
stand in their written order, a name may occur twice, and nesting has no limit.
A number that is infinite and a string with a lone surrogate have no value
here, and are errors only for a reader that uses them.

`Document.ofText?` reads a text, by a machine that keeps the containers that
are still open, and `Document.ofValue` is the document that a value writes.
-/

/-- A JSON text as a tree. -/
inductive Document where
  | null
  | bool (value : Bool)
  | number (value : Option Number)
  | string (text : Option String)
  | array (items : List Document)
  | object (members : List (Option String × Document))
  deriving Repr, BEq, Inhabited

/-- A container that is still open; what it holds so far is in reverse. -/
inductive Frame where
  | array (items : List Document)
  | object (members : List (Option String × Document)) (name : Option String)
  deriving Repr, BEq

/-- What the next token may be. -/
inductive Expectation where
  | value
  | firstItem
  | firstName (members : List (Option String × Document))
  | name (members : List (Option String × Document))
  | colon (members : List (Option String × Document)) (name : Option String)
  | afterItem (items : List Document)
  | afterMember (members : List (Option String × Document))
  | nothing (document : Document)
  deriving Repr, BEq

/-- A document under construction: what may come next inside which open containers. -/
structure Builder where
  expectation : Expectation
  frames : List Frame
  deriving Repr, BEq

namespace Builder

/-- A builder before its tokens. -/
def start : Builder :=
  ⟨.value, []⟩

/-- Put a finished document where the builder stands. -/
def place (document : Document) : List Frame → Builder
  | [] =>
      ⟨.nothing document, []⟩
  | .array items :: frames =>
      ⟨.afterItem (document :: items), frames⟩
  | .object members name :: frames =>
      ⟨.afterMember ((name, document) :: members), frames⟩

/-- Take a token that starts a value. -/
def beginValue? (frames : List Frame) : Token → Option Builder
  | .null => some (place .null frames)
  | .bool value => some (place (.bool value) frames)
  | .number value => some (place (.number value) frames)
  | .string text => some (place (.string text) frames)
  | .openBracket => some ⟨.firstItem, frames⟩
  | .openBrace => some ⟨.firstName [], frames⟩
  | _ => none

/-- Take one token. -/
def step? (builder : Builder) (token : Token) : Option Builder :=
  let frames := builder.frames
  match builder.expectation, token with
  | .value, token =>
      beginValue? frames token
  | .firstItem, .closeBracket =>
      some (place (.array []) frames)
  | .firstItem, token =>
      beginValue? (.array [] :: frames) token
  | .firstName members, .closeBrace =>
      some (place (.object members.reverse) frames)
  | .firstName members, .string name =>
      some ⟨.colon members name, frames⟩
  | .name members, .string name =>
      some ⟨.colon members name, frames⟩
  | .colon members name, .colon =>
      some ⟨.value, .object members name :: frames⟩
  | .afterItem items, .comma =>
      some ⟨.value, .array items :: frames⟩
  | .afterItem items, .closeBracket =>
      some (place (.array items.reverse) frames)
  | .afterMember members, .comma =>
      some ⟨.name members, frames⟩
  | .afterMember members, .closeBrace =>
      some (place (.object members.reverse) frames)
  | _, _ =>
      none

/-- The document, if it is complete. -/
def finish? (builder : Builder) : Option Document :=
  match builder.expectation with
  | .nothing document => some document
  | _ => none

end Builder

namespace Document

/-- The document of a list of tokens. -/
def ofTokens? (tokens : List Token) : Option Document :=
  (tokens.foldlM Builder.step? Builder.start).bind Builder.finish?

/-- The document of a text. -/
def ofText? (text : String) : Option Document :=
  (Token.scan? text).bind ofTokens?

mutual

/-- The document that a value writes. -/
def ofValue : Value → Document
  | .null => .null
  | .bool value => .bool value
  | .number value => .number (some value)
  | .string text => .string (some text)
  | .array items => .array (ofItems items)
  | .object members => .object (ofMembers members)

/-- The documents of a list of values. -/
def ofItems : List Value → List Document
  | [] =>
      []
  | item :: rest =>
      ofValue item :: ofItems rest

/-- The members that a list of members writes. -/
def ofMembers : List (String × Value) → List (Option String × Document)
  | [] =>
      []
  | (name, value) :: rest =>
      (some name, ofValue value) :: ofMembers rest

end

end Document

end ActivityCatalog.Json
