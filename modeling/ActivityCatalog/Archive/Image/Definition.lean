import ActivityCatalog.Archive.Layout
import ActivityCatalog.Text.Blank

namespace ActivityCatalog.Definition

/-!
# Definitions of tables

A table of an image is defined by a text: a head, and in parentheses its columns and
constraints, with commas between them.  A column has a name, the words of its type and
constraints of its own.  Names may stand in quotes, in which two quotes tell one.
-/

/-- A part of a definition: a bare word, a name in quotes, or a mark. -/
inductive Word where
  | bare (text : String)
  | quoted (text : String)
  | mark (char : Char)
  deriving Repr, DecidableEq

/-- Whether a character may be in a bare word. -/
def isWordChar (char : Char) : Bool :=
  char.isAlphanum || char == '_' || char == '$' || 0x80 ≤ char.toNat

/-- The quote that ends a name, by the one that begins it. -/
def closing? : Char → Option Char
  | '"' => some '"'
  | '`' => some '`'
  | '\'' => some '\''
  | '[' => some ']'
  | _ => none

/-- Read a name up to its last quote; with it goes what follows. -/
def readQuoted (closing : Char) : List Char → List Char × List Char
  | [] =>
      ([], [])
  | [char] =>
      if char == closing then ([], []) else ([char], [])
  | char :: next :: rest =>
      if char != closing then
        let (name, after) := readQuoted closing (next :: rest)
        (char :: name, after)
      else if next == closing then
        let (name, after) := readQuoted closing rest
        (closing :: name, after)
      else
        ([], next :: rest)

/-- The words of at most so many characters. -/
def wordsOf : Nat → List Char → List Word
  | budget + 1, char :: rest =>
      match closing? char with
      | some closing =>
          let (name, after) := readQuoted closing rest
          .quoted (String.ofList name) :: wordsOf budget after
      | none =>
          if isWordChar char then
            let more := rest.takeWhile isWordChar
            .bare (String.ofList (char :: more)) :: wordsOf budget (rest.drop more.length)
          else if Text.isBlank char then
            wordsOf budget rest
          else
            .mark char :: wordsOf budget rest
  | _, _ =>
      []

/-- The words of a text. -/
def words (text : String) : List Word :=
  wordsOf text.length text.toList

/-- The words between two commas or parentheses of one depth. -/
abbrev Part :=
  List Word

/-- Add a word to the first of several parts. -/
def addTo (word : Word) : List Part → List Part
  | [] => [[word]]
  | part :: parts => (word :: part) :: parts

/-- The parts at a depth of parentheses, until the outermost is closed. -/
def partsFrom : Nat → List Word → List Part
  | _, [] =>
      [[]]
  | depth, word :: rest =>
      match word, depth with
      | .mark ')', 0 => [[]]
      | .mark ')', depth + 1 => addTo word (partsFrom depth rest)
      | .mark '(', depth => addTo word (partsFrom (depth + 1) rest)
      | .mark ',', 0 => [] :: partsFrom 0 rest
      | _, depth => addTo word (partsFrom depth rest)

/-- Whether a word is one of several bare ones. -/
def Word.isOneOf (word : Word) (texts : List String) : Bool :=
  match word with
  | .bare text => texts.contains text.toUpper
  | _ => false

/-- The words that begin a constraint of a table. -/
def tableConstraints : List String :=
  ["CONSTRAINT", "PRIMARY", "UNIQUE", "CHECK", "FOREIGN"]

/-- The words that begin a constraint of a column. -/
def columnConstraints : List String :=
  ["CONSTRAINT", "PRIMARY", "NOT", "NULL", "UNIQUE", "CHECK", "DEFAULT", "COLLATE",
    "REFERENCES", "GENERATED", "AS"]

/-- The text of a word. -/
def Word.text : Word → String
  | .bare text => text
  | .quoted text => text
  | .mark char => String.singleton char

/-- Whether one word follows another at once. -/
def follows (first second : String) : Part → Bool
  | word :: next :: rest =>
      (word.isOneOf [first] && next.isOneOf [second]) || follows first second (next :: rest)
  | _ =>
      false

/-- Whether what is said of a column requires that it is filled. -/
def isRequiring (constraints : Part) : Bool :=
  follows "NOT" "NULL" constraints &&
    !constraints.any fun word => word.isOneOf ["DEFAULT", "GENERATED", "AS"]

/-- The column that a part defines, if it does. -/
def columnOf? : Part → Option Column
  | [] =>
      none
  | name :: rest =>
      if name.isOneOf tableConstraints then
        none
      else
        let type := rest.takeWhile fun word => !word.isOneOf columnConstraints
        let typeText := " ".intercalate (type.map Word.text)
        let isRowNumber :=
          typeText.toUpper == "INTEGER" && rest.any fun word => word.isOneOf ["PRIMARY"]
        some ⟨name.text, .ofType typeText, isRowNumber, !isRowNumber && isRequiring rest⟩

/-- The columns of a table that a text defines. -/
def columnsOf (text : String) : List Column :=
  let inside := ((words text).dropWhile (· != .mark '(')).drop 1
  (partsFrom 0 inside).filterMap columnOf?

end ActivityCatalog.Definition
