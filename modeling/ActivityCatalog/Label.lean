import ActivityCatalog.Json.Reader

namespace ActivityCatalog

/-!
# Labels

A label holds a short text for each of some languages.  A text is looked up by
its language, then, unless the look-up is strict, under the wildcard language;
for display any text will do, the first by language.
-/

/-- Texts by language. -/
structure Label where
  texts : Dictionary String
  deriving Repr, DecidableEq, Inhabited

namespace Label

/-- The language that stands for any. -/
def anyLanguage : String :=
  "*"

/-- The label without texts. -/
def empty : Label :=
  ⟨[]⟩

/-- The label of texts by language; the last text of a language wins. -/
def ofList (texts : List (String × String)) : Label :=
  ⟨Dictionary.ofList texts⟩

/-- Set the text of a language. -/
def insert (language text : String) (label : Label) : Label :=
  ⟨Dictionary.insert language text label.texts⟩

/-- Whether the label has no text. -/
def isEmpty (label : Label) : Bool :=
  label.texts.isEmpty

/-- The text of a language. -/
def get? (label : Label) (language : String) : Option String :=
  Dictionary.get? language label.texts

/-- The text of a language or, unless strict, of the wildcard. -/
def localize? (label : Label) (language : String) (strict : Bool) : Option String :=
  match label.get? language with
  | some text => some text
  | none => if strict then none else label.get? anyLanguage

/-- The text of the error of a language that is not found. -/
def notFoundMessage (language : String) : String :=
  "no label for language " ++ Text.quoted language

/-- The text to show for a language: its own, the wildcard's, or the first. -/
def display? (label : Label) (language : String) : Option String :=
  match label.localize? language false with
  | some text => some text
  | none => label.texts.head?.map Prod.snd

/-- The label as a JSON object. -/
def written (label : Label) : Json.Value :=
  .object (label.texts.map fun (language, text) => (language, .string text))

/-- Read a label. -/
def reader : Json.Reader Label := fun room document =>
  (Json.Reader.dictionary Json.Reader.text room document).map Label.mk

end Label

end ActivityCatalog
