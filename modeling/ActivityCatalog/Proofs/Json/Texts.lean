import ActivityCatalog.Proofs.Json.Scanning
import ActivityCatalog.Proofs.Json.Values

namespace ActivityCatalog.Json

/-!
# Texts that are read back

The text of a value is scanned as the tokens of the value, from which its document is built.
So a value whose numbers are kept is written as a text of which the document is that of the
value, however deep it is.
-/

namespace Value

mutual

/-- The tokens of a value. -/
def tokens : Value → List Token
  | .null => [.null]
  | .bool value => [.bool value]
  | .number value => [.number (some value)]
  | .string text => [.string (some text)]
  | .array items => .openBracket :: ([.comma].intercalate (itemTokens items) ++ [.closeBracket])
  | .object members => .openBrace :: ([.comma].intercalate (memberTokens members) ++ [.closeBrace])

/-- The tokens of each item. -/
def itemTokens : List Value → List (List Token)
  | [] =>
      []
  | item :: rest =>
      item.tokens :: itemTokens rest

/-- The tokens of each member. -/
def memberTokens : List (String × Value) → List (List Token)
  | [] =>
      []
  | (name, value) :: rest =>
      (.string (some name) :: .colon :: value.tokens) :: memberTokens rest

end

mutual

/-- The numbers in a value. -/
def numbers : Value → List Number
  | .number value => [value]
  | .array items => itemNumbers items
  | .object members => memberNumbers members
  | .null | .bool _ | .string _ => []

/-- The numbers in a list of values. -/
def itemNumbers : List Value → List Number
  | [] =>
      []
  | item :: rest =>
      item.numbers ++ itemNumbers rest

/-- The numbers in a list of members. -/
def memberNumbers : List (String × Value) → List Number
  | [] =>
      []
  | (_, value) :: rest =>
      value.numbers ++ memberNumbers rest

end

/-- Every number in a value is kept by its text. -/
def Kept (value : Value) : Prop :=
  ∀ number ∈ value.numbers, number.Kept

theorem kept_of_fitsWord
    {value : Value}
    (fit : value.numbers.all Number.fitsWord = true) :
    value.Kept :=
  fun number isNumber => Number.kept_of_fitsWord (List.all_eq_true.mp fit number isNumber)

theorem itemTokens_eq (items : List Value) : itemTokens items = items.map tokens := by
  induction items with
  | nil =>
      rfl
  | cons item rest inductionHypothesis =>
      rw [itemTokens, inductionHypothesis, List.map_cons]

theorem memberTokens_eq (members : List (String × Value)) :
    memberTokens members =
      members.map fun member => .string (some member.1) :: .colon :: member.2.tokens := by
  induction members with
  | nil =>
      rfl
  | cons member rest inductionHypothesis =>
      rw [memberTokens, inductionHypothesis, List.map_cons]

theorem itemTexts_eq (items : List Value) : itemTexts items = items.map text := by
  induction items with
  | nil =>
      rfl
  | cons item rest inductionHypothesis =>
      rw [itemTexts, inductionHypothesis, List.map_cons]

theorem memberTexts_eq (members : List (String × Value)) :
    memberTexts members =
      members.map fun member => quotedText member.1 ++ ":" ++ member.2.text := by
  induction members with
  | nil =>
      rfl
  | cons member rest inductionHypothesis =>
      rw [memberTexts, inductionHypothesis, List.map_cons]

theorem kept_array
    {items : List Value} :
    (array items).Kept ↔ ∀ item ∈ items, item.Kept := by
  have numbersEq : (array items).numbers = items.flatMap numbers := by
    rw [numbers]
    induction items with
    | nil =>
        rfl
    | cons item rest inductionHypothesis =>
        rw [itemNumbers, inductionHypothesis, List.flatMap_cons]
  simp only [Kept, numbersEq, List.forall_mem_flatMap]

theorem kept_object
    {members : List (String × Value)} :
    (object members).Kept ↔ ∀ member ∈ members, member.2.Kept := by
  have numbersEq : (object members).numbers = members.flatMap fun member => member.2.numbers := by
    rw [numbers]
    induction members with
    | nil =>
        rfl
    | cons member rest inductionHypothesis =>
        rw [memberNumbers, inductionHypothesis, List.flatMap_cons]
  simp only [Kept, numbersEq, List.forall_mem_flatMap]

end Value

namespace Scanner

/-- Pieces between commas and a closing mark are scanned one after another. -/
theorem ends_intercalate
    {Item : Type}
    {items : List Item}
    {chars : Item → List Char}
    {tokens : Item → List Token}
    {mark : Char}
    {closing : Token}
    (scans : ∀ item ∈ items, Scans (chars item) (tokens item))
    (ends : isNumberChar mark = false)
    (isToken : ∀ before, (⟨.between, before⟩ : Scanner).stepBetween? mark =
      some ⟨.between, closing :: before⟩) :
    Ends ([','].intercalate (items.map chars) ++ [mark])
      ([.comma].intercalate (items.map tokens) ++ [closing]) := by
  induction items with
  | nil =>
      intro before
      exact (bind_pure _).trans (isToken before)
  | cons item rest inductionHypothesis =>
      obtain ⟨scansFirst, scansRest⟩ := List.forall_mem_cons.mp scans
      have endsRest := inductionHypothesis scansRest
      cases rest with
      | nil =>
          rw [List.map_singleton, List.map_singleton, List.intercalate_singleton,
            List.intercalate_singleton]
          exact scansFirst.append_char ends isToken
      | cons next rest =>
          have endsFirst : Ends (chars item ++ [',']) (tokens item ++ [.comma]) :=
            scansFirst.append_char rfl fun _ => rfl
          have endsAll := endsFirst.append endsRest
          simpa only [List.map_cons, List.intercalate_cons_cons, List.append_assoc] using endsAll

theorem scans_word
    {value : Value}
    (isWord : value = .null ∨ value = .bool true ∨ value = .bool false) :
    Scans value.text.toList value.tokens := by
  have ends : Ends value.text.toList value.tokens := by
    intro before
    rcases isWord with rfl | rfl | rfl <;> rfl
  exact ends.scans

theorem scans_array
    {items : List Value}
    (scans : ∀ item ∈ items, Scans item.text.toList item.tokens) :
    Scans (Value.array items).text.toList (Value.array items).tokens := by
  have written : (Value.array items).text.toList =
      ['['] ++ ([','].intercalate (items.map fun item => item.text.toList) ++ [']']) := by
    rw [Value.text, Value.itemTexts_eq]
    simp [String.toList_intercalate, Function.comp_def]
  have opened : Ends ['['] [.openBracket] :=
    fun _ => rfl
  rw [written, Value.tokens, Value.itemTokens_eq]
  exact (opened.append (ends_intercalate scans rfl fun _ => rfl)).scans

theorem scans_object
    {members : List (String × Value)}
    (scans : ∀ member ∈ members, Scans member.2.text.toList member.2.tokens) :
    Scans (Value.object members).text.toList (Value.object members).tokens := by
  have membersScan : ∀ member ∈ members,
      Scans ((quotedText member.1).toList ++ ([':'] ++ member.2.text.toList))
        ([.string (some member.1)] ++ ([.colon] ++ member.2.tokens)) := by
    intro member isMember
    have colon : Ends [':'] [.colon] :=
      fun _ => rfl
    exact (ends_quotedText member.1).append_scans (colon.append_scans (scans member isMember))
  have written : (Value.object members).text.toList =
      ['\x7b'] ++ ([','].intercalate (members.map fun member =>
        (quotedText member.1).toList ++ ([':'] ++ member.2.text.toList)) ++
          ['\x7d']) := by
    rw [Value.text, Value.memberTexts_eq]
    simp [String.toList_intercalate, Function.comp_def]
  have opened : Ends ['\x7b'] [.openBrace] :=
    fun _ => rfl
  rw [written, Value.tokens, Value.memberTokens_eq]
  exact (opened.append (ends_intercalate membersScan rfl fun _ => rfl)).scans

/-- The text of a value is scanned as the tokens of the value. -/
theorem scans_text
    {value : Value}
    {room : Nat}
    (kept : value.Kept)
    (fits : value.depth ≤ room) :
    Scans value.text.toList value.tokens := by
  induction room using Nat.strong_induction_on generalizing value with
  | _ room inductionHypothesis =>
      cases value with
      | array items =>
          have itemsKept := Value.kept_array.mp kept
          obtain ⟨inner, rfl, itemsFit⟩ := Value.depth_array_le.mp fits
          exact scans_array fun item isItem => inductionHypothesis inner (Nat.lt_succ_self inner)
            (itemsKept item isItem) (itemsFit item isItem)
      | object members =>
          have membersKept := Value.kept_object.mp kept
          obtain ⟨inner, rfl, membersFit⟩ := Value.depth_object_le.mp fits
          exact scans_object fun member isMember => inductionHypothesis inner
            (Nat.lt_succ_self inner) (membersKept member isMember) (membersFit member isMember)
      | null =>
          exact scans_word (Or.inl rfl)
      | bool truth =>
          cases truth
          · exact scans_word (Or.inr (Or.inr rfl))
          · exact scans_word (Or.inr (Or.inl rfl))
      | number held =>
          exact scans_number (kept held List.mem_cons_self)
      | string content =>
          exact (ends_quotedText content).scans

end Scanner

theorem Token.scan?_text
    {value : Value}
    (kept : value.Kept) :
    Token.scan? value.text = some value.tokens := by
  obtain ⟨after, ran, stands⟩ := Scanner.scans_text kept (Nat.le_refl _) []
  rw [Token.scan?, Scanner.start, ran]
  refine stands.finish?_eq.trans ?_
  rw [List.append_nil, List.reverse_reverse]

namespace Builder

/-- A builder that takes a value into the given open containers. -/
def Expects (builder : Builder) (frames : List Frame) : Prop :=
  builder = ⟨.value, frames⟩ ∨
    ∃ outer, builder = ⟨.firstItem, outer⟩ ∧ frames = .array [] :: outer

/-- Tokens build a document wherever one is expected. -/
def Builds (tokens : List Token) (document : Document) : Prop :=
  ∀ builder frames, Expects builder frames →
    tokens.foldlM step? builder = some (place document frames)

/-- Items between commas are put into an array that is open. -/
theorem foldlM_items
    {Item : Type}
    {items : List Item}
    {tokens : Item → List Token}
    {document : Item → Document}
    {builder : Builder}
    {done : List Document}
    {frames : List Frame}
    (builds : ∀ item ∈ items, Builds (tokens item) (document item))
    (someItems : items ≠ [])
    (expects : Expects builder (.array done :: frames)) :
    ([.comma].intercalate (items.map tokens)).foldlM step? builder =
      some ⟨.afterItem ((items.map document).reverse ++ done), frames⟩ := by
  induction items generalizing builder done with
  | nil =>
      exact absurd rfl someItems
  | cons item rest inductionHypothesis =>
      obtain ⟨buildsFirst, buildsRest⟩ := List.forall_mem_cons.mp builds
      have placed := buildsFirst builder _ expects
      cases rest with
      | nil =>
          rw [List.map_singleton, List.intercalate_singleton, placed]
          rfl
      | cons next rest =>
          have expectsNext : Expects ⟨.value, .array (document item :: done) :: frames⟩
              (.array (document item :: done) :: frames) :=
            Or.inl rfl
          have others := inductionHypothesis buildsRest (List.cons_ne_nil next rest) expectsNext
          have split : [Token.comma].intercalate ((item :: next :: rest).map tokens) =
              tokens item ++
                ([.comma] ++ [Token.comma].intercalate ((next :: rest).map tokens)) := by
            simp only [List.map_cons, List.intercalate_cons_cons, List.append_assoc]
          have reversed : ((item :: next :: rest).map document).reverse ++ done =
              ((next :: rest).map document).reverse ++ document item :: done := by
            simp
          rw [split, List.foldlM_append, placed, reversed]
          exact others

/-- Members between commas are put into an object that is open. -/
theorem foldlM_members
    {Item : Type}
    {items : List Item}
    (name : Item → Option String)
    {tokens : Item → List Token}
    {document : Item → Document}
    {builder : Builder}
    {done : List (Option String × Document)}
    {frames : List Frame}
    (builds : ∀ item ∈ items, Builds (tokens item) (document item))
    (someItems : items ≠ [])
    (expects : builder = ⟨.firstName done, frames⟩ ∨ builder = ⟨.name done, frames⟩) :
    ([.comma].intercalate (items.map fun item =>
        .string (name item) :: .colon :: tokens item)).foldlM step? builder =
      some ⟨.afterMember ((items.map fun item => (name item, document item)).reverse ++ done),
        frames⟩ := by
  induction items generalizing builder done with
  | nil =>
      exact absurd rfl someItems
  | cons item rest inductionHypothesis =>
      obtain ⟨buildsFirst, buildsRest⟩ := List.forall_mem_cons.mp builds
      have placed :
          (.string (name item) :: .colon :: tokens item).foldlM step? builder =
            some ⟨.afterMember ((name item, document item) :: done), frames⟩ := by
        have valueNext := buildsFirst ⟨.value, .object done (name item) :: frames⟩ _ (Or.inl rfl)
        rcases expects with rfl | rfl <;> exact valueNext
      cases rest with
      | nil =>
          rw [List.map_singleton, List.intercalate_singleton, placed]
          rfl
      | cons next rest =>
          have others := inductionHypothesis buildsRest (List.cons_ne_nil next rest)
            (Or.inr (Eq.refl (⟨.name ((name item, document item) :: done), frames⟩ : Builder)))
          have split :
              [Token.comma].intercalate ((item :: next :: rest).map fun item =>
                  .string (name item) :: .colon :: tokens item) =
                (.string (name item) :: .colon :: tokens item) ++
                  ([.comma] ++ [Token.comma].intercalate ((next :: rest).map fun item =>
                    .string (name item) :: .colon :: tokens item)) := by
            simp only [List.map_cons, List.intercalate_cons_cons, List.append_assoc]
          have reversed :
              ((item :: next :: rest).map fun item => (name item, document item)).reverse ++ done =
                ((next :: rest).map fun item => (name item, document item)).reverse ++
                  (name item, document item) :: done := by
            simp
          rw [split, List.foldlM_append, placed, reversed]
          exact others

theorem builds_array
    {items : List Value}
    (builds : ∀ item ∈ items, Builds item.tokens (Document.ofValue item)) :
    Builds (Value.array items).tokens (Document.ofValue (.array items)) := by
  intro builder frames expects
  have opened : step? builder .openBracket = some ⟨.firstItem, frames⟩ := by
    rcases expects with rfl | ⟨outer, rfl, rfl⟩ <;> rfl
  rw [Value.tokens, Value.itemTokens_eq, List.foldlM_cons, opened, Document.ofValue_array]
  cases items with
  | nil =>
      rfl
  | cons item rest =>
      have expectsFirst : Expects ⟨.firstItem, frames⟩ (.array [] :: frames) :=
        Or.inr ⟨frames, rfl, rfl⟩
      have filled := foldlM_items builds (List.cons_ne_nil item rest) expectsFirst
      have closed : ∀ documents, [Token.closeBracket].foldlM step? ⟨.afterItem documents, frames⟩ =
          some (place (.array documents.reverse) frames) :=
        fun _ => rfl
      refine (List.foldlM_append ..).trans ?_
      rw [filled]
      refine (closed _).trans ?_
      rw [List.append_nil, List.reverse_reverse]

theorem builds_object
    {members : List (String × Value)}
    (builds : ∀ member ∈ members, Builds member.2.tokens (Document.ofValue member.2)) :
    Builds (Value.object members).tokens (Document.ofValue (.object members)) := by
  intro builder frames expects
  have opened : step? builder .openBrace = some ⟨.firstName [], frames⟩ := by
    rcases expects with rfl | ⟨outer, rfl, rfl⟩ <;> rfl
  rw [Value.tokens, Value.memberTokens_eq, List.foldlM_cons, opened, Document.ofValue_object]
  cases members with
  | nil =>
      rfl
  | cons member rest =>
      have filled := foldlM_members (fun member => some member.1) builds
        (List.cons_ne_nil member rest) (Or.inl (Eq.refl (⟨.firstName [], frames⟩ : Builder)))
      have closed : ∀ named, [Token.closeBrace].foldlM step? ⟨.afterMember named, frames⟩ =
          some (place (.object named.reverse) frames) :=
        fun _ => rfl
      refine (List.foldlM_append ..).trans ?_
      rw [filled]
      refine (closed _).trans ?_
      rw [List.append_nil, List.reverse_reverse]

/-- The tokens of a value build its document. -/
theorem builds_tokens
    {value : Value}
    {room : Nat}
    (fits : value.depth ≤ room) :
    Builds value.tokens (Document.ofValue value) := by
  induction room using Nat.strong_induction_on generalizing value with
  | _ room inductionHypothesis =>
      cases value with
      | array items =>
          obtain ⟨inner, rfl, itemsFit⟩ := Value.depth_array_le.mp fits
          exact builds_array fun item isItem =>
            inductionHypothesis inner (Nat.lt_succ_self inner) (itemsFit item isItem)
      | object members =>
          obtain ⟨inner, rfl, membersFit⟩ := Value.depth_object_le.mp fits
          exact builds_object fun member isMember =>
            inductionHypothesis inner (Nat.lt_succ_self inner) (membersFit member isMember)
      | null | bool | number | string =>
          intro builder frames expects
          rcases expects with rfl | ⟨outer, rfl, rfl⟩ <;> rfl

end Builder

/-- The text of a value whose numbers are kept is read as the document of the value. -/
theorem Document.ofText?_text
    {value : Value}
    (kept : value.Kept) :
    Document.ofText? value.text = some (Document.ofValue value) := by
  rw [Document.ofText?, Token.scan?_text kept]
  refine (congrArg (Option.bind · Builder.finish?)
    (Builder.builds_tokens (Nat.le_refl _) Builder.start [] (Or.inl rfl))).trans ?_
  rfl

/-- A value whose numbers are kept is read from its text in its canonical form. -/
theorem Value.ofText_text
    {value : Value}
    (kept : value.Kept)
    (fits : value.depth ≤ Reader.textRoom) :
    Value.ofText value.text = .ok value.canonical := by
  rw [Value.ofText, Reader.ofText, Document.ofText?_text kept]
  exact mapError_eq_ok.mpr (Reader.value_ofValue fits)

end ActivityCatalog.Json
