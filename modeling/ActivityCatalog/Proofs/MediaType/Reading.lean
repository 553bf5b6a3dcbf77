import ActivityCatalog.MediaType
import ActivityCatalog.Proofs.Dictionary
import ActivityCatalog.Proofs.Stepwise
import ActivityCatalog.Proofs.Text.Trimming

namespace ActivityCatalog

/-!
# What is read as a media type

A text is a media type if what stands before its first semicolon has a slash between a type and
a subtype, and every other piece that is not blank has a key before its first equals sign.
Blanks around the text and around its pieces are of no account.

What was read is `Clean`: its type, its subtype and its keys are names in lower case without
blanks around them and without the separators that end them, and its values have no semicolon
and no quote at their ends.
-/

namespace Text

variable {char : Char} {chars : List Char}

theorem trim_trim (chars : List Char) : trim (trim chars) = trim chars :=
  trimWhile_trimWhile

/-- A capital is made a small letter, and every other character stays as it is. -/
theorem toLower_cases (char : Char) :
    ¬(65 ≤ char.toNat ∧ char.toNat ≤ 90) ∧ char.toLower = char ∨
      (65 ≤ char.toNat ∧ char.toNat ≤ 90) ∧ char.toLower.toNat = char.toNat + 32 := by
  by_cases capital : 65 ≤ char.toNat ∧ char.toNat ≤ 90
  · have small : char.val.toNat + 32 < UInt32.size :=
      Nat.lt_of_le_of_lt (Nat.add_le_add_right capital.2 32) (by decide)
    have lowered : char.toLower.val = char.val + 32 := congrArg Char.val (dif_pos capital)
    refine .inr ⟨capital, (congrArg UInt32.toNat lowered).trans ?_⟩
    exact (UInt32.toNat_add _ _).trans (Nat.mod_eq_of_lt small)
  · exact .inl ⟨capital, dif_neg capital⟩

theorem toLower_toLower (char : Char) : char.toLower.toLower = char.toLower := by
  obtain ⟨-, same⟩ | ⟨capital, small⟩ := toLower_cases char
  · rw [same, same]
  · obtain ⟨-, same⟩ | ⟨again, -⟩ := toLower_cases char.toLower
    · exact same
    · omega

theorem isBlank_toLower (char : Char) : isBlank char.toLower = isBlank char := by
  obtain ⟨-, same⟩ | ⟨capital, small⟩ := toLower_cases char
  · rw [same]
  · rw [isBlank_of_printed (by omega) (by omega), isBlank_of_printed (by omega) (by omega)]

theorem trim_lowered (chars : List Char) : trim (lowered chars) = lowered (trim chars) := by
  have sameBlanks : isBlank ∘ Char.toLower = isBlank := funext isBlank_toLower
  simp only [trim, trimWhile, dropEndWhile, lowered, List.dropWhile_map, ← List.map_reverse,
    sameBlanks]

theorem lowered_lowered (chars : List Char) : lowered (lowered chars) = lowered chars := by
  simp only [lowered, List.map_map, Function.comp_def, toLower_toLower]

/-- A character that is no letter is not made by taking letters in lower case. -/
theorem mem_of_mem_lowered
    (noLetter : char.isAlpha = false)
    (member : char ∈ lowered chars) :
    char ∈ chars := by
  obtain ⟨source, isSource, rfl⟩ := List.mem_map.mp member
  obtain ⟨-, same⟩ | ⟨capital, small⟩ := toLower_cases source
  · rwa [same]
  · have isSmall : 97 ≤ source.toLower.toNat ∧ source.toLower.toNat ≤ 122 := by omega
    have isLower : source.toLower.isLower = true :=
      Bool.and_eq_true_iff.mpr ⟨decide_eq_true isSmall.1, decide_eq_true isSmall.2⟩
    exact absurd isLower (Bool.eq_false_iff.mp (Bool.or_eq_false_iff.mp noLetter).2)

end Text

namespace MediaType

open Text

section Parameters

variable
  {chars : List Char}
  {pieces : List (List Char)}
  {held params : Dictionary String}

/-- What is left of a value when blanks and then quotes around it are taken away. -/
def unquoted (chars : List Char) : List Char :=
  trimWhile (· == '"') (trim chars)

/-- Whether a piece between semicolons is more than blanks. -/
def isGiven (piece : List Char) : Bool :=
  !(trim piece).isEmpty

theorem parameter?_eq (chars : List Char) :
    parameter? chars =
      (cut? '=' chars).bind fun (before, after) =>
        if trim before = [] then none
        else some (String.ofList (lowered (trim before)), String.ofList (unquoted after)) := by
  unfold parameter?
  cases cut? '=' chars <;> rfl

/-- Blanks around a parameter are of no account. -/
theorem parameter?_trim (chars : List Char) : parameter? (trim chars) = parameter? chars := by
  have keyTrimmed : ∀ before : List Char, trim (before.dropWhile isBlank) = trim before :=
    fun _ => trimWhile_dropWhile
  have valueTrimmed : ∀ after : List Char, unquoted (dropEndWhile isBlank after) = unquoted after :=
    fun _ => congrArg (trimWhile (· == '"')) trimWhile_dropEndWhile
  rw [parameter?_eq, parameter?_eq, cut?_trim (by decide), Option.bind_map]
  simp only [Function.comp_def, keyTrimmed, valueTrimmed]

/-- A parameter is what stands before and behind the first equals sign. -/
theorem parameter?_eq_some
    {param : String × String} :
    parameter? chars = some param ↔
      ∃ before after,
        cut? '=' chars = some (before, after) ∧ trim before ≠ [] ∧
          param =
            (String.ofList (lowered (trim before)), String.ofList (unquoted after)) := by
  rw [parameter?_eq, Option.bind_eq_some_iff, Prod.exists]
  apply exists_congr
  intro before
  apply exists_congr
  intro after
  apply and_congr_right
  intro _
  by_cases noKey : trim before = []
  · simp [noKey]
  · simp [noKey, eq_comm]

/-- The piece is a parameter, apart from blanks around it. -/
def IsParameter (piece : List Char) (param : String × String) : Prop :=
  parameter? piece = some param

/-- The parameters of the pieces that are not blank are stored one after another. -/
theorem readParameters_eq_ok :
    readParameters pieces held = .ok params ↔
      ∃ entries,
        List.Forall₂ IsParameter (pieces.filter isGiven) entries ∧
          params = Dictionary.insertAll entries held := by
  induction pieces generalizing held with
  | nil =>
      simp only [readParameters, List.filter_nil, List.forall₂_nil_left_iff, exists_eq_left,
        Dictionary.insertAll, List.foldl_nil, Except.ok.injEq]
      exact eq_comm
  | cons piece rest inductionHypothesis =>
      by_cases blank : trim piece = []
      · have notGiven : isGiven piece = false := by
          simp [isGiven, blank]
        simp only [readParameters, blank, ↓reduceIte, inductionHypothesis, notGiven,
          Bool.false_eq_true, not_false_eq_true, List.filter_cons_of_neg]
      · have given : isGiven piece = true := by
          simp [isGiven, blank]
        simp only [readParameters, blank, ↓reduceIte, given, List.filter_cons_of_pos,
          parameter?_trim, List.forall₂_cons_left_iff, IsParameter]
        cases read : parameter? piece with
        | none =>
            simp
        | some param =>
            simp only [inductionHypothesis]
            constructor
            · rintro ⟨entries, areRead, rfl⟩
              exact ⟨param :: entries, ⟨param, entries, rfl, areRead, rfl⟩, rfl⟩
            · rintro ⟨_, ⟨first, entries, isFirst, areRead, rfl⟩, rfl⟩
              cases isFirst
              exact ⟨entries, areRead, rfl⟩

end Parameters

section Texts

variable
  {piece : List Char}
  {pieces : List (List Char)}
  {names : String × String}
  {mediaType : MediaType}

/-- The type and the subtype that a piece gives. -/
def names? (piece : List Char) : Option (String × String) :=
  (cut? '/' piece).bind fun (before, after) =>
    if trim before = [] ∨ trim after = [] then none
    else some (String.ofList (lowered (trim before)), String.ofList (lowered (trim after)))

/-- Blanks around type and subtype are of no account. -/
theorem names?_trim (piece : List Char) : names? (trim piece) = names? piece := by
  have typeTrimmed : ∀ before : List Char, trim (before.dropWhile isBlank) = trim before :=
    fun _ => trimWhile_dropWhile
  have subtypeTrimmed : ∀ after : List Char, trim (dropEndWhile isBlank after) = trim after :=
    fun _ => trimWhile_dropEndWhile
  rw [names?, names?, cut?_trim (by decide), Option.bind_map]
  simp only [Function.comp_def, typeTrimmed, subtypeTrimmed]

/-- Type and subtype are what stands before and behind the first slash. -/
theorem names?_eq_some :
    names? piece = some names ↔
      ∃ before after,
        cut? '/' piece = some (before, after) ∧ trim before ≠ [] ∧ trim after ≠ [] ∧
          names =
            (String.ofList (lowered (trim before)), String.ofList (lowered (trim after))) := by
  rw [names?, Option.bind_eq_some_iff, Prod.exists]
  apply exists_congr
  intro before
  apply exists_congr
  intro after
  apply and_congr_right
  intro _
  by_cases noName : trim before = [] ∨ trim after = []
  · rcases noName with noType | noSubtype
    · simp [noType]
    · simp [noSubtype]
  · obtain ⟨hasType, hasSubtype⟩ := not_or.mp noName
    simp [hasType, hasSubtype, eq_comm]

/-- The pieces between the semicolons of a text are those of a media type. -/
inductive IsMadeOf : MediaType → List (List Char) → Prop where
  | parts {kind subtype : String} {essence : List Char} {rest : List (List Char)}
      {params : List (String × String)}
      (named : names? essence = some (kind, subtype))
      (areParameters : List.Forall₂ IsParameter (rest.filter isGiven) params) :
      IsMadeOf ⟨kind, subtype, Dictionary.ofList params⟩ (essence :: rest)

/-- Blanks around pieces are of no account. -/
theorem isMadeOf_map_trim : mediaType.IsMadeOf (pieces.map trim) ↔ mediaType.IsMadeOf pieces := by
  have sameGiven : isGiven ∘ trim = isGiven := by
    funext piece
    simp only [Function.comp_def, isGiven, trim_trim]
  have sameParameter : ∀ piece param, IsParameter (trim piece) param ↔ IsParameter piece param :=
    fun piece param => by rw [IsParameter, IsParameter, parameter?_trim]
  have sameParameters :
      ∀ (rest : List (List Char)) (params : List (String × String)),
        List.Forall₂ IsParameter ((rest.map trim).filter isGiven) params ↔
          List.Forall₂ IsParameter (rest.filter isGiven) params := by
    intro rest params
    simp only [List.filter_map, sameGiven, List.forall₂_map_left_iff, sameParameter]
  cases pieces with
  | nil =>
      exact Iff.rfl
  | cons essence rest =>
      constructor
      · rintro ⟨named, areParameters⟩
        exact .parts ((names?_trim essence).symm.trans named)
          ((sameParameters _ _).mp areParameters)
      · rintro ⟨named, areParameters⟩
        exact .parts ((names?_trim essence).trans named) ((sameParameters _ _).mpr areParameters)

theorem isMadeOf_cons
    {essence : List Char}
    {rest : List (List Char)} :
    mediaType.IsMadeOf (essence :: rest) ↔
      names? essence = some (mediaType.kind, mediaType.subtype) ∧
        readParameters rest [] = .ok mediaType.params := by
  rw [readParameters_eq_ok]
  constructor
  · rintro ⟨named, areParameters⟩
    exact ⟨named, _, areParameters, rfl⟩
  · obtain ⟨kind, subtype, params⟩ := mediaType
    rintro ⟨named, entries, areParameters, rfl⟩
    exact .parts named areParameters

theorem ofTrimmed_eq_ok
    {chars : List Char} :
    ofTrimmed chars = .ok mediaType ↔ mediaType.IsMadeOf (Text.pieces ';' chars) := by
  cases split : Text.pieces ';' chars with
  | nil =>
      exact absurd split pieces_ne_nil
  | cons essence rest =>
      rw [isMadeOf_cons, ← names?_trim, names?]
      by_cases isEmpty : chars = []
      · subst isEmpty
        cases split
        simp [ofTrimmed, trim, trimWhile, dropEndWhile, cut?]
      · simp only [ofTrimmed, isEmpty, ↓reduceIte, split, List.headD_cons, List.tail_cons]
        cases cut? '/' (trim essence) with
        | none =>
            simp
        | some sides =>
            by_cases noName : trim sides.1 = [] ∨ trim sides.2 = []
            · simp [noName]
            · obtain ⟨kind, subtype, params⟩ := mediaType
              cases readParameters rest [] with
              | error fault =>
                  simp [noName, Except.map]
              | ok params =>
                  simp [noName, Except.map, and_assoc]

/-- A text is read as the media type that it is made of. -/
theorem parse_eq_ok
    {text : String} :
    parse text = .ok mediaType ↔ mediaType.IsMadeOf (Text.pieces ';' text.toList) := by
  rw [parse, ofTrimmed_eq_ok, ← isMadeOf_map_trim, pieces_trim (by decide), isMadeOf_map_trim]

end Texts

/-- The characters that end a type, a subtype or a key. -/
def separators : List Char :=
  ['/', '=', ';']

theorem isAlphanum_of_mem_separators : ∀ char ∈ separators, char.isAlphanum = false :=
  List.forall_mem_cons.mpr ⟨rfl, List.forall_mem_cons.mpr ⟨rfl, List.forall_mem_singleton.mpr rfl⟩⟩

/-- A name in lower case, without blanks around it and without what could end it. -/
structure IsName (ends : List Char) (name : String) : Prop where
  isGiven : name.toList ≠ []
  trimmed : trim name.toList = name.toList
  lower : lowered name.toList = name.toList
  free : ∀ char ∈ ends, char ∉ name.toList

/-- What is true of a parameter that was read. -/
structure CleanParameter (param : String × String) : Prop where
  key : IsName ['=', ';'] param.1
  free : ';' ∉ param.2.toList
  bare : trimWhile (· == '"') param.2.toList = param.2.toList

/-- What is true of a media type that was read. -/
structure Clean (mediaType : MediaType) : Prop where
  kind : IsName ['/', ';'] mediaType.kind
  subtype : IsName [';'] mediaType.subtype
  sorted : Dictionary.Sorted mediaType.params
  params : ∀ param ∈ mediaType.params, CleanParameter param

section Cleanness

variable
  {chars : List Char}
  {mediaType : MediaType}

/-- Trimmed and taken in lower case, what stands before a separator is a name. -/
theorem isName_of_part
    {ends : List Char}
    (isGiven : trim chars ≠ [])
    (areSeparators : ends ⊆ separators)
    (free : ∀ char ∈ ends, char ∉ chars) :
    IsName ends (String.ofList (lowered (trim chars))) where
  isGiven := by
    rw [String.toList_ofList, lowered]
    exact List.map_eq_nil_iff.not.mpr isGiven
  trimmed := by
    rw [String.toList_ofList, trim_lowered, trim_trim]
  lower := by
    rw [String.toList_ofList, lowered_lowered]
  free := by
    intro char isEnd inName
    rw [String.toList_ofList] at inName
    have notAlphanumeric := isAlphanum_of_mem_separators char (areSeparators isEnd)
    have noLetter := (Bool.or_eq_false_iff.mp notAlphanumeric).1
    exact free char isEnd (mem_of_mem_trimWhile (mem_of_mem_lowered noLetter inName))

/-- A parameter of a piece without semicolons is clean. -/
theorem IsParameter.clean
    {param : String × String}
    (isParameter : IsParameter chars param)
    (noSemicolon : ';' ∉ chars) :
    CleanParameter param := by
  obtain ⟨before, after, isCut, hasKey, rfl⟩ := parameter?_eq_some.mp isParameter
  have notInSides : ';' ∉ before ∧ ';' ∉ after := by
    simpa [cut?_eq_some isCut] using noSemicolon
  have keyFree : ∀ char ∈ ['=', ';'], char ∉ before := by
    simpa using ⟨not_mem_of_cut? isCut, notInSides.1⟩
  refine ⟨isName_of_part hasKey (by simp [separators]) keyFree, ?_, ?_⟩
  · rw [String.toList_ofList]
    intro inValue
    exact notInSides.2 (mem_of_mem_trimWhile (mem_of_mem_trimWhile inValue))
  · rw [String.toList_ofList, unquoted, trimWhile_trimWhile]

/-- Whatever is read as a media type is clean. -/
theorem clean_of_parse
    {text : String}
    (read : parse text = .ok mediaType) :
    mediaType.Clean := by
  have isMadeOf := parse_eq_ok.mp read
  have noSemicolon : ∀ piece ∈ Text.pieces ';' text.toList, ';' ∉ piece :=
    fun _ => not_mem_of_mem_pieces
  generalize Text.pieces ';' text.toList = pieces at isMadeOf noSemicolon
  cases isMadeOf with
  | @parts kind subtype essence rest params named areParameters =>
      obtain ⟨notInEssence, notInRest⟩ := List.forall_mem_cons.mp noSemicolon
      obtain ⟨before, after, isCut, hasType, hasSubtype, areNames⟩ := names?_eq_some.mp named
      cases areNames
      have notInSides : ';' ∉ before ∧ ';' ∉ after := by
        simpa [cut?_eq_some isCut] using notInEssence
      have typeFree : ∀ char ∈ ['/', ';'], char ∉ before := by
        simpa using ⟨not_mem_of_cut? isCut, notInSides.1⟩
      have subtypeFree : ∀ char ∈ [';'], char ∉ after := by
        simpa using notInSides.2
      refine
        { kind := isName_of_part hasType (by simp [separators]) typeFree
          subtype := isName_of_part hasSubtype (by simp [separators]) subtypeFree
          sorted := Dictionary.sorted_ofList params
          params := ?_ }
      intro param member
      rcases Dictionary.mem_of_mem_insertAll member with isParam | isNothing
      · obtain ⟨piece, isPiece, isParameter⟩ := exists_of_mem_right areParameters isParam
        exact isParameter.clean (notInRest piece (List.mem_filter.mp isPiece).1)
      · cases isNothing

end Cleanness

end MediaType

end ActivityCatalog
