import ActivityCatalog.Proofs.MediaType.Reading

namespace ActivityCatalog.MediaType

/-!
# Reading what is displayed of a media type

A media type is displayed with its values as they are, without quotes.  What is displayed of a
media type that was read is a media type again, of the same type and subtype and with the same
keys.  Its values are read once more, and so they lose the blanks around them and the quotes
that then come to their ends.  Only a value between quotes can have such blanks.
-/

open Text

section Displayed

variable {mediaType : MediaType}

/-- What stands behind a semicolon for a parameter that is displayed. -/
def displayedPiece (param : String × String) : List Char :=
  (' ' :: param.1.toList) ++ '=' :: param.2.toList

/-- What stands before the first semicolon of a media type that is displayed. -/
def displayedNames (mediaType : MediaType) : List Char :=
  mediaType.kind.toList ++ '/' :: mediaType.subtype.toList

theorem toList_display (mediaType : MediaType) :
    mediaType.display.toList =
      mediaType.displayedNames ++ (mediaType.params.map displayedPiece).flatMap (';' :: ·) := by
  have written : ∀ (params : Dictionary String) (text : String),
      (params.foldl (fun text param => text ++ "; " ++ param.1 ++ "=" ++ param.2) text).toList =
        text.toList ++ (params.map displayedPiece).flatMap (';' :: ·) := by
    intro params
    induction params with
    | nil =>
        simp
    | cons param rest inductionHypothesis =>
        intro text
        simp [inductionHypothesis, displayedPiece]
  rw [display, written, essence, displayedNames]
  simp

/-- What is displayed of a clean media type has its names and its parameters as pieces. -/
theorem Clean.pieces_display
    (clean : mediaType.Clean) :
    pieces ';' mediaType.display.toList =
      mediaType.displayedNames :: mediaType.params.map displayedPiece := by
  rw [toList_display]
  apply pieces_joined
  intro piece isPiece
  rcases List.mem_cons.mp isPiece with rfl | isParameter
  · have notInKind := clean.kind.free ';' (by simp)
    have notInSubtype := clean.subtype.free ';' (by simp)
    simp [displayedNames, notInKind, notInSubtype]
  · obtain ⟨param, member, rfl⟩ := List.mem_map.mp isParameter
    have cleanParam := clean.params param member
    have notInKey := cleanParam.key.free ';' (by simp)
    simp [displayedPiece, notInKey, cleanParam.free]

/-- The names of a clean media type are read as they are displayed. -/
theorem Clean.names?_displayedNames
    (clean : mediaType.Clean) :
    names? mediaType.displayedNames = some (mediaType.kind, mediaType.subtype) := by
  apply names?_eq_some.mpr
  have isCut :
      cut? '/' mediaType.displayedNames =
        some (mediaType.kind.toList, mediaType.subtype.toList) :=
    cut?_append (clean.kind.free '/' (by simp)) mediaType.subtype.toList
  refine ⟨_, _, isCut, ?_, ?_, ?_⟩
  · rw [clean.kind.trimmed]
    exact clean.kind.isGiven
  · rw [clean.subtype.trimmed]
    exact clean.subtype.isGiven
  · simp [clean.kind.trimmed, clean.kind.lower, clean.subtype.trimmed, clean.subtype.lower]

/-- A parameter with its value as it is read once more. -/
def reread (param : String × String) : String × String :=
  (param.1, String.ofList (unquoted param.2.toList))

/-- A clean parameter is read with the same key as it is displayed. -/
theorem CleanParameter.isParameter_displayedPiece
    {param : String × String}
    (clean : CleanParameter param) :
    IsParameter (displayedPiece param) (reread param) := by
  apply parameter?_eq_some.mpr
  have notInKey : '=' ∉ ' ' :: param.1.toList := by
    simpa using clean.key.free '=' (by simp)
  have keyTrimmed : trim (' ' :: param.1.toList) = param.1.toList :=
    clean.key.trimmed
  have isCut : cut? '=' (displayedPiece param) = some (' ' :: param.1.toList, param.2.toList) :=
    cut?_append notInKey param.2.toList
  refine ⟨_, _, isCut, ?_, ?_⟩
  · rw [keyTrimmed]
    exact clean.key.isGiven
  · rw [keyTrimmed, clean.key.lower, String.ofList_toList, reread]

theorem isGiven_displayedPiece (param : String × String) : isGiven (displayedPiece param) := by
  have kept : trim (displayedPiece param) =
      (' ' :: param.1.toList).dropWhile isBlank ++ '=' :: dropEndWhile isBlank param.2.toList :=
    trimWhile_append_cons (by decide) _ _
  rw [isGiven, kept]
  simp

/-- What has no quotes at its ends is left alone exactly if it has no blanks there either. -/
theorem unquoted_eq_self_iff
    {chars : List Char}
    (bare : trimWhile (· == '"') chars = chars) :
    unquoted chars = chars ↔ trim chars = chars := by
  constructor
  · intro same
    have unquotedPart : (unquoted chars).Sublist (trim chars) :=
      trimWhile_sublist
    have trimmedPart : (trim chars).Sublist chars :=
      trimWhile_sublist
    rw [same] at unquotedPart
    exact trimmedPart.antisymm unquotedPart
  · intro trimmed
    rw [unquoted, trimmed, bare]

theorem reread_eq_self_iff
    {param : String × String}
    (clean : CleanParameter param) :
    reread param = param ↔ trim param.2.toList = param.2.toList := by
  rw [← unquoted_eq_self_iff clean.bare, reread, Prod.ext_iff]
  simp [String.ofList_eq]

/-- A clean media type is displayed as a media type with the values as they are read once more. -/
theorem Clean.parse_display_eq
    (clean : mediaType.Clean) :
    parse mediaType.display = .ok { mediaType with params := mediaType.params.map reread } := by
  have areParameters :
      List.Forall₂ IsParameter ((mediaType.params.map displayedPiece).filter isGiven)
        (mediaType.params.map reread) := by
    have allGiven : (mediaType.params.map displayedPiece).filter isGiven =
        mediaType.params.map displayedPiece := by
      apply List.filter_eq_self.mpr
      intro piece isPiece
      obtain ⟨param, -, rfl⟩ := List.mem_map.mp isPiece
      exact isGiven_displayedPiece param
    rw [allGiven, List.forall₂_map_left_iff, List.forall₂_map_right_iff, List.forall₂_same]
    exact fun param member => (clean.params param member).isParameter_displayedPiece
  have sorted : Dictionary.Sorted (mediaType.params.map reread) := by
    simp only [Dictionary.Sorted, List.pairwise_map, reread]
    exact clean.sorted
  apply parse_eq_ok.mpr
  rw [clean.pieces_display, ← sorted.ofList_eq]
  exact .parts clean.names?_displayedNames areParameters

end Displayed

/--
What is displayed of a media type that was read is read as a media type, with every value
unquoted once more.  It is the same media type exactly if no value has a blank at its ends.
-/
theorem parse_display
    {text : String}
    {mediaType : MediaType}
    (read : parse text = .ok mediaType) :
    parse mediaType.display = .ok { mediaType with params := mediaType.params.map reread } ∧
      (parse mediaType.display = .ok mediaType ↔
        ∀ param ∈ mediaType.params, trim param.2.toList = param.2.toList) := by
  have clean := clean_of_parse read
  have displayed := clean.parse_display_eq
  refine ⟨displayed, ?_⟩
  have sameEach :
      mediaType.params.map reread = mediaType.params.map id ↔
        ∀ param ∈ mediaType.params, reread param = param :=
    List.map_inj_left
  rw [List.map_id] at sameEach
  calc
    parse mediaType.display = .ok mediaType ↔
        mediaType.params.map reread = mediaType.params := by
      rw [displayed, Except.ok.injEq]
      constructor
      · intro same
        exact congrArg params same
      · intro same
        rw [same]
    _ ↔ ∀ param ∈ mediaType.params, reread param = param :=
      sameEach
    _ ↔ ∀ param ∈ mediaType.params, trim param.2.toList = param.2.toList := by
      apply forall₂_congr
      intro param member
      exact reread_eq_self_iff (clean.params param member)

/-- The text of the media type of a letter whose parts are kept apart by a boundary. -/
def letter (boundary : String) : String :=
  "multipart/mixed; boundary=\"" ++ boundary ++ "\""

/-- The media type of a letter whose parts are kept apart by a boundary. -/
def letterType (boundary : String) : MediaType :=
  ⟨"multipart", "mixed", [("boundary", boundary)]⟩

theorem parse_letter : parse (letter " part") = .ok (letterType " part") := by
  decide

/-- The blank at the start of the boundary is lost when the letter is displayed and read. -/
theorem parse_display_letter :
    parse (letter " part") = .ok (letterType " part") ∧
      (letterType " part").display = "multipart/mixed; boundary= part" ∧
      parse (letterType " part").display = .ok (letterType "part") ∧
      parse (letterType " part").display ≠ .ok (letterType " part") := by
  obtain ⟨displayed, readBack⟩ := parse_display parse_letter
  have reread : (letterType " part").params.map reread = (letterType "part").params := by
    decide
  rw [reread] at displayed
  refine ⟨parse_letter, by decide, displayed, ?_⟩
  intro same
  exact absurd (readBack.mp same) (by decide)

/-- Not every media type is read back as it was. -/
theorem display_loses_blanks :
    ¬∀ text mediaType, parse text = .ok mediaType → parse mediaType.display = .ok mediaType := by
  intro readsBack
  have same : parse (letterType " part").display = .ok (letterType " part") :=
    readsBack (letter " part") (letterType " part") parse_letter
  exact absurd same (by decide)

end ActivityCatalog.MediaType
