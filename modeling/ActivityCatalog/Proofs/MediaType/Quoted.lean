import ActivityCatalog.Proofs.Activity.Faults
import ActivityCatalog.Proofs.MediaType.Reading

namespace ActivityCatalog

/-!
# Values between quotes

A media type is cut at its semicolons before its values are looked at, and quotes keep none of
them together.  So a value between quotes is taken whole exactly if it has no semicolon; blanks,
equals signs and slashes in it do no harm.  A value with a semicolon is cut: what stands before
its first semicolon is the value that is taken, and what comes behind it has to be made of
parameters, or there is no media type at all.
-/

namespace MediaType

open Text

/-- A text of letters, digits and hyphens. -/
structure IsToken (text : String) : Prop where
  isGiven : text.toList ≠ []
  chars : ∀ char ∈ text.toList, char.isAlphanum ∨ char = '-'

namespace IsToken

variable {text : String}

theorem of_all
    (isGiven : text.toList ≠ [])
    (chars : text.toList.all (fun char => char.isAlphanum || char == '-') = true) :
    IsToken text := by
  refine ⟨isGiven, fun char member => ?_⟩
  simpa only [Bool.or_eq_true, beq_iff_eq] using List.all_eq_true.mp chars char member

/-- A token has neither a blank nor a separator. -/
theorem of_mem
    (isToken : IsToken text)
    {char : Char}
    (member : char ∈ text.toList) :
    isBlank char = false ∧ char ∉ separators := by
  rcases isToken.chars char member with alphanumeric | rfl
  · have range :
        (65 ≤ char.toNat ∧ char.toNat ≤ 90 ∨ 97 ≤ char.toNat ∧ char.toNat ≤ 122) ∨
          48 ≤ char.toNat ∧ char.toNat ≤ 57 := by
      obtain isLetter | isDigit := Bool.or_eq_true_iff.mp alphanumeric
      · obtain isCapital | isSmall := Bool.or_eq_true_iff.mp isLetter
        · exact .inl (.inl (of_decide_eq_true isCapital))
        · exact .inl (.inr ((Bool.and_eq_true_iff.mp isSmall).imp
            of_decide_eq_true of_decide_eq_true))
      · exact .inr ((Bool.and_eq_true_iff.mp isDigit).imp of_decide_eq_true of_decide_eq_true)
    refine ⟨isBlank_of_printed (by omega) (by omega), ?_⟩
    intro isSeparator
    rw [isAlphanum_of_mem_separators char isSeparator] at alphanumeric
    cases alphanumeric
  · exact ⟨by decide, by decide⟩

theorem trimmed
    (isToken : IsToken text) :
    trim text.toList = text.toList :=
  trimWhile_eq_self_of_forall fun _ member => (isToken.of_mem member).1

theorem free
    (isToken : IsToken text)
    (separator : Char)
    (isSeparator : separator ∈ separators) :
    separator ∉ text.toList :=
  fun member => (isToken.of_mem member).2 isSeparator

end IsToken

/-- A name in lower case. -/
def lowerCase (name : String) : String :=
  String.ofList (lowered name.toList)

/-- The text of a media type with one parameter, whose value stands between quotes. -/
def quotedText (kind subtype key value : String) : String :=
  kind ++ "/" ++ subtype ++ "; " ++ key ++ "=\"" ++ value ++ "\""

/-- What stands before the value, behind the semicolon. -/
def opening (key : String) : List Char :=
  (' ' :: key.toList) ++ ['=', '"']

/-- The pieces of the value between the semicolons in it, the last with the closing quote. -/
def valuePieces (value : String) : List (List Char) :=
  pieces ';' (value.toList ++ ['"'])

section Quoted

variable
  {kind subtype key value : String}
  {mediaType : MediaType}

theorem pieces_quotedText
    (isKind : IsToken kind)
    (isSubtype : IsToken subtype)
    (isKey : IsToken key)
    (value : String) :
    pieces ';' (quotedText kind subtype key value).toList =
      (kind.toList ++ '/' :: subtype.toList) ::
        (valuePieces value).modifyHead (opening key ++ ·) := by
  have shape :
      (quotedText kind subtype key value).toList =
        (kind.toList ++ '/' :: subtype.toList) ++
          ';' :: (opening key ++ (value.toList ++ ['"'])) := by
    simp [quotedText, opening]
  have notInNames : ';' ∉ kind.toList ++ '/' :: subtype.toList := by
    have notInKind := isKind.free ';' (by simp [separators])
    have notInSubtype := isSubtype.free ';' (by simp [separators])
    simp [notInKind, notInSubtype]
  have notInOpening : ';' ∉ opening key := by
    have notInKey := isKey.free ';' (by simp [separators])
    simp [opening, notInKey]
  rw [shape, pieces_append_cons notInNames, pieces_append notInOpening, valuePieces]

theorem names?_of_tokens
    (isKind : IsToken kind)
    (isSubtype : IsToken subtype) :
    names? (kind.toList ++ '/' :: subtype.toList) = some (lowerCase kind, lowerCase subtype) := by
  have isCut := cut?_append (isKind.free '/' (by simp [separators])) subtype.toList
  apply names?_eq_some.mpr
  refine ⟨_, _, isCut, ?_, ?_, ?_⟩
  · rw [isKind.trimmed]
    exact isKind.isGiven
  · rw [isSubtype.trimmed]
    exact isSubtype.isGiven
  · rw [isKind.trimmed, isSubtype.trimmed, lowerCase, lowerCase]

/-- Up to its first semicolon the value is read behind its opening quote. -/
theorem isParameter_opening
    (isKey : IsToken key)
    (first : List Char) :
    IsParameter (opening key ++ first)
      (lowerCase key, String.ofList (unquoted ('"' :: first))) := by
  have shape : opening key ++ first = (' ' :: key.toList) ++ '=' :: '"' :: first := by
    simp [opening]
  have notInKey : '=' ∉ ' ' :: key.toList := by
    simpa using isKey.free '=' (by simp [separators])
  have isCut : cut? '=' (opening key ++ first) = some (' ' :: key.toList, '"' :: first) := by
    rw [shape, cut?_append notInKey]
  have keyTrimmed : trim (' ' :: key.toList) = key.toList :=
    isKey.trimmed
  apply parameter?_eq_some.mpr
  refine ⟨_, _, isCut, ?_, ?_⟩
  · rw [keyTrimmed]
    exact isKey.isGiven
  · rw [keyTrimmed, lowerCase]

theorem isGiven_opening
    (key : String)
    (first : List Char) :
    isGiven (opening key ++ first) := by
  have shape : opening key ++ first = (' ' :: key.toList) ++ '=' :: '"' :: first := by
    simp [opening]
  have kept : isBlank '=' = false := by
    decide
  rw [isGiven, trim, shape, trimWhile_append_cons kept]
  simp

/--
The value up to its first semicolon is the first parameter, and the other pieces have to be
parameters too if they are not blank.
-/
theorem parse_quotedText_eq_ok
    (isKind : IsToken kind)
    (isSubtype : IsToken subtype)
    (isKey : IsToken key)
    {first : List Char}
    {rest : List (List Char)}
    (arePieces : valuePieces value = first :: rest) :
    parse (quotedText kind subtype key value) = .ok mediaType ↔
      ∃ params,
        List.Forall₂ IsParameter (rest.filter isGiven) params ∧
          mediaType =
            ⟨lowerCase kind, lowerCase subtype,
              Dictionary.ofList
                ((lowerCase key, String.ofList (unquoted ('"' :: first))) :: params)⟩ := by
  rw [parse_eq_ok, pieces_quotedText isKind isSubtype isKey, arePieces, List.modifyHead_cons,
    isMadeOf_cons, names?_of_tokens isKind isSubtype, readParameters_eq_ok,
    List.filter_cons_of_pos (isGiven_opening key first)]
  obtain ⟨heldKind, heldSubtype, held⟩ := mediaType
  have firstParameter := isParameter_opening isKey first
  constructor
  · rintro ⟨areNames, entries, areParameters, rfl⟩
    cases areNames
    obtain ⟨param, params, isFirst, areRest, rfl⟩ := List.forall₂_cons_left_iff.mp areParameters
    cases firstParameter.symm.trans isFirst
    exact ⟨params, areRest, rfl⟩
  · rintro ⟨params, areRest, same⟩
    cases same
    exact ⟨rfl, _, .cons firstParameter areRest, rfl⟩

/-- A value without quotes is read as it stands between two of them. -/
theorem unquoted_between
    {chars : List Char}
    (noQuote : '"' ∉ chars) :
    unquoted ('"' :: (chars ++ ['"'])) = chars := by
  have trimmed : trim ('"' :: (chars ++ ['"'])) = ['"'] ++ chars ++ ['"'] := by
    apply trimWhile_eq_self
    · intro first isFirst
      cases isFirst
      decide
    · intro last isLast
      have isQuote : last = '"' := by
        simpa [List.getLast?_cons] using isLast.symm
      rw [isQuote]
      decide
  have kept : ∀ char ∈ chars, (char == '"') = false := by
    intro char member
    apply beq_eq_false_iff_ne.mpr
    rintro rfl
    exact noQuote member
  rw [unquoted, trimmed, trimWhile_surrounded (by simp), trimWhile_eq_self_of_forall kept]

theorem valuePieces_of_not_mem
    (noSemicolon : ';' ∉ value.toList) :
    valuePieces value = [value.toList ++ ['"']] := by
  apply pieces_of_not_mem
  simpa using noSemicolon

/-- A value without quotes and semicolons is the value that is read. -/
theorem parse_quotedText_whole
    (isKind : IsToken kind)
    (isSubtype : IsToken subtype)
    (isKey : IsToken key)
    (noQuote : '"' ∉ value.toList)
    (noSemicolon : ';' ∉ value.toList) :
    parse (quotedText kind subtype key value) =
      .ok ⟨lowerCase kind, lowerCase subtype, [(lowerCase key, value)]⟩ := by
  have arePieces := valuePieces_of_not_mem noSemicolon
  apply (parse_quotedText_eq_ok isKind isSubtype isKey arePieces).mpr
  refine ⟨[], .nil, ?_⟩
  rw [unquoted_between noQuote, String.ofList_toList]
  rfl

/-- No value that is read has a semicolon. -/
theorem not_mem_of_param?
    {text : String}
    (read : parse text = .ok mediaType)
    (found : mediaType.param? key = some value) :
    ';' ∉ value.toList := by
  have clean := clean_of_parse read
  exact (clean.params _ (clean.sorted.get?_eq_some.mp found)).free

theorem exists_forall₂_iff
    {pieces : List (List Char)} :
    (∃ params, List.Forall₂ IsParameter pieces params) ↔
      ∀ piece ∈ pieces, ∃ param, IsParameter piece param := by
  induction pieces with
  | nil =>
      simp
  | cons piece rest inductionHypothesis =>
      rw [List.forall_mem_cons, ← inductionHypothesis]
      constructor
      · rintro ⟨_, _ | ⟨isFirst, areRest⟩⟩
        exact ⟨⟨_, isFirst⟩, _, areRest⟩
      · rintro ⟨⟨param, isFirst⟩, params, areRest⟩
        exact ⟨param :: params, .cons isFirst areRest⟩

end Quoted

/--
A value between quotes, itself without quotes, is taken whole exactly if it has no semicolon.
The text is a media type at all exactly if every piece of the value behind its first semicolon
is a parameter or blank.  So a record is not refused for the media type of its blob if the value
in it has no semicolon.
-/
theorem parse_quoted
    {kind subtype key value : String}
    (isKind : IsToken kind)
    (isSubtype : IsToken subtype)
    (isKey : IsToken key)
    (noQuote : '"' ∉ value.toList) :
    ((∃ mediaType, parse (quotedText kind subtype key value) = .ok mediaType ∧
        mediaType.param? key = some value) ↔ ';' ∉ value.toList) ∧
      ((∃ mediaType, parse (quotedText kind subtype key value) = .ok mediaType) ↔
        ∀ piece ∈ (valuePieces value).tail, isGiven piece → ∃ param, IsParameter piece param) ∧
      (';' ∉ value.toList →
        ∀ activity blob,
          Activity.blob activity = some blob →
            blob.manifest.bind BlobManifest.mediaType =
                some (quotedText kind subtype key value) →
              ∀ id fault, activity.validate ≠ .error (.invalidMediaType id fault)) := by
  have whole := parse_quotedText_whole isKind isSubtype isKey noQuote
  refine ⟨⟨?_, ?_⟩, ?_, ?_⟩
  · rintro ⟨mediaType, read, found⟩
    exact not_mem_of_param? read found
  · intro noSemicolon
    refine ⟨_, whole noSemicolon, ?_⟩
    simp [param?, lowerCase, Dictionary.get?]
  · cases arePieces : valuePieces value with
    | nil =>
        exact absurd arePieces pieces_ne_nil
    | cons first rest =>
        have isRead :
            (∃ params, List.Forall₂ IsParameter (rest.filter isGiven) params) ↔
              ∀ piece ∈ rest, isGiven piece → ∃ param, IsParameter piece param := by
          simp only [exists_forall₂_iff, List.mem_filter, and_imp]
        rw [List.tail_cons, ← isRead]
        simp only [parse_quotedText_eq_ok isKind isSubtype isKey arePieces]
        constructor
        · rintro ⟨_, params, areParameters, -⟩
          exact ⟨params, areParameters⟩
        · rintro ⟨params, areParameters⟩
          exact ⟨_, params, areParameters, rfl⟩
  · intro noSemicolon activity blob hasBlob hasMediaType id fault refused
    obtain ⟨other, isOther, isUnread⟩ := Activity.mediaType?_of_validate refused
    cases hasBlob.symm.trans isOther
    rw [Blob.mediaType?, hasMediaType, Option.map_some, whole noSemicolon] at isUnread
    cases isUnread

/-- The media type of a letter, with the boundary of its parts between quotes. -/
def mixed (boundary : String) : String :=
  quotedText "multipart" "mixed" "boundary" boundary

/-- A letter by reference. -/
def mixedLetter (boundary : String) : Activity :=
  { Activity.stub "letter" "1" with
    blob := some (Blob.reference (mixed boundary) "s3://letter") }

theorem tokens_mixed : IsToken "multipart" ∧ IsToken "mixed" ∧ IsToken "boundary" :=
  ⟨.of_all (by decide) (by decide), .of_all (by decide) (by decide),
    .of_all (by decide) (by decide)⟩

/-- A boundary with blanks and an equals sign is taken whole, and one with a semicolon is not. -/
theorem parse_quoted_boundary :
    IsToken "multipart" ∧ IsToken "mixed" ∧ IsToken "boundary" ∧
      '"' ∉ " =part ".toList ∧ '"' ∉ "a;b".toList ∧
      (∃ mediaType, parse (mixed " =part ") = .ok mediaType ∧
        mediaType.param? "boundary" = some " =part ") ∧
      (∀ id fault, (mixedLetter " =part ").validate ≠ .error (.invalidMediaType id fault)) ∧
      ¬∃ mediaType, parse (mixed "a;b") = .ok mediaType := by
  have noQuote : '"' ∉ " =part ".toList := by
    decide
  have noQuoteInCut : '"' ∉ "a;b".toList := by
    decide
  have noSemicolon : ';' ∉ " =part ".toList := by
    decide
  obtain ⟨isKind, isSubtype, isKey⟩ := tokens_mixed
  obtain ⟨whole, -, accepted⟩ := parse_quoted isKind isSubtype isKey noQuote
  obtain ⟨-, isRead, -⟩ := parse_quoted isKind isSubtype isKey noQuoteInCut
  refine ⟨isKind, isSubtype, isKey, noQuote, noQuoteInCut,
    whole.mpr noSemicolon, accepted noSemicolon (mixedLetter " =part ") _ rfl rfl, ?_⟩
  intro read
  have lastPiece : ['b', '"'] ∈ (valuePieces "a;b").tail := by
    decide
  obtain ⟨param, isParameter⟩ := isRead.mp read ['b', '"'] lastPiece (by decide)
  cases isParameter

/-- Not every value without quotes is taken whole between them. -/
theorem quoted_value_cut :
    ¬∀ kind subtype key value, IsToken kind → IsToken subtype → IsToken key →
        '"' ∉ value.toList →
          ∃ mediaType, parse (quotedText kind subtype key value) = .ok mediaType ∧
            mediaType.param? key = some value := by
  intro taken
  obtain ⟨isKind, isSubtype, isKey⟩ := tokens_mixed
  obtain ⟨mediaType, read, -⟩ :=
    taken "multipart" "mixed" "boundary" "a;b" isKind isSubtype isKey (by decide)
  have refused :
      parse (quotedText "multipart" "mixed" "boundary" "a;b") = .error (.badParameter "b\"") := by
    decide
  cases refused.symm.trans read

end MediaType

end ActivityCatalog
