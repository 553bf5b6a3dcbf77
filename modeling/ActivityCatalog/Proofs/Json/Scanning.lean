import ActivityCatalog.Proofs.Json.Lexemes
import Mathlib.Data.List.Forall2

namespace ActivityCatalog.Json

/-!
# Tokens that are scanned back

What is written of a string or of a number that is kept is scanned as one token.  A number
ends only with the character behind it, which is none of a number; so scanning is told
apart by whether the scanner stands between tokens afterwards or perhaps in a number still.
-/

namespace Scanner

/-- A scanner that has found tokens, the first of which may be a number not yet ended. -/
inductive Stands : Scanner → List Token → Prop where
  | between (tokens : List Token) : Stands ⟨.between, tokens⟩ tokens
  | number
      {chars : List Char}
      {lexeme : Lexeme}
      (tokens : List Token)
      (isLexeme : Lexeme.ofChars? chars.reverse = some lexeme) :
      Stands ⟨.number chars, tokens⟩ (.number lexeme.number? :: tokens)

/-- A character that is none of a number ends a number. -/
theorem Stands.step?_eq
    {scanner : Scanner}
    {tokens : List Token}
    {char : Char}
    (stands : Stands scanner tokens)
    (ends : isNumberChar char = false) :
    scanner.step? char = (⟨.between, tokens⟩ : Scanner).stepBetween? char := by
  cases stands with
  | between =>
      rfl
  | number tokens isLexeme =>
      simp [step?, ends, emitNumber?, isLexeme, emit]

theorem Stands.finish?_eq
    {scanner : Scanner}
    {tokens : List Token}
    (stands : Stands scanner tokens) :
    scanner.finish? = some tokens.reverse := by
  cases stands with
  | between =>
      rfl
  | number tokens isLexeme =>
      simp [finish?, emitNumber?, isLexeme, emit]

/-- Characters are scanned as tokens, the last of which may be a number not yet ended. -/
def Scans (chars : List Char) (tokens : List Token) : Prop :=
  ∀ before, ∃ after, chars.foldlM step? ⟨.between, before⟩ = some after ∧
    Stands after (tokens.reverse ++ before)

/-- Characters are scanned as tokens that end with them. -/
def Ends (chars : List Char) (tokens : List Token) : Prop :=
  ∀ before, chars.foldlM step? ⟨.between, before⟩ =
    some ⟨.between, tokens.reverse ++ before⟩

theorem Ends.scans
    {chars : List Char}
    {tokens : List Token}
    (ends : Ends chars tokens) :
    Scans chars tokens :=
  fun before => ⟨_, ends before, .between _⟩

theorem Ends.append
    {first second : List Char}
    {firstTokens secondTokens : List Token}
    (firstEnds : Ends first firstTokens)
    (secondEnds : Ends second secondTokens) :
    Ends (first ++ second) (firstTokens ++ secondTokens) := by
  intro before
  rw [List.foldlM_append, firstEnds before, List.reverse_append, List.append_assoc]
  exact secondEnds (firstTokens.reverse ++ before)

theorem Ends.append_scans
    {first second : List Char}
    {firstTokens secondTokens : List Token}
    (firstEnds : Ends first firstTokens)
    (secondScans : Scans second secondTokens) :
    Scans (first ++ second) (firstTokens ++ secondTokens) := by
  intro before
  rw [List.foldlM_append, firstEnds before, List.reverse_append, List.append_assoc]
  exact secondScans (firstTokens.reverse ++ before)

/-- A character that is a token by itself ends what stands before it. -/
theorem Scans.append_char
    {chars : List Char}
    {tokens : List Token}
    {char : Char}
    {token : Token}
    (scans : Scans chars tokens)
    (ends : isNumberChar char = false)
    (isToken : ∀ before, (⟨.between, before⟩ : Scanner).stepBetween? char =
      some ⟨.between, token :: before⟩) :
    Ends (chars ++ [char]) (tokens ++ [token]) := by
  intro before
  obtain ⟨after, ran, stands⟩ := scans before
  rw [List.foldlM_append, ran, List.reverse_append]
  refine (bind_pure (after.step? char)).trans ?_
  rw [stands.step?_eq ends, isToken]
  rfl

/-- A minus or a digit begins a number. -/
theorem stepBetween?_of_number
    {scanner : Scanner}
    {char : Char}
    (isFirst : char = '-' ∨ char.isDigit = true) :
    scanner.stepBetween? char = some (scanner.become (.number [char])) := by
  rcases isFirst with rfl | isDigit
  · rfl
  · have notSpace : isSpace char = false := by
      refine Bool.eq_false_iff.mpr fun space => ?_
      simp only [isSpace, Bool.or_eq_true, beq_iff_eq] at space
      rcases space with ((rfl | rfl) | rfl) | rfl <;> cases isDigit
    unfold stepBetween?
    rw [notSpace, isDigit, Bool.or_true]
    split
    · rename_i isTrue
      cases isTrue
    · split <;> first | rfl | cases isDigit

/-- Characters of numbers are collected in reverse. -/
theorem foldlM_number
    {chars : List Char}
    (collected : List Char)
    (before : List Token)
    (numberChars : ∀ char ∈ chars, isNumberChar char = true) :
    chars.foldlM step? ⟨.number collected, before⟩ =
      some ⟨.number (chars.reverse ++ collected), before⟩ := by
  induction chars generalizing collected with
  | nil =>
      rfl
  | cons char rest inductionHypothesis =>
      obtain ⟨isNumber, restNumber⟩ := List.forall_mem_cons.mp numberChars
      have stepped : step? ⟨.number collected, before⟩ char =
          some ⟨.number (char :: collected), before⟩ :=
        if_pos isNumber
      rw [List.foldlM_cons, stepped, List.reverse_cons, List.append_assoc]
      exact inductionHypothesis (char :: collected) restNumber

/-- A number that is kept is scanned as one token. -/
theorem scans_number
    {number : Number}
    (kept : number.Kept) :
    Scans number.text.toList [.number (some number)] := by
  obtain ⟨lexeme, isLexeme, isNumber⟩ := kept
  obtain ⟨first, rest, isText, isFirst, numberChars⟩ := numberChars_of_ofChars? isLexeme
  intro before
  refine ⟨⟨.number (rest.reverse ++ [first]), before⟩, ?_, ?_⟩
  · have begins : step? ⟨.between, before⟩ first = some ⟨.number [first], before⟩ :=
      stepBetween?_of_number isFirst
    rw [isText, List.foldlM_cons, begins]
    exact foldlM_number [first] before numberChars
  · have reversed : (rest.reverse ++ [first]).reverse = number.text.toList := by
      rw [isText, List.reverse_append, List.reverse_reverse]
      rfl
    exact isNumber ▸ Stands.number before (reversed.symm ▸ isLexeme)

end Scanner

/-- A piece of a written string stands for a character. -/
def Piece.Means (piece : Piece) (char : Char) : Prop :=
  piece = .char char ∨ piece = .escape char.toNat ∧ char.toNat < 0x20

/-- Pieces that stand for characters are those characters. -/
theorem Piece.chars?_of_means
    {pieces : List Piece}
    {chars : List Char}
    (means : List.Forall₂ Piece.Means pieces chars) :
    Piece.chars? pieces = some chars := by
  have escape : ∀ (unit : Nat) (rest : List Piece), unit < 0x20 →
      Piece.chars? (.escape unit :: rest) =
        (Piece.chars? rest).map (Char.ofNat unit :: ·) := by
    intro unit rest small
    have notLeading : Piece.isLeading unit = false := by
      simp only [Piece.isLeading, Bool.and_eq_false_iff, decide_eq_false_iff_not]
      omega
    have notTrailing : Piece.isTrailing unit = false := by
      simp only [Piece.isTrailing, Bool.and_eq_false_iff, decide_eq_false_iff_not]
      omega
    match rest with
    | [] | .char _ :: _ | .escape _ :: _ =>
        simp [Piece.chars?, notLeading, notTrailing]
  induction means with
  | nil =>
      rfl
  | @cons piece char rest chars pieceMeans _ inductionHypothesis =>
      rcases pieceMeans with rfl | ⟨rfl, small⟩
      · rw [Piece.chars?, inductionHypothesis]
        rfl
      · rw [escape _ _ small, inductionHypothesis, Char.ofNat_toNat]
        rfl

namespace Scanner

theorem foldlM_control
    {code : Nat}
    (small : code < 0x20)
    (pieces : List Piece)
    (before : List Token) :
    ['\\', 'u', '0', '0', hexDigit (code / 16), hexDigit (code % 16)].foldlM step?
        ⟨.string pieces, before⟩ =
      some ⟨.string (.escape code :: pieces), before⟩ := by
  have digits : ∀ digit : Fin 16, hexValue? (hexDigit digit) = some digit.val := by
    decide
  have high : hexValue? (hexDigit (code / 16)) = some (code / 16) :=
    digits ⟨code / 16, by omega⟩
  have low : hexValue? (hexDigit (code % 16)) = some (code % 16) :=
    digits ⟨code % 16, by omega⟩
  have whole : code / 16 * 16 + code % 16 = code := by
    omega
  have opened :
      ['\\', 'u', '0', '0'].foldlM step? ⟨.string pieces, before⟩ =
        some ⟨.hex pieces 2 0, before⟩ :=
    rfl
  have closed :
      [hexDigit (code / 16), hexDigit (code % 16)].foldlM step? ⟨.hex pieces 2 0, before⟩ =
        some ⟨.string (.escape code :: pieces), before⟩ := by
    simp [step?, high, low, become, whole]
  exact (List.foldlM_append (l := ['\\', 'u', '0', '0'])).trans (opened ▸ closed)

/-- A character of a string is scanned as a piece that stands for it. -/
theorem foldlM_escapedChar
    (char : Char)
    (pieces : List Piece)
    (before : List Token) :
    ∃ piece : Piece, piece.Means char ∧
      (escapedChar char).foldlM step? ⟨.string pieces, before⟩ =
        some ⟨.string (piece :: pieces), before⟩ := by
  unfold escapedChar
  split
  case h_8 notQuote notBackslash _ _ _ _ _ =>
    split
    · rename_i small
      exact ⟨.escape char.toNat, Or.inr ⟨rfl, small⟩, foldlM_control small pieces before⟩
    · rename_i notSmall
      refine ⟨.char char, Or.inl rfl, ?_⟩
      have stepped : step? ⟨.string pieces, before⟩ char =
          some ⟨.string (.char char :: pieces), before⟩ := by
        simp only [step?, if_neg notQuote, if_neg notBackslash, if_neg notSmall]
        rfl
      rw [List.foldlM_cons, stepped]
      rfl
  all_goals exact ⟨.char _, Or.inl rfl, rfl⟩

theorem foldlM_flatMap_escapedChar
    (chars : List Char)
    (pieces : List Piece)
    (before : List Token) :
    ∃ added, List.Forall₂ Piece.Means added chars ∧
      (chars.flatMap escapedChar).foldlM step? ⟨.string pieces, before⟩ =
        some ⟨.string (added.reverse ++ pieces), before⟩ := by
  induction chars generalizing pieces with
  | nil =>
      exact ⟨[], .nil, rfl⟩
  | cons char rest inductionHypothesis =>
      obtain ⟨piece, means, scanned⟩ := foldlM_escapedChar char pieces before
      obtain ⟨added, restMeans, restScanned⟩ := inductionHypothesis (piece :: pieces)
      refine ⟨piece :: added, .cons means restMeans, ?_⟩
      rw [List.flatMap_cons, List.foldlM_append, scanned, List.reverse_cons, List.append_assoc]
      exact restScanned

/-- A written string is scanned as one token. -/
theorem ends_quotedText (text : String) :
    Ends (quotedText text).toList [.string (some text)] := by
  intro before
  obtain ⟨added, means, scanned⟩ := foldlM_flatMap_escapedChar text.toList [] before
  have written :
      (quotedText text).toList = '"' :: (text.toList.flatMap escapedChar ++ ['"']) := by
    simp [quotedText]
  have opened : step? ⟨.between, before⟩ '"' = some ⟨.string [], before⟩ :=
    rfl
  rw [written, List.foldlM_cons, opened]
  refine (List.foldlM_append ..).trans ?_
  rw [scanned, List.append_nil]
  have closed : step? ⟨.string added.reverse, before⟩ '"' =
      some ⟨.between, .string (some text) :: before⟩ := by
    have isText : (Piece.chars? added.reverse.reverse).map String.ofList = some text := by
      rw [List.reverse_reverse, Piece.chars?_of_means means]
      exact congrArg some (String.ofList_toList)
    exact congrArg (fun found => some (⟨.between, .string found :: before⟩ : Scanner)) isText
  exact closed

end Scanner

end ActivityCatalog.Json
