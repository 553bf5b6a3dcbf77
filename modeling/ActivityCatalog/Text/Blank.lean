namespace ActivityCatalog.Text

/-!
# Blanks and cuts

A character is blank if it has the Unicode property `White_Space`.  Texts are
trimmed and cut as lists of characters: a cut takes out one separator, and
putting it back gives the list that was cut.
-/

/-- Whether a character has the property `White_Space`. -/
def isBlank (char : Char) : Bool :=
  let code := char.toNat
  (0x9 ≤ code && code ≤ 0xD) || code == 0x20 || code == 0x85 || code == 0xA0 ||
    code == 0x1680 || (0x2000 ≤ code && code ≤ 0x200A) || code == 0x2028 ||
    code == 0x2029 || code == 0x202F || code == 0x205F || code == 0x3000

/-- The list without the characters of a class at its end. -/
def dropEndWhile (isDropped : Char → Bool) (chars : List Char) : List Char :=
  (chars.reverse.dropWhile isDropped).reverse

/-- The list without the characters of a class at either end. -/
def trimWhile (isDropped : Char → Bool) (chars : List Char) : List Char :=
  dropEndWhile isDropped (chars.dropWhile isDropped)

/-- The list without blanks at either end. -/
def trim (chars : List Char) : List Char :=
  trimWhile isBlank chars

/-- What stands before and after the first separator, if there is one. -/
def cut? (separator : Char) : List Char → Option (List Char × List Char)
  | [] =>
      none
  | char :: rest =>
      if char = separator then
        some ([], rest)
      else
        (cut? separator rest).map fun (before, after) => (char :: before, after)

/-- The pieces between separators; without a separator the whole list is one. -/
def pieces (separator : Char) : List Char → List (List Char)
  | [] =>
      [[]]
  | char :: rest =>
      if char = separator then
        [] :: pieces separator rest
      else
        match pieces separator rest with
        | [] => [[char]]
        | piece :: more => (char :: piece) :: more

/-- An upper-case ASCII letter becomes its lower-case one. -/
def lowered (chars : List Char) : List Char :=
  chars.map Char.toLower

/-- Cutting takes out exactly one separator. -/
theorem cut?_eq_some {separator : Char} {chars before after : List Char}
    (isCut : cut? separator chars = some (before, after)) :
    chars = before ++ separator :: after := by
  induction chars generalizing before after with
  | nil =>
      simp [cut?] at isCut
  | cons char rest inductionHypothesis =>
      unfold cut? at isCut
      split at isCut
      · rename_i same
        simp only [Option.some.injEq, Prod.mk.injEq] at isCut
        obtain ⟨rfl, rfl⟩ := isCut
        simp [same]
      · obtain ⟨⟨inner, tail⟩, innerCut, shape⟩ := Option.map_eq_some_iff.mp isCut
        simp only [Prod.mk.injEq] at shape
        obtain ⟨rfl, rfl⟩ := shape
        rw [inductionHypothesis innerCut]
        rfl

end ActivityCatalog.Text
