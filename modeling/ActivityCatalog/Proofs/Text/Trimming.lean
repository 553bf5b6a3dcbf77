import ActivityCatalog.Text.Blank
import Mathlib.Data.List.DropRight
import Mathlib.Data.List.TakeWhile

namespace ActivityCatalog.Text

/-!
# Trimming before and after cutting

Trimming drops characters at the two ends of a list, one end after the other or the other way
round.  A separator that is no blank stays where it is, so that a trimmed list is cut into the
pieces of the list itself, apart from blanks at the ends of the pieces.
-/

/-- No character that is printed in ASCII is a blank, but for the space. -/
theorem isBlank_of_printed
    {char : Char}
    (first : 0x21 ≤ char.toNat)
    (last : char.toNat ≤ 0x7E) :
    isBlank char = false := by
  simp only [isBlank, Bool.or_eq_false_iff, Bool.and_eq_false_iff, decide_eq_false_iff_not,
    beq_eq_false_iff_ne]
  omega

section Ends

variable
  {isDropped : Char → Bool}
  {char : Char}
  {chars : List Char}

theorem dropEndWhile_eq : dropEndWhile isDropped chars = chars.rdropWhile isDropped :=
  rfl

/-- What is dropped at the end reaches a character only if everything behind it is dropped. -/
theorem dropEndWhile_cons :
    dropEndWhile isDropped (char :: chars) =
      if dropEndWhile isDropped chars = [] ∧ isDropped char then []
      else char :: dropEndWhile isDropped chars := by
  simp only [dropEndWhile, List.reverse_cons, List.dropWhile_append, List.reverse_eq_nil_iff]
  by_cases allDropped : chars.reverse.dropWhile isDropped = []
  · by_cases dropped : isDropped char
    · simp [allDropped, dropped]
    · simp [allDropped, dropped]
  · simp [allDropped]

theorem dropEndWhile_append_cons
    (kept : isDropped char = false)
    (before after : List Char) :
    dropEndWhile isDropped (before ++ char :: after) =
      before ++ char :: dropEndWhile isDropped after := by
  induction before with
  | nil =>
      simp [dropEndWhile_cons, kept]
  | cons first rest inductionHypothesis =>
      rw [List.cons_append, dropEndWhile_cons, inductionHypothesis]
      simp

theorem dropWhile_append_cons
    (kept : isDropped char = false)
    (before after : List Char) :
    (before ++ char :: after).dropWhile isDropped =
      before.dropWhile isDropped ++ char :: after := by
  rw [List.dropWhile_append]
  by_cases allDropped : before.dropWhile isDropped = []
  · simp [allDropped, kept]
  · simp [allDropped]

/-- It does not matter at which end characters are dropped first. -/
theorem dropWhile_dropEndWhile :
    (dropEndWhile isDropped chars).dropWhile isDropped =
      dropEndWhile isDropped (chars.dropWhile isDropped) := by
  induction chars with
  | nil =>
      rfl
  | cons char rest inductionHypothesis =>
      by_cases dropped : isDropped char
      · rw [List.dropWhile_cons_of_pos dropped, ← inductionHypothesis, dropEndWhile_cons]
        by_cases allDropped : dropEndWhile isDropped rest = []
        · simp [allDropped, dropped]
        · simp [allDropped, dropped]
      · rw [List.dropWhile_cons_of_neg dropped, dropEndWhile_cons]
        simp [dropped]

theorem trimWhile_dropWhile :
    trimWhile isDropped (chars.dropWhile isDropped) = trimWhile isDropped chars := by
  rw [trimWhile, List.dropWhile_idempotent, trimWhile]

theorem trimWhile_dropEndWhile :
    trimWhile isDropped (dropEndWhile isDropped chars) = trimWhile isDropped chars := by
  rw [trimWhile, dropWhile_dropEndWhile, dropEndWhile_eq, dropEndWhile_eq,
    List.rdropWhile_idempotent]
  rfl

/-- What is trimmed has nothing more to be trimmed. -/
theorem trimWhile_trimWhile :
    trimWhile isDropped (trimWhile isDropped chars) = trimWhile isDropped chars := by
  calc
    trimWhile isDropped (trimWhile isDropped chars) =
        trimWhile isDropped (chars.dropWhile isDropped) :=
      trimWhile_dropEndWhile
    _ = trimWhile isDropped chars :=
      trimWhile_dropWhile

theorem trimWhile_sublist : (trimWhile isDropped chars).Sublist chars := by
  have fromEnd := List.rdropWhile_prefix isDropped (chars.dropWhile isDropped)
  exact fromEnd.sublist.trans (List.dropWhile_suffix isDropped).sublist

theorem mem_of_mem_trimWhile
    (member : char ∈ trimWhile isDropped chars) :
    char ∈ chars :=
  trimWhile_sublist.subset member

/-- A character that is kept stays where it is, with what is not dropped around it. -/
theorem trimWhile_append_cons
    (kept : isDropped char = false)
    (before after : List Char) :
    trimWhile isDropped (before ++ char :: after) =
      before.dropWhile isDropped ++ char :: dropEndWhile isDropped after := by
  rw [trimWhile, dropWhile_append_cons kept, dropEndWhile_append_cons kept]

/-- What is dropped on both sides of a list makes no difference. -/
theorem trimWhile_surrounded
    {before after : List Char}
    (dropped : ∀ char ∈ before ++ after, isDropped char) :
    trimWhile isDropped (before ++ chars ++ after) = trimWhile isDropped chars := by
  obtain ⟨droppedBefore, droppedAfter⟩ := List.forall_mem_append.mp dropped
  have atEnd : dropEndWhile isDropped (chars ++ after) = dropEndWhile isDropped chars := by
    rw [dropEndWhile, List.reverse_append, List.dropWhile_append_of_pos (by simpa), dropEndWhile]
  rw [trimWhile, List.append_assoc, List.dropWhile_append_of_pos droppedBefore,
    ← dropWhile_dropEndWhile, atEnd, dropWhile_dropEndWhile, trimWhile]

/-- Trimming leaves a list alone if it keeps the characters at both ends. -/
theorem trimWhile_eq_self
    (firstKept : ∀ first ∈ chars.head?, isDropped first = false)
    (lastKept : ∀ last ∈ chars.getLast?, isDropped last = false) :
    trimWhile isDropped chars = chars := by
  have nothingAtStart : chars.dropWhile isDropped = chars := by
    cases chars with
    | nil =>
        rfl
    | cons first rest =>
        apply List.dropWhile_cons_of_neg
        simp [firstKept first rfl]
  rw [trimWhile, nothingAtStart, dropEndWhile_eq, List.rdropWhile_eq_self_iff]
  intro someChars
  simp [lastKept _ (List.getLast_mem_getLast? someChars)]

/-- Trimming keeps the characters of a list that belong to no dropped class. -/
theorem trimWhile_eq_self_of_forall
    (kept : ∀ char ∈ chars, isDropped char = false) :
    trimWhile isDropped chars = chars := by
  apply trimWhile_eq_self
  · intro first isFirst
    exact kept first (List.mem_of_mem_head? isFirst)
  · intro last isLast
    exact kept last (List.mem_of_mem_getLast? isLast)

end Ends

section Cuts

variable
  {separator : Char}
  {chars before after : List Char}

theorem cut?_append
    (isFirst : separator ∉ before)
    (after : List Char) :
    cut? separator (before ++ separator :: after) = some (before, after) := by
  induction before with
  | nil =>
      simp [cut?]
  | cons char rest inductionHypothesis =>
      have different : char ≠ separator := fun same => isFirst (same ▸ List.mem_cons_self)
      have restFirst : separator ∉ rest := fun member => isFirst (List.mem_cons_of_mem char member)
      simp [cut?, different, inductionHypothesis restFirst]

theorem cut?_eq_none : cut? separator chars = none ↔ separator ∉ chars := by
  induction chars with
  | nil =>
      simp [cut?]
  | cons char rest inductionHypothesis =>
      by_cases same : char = separator
      · simp [cut?, same]
      · simp [cut?, same, inductionHypothesis, Ne.symm same]

/-- A cut is made at the first separator. -/
theorem not_mem_of_cut?
    (isCut : cut? separator chars = some (before, after)) :
    separator ∉ before := by
  induction chars generalizing before after with
  | nil =>
      cases isCut
  | cons char rest inductionHypothesis =>
      by_cases same : char = separator
      · simp only [cut?, same, ↓reduceIte, Option.some.injEq, Prod.mk.injEq] at isCut
        simp [← isCut.1]
      · simp only [cut?, same, ↓reduceIte, Option.map_eq_some_iff, Prod.mk.injEq,
          Prod.exists] at isCut
        obtain ⟨inner, tail, innerCut, rfl, -⟩ := isCut
        simp [Ne.symm same, inductionHypothesis innerCut]

/-- A trimmed list is cut as the list itself, and the blanks at its ends are gone. -/
theorem cut?_trim
    (notBlank : isBlank separator = false)
    (chars : List Char) :
    cut? separator (trim chars) =
      (cut? separator chars).map fun (before, after) =>
        (before.dropWhile isBlank, dropEndWhile isBlank after) := by
  by_cases member : separator ∈ chars
  · cases isCut : cut? separator chars with
    | none =>
        exact absurd member (cut?_eq_none.mp isCut)
    | some sides =>
        obtain ⟨before, after⟩ := sides
        have isFirst : separator ∉ before.dropWhile isBlank := fun inStart =>
          not_mem_of_cut? isCut ((List.dropWhile_suffix isBlank).subset inStart)
        rw [cut?_eq_some isCut, trim, trimWhile_append_cons notBlank, cut?_append isFirst]
        rfl
  · have notInTrimmed : separator ∉ trim chars := fun inTrimmed =>
      member (mem_of_mem_trimWhile inTrimmed)
    rw [cut?_eq_none.mpr member, cut?_eq_none.mpr notInTrimmed]
    rfl

end Cuts

section Pieces

variable
  {separator : Char}
  {chars : List Char}

/-- The pieces between separators are those of the general splitting of lists. -/
theorem pieces_eq_splitOn (separator : Char) (chars : List Char) :
    pieces separator chars = chars.splitOn separator := by
  induction chars with
  | nil =>
      rfl
  | cons char rest inductionHypothesis =>
      rw [pieces, List.splitOn_cons_eq_if_modifyHead, inductionHypothesis]
      by_cases same : char = separator
      · simp [same]
      · simp only [same, ↓reduceIte, beq_iff_eq]
        cases split : rest.splitOn separator with
        | nil =>
            exact absurd split (List.splitOn_ne_nil separator rest)
        | cons piece more =>
            rfl

theorem pieces_ne_nil : pieces separator chars ≠ [] := by
  rw [pieces_eq_splitOn]
  exact List.splitOn_ne_nil separator chars

theorem pieces_cons_self :
    pieces separator (separator :: chars) = [] :: pieces separator chars := by
  simp [pieces]

theorem pieces_cons_of_ne
    {char : Char}
    (different : char ≠ separator) :
    pieces separator (char :: chars) = (pieces separator chars).modifyHead (char :: ·) := by
  rw [pieces_eq_splitOn, pieces_eq_splitOn, List.splitOn_cons_eq_if_modifyHead]
  simp [different]

/-- Blanks at the start of a list are blanks at the start of its first piece. -/
theorem pieces_dropWhile
    (notBlank : isBlank separator = false)
    (chars : List Char) :
    (pieces separator (chars.dropWhile isBlank)).map trim = (pieces separator chars).map trim := by
  induction chars with
  | nil =>
      rfl
  | cons char rest inductionHypothesis =>
      by_cases blank : isBlank char
      · have different : char ≠ separator := by
          rintro rfl
          simp [notBlank] at blank
        rw [List.dropWhile_cons_of_pos blank, inductionHypothesis, pieces_cons_of_ne different]
        cases pieces separator rest with
        | nil =>
            rfl
        | cons piece more =>
            have sameTrimmed : trim (char :: piece) = trim piece := by
              simp [trim, trimWhile, blank]
            simp [sameTrimmed]
      · rw [List.dropWhile_cons_of_neg blank]

/-- Blanks at the end of a list are blanks at the end of its last piece. -/
theorem pieces_dropEndWhile
    (notBlank : isBlank separator = false)
    (chars : List Char) :
    (pieces separator (dropEndWhile isBlank chars)).map (dropEndWhile isBlank) =
      (pieces separator chars).map (dropEndWhile isBlank) := by
  induction chars with
  | nil =>
      rfl
  | cons char rest inductionHypothesis =>
      by_cases allDropped : dropEndWhile isBlank rest = [] ∧ isBlank char
      · obtain ⟨restDropped, dropped⟩ := allDropped
        have different : char ≠ separator := by
          rintro rfl
          simp [notBlank] at dropped
        rw [restDropped] at inductionHypothesis
        rw [dropEndWhile_cons, if_pos ⟨restDropped, dropped⟩, inductionHypothesis,
          pieces_cons_of_ne different]
        cases split : pieces separator rest with
        | nil =>
            rfl
        | cons piece more =>
            have onlyBlanks : dropEndWhile isBlank piece = [] := by
              rw [split] at inductionHypothesis
              exact (List.head_eq_of_cons_eq inductionHypothesis).symm
            simp [dropEndWhile_cons, onlyBlanks, dropped]
      · rw [dropEndWhile_cons, if_neg allDropped]
        by_cases same : char = separator
        · rw [same, pieces_cons_self, pieces_cons_self, List.map_cons, List.map_cons,
            inductionHypothesis]
        · rw [pieces_cons_of_ne same, pieces_cons_of_ne same]
          cases split : pieces separator rest with
          | nil =>
              exact absurd split pieces_ne_nil
          | cons piece more =>
              cases splitKept : pieces separator (dropEndWhile isBlank rest) with
              | nil =>
                  exact absurd splitKept pieces_ne_nil
              | cons kept others =>
                  rw [split, splitKept, List.map_cons, List.map_cons, List.cons.injEq]
                    at inductionHypothesis
                  simp [dropEndWhile_cons, inductionHypothesis.1, inductionHypothesis.2]

/-- Trimming a list before it is cut changes no piece but for blanks at its ends. -/
theorem pieces_trim
    (notBlank : isBlank separator = false)
    (chars : List Char) :
    (pieces separator (trim chars)).map trim = (pieces separator chars).map trim := by
  have atEnds : ∀ piece : List Char, trim (dropEndWhile isBlank piece) = trim piece :=
    fun _ => trimWhile_dropEndWhile
  have fromEnd := congrArg (List.map trim) (pieces_dropEndWhile notBlank (chars.dropWhile isBlank))
  simp only [List.map_map, Function.comp_def, atEnds] at fromEnd
  exact fromEnd.trans (pieces_dropWhile notBlank chars)

/-- The first piece ends at the first separator. -/
theorem pieces_append_cons
    {before : List Char}
    (notBefore : separator ∉ before)
    (after : List Char) :
    pieces separator (before ++ separator :: after) = before :: pieces separator after := by
  rw [pieces_eq_splitOn, pieces_eq_splitOn]
  exact List.splitOn_append_cons_self_of_not_mem notBefore after

/-- What comes before the first separator belongs to the first piece. -/
theorem pieces_append
    {before : List Char}
    (notBefore : separator ∉ before)
    (after : List Char) :
    pieces separator (before ++ after) = (pieces separator after).modifyHead (before ++ ·) := by
  induction before with
  | nil =>
      rw [List.nil_append]
      cases pieces separator after <;> rfl
  | cons char rest inductionHypothesis =>
      have different : char ≠ separator := fun same => notBefore (same ▸ List.mem_cons_self)
      have notInRest : separator ∉ rest := fun member =>
        notBefore (List.mem_cons_of_mem char member)
      rw [List.cons_append, pieces_cons_of_ne different, inductionHypothesis notInRest]
      cases pieces separator after <;> rfl

theorem pieces_of_not_mem
    (notInside : separator ∉ chars) :
    pieces separator chars = [chars] := by
  rw [pieces_eq_splitOn]
  exact List.splitOn_eq_singleton notInside

theorem not_mem_of_mem_pieces
    {piece : List Char}
    (member : piece ∈ pieces separator chars) :
    separator ∉ piece := by
  induction chars generalizing piece with
  | nil =>
      simp_all [pieces]
  | cons char rest inductionHypothesis =>
      by_cases same : char = separator
      · subst same
        rw [pieces_cons_self] at member
        rcases List.mem_cons.mp member with rfl | inRest
        · exact List.not_mem_nil
        · exact inductionHypothesis inRest
      · rw [pieces_cons_of_ne same] at member
        cases split : pieces separator rest with
        | nil =>
            exact absurd split pieces_ne_nil
        | cons first more =>
            rw [split, List.modifyHead_cons] at member
            rcases List.mem_cons.mp member with rfl | inMore
            · have notInFirst := inductionHypothesis (split ▸ List.mem_cons_self)
              simp [Ne.symm same, notInFirst]
            · exact inductionHypothesis (split ▸ List.mem_cons_of_mem first inMore)

/-- A list that is put together from pieces is cut into them again. -/
theorem pieces_joined
    {first : List Char}
    {rest : List (List Char)}
    (inNone : ∀ piece ∈ first :: rest, separator ∉ piece) :
    pieces separator (first ++ rest.flatMap (separator :: ·)) = first :: rest := by
  induction rest generalizing first with
  | nil =>
      rw [List.flatMap_nil, List.append_nil]
      exact pieces_of_not_mem (inNone first List.mem_cons_self)
  | cons second more inductionHypothesis =>
      obtain ⟨notInFirst, notInRest⟩ := List.forall_mem_cons.mp inNone
      rw [List.flatMap_cons, List.cons_append, pieces_append_cons notInFirst,
        inductionHypothesis notInRest]

end Pieces

end ActivityCatalog.Text
