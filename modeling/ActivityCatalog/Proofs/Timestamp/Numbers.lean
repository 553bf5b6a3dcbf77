import ActivityCatalog.Proofs.Text.Trimming
import ActivityCatalog.Proofs.Version
import ActivityCatalog.Timestamp

namespace ActivityCatalog.Timestamp

/-!
# Numbers with a fixed number of digits

The numbers of a time have as many digits as the place that they stand in, filled up with zeros.
The readers of date-times and of bare dates both take such a number whole and leave what follows
it, and texts that start with such numbers have the order of the numbers.
-/

/-- So many digits that stand for a number. -/
structure Spells (width value : Nat) (digits : List Char) : Prop where
  hasWidth : digits.length = width
  areDigits : ∀ char ∈ digits, char.isDigit = true
  stands : Nat.ofDigitChars 10 digits 0 = value

/-- A number that is not too great for its place is spelled when it is filled up. -/
theorem spells_padded
    {width value : Nat}
    (hasPlace : 0 < width)
    (fits : value < 10 ^ width) :
    Spells width value (padded width value).toList := by
  have filled :
      (padded width value).toList =
        List.replicate (width - (Nat.toDigits 10 value).length) '0' ++ Nat.toDigits 10 value := by
    simp only [padded, String.toList_ofList]
  have short : (Nat.toDigits 10 value).length ≤ width :=
    (Nat.length_toDigits_le_iff (by decide) hasPlace).mpr fits
  rw [filled]
  constructor
  · rw [List.length_append, List.length_replicate, Nat.sub_add_cancel short]
  · intro char member
    rcases List.mem_append.mp member with isFiller | isOwn
    · rw [List.eq_of_mem_replicate isFiller]
      decide
    · exact Nat.isDigit_of_mem_toDigits (by decide) (by decide) isOwn
  · rw [Nat.ofDigitChars_append, Nat.ofDigitChars_replicate_zero, Nat.mul_zero,
      Nat.ofDigitChars_ten_toDigits]

theorem digitsValue_eq (digits : List Char) :
    digitsValue digits = Nat.ofDigitChars 10 digits 0 := by
  simp only [digitsValue, Nat.ofDigitChars, Nat.mul_comm]

theorem fixedDigits?_append
    {digits : List Char}
    (areDigits : ∀ char ∈ digits, char.isDigit = true)
    (rest : List Char)
    (before : Nat) :
    fixedDigits? digits.length (digits ++ rest) before =
      some (Nat.ofDigitChars 10 digits before, rest) := by
  induction digits generalizing before with
  | nil =>
      rfl
  | cons digit others inductionHypothesis =>
      obtain ⟨isDigit, othersDigits⟩ := List.forall_mem_cons.mp areDigits
      rw [List.length_cons, List.cons_append, fixedDigits?, if_pos isDigit,
        inductionHypothesis othersDigits, Nat.ofDigitChars_cons, Nat.mul_comm before]

/-- A mark that comes as it must is taken. -/
theorem expect?_bind
    {isExpected : Char → Bool}
    {char : Char}
    (expected : isExpected char = true)
    (rest : List Char)
    {Result : Type}
    (next : List Char → Option Result) :
    (expect? isExpected (char :: rest) >>= next) = next rest := by
  rw [expect?, if_pos expected]
  rfl

/-- A digit is neither a blank nor a sign. -/
theorem plain_of_isDigit
    {char : Char}
    (isDigit : char.isDigit = true) :
    Text.isBlank char = false ∧ char ≠ '-' ∧ char ≠ '+' := by
  obtain ⟨least, greatest⟩ := Char.isDigit_iff_toNat.mp isDigit
  simp only [Char.reduceToNat] at least greatest
  refine ⟨Text.isBlank_of_printed (by omega) (by omega), ?_, ?_⟩
  · rintro rfl
    exact absurd least (by decide)
  · rintro rfl
    exact absurd least (by decide)

namespace Spells

variable
  {width value otherValue : Nat}
  {digits others : List Char}

theorem fixedDigits?_eq
    (spells : Spells width value digits)
    (rest : List Char) :
    fixedDigits? width (digits ++ rest) 0 = some (value, rest) := by
  rw [← spells.hasWidth, fixedDigits?_append spells.areDigits, spells.stands]

theorem fixedDigits?_bind
    (spells : Spells width value digits)
    (rest : List Char)
    {Result : Type}
    (next : Nat × List Char → Option Result) :
    (fixedDigits? width (digits ++ rest) 0 >>= next) = next (value, rest) := by
  rw [spells.fixedDigits?_eq]
  rfl

theorem upToDigits?_eq
    (spells : Spells (width + 1) value digits)
    (rest : List Char) :
    upToDigits? (width + 1) (digits ++ rest) = some (value, rest) := by
  obtain ⟨digit, more, rfl⟩ := List.exists_cons_of_length_eq_add_one spells.hasWidth
  have notBlank := (plain_of_isDigit (spells.areDigits digit List.mem_cons_self)).1
  have start : (digit :: more ++ rest).dropWhile Text.isBlank = digit :: more ++ rest :=
    List.dropWhile_cons_of_neg (by simp [notBlank])
  have taken :
      ((digit :: more ++ rest).take (width + 1)).takeWhile Char.isDigit = digit :: more := by
    rw [← spells.hasWidth, List.take_left, List.takeWhile_eq_self_iff.mpr spells.areDigits]
  rw [upToDigits?, start, taken, if_neg (List.cons_ne_nil _ _), List.drop_left, digitsValue_eq,
    spells.stands]

theorem year?_eq
    (spells : Spells 4 value digits)
    (rest : List Char) :
    year? (digits ++ rest) = some ((value : Int), rest) := by
  have number := spells.upToDigits?_eq rest
  obtain ⟨digit, more, rfl⟩ := List.exists_cons_of_length_eq_add_one spells.hasWidth
  obtain ⟨notBlank, notMinus, notPlus⟩ :=
    plain_of_isDigit (spells.areDigits digit List.mem_cons_self)
  have start : (digit :: more ++ rest).dropWhile Text.isBlank = digit :: more ++ rest :=
    List.dropWhile_cons_of_neg (by simp [notBlank])
  rw [year?, start]
  split
  · rename_i isMinus
    exact absurd (List.cons.inj isMinus).1 notMinus
  · rename_i isPlus
    exact absurd (List.cons.inj isPlus).1 notPlus
  · rw [number]
    rfl

end Spells

section Order

variable
  {left right : List Char}

/-- Lists of characters are compared in their order. -/
theorem compare_eq_lt_of_lt (lower : left < right) : compare left right = .lt := by
  induction lower with
  | nil =>
      rfl
  | rel isLower =>
      rw [List.compare_cons_cons, compare_lt_iff_lt.mpr isLower]
      rfl
  | cons _ inductionHypothesis =>
      rw [List.compare_cons_cons, inductionHypothesis, compare_eq_iff_eq.mpr rfl]
      rfl

/-- What follows two lists of one length is of account only if the lists are the same. -/
theorem append_lt_append_iff_of_length
    (sameLength : left.length = right.length)
    {rest otherRest : List Char} :
    left ++ rest < right ++ otherRest ↔ left < right ∨ left = right ∧ rest < otherRest := by
  induction left generalizing right with
  | nil =>
      rw [List.eq_nil_of_length_eq_zero sameLength.symm]
      simp
  | cons char chars inductionHypothesis =>
      cases right with
      | nil =>
          cases sameLength
      | cons other others =>
          simp only [List.cons_append, List.cons_lt_cons_iff, List.cons.injEq,
            inductionHypothesis (Nat.succ.inj sameLength), and_or_left, and_assoc, or_assoc]

end Order

namespace Spells

variable
  {width value otherValue : Nat}
  {digits others : List Char}

theorem value_lt
    (spells : Spells width value digits)
    (otherSpells : Spells width otherValue others)
    (lower : digits < others) :
    value < otherValue := by
  rw [← spells.stands, ← otherSpells.stands]
  apply Version.ofDigitChars_lt_of_compare _ spells.areDigits otherSpells.areDigits
  · exact compare_eq_lt_of_lt lower
  · rw [spells.hasWidth, otherSpells.hasWidth]

/-- The digits have the order of the numbers, and only one number has the same digits. -/
theorem lt_iff_and_eq_iff
    (spells : Spells width value digits)
    (otherSpells : Spells width otherValue others) :
    (digits < others ↔ value < otherValue) ∧ (digits = others ↔ value = otherValue) := by
  rcases lt_trichotomy digits others with lower | same | higher
  · have valueLower := spells.value_lt otherSpells lower
    simp [lower, lower.ne, valueLower, valueLower.ne]
  · have valueSame : value = otherValue := by
      rw [← spells.stands, ← otherSpells.stands, same]
    simp [same, valueSame]
  · have valueHigher := otherSpells.value_lt spells higher
    simp [higher.asymm, higher.ne', valueHigher.asymm, valueHigher.ne']

/-- Texts that start with numbers of one width go by the numbers, then by what follows them. -/
theorem append_lt_append_iff
    (spells : Spells width value digits)
    (otherSpells : Spells width otherValue others)
    {rest otherRest : List Char} :
    digits ++ rest < others ++ otherRest ↔
      value < otherValue ∨ value = otherValue ∧ rest < otherRest := by
  have sameLength : digits.length = others.length := by
    rw [spells.hasWidth, otherSpells.hasWidth]
  obtain ⟨lowerIff, sameIff⟩ := spells.lt_iff_and_eq_iff otherSpells
  rw [append_lt_append_iff_of_length sameLength, lowerIff, sameIff]

end Spells

end ActivityCatalog.Timestamp
