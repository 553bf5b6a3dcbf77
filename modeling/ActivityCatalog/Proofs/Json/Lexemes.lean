import ActivityCatalog.Json.Token
import ActivityCatalog.Json.Writer
import Mathlib.Data.List.Basic
import Mathlib.Data.List.TakeWhile
import Mathlib.Data.Nat.Init

namespace ActivityCatalog.Json

/-!
# Numbers that are read back

A number is kept if its text is a lexeme that stands for it.  Every integer of 64 bits is
kept.  Doubles are rounded when they are read, so that whether one is kept has to be asked
of each.
-/

/-- The text of a number is a lexeme that stands for the number. -/
def Number.Kept (number : Number) : Prop :=
  ∃ lexeme, Lexeme.ofChars? number.text.toList = some lexeme ∧ lexeme.number? = some number

section Digits

variable {chars : List Char}

theorem takeDigits?_of_digits
    (some_ : chars ≠ [])
    (digits : ∀ char ∈ chars, char.isDigit = true) :
    takeDigits? chars = some (chars.map digitValue, []) := by
  have taken : chars.takeWhile Char.isDigit = chars :=
    List.takeWhile_eq_self_iff.mpr digits
  have left : chars.dropWhile Char.isDigit = [] :=
    List.dropWhile_eq_nil_iff.mpr digits
  unfold takeDigits?
  split
  · rename_i isEmpty
    exact absurd (taken.symm.trans isEmpty) some_
  · rw [taken, left]

/-- The digits of a natural make it up. -/
theorem digitsValue_toDigits (value : Nat) :
    digitsValue ((Nat.toDigits 10 value).map digitValue) = value := by
  have digits := Nat.ofDigitChars_toDigits (b := 10) (n := value) (by decide) (by decide)
  rw [digitsValue, List.foldl_map]
  simpa only [Nat.ofDigitChars, Nat.mul_comm, digitValue] using digits

theorem digitValue_digitChar
    {digit : Nat}
    (small : digit < 10) :
    digitValue digit.digitChar = digit := by
  rw [digitValue, Nat.toNat_digitChar_of_lt_ten small]
  exact Nat.add_sub_cancel_left 48 digit

/-- Only zero begins with a zero. -/
theorem head?_toDigits
    {value : Nat}
    (positive : 0 < value) :
    ((Nat.toDigits 10 value).map digitValue).head? ≠ some 0 := by
  induction value using Nat.strong_induction_on with
  | _ value inductionHypothesis =>
      by_cases small : value < 10
      · rw [Nat.toDigits_of_lt_base small, List.map_singleton, digitValue_digitChar small]
        exact fun isZero => positive.ne (Option.some.inj isZero).symm
      · have others : 10 ≤ value := Nat.le_of_not_lt small
        have notEmpty : (Nat.toDigits 10 (value / 10)).map digitValue ≠ [] :=
          List.map_eq_nil_iff.not.mpr Nat.toDigits_ne_nil
        rw [Nat.toDigits_of_base_le (by decide) others, List.map_append,
          List.head?_append_of_ne_nil _ notEmpty]
        exact inductionHypothesis (value / 10) (by omega) (by omega)

theorem unsigned?_toDigits (negative : Bool) (value : Nat) :
    Lexeme.unsigned? negative (Nat.toDigits 10 value) =
      some ⟨negative, (Nat.toDigits 10 value).map digitValue, none, none⟩ := by
  have digits : ∀ char ∈ Nat.toDigits 10 value, char.isDigit = true :=
    fun _ member => Nat.isDigit_of_mem_toDigits (by decide) (by decide) member
  have noLeadingZero :
      ¬(((Nat.toDigits 10 value).map digitValue).head? = some 0 ∧
        1 < ((Nat.toDigits 10 value).map digitValue).length) := by
    rintro ⟨leadingZero, moreDigits⟩
    rcases Nat.eq_zero_or_pos value with rfl | positive
    · exact absurd moreDigits (by decide)
    · exact head?_toDigits positive leadingZero
  rw [Lexeme.unsigned?, takeDigits?_of_digits Nat.toDigits_ne_nil digits]
  simp only [if_neg noLeadingZero]
  rfl

theorem ofChars?_toDigits (value : Nat) :
    Lexeme.ofChars? (Nat.toDigits 10 value) =
      some ⟨false, (Nat.toDigits 10 value).map digitValue, none, none⟩ := by
  rw [← unsigned?_toDigits]
  unfold Lexeme.ofChars?
  split
  · rename_i rest isMinus
    have isDigit : Char.isDigit '-' = true :=
      Nat.isDigit_of_mem_toDigits (by decide) (by decide) (isMinus ▸ List.mem_cons_self)
    cases isDigit
  · rfl

/-- The integers of 64 bits, signed or not, are kept. -/
theorem Number.kept_integer
    {value : Int}
    (least : -0x8000000000000000 ≤ value)
    (greatest : value ≤ Lexeme.greatestSignificand) :
    Number.Kept (.integer value) := by
  cases value with
  | ofNat value =>
      refine ⟨_, Nat.toList_repr ▸ ofChars?_toDigits value, ?_⟩
      have fits : value ≤ Lexeme.greatestSignificand := Int.ofNat_le.mp greatest
      simp [Lexeme.number?, Lexeme.integer?, digitsValue_toDigits, fits]
  | negSucc value =>
      have written :
          (Number.text (.integer (Int.negSucc value))).toList =
            '-' :: Nat.toDigits 10 (value + 1) := by
        rw [← Nat.toList_repr]
        exact String.toList_append
      refine ⟨_, (congrArg Lexeme.ofChars? written).trans (unsigned?_toDigits true (value + 1)), ?_⟩
      have fits : value + 1 ≤ 0x8000000000000000 := by
        omega
      have isInteger :
          Lexeme.integer? ⟨true, (Nat.toDigits 10 (value + 1)).map digitValue, none, none⟩ =
            some (Int.negSucc value) := by
        simp only [Lexeme.integer?, Option.isSome_none, Bool.false_eq_true, or_self, ↓reduceIte,
          digitsValue_toDigits]
        exact if_pos ⟨Nat.succ_pos value, fits⟩
      rw [Lexeme.number?, isInteger]

/-- Whether a number is an integer of 64 bits, signed or not. -/
def Number.fitsWord : Number → Bool
  | .integer value =>
      decide (-0x8000000000000000 ≤ value) && decide (value ≤ Lexeme.greatestSignificand)
  | .double _ =>
      false

theorem Number.kept_of_fitsWord
    {number : Number}
    (fits : number.fitsWord = true) :
    number.Kept := by
  cases number with
  | integer value =>
      obtain ⟨least, greatest⟩ := Bool.and_eq_true_iff.mp fits
      exact kept_integer (of_decide_eq_true least) (of_decide_eq_true greatest)
  | double value =>
      cases fits

end Digits

section Characters

variable {chars : List Char}

theorem isNumberChar_of_isDigit
    {char : Char}
    (isDigit : char.isDigit = true) :
    isNumberChar char = true := by
  simp [isNumberChar, isDigit]

/-- Digits are taken off the front. -/
theorem eq_append_of_takeDigits?
    {digits : List Nat}
    {rest : List Char}
    (taken : takeDigits? chars = some (digits, rest)) :
    ∃ front, chars = front ++ rest ∧ front ≠ [] ∧ ∀ char ∈ front, char.isDigit = true := by
  unfold takeDigits? at taken
  split at taken
  · cases taken
  · rename_i notEmpty
    cases taken
    refine ⟨chars.takeWhile Char.isDigit, List.takeWhile_append_dropWhile.symm, notEmpty, ?_⟩
    exact fun _ member => List.mem_takeWhile_imp member

/-- What ends in number characters after digits is number characters. -/
theorem numberChars_of_takeDigits?
    {digits : List Nat}
    {rest : List Char}
    (taken : takeDigits? chars = some (digits, rest))
    (restNumber : ∀ char ∈ rest, isNumberChar char = true) :
    ∀ char ∈ chars, isNumberChar char = true := by
  obtain ⟨front, rfl, -, frontDigits⟩ := eq_append_of_takeDigits? taken
  refine List.forall_mem_append.mpr ⟨?_, restNumber⟩
  exact fun char member => isNumberChar_of_isDigit (frontDigits char member)

theorem numberChars_of_exponent?
    {exponent : Int}
    (isExponent : Lexeme.exponent? chars = some exponent) :
    ∀ char ∈ chars, isNumberChar char = true := by
  have ofDigits : ∀ {rest : List Char} {digits : List Nat}, takeDigits? rest = some (digits, []) →
      ∀ char ∈ rest, isNumberChar char = true :=
    fun taken => numberChars_of_takeDigits? taken (List.forall_mem_nil _)
  unfold Lexeme.exponent? at isExponent
  split at isExponent
  rename_i negative digits signTaken
  split at isExponent
  · rename_i taken
    split at signTaken <;> cases signTaken
    · exact List.forall_mem_cons.mpr ⟨rfl, ofDigits taken⟩
    · exact List.forall_mem_cons.mpr ⟨rfl, ofDigits taken⟩
    · exact ofDigits taken
  · cases isExponent

theorem numberChars_of_withExponent?
    {negative : Bool}
    {whole : List Nat}
    {fraction : Option (List Nat)}
    {lexeme : Lexeme}
    (isLexeme : Lexeme.withExponent? negative whole fraction chars = some lexeme) :
    ∀ char ∈ chars, isNumberChar char = true := by
  cases chars with
  | nil =>
      exact List.forall_mem_nil _
  | cons mark rest =>
      rw [Lexeme.withExponent?] at isLexeme
      split at isLexeme
      · rename_i isMark
        obtain ⟨exponent, isExponent, -⟩ := Option.map_eq_some_iff.mp isLexeme
        refine List.forall_mem_cons.mpr ⟨?_, numberChars_of_exponent? isExponent⟩
        rcases isMark with rfl | rfl <;> rfl
      · cases isLexeme

theorem numberChars_of_unsigned?
    {negative : Bool}
    {lexeme : Lexeme}
    (isLexeme : Lexeme.unsigned? negative chars = some lexeme) :
    ∀ char ∈ chars, isNumberChar char = true := by
  unfold Lexeme.unsigned? at isLexeme
  split at isLexeme
  · cases isLexeme
  · rename_i whole rest taken
    refine numberChars_of_takeDigits? taken ?_
    split at isLexeme
    · cases isLexeme
    · split at isLexeme
      · rename_i afterPoint
        split at isLexeme
        · cases isLexeme
        · rename_i fractionTaken
          exact List.forall_mem_cons.mpr ⟨rfl, numberChars_of_takeDigits? fractionTaken
            (numberChars_of_withExponent? isLexeme)⟩
      · exact numberChars_of_withExponent? isLexeme

/-- A lexeme begins with a minus or a digit. -/
theorem head_of_unsigned?
    {negative : Bool}
    {lexeme : Lexeme}
    (isLexeme : Lexeme.unsigned? negative chars = some lexeme) :
    ∃ first rest, chars = first :: rest ∧ first.isDigit = true := by
  unfold Lexeme.unsigned? at isLexeme
  split at isLexeme
  · cases isLexeme
  · rename_i whole rest taken
    obtain ⟨front, rfl, notEmpty, digits⟩ := eq_append_of_takeDigits? taken
    obtain ⟨first, others, rfl⟩ := List.exists_cons_of_ne_nil notEmpty
    exact ⟨first, others ++ rest, rfl, digits first List.mem_cons_self⟩

/-- The characters of a lexeme are those of numbers, the first a minus or a digit. -/
theorem numberChars_of_ofChars?
    {lexeme : Lexeme}
    (isLexeme : Lexeme.ofChars? chars = some lexeme) :
    ∃ first rest, chars = first :: rest ∧ (first = '-' ∨ first.isDigit = true) ∧
      ∀ char ∈ rest, isNumberChar char = true := by
  unfold Lexeme.ofChars? at isLexeme
  split at isLexeme
  · rename_i rest
    exact ⟨'-', rest, rfl, Or.inl rfl, numberChars_of_unsigned? isLexeme⟩
  · obtain ⟨first, rest, rfl, isDigit⟩ := head_of_unsigned? isLexeme
    exact ⟨first, rest, rfl, Or.inr isDigit,
      (List.forall_mem_cons.mp (numberChars_of_unsigned? isLexeme)).2⟩

end Characters

end ActivityCatalog.Json
