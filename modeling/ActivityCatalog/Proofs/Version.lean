import ActivityCatalog.Proofs.Text.Bytes
import ActivityCatalog.Version

namespace ActivityCatalog

/-!
# The orders of versions and keys are linear

A version is placed by its class, then by the number that it stands for if it is all digits,
and at last by its spelling.  Digits without leading zeros have the order of their values when
more digits come after fewer.  Each of the places is ordered linearly, so that versions are,
and keys with them; only equal texts share all places.
-/

section Places

variable
  {Item Place : Type}
  {order : Place → Place → Ordering}

theorem transCmp_on [Std.TransCmp order] (place : Item → Place) :
    Std.TransCmp fun left right => order (place left) (place right) where
  eq_swap := Std.OrientedCmp.eq_swap
  isLE_trans := Std.TransCmp.isLE_trans

end Places

namespace Version

/-- A version of digits, of which there is at least one. -/
def IsNumeral (version : String) : Prop :=
  version ≠ "" ∧ ∀ char ∈ version.toList, char.isDigit = true

/-- The number that a version of digits stands for. -/
def value (version : String) : Nat :=
  Nat.ofDigitChars 10 version.toList 0

section Digits

variable
  {digits left right : List Char}

theorem ofDigitChars_cons_zero (digit : Char) (digits : List Char) :
    Nat.ofDigitChars 10 (digit :: digits) 0 =
      10 ^ digits.length * (digit.toNat - '0'.toNat) + Nat.ofDigitChars 10 digits 0 := by
  rw [Nat.ofDigitChars_cons, Nat.ofDigitChars_eq_ofDigitChars_zero, Nat.mul_zero, Nat.zero_add]

theorem ofDigitChars_lt_pow (allDigits : ∀ char ∈ digits, char.isDigit = true) :
    Nat.ofDigitChars 10 digits 0 < 10 ^ digits.length := by
  induction digits with
  | nil =>
      exact Nat.one_pos
  | cons digit rest inductionHypothesis =>
      obtain ⟨isDigit, restDigits⟩ := List.forall_mem_cons.mp allDigits
      have restSmall := inductionHypothesis restDigits
      have isSmall : digit.toNat - '0'.toNat ≤ 9 :=
        Nat.sub_le_of_le_add (Char.isDigit_iff_toNat.mp isDigit).2
      have leads := Nat.mul_le_mul_left (10 ^ rest.length) isSmall
      rw [ofDigitChars_cons_zero, List.length_cons, Nat.pow_succ]
      omega

/-- Of two lists of as many digits the greater one has the greater value. -/
theorem ofDigitChars_lt_of_compare
    (sameLength : left.length = right.length)
    (leftDigits : ∀ char ∈ left, char.isDigit = true)
    (rightDigits : ∀ char ∈ right, char.isDigit = true)
    (lower : compare left right = .lt) :
    Nat.ofDigitChars 10 left 0 < Nat.ofDigitChars 10 right 0 := by
  induction left generalizing right with
  | nil =>
      rw [List.eq_nil_of_length_eq_zero sameLength.symm] at lower
      cases lower
  | cons digit rest inductionHypothesis =>
      cases right with
      | nil =>
          cases sameLength
      | cons other others =>
          obtain ⟨isDigit, restDigits⟩ := List.forall_mem_cons.mp leftDigits
          obtain ⟨-, otherDigits⟩ := List.forall_mem_cons.mp rightDigits
          have restLength : rest.length = others.length := Nat.succ.inj sameLength
          rw [ofDigitChars_cons_zero, ofDigitChars_cons_zero, restLength]
          rw [List.compare_cons_cons] at lower
          rcases Ordering.then_eq_lt.mp lower with leadsLower | ⟨leadsSame, restLower⟩
          · have isLower : digit < other := compareOfLessAndEq_eq_lt.mp leadsLower
            have codeLower : digit.toNat < other.toNat := isLower
            have isLeast := (Char.isDigit_iff_toNat.mp isDigit).1
            -- All that follows the lower digit does not make up for one more of the higher one.
            have leads : digit.toNat - '0'.toNat + 1 ≤ other.toNat - '0'.toNat := by
              omega
            have restSmall := restLength ▸ ofDigitChars_lt_pow restDigits
            have leadsOn := Nat.mul_le_mul_left (10 ^ others.length) leads
            rw [Nat.mul_add, Nat.mul_one] at leadsOn
            omega
          · obtain rfl := Std.LawfulEqCmp.eq_of_compare leadsSame
            have restValue := inductionHypothesis restLength restDigits otherDigits restLower
            omega

theorem ofDigitChars_lt_of_length
    (fewer : left.length < right.length)
    (leftDigits : ∀ char ∈ left, char.isDigit = true)
    (rightDigits : ∀ char ∈ right, char.isDigit = true)
    (leads : right.head? ≠ some '0') :
    Nat.ofDigitChars 10 left 0 < Nat.ofDigitChars 10 right 0 := by
  cases right with
  | nil =>
      exact absurd fewer (Nat.not_lt_zero _)
  | cons digit rest =>
      have isLeast := (Char.isDigit_iff_toNat.mp (rightDigits digit List.mem_cons_self)).1
      have notZero : digit.toNat ≠ '0'.toNat := by
        intro isZero
        exact leads (congrArg some (Char.toNat_inj.mp isZero))
      have positive : 1 ≤ digit.toNat - '0'.toNat := by
        omega
      calc
        Nat.ofDigitChars 10 left 0 < 10 ^ left.length := ofDigitChars_lt_pow leftDigits
        _ ≤ 10 ^ rest.length := Nat.pow_le_pow_right (by decide) (Nat.le_of_lt_succ fewer)
        _ ≤ 10 ^ rest.length * (digit.toNat - '0'.toNat) := Nat.le_mul_of_pos_right _ positive
        _ ≤ Nat.ofDigitChars 10 (digit :: rest) 0 := by
          rw [ofDigitChars_cons_zero]
          exact Nat.le_add_right _ _

theorem ofDigitChars_dropWhile (digits : List Char) :
    Nat.ofDigitChars 10 (digits.dropWhile (· == '0')) 0 = Nat.ofDigitChars 10 digits 0 := by
  induction digits with
  | nil =>
      rfl
  | cons digit rest inductionHypothesis =>
      rw [List.dropWhile_cons]
      split
      · rename_i isZero
        rw [inductionHypothesis, ofDigitChars_cons_zero, beq_iff_eq.mp isZero, Nat.sub_self,
          Nat.mul_zero, Nat.zero_add]
      · rfl

end Digits

instance : Std.TransCmp digitOrder :=
  inferInstanceAs (Std.TransCmp (compareLex (compareOn List.length) compare))

section Numerals

variable
  {left right : String}

theorem significant_isDigit
    {version : String}
    (isNumeral : IsNumeral version) :
    ∀ char ∈ significant version, char.isDigit = true := by
  intro char isSignificant
  exact isNumeral.2 char (List.dropWhile_subset _ isSignificant)

theorem head?_significant (version : String) : (significant version).head? ≠ some '0' := by
  intro leadsZero
  have notZero := List.head?_dropWhile_not (· == '0') version.toList
  rw [← significant, leadsZero] at notZero
  exact absurd notZero (by decide)

theorem value_lt_of_digitOrder
    (leftNumeral : IsNumeral left)
    (rightNumeral : IsNumeral right)
    (lower : digitOrder (significant left) (significant right) = .lt) :
    value left < value right := by
  have leftDigits := significant_isDigit leftNumeral
  have rightDigits := significant_isDigit rightNumeral
  rw [value, value, ← ofDigitChars_dropWhile left.toList, ← ofDigitChars_dropWhile right.toList]
  rcases Ordering.then_eq_lt.mp lower with fewer | ⟨sameLength, isLower⟩
  · exact ofDigitChars_lt_of_length (Nat.compare_eq_lt.mp fewer) leftDigits rightDigits
      (head?_significant right)
  · exact ofDigitChars_lt_of_compare (Nat.compare_eq_eq.mp sameLength) leftDigits rightDigits
      isLower

/-- Versions of digits with different values are ordered by their digits as by the values. -/
theorem digitOrder_of_value_ne
    (leftNumeral : IsNumeral left)
    (rightNumeral : IsNumeral right)
    (different : value left ≠ value right) :
    digitOrder (significant left) (significant right) = compare (value left) (value right) := by
  cases ordered : digitOrder (significant left) (significant right) with
  | lt =>
      exact (Nat.compare_eq_lt.mpr (value_lt_of_digitOrder leftNumeral rightNumeral ordered)).symm
  | gt =>
      have lower : digitOrder (significant right) (significant left) = .lt :=
        Std.OrientedCmp.lt_of_gt ordered
      exact (Nat.compare_eq_gt.mpr (value_lt_of_digitOrder rightNumeral leftNumeral lower)).symm
  | eq =>
      have sameDigits : significant left = significant right :=
        Std.LawfulEqCmp.eq_of_compare (Ordering.then_eq_eq.mp ordered).2
      refine absurd ?_ different
      rw [value, value, ← ofDigitChars_dropWhile left.toList, ← significant, sameDigits,
        significant, ofDigitChars_dropWhile]

end Numerals

section Kinds

variable
  {version : String}

theorem kind_eq_blank : kind version = .blank ↔ version = "" := by
  unfold kind
  by_cases isBlank : version = ""
  · simp [isBlank]
  · simp only [isBlank, ↓reduceIte, iff_false]
    split <;> simp

theorem kind_eq_digits : kind version = .digits ↔ IsNumeral version := by
  unfold kind IsNumeral
  by_cases isBlank : version = ""
  · simp [isBlank]
  · rw [if_neg isBlank, and_iff_right isBlank, ← List.all_eq_true]
    split <;> simp [*]

theorem kind_eq_other : kind version = .other ↔ version ≠ "" ∧ ¬IsNumeral version := by
  rw [← kind_eq_digits, Ne, ← kind_eq_blank]
  cases kind version <;> simp

end Kinds

/-- The digits that place a version among those of digits. -/
def placingDigits (version : String) : List Char :=
  if kind version = .digits then significant version else []

theorem order_eq (left right : String) :
    order left right =
      compareLex (compareOn fun version => (kind version).rank)
        (compareLex (fun left right => digitOrder (placingDigits left) (placingDigits right))
          compare) left right := by
  unfold order compareLex compareOn placingDigits
  cases leftKind : kind left <;> cases rightKind : kind right <;>
    simp only [leftKind, rightKind] <;> rfl

instance : Std.TransCmp order := by
  have placed : Std.TransCmp fun left right : String =>
      digitOrder (placingDigits left) (placingDigits right) :=
    transCmp_on placingDigits
  rw [funext₂ order_eq]
  infer_instance

instance : Std.LawfulEqCmp order where
  eq_of_compare {left right} ordered := by
    rw [order_eq] at ordered
    exact Std.LawfulEqCmp.eq_of_compare (compareLex_eq_eq.mp (compareLex_eq_eq.mp ordered).2).2

/-- Versions of different classes are ordered by their classes. -/
theorem order_of_rank_lt
    {left right : String}
    (lower : (kind left).rank < (kind right).rank) :
    order left right = .lt := by
  rw [order_eq]
  exact Ordering.then_eq_lt.mpr (.inl (Nat.compare_eq_lt.mpr lower))

/-- The empty version comes before every other one. -/
theorem order_empty_lt
    {version : String}
    (notEmpty : version ≠ "") :
    order "" version = .lt := by
  have notBlank : kind version ≠ .blank :=
    mt kind_eq_blank.mp notEmpty
  apply order_of_rank_lt
  rw [kind_eq_blank.mpr rfl]
  revert notBlank
  cases kind version <;> decide

theorem order_of_value_ne
    {left right : String}
    (leftNumeral : IsNumeral left)
    (rightNumeral : IsNumeral right)
    (different : value left ≠ value right) :
    order left right = compare (value left) (value right) := by
  have byDigits := digitOrder_of_value_ne leftNumeral rightNumeral different
  unfold order
  rw [kind_eq_digits.mpr leftNumeral, kind_eq_digits.mpr rightNumeral]
  dsimp only
  rw [byDigits]
  rcases Nat.lt_or_gt_of_ne different with isLower | isHigher
  · rw [Nat.compare_eq_lt.mpr isLower]
    rfl
  · rw [Nat.compare_eq_gt.mpr isHigher]
    rfl

end Version

namespace Key

instance : Std.TransCmp order := by
  have byVersion : Std.TransCmp fun left right : Key =>
      Version.order left.version right.version :=
    transCmp_on Key.version
  exact inferInstanceAs (Std.TransCmp (compareLex (compareOn Key.id)
    fun left right => Version.order left.version right.version))

instance : Std.LawfulEqCmp order where
  eq_of_compare {left right} ordered := by
    obtain ⟨sameId, sameVersion⟩ := Ordering.then_eq_eq.mp ordered
    rw [Key.mk.injEq]
    exact ⟨Std.LawfulEqCmp.eq_of_compare sameId, Std.LawfulEqCmp.eq_of_compare sameVersion⟩

/-- A key comes before another by the bytes of its id, or else by its version. -/
theorem order_eq_lt {left right : Key} :
    order left right = .lt ↔
      Text.bytes left.id < Text.bytes right.id ∨
        left.id = right.id ∧ Version.order left.version right.version = .lt := by
  rw [order, Ordering.then_eq_lt, Std.LawfulEqCmp.compare_eq_iff_eq, Text.bytes_lt_bytes]
  exact or_congr_left compareOfLessAndEq_eq_lt

end Key

/-- A way to order items that is linear and tells items apart. -/
structure IsLinear {Item : Type} (order : Item → Item → Ordering) : Prop where
  eq_iff : ∀ left right, order left right = .eq ↔ left = right
  swap : ∀ left right, order right left = (order left right).swap
  trans : ∀ first second third,
    order first second = .lt → order second third = .lt → order first third = .lt

theorem isLinear_of_lawful
    {Item : Type}
    (order : Item → Item → Ordering)
    [Std.TransCmp order]
    [Std.LawfulEqCmp order] :
    IsLinear order where
  eq_iff _ _ := Std.LawfulEqCmp.compare_eq_iff_eq
  swap _ _ := Std.OrientedCmp.eq_swap
  trans _ _ _ := Std.TransCmp.lt_trans

/--
Versions are ordered linearly, and only a version itself is equal to it.  The empty one is the
least, versions of digits go by their values where these differ and come before all others that
are not empty.  Keys are ordered linearly too, by the bytes of their ids and then by their
versions.
-/
theorem version_and_key_order :
    IsLinear Version.order ∧
      (∀ left right, Version.IsNumeral left → Version.IsNumeral right →
        Version.value left ≠ Version.value right →
          Version.order left right = compare (Version.value left) (Version.value right)) ∧
      (∀ version, version ≠ "" → Version.order "" version = .lt) ∧
      (∀ numeral other, Version.IsNumeral numeral → other ≠ "" → ¬Version.IsNumeral other →
        Version.order numeral other = .lt) ∧
      IsLinear Key.order ∧
      ∀ left right, Key.order left right = .lt ↔
        Text.bytes left.id < Text.bytes right.id ∨
          left.id = right.id ∧ Version.order left.version right.version = .lt := by
  refine ⟨isLinear_of_lawful _, ?_, ?_, ?_, isLinear_of_lawful _, ?_⟩
  · intro left right leftNumeral rightNumeral different
    exact Version.order_of_value_ne leftNumeral rightNumeral different
  · intro version notEmpty
    apply Version.order_of_rank_lt
    have isBlank : Version.kind "" = .blank := Version.kind_eq_blank.mpr rfl
    have notBlank : Version.kind version ≠ .blank := mt Version.kind_eq_blank.mp notEmpty
    rw [isBlank]
    cases ofKind : Version.kind version with
    | blank =>
        exact absurd ofKind notBlank
    | digits =>
        decide
    | other =>
        decide
  · intro numeral other isNumeral notEmpty notNumeral
    apply Version.order_of_rank_lt
    rw [Version.kind_eq_digits.mpr isNumeral, Version.kind_eq_other.mpr ⟨notEmpty, notNumeral⟩]
    decide
  · intro left right
    exact Key.order_eq_lt

example :
    Version.order "01" "1" = .lt ∧ Version.order "1" "002" = .lt ∧
      Version.order "002" "1a" = .lt := by
  decide

end ActivityCatalog
