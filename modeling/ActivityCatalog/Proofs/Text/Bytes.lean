import Mathlib.Data.String.Basic
import Mathlib.Tactic.SplitIfs

namespace ActivityCatalog.Text

/-!
# Texts go by their bytes

Texts are ordered by their characters, one after another.  UTF-8 encodes a greater character by
bytes that are greater at the first place where they differ, so that texts have the same order
by their bytes.
-/

/-- The bytes of a text in UTF-8. -/
def bytes (text : String) : List UInt8 :=
  text.toUTF8.data.toList

theorem bytes_eq (text : String) : bytes text = text.toList.flatMap String.utf8EncodeChar := by
  rw [bytes, String.toUTF8, ← String.utf8Encode_toList, List.utf8Encode]
  simp

/-- Of two characters the greater one has the greater bytes, whatever follows them. -/
theorem encoded_lt
    {first second : Char}
    (lower : first < second)
    (firstRest secondRest : List UInt8) :
    String.utf8EncodeChar first ++ firstRest < String.utf8EncodeChar second ++ secondRest := by
  have lowerCode : first.val.toNat < second.val.toNat := lower
  have isCode : second.val.toNat < 0x110000 := by
    rcases second.valid with isLow | ⟨-, isHigh⟩
    · exact isLow.trans (by decide)
    · exact isHigh
  unfold String.utf8EncodeChar
  dsimp only
  -- Each character has one to four bytes; no byte of a longer code begins a shorter one.
  split_ifs
  all_goals
    simp only [List.cons_append, List.cons_lt_cons_iff, UInt8.lt_iff_toNat_lt, ← UInt8.toNat_inj,
      UInt8.toNat_ofNat', Nat.reducePow]
    simp (disch := omega) only [Nat.mod_eq_of_lt]
    omega

theorem encodedAll_lt
    {first second : List Char}
    (lower : first < second) :
    first.flatMap String.utf8EncodeChar < second.flatMap String.utf8EncodeChar := by
  induction lower with
  | @nil char rest =>
      obtain ⟨byte, others, isEncoded⟩ :=
        List.exists_cons_of_ne_nil (String.utf8EncodeChar_ne_nil (c := char))
      rw [List.flatMap_cons, isEncoded]
      exact List.nil_lt_cons _ _
  | rel isLower =>
      exact encoded_lt isLower _ _
  | cons _ inductionHypothesis =>
      exact List.append_left_lt inductionHypothesis

/-- The order of texts is that of their bytes. -/
theorem bytes_lt_bytes {left right : String} : bytes left < bytes right ↔ left < right := by
  have keeps : ∀ {first second : String}, first < second → bytes first < bytes second := by
    intro first second lower
    rw [bytes_eq, bytes_eq]
    exact encodedAll_lt lower
  constructor
  · intro lower
    rcases lt_trichotomy left right with isLower | rfl | isHigher
    · exact isLower
    · exact absurd lower (List.lt_irrefl _)
    · exact absurd lower (List.lt_asymm (keeps isHigher))
  · exact keeps

end ActivityCatalog.Text
