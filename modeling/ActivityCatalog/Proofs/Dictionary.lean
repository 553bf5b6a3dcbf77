import ActivityCatalog.Dictionary
import Mathlib.Data.String.Basic
import Mathlib.Data.List.Nodup
import Mathlib.Data.List.Perm.Basic

namespace ActivityCatalog.Dictionary

/-!
# Dictionaries as sorted lists

Whatever is stored in a dictionary leaves it sorted.  Sorted lists with the same
entries are the same list, so that entries with different keys may be stored in any
order, and a dictionary is what its own entries make.
-/

variable {Value : Type}

theorem eq_or_mem_of_mem_insert
    {key : String}
    {value : Value}
    {entries : Dictionary Value}
    {entry : String × Value}
    (member : entry ∈ insert key value entries) :
    entry = (key, value) ∨ entry ∈ entries := by
  induction entries with
  | nil =>
      exact Or.inl (List.mem_singleton.mp member)
  | cons held rest inductionHypothesis =>
      rw [insert] at member
      split at member
      · exact (List.mem_cons.mp member).imp_right id
      · exact (List.mem_cons.mp member).imp_right (List.mem_cons_of_mem held)
      · rcases List.mem_cons.mp member with isHeld | inRest
        · exact Or.inr (isHeld ▸ List.mem_cons_self)
        · exact (inductionHypothesis inRest).imp_right (List.mem_cons_of_mem held)

/-- Storing an entry keeps a dictionary sorted. -/
theorem sorted_insert
    {entries : Dictionary Value}
    (sorted : Sorted entries)
    (key : String)
    (value : Value) :
    Sorted (insert key value entries) := by
  induction entries with
  | nil =>
      exact List.pairwise_singleton _ _
  | cons held rest inductionHypothesis =>
      obtain ⟨heldLeast, restSorted⟩ := List.pairwise_cons.mp sorted
      rw [insert]
      split
      · rename_i order
        have keyLeast : key < held.1 := compare_lt_iff_lt.mp order
        refine List.pairwise_cons.mpr ⟨?_, sorted⟩
        intro entry member
        rcases List.mem_cons.mp member with isHeld | inRest
        · exact isHeld ▸ keyLeast
        · exact keyLeast.trans (heldLeast entry inRest)
      · rename_i order
        have sameKey : key = held.1 := compare_eq_iff_eq.mp order
        refine List.pairwise_cons.mpr ⟨?_, restSorted⟩
        intro entry inRest
        exact sameKey ▸ heldLeast entry inRest
      · rename_i order
        have heldLess : held.1 < key := compare_gt_iff_gt.mp order
        refine List.pairwise_cons.mpr ⟨?_, inductionHypothesis restSorted⟩
        intro entry member
        rcases eq_or_mem_of_mem_insert member with isNew | inRest
        · exact isNew ▸ heldLess
        · exact heldLeast entry inRest

theorem sorted_insertAll
    {start : Dictionary Value}
    (sorted : Sorted start)
    (entries : List (String × Value)) :
    Sorted (insertAll entries start) := by
  induction entries generalizing start with
  | nil =>
      exact sorted
  | cons entry rest inductionHypothesis =>
      exact inductionHypothesis (sorted_insert sorted entry.1 entry.2)

theorem sorted_ofList (entries : List (String × Value)) : Sorted (ofList entries) :=
  sorted_insertAll List.Pairwise.nil entries

/-- The keys of a sorted list are different. -/
theorem Sorted.keys_nodup
    {entries : Dictionary Value}
    (sorted : Sorted entries) :
    (keys entries).Nodup := by
  have increasing : (keys entries).Pairwise (· < ·) :=
    List.pairwise_map.mpr sorted
  exact increasing.imp fun less => less.ne

theorem Sorted.filter
    {entries : Dictionary Value}
    (sorted : Sorted entries)
    (keep : String × Value → Bool) :
    Sorted (entries.filter keep) :=
  List.Pairwise.filter keep sorted

/-- What is found under a key of a sorted list is the entry of the key. -/
theorem Sorted.get?_eq_some
    {entries : Dictionary Value}
    (sorted : Sorted entries)
    {key : String}
    {value : Value} :
    get? key entries = some value ↔ (key, value) ∈ entries := by
  induction entries with
  | nil =>
      simp [get?]
  | cons entry rest inductionHypothesis =>
      obtain ⟨least, restSorted⟩ := List.pairwise_cons.mp sorted
      rw [get?, List.mem_cons]
      by_cases isFirst : entry.1 = key
      · subst isFirst
        have notInRest : (entry.1, value) ∉ rest :=
          fun inRest => (least _ inRest).ne rfl
        simp [notInRest, Prod.ext_iff, eq_comm]
      · have notFirst : (key, value) ≠ entry := by
          rintro rfl
          exact isFirst rfl
        simp [isFirst, notFirst, inductionHypothesis restSorted]

/-- Sorted lists of the same entries are the same list. -/
theorem Sorted.eq_of_perm
    {first second : Dictionary Value}
    (firstSorted : Sorted first)
    (secondSorted : Sorted second)
    (sameEntries : first.Perm second) :
    first = second :=
  sameEntries.eq_of_pairwise
    (fun _ _ _ _ less greater => absurd (less.trans greater) (lt_irrefl _))
    firstSorted secondSorted

/-- Sorted lists in which the same entries are found are the same list. -/
theorem Sorted.eq_of_mem_iff
    {first second : Dictionary Value}
    (firstSorted : Sorted first)
    (secondSorted : Sorted second)
    (sameEntries : ∀ entry, entry ∈ first ↔ entry ∈ second) :
    first = second :=
  firstSorted.eq_of_perm secondSorted <|
    (List.perm_ext_iff_of_nodup (List.Nodup.of_map _ firstSorted.keys_nodup)
      (List.Nodup.of_map _ secondSorted.keys_nodup)).mpr sameEntries

/-- An entry under a new key is added to the others. -/
theorem insert_perm
    {key : String}
    {entries : Dictionary Value}
    (fresh : key ∉ keys entries)
    (value : Value) :
    (insert key value entries).Perm ((key, value) :: entries) := by
  induction entries with
  | nil =>
      exact List.Perm.refl _
  | cons held rest inductionHypothesis =>
      have different : key ≠ held.1 := fun same => fresh (same ▸ List.mem_cons_self)
      have freshInRest : key ∉ keys rest := fun member => fresh (List.mem_cons_of_mem _ member)
      rw [insert]
      split
      · exact List.Perm.refl _
      · rename_i order
        exact absurd (compare_eq_iff_eq.mp order) different
      · exact ((inductionHypothesis freshInRest).cons held).trans (List.Perm.swap _ _ _)

/-- Entries under new keys are added to the others. -/
theorem insertAll_perm
    {entries : List (String × Value)}
    {start : Dictionary Value}
    (different : (keys (entries ++ start)).Nodup) :
    (insertAll entries start).Perm (entries ++ start) := by
  induction entries generalizing start with
  | nil =>
      exact List.Perm.refl _
  | cons entry rest inductionHypothesis =>
      have fresh : entry.1 ∉ keys start := by
        intro member
        exact (List.nodup_cons.mp different).1
          (List.map_append ▸ List.mem_append_right _ member)
      have added : (rest ++ insert entry.1 entry.2 start).Perm (entry :: rest ++ start) :=
        ((insert_perm fresh entry.2).append_left rest).trans List.perm_middle
      have restDifferent : (keys (rest ++ insert entry.1 entry.2 start)).Nodup :=
        (added.map Prod.fst).nodup_iff.mpr different
      exact (inductionHypothesis restDifferent).trans added

theorem ofList_perm
    {entries : List (String × Value)}
    (different : (keys entries).Nodup) :
    (ofList entries).Perm entries := by
  have stored : (insertAll entries []).Perm (entries ++ []) :=
    insertAll_perm ((List.append_nil entries).symm ▸ different)
  rwa [List.append_nil] at stored

/-- Entries that are made of items are those of the items in another order. -/
theorem exists_ofList_map_eq
    {Item : Type}
    {items : List Item}
    {entry : Item → String × Value}
    (different : ((items.map entry).map Prod.fst).Nodup) :
    ∃ listed : List Item, ofList (items.map entry) = listed.map entry ∧ listed.Perm items := by
  have reordered : (ofList (items.map entry)).Perm (items.map entry) :=
    ofList_perm different
  rwa [← congrFun (congrFun (List.eq_map_comp_perm entry) (ofList (items.map entry))) items]
    at reordered

/-- Storing entries gives the sorted list of them and what there was, if it is one. -/
theorem insertAll_eq_of_perm
    {entries : List (String × Value)}
    {start whole : Dictionary Value}
    (startSorted : Sorted start)
    (wholeSorted : Sorted whole)
    (sameEntries : (entries ++ start).Perm whole) :
    insertAll entries start = whole := by
  have different : (keys (entries ++ start)).Nodup :=
    (sameEntries.map Prod.fst).nodup_iff.mpr wholeSorted.keys_nodup
  exact (sorted_insertAll startSorted entries).eq_of_perm wholeSorted
    ((insertAll_perm different).trans sameEntries)

/-- A dictionary is what its entries make, in any order. -/
theorem ofList_eq_of_perm
    {entries : List (String × Value)}
    {whole : Dictionary Value}
    (sorted : Sorted whole)
    (sameEntries : entries.Perm whole) :
    ofList entries = whole :=
  insertAll_eq_of_perm List.Pairwise.nil sorted
    ((List.append_nil entries).symm ▸ sameEntries)

theorem Sorted.ofList_eq
    {entries : Dictionary Value}
    (sorted : Sorted entries) :
    ofList entries = entries :=
  ofList_eq_of_perm sorted (List.Perm.refl entries)

/-- What is stored comes from the entries or was there before. -/
theorem mem_of_mem_insertAll
    {entries : List (String × Value)}
    {start : Dictionary Value}
    {entry : String × Value}
    (member : entry ∈ insertAll entries start) :
    entry ∈ entries ∨ entry ∈ start := by
  induction entries generalizing start with
  | nil =>
      exact Or.inr member
  | cons first rest inductionHypothesis =>
      rcases inductionHypothesis member with inRest | inserted
      · exact Or.inl (List.mem_cons_of_mem first inRest)
      · rcases eq_or_mem_of_mem_insert inserted with isFirst | before
        · exact Or.inl (isFirst ▸ List.mem_cons_self)
        · exact Or.inr before

/-- An entry goes before one with a greater key. -/
theorem insert_of_lt
    {key name : String}
    (less : key < name)
    (value held : Value)
    (rest : Dictionary Value) :
    insert key value ((name, held) :: rest) = (key, value) :: (name, held) :: rest := by
  simp [insert, compare_lt_iff_lt.mpr less]

/-- An entry goes behind one with a smaller key. -/
theorem insert_of_gt
    {key name : String}
    (greater : name < key)
    (value held : Value)
    (rest : Dictionary Value) :
    insert key value ((name, held) :: rest) = (name, held) :: insert key value rest := by
  simp [insert, compare_gt_iff_gt.mpr greater]

/-- An entry takes the place of one with its key. -/
theorem insert_of_eq
    (key : String)
    (value held : Value)
    (rest : Dictionary Value) :
    insert key value ((key, held) :: rest) = (key, value) :: rest := by
  simp [insert]

/-- Storing what is found under a key changes nothing. -/
theorem Sorted.insert_eq_self
    {entries : Dictionary Value}
    (sorted : Sorted entries)
    {key : String}
    {value : Value}
    (found : get? key entries = some value) :
    insert key value entries = entries := by
  induction entries with
  | nil =>
      cases found
  | cons entry rest inductionHypothesis =>
      obtain ⟨name, held⟩ := entry
      obtain ⟨least, restSorted⟩ := List.pairwise_cons.mp sorted
      rcases List.mem_cons.mp (sorted.get?_eq_some.mp found) with isFirst | inRest
      · cases isFirst
        exact insert_of_eq key value value rest
      · rw [insert_of_gt (least _ inRest),
          inductionHypothesis restSorted ((Sorted.get?_eq_some restSorted).mpr inRest)]

/-- Entries under different keys may be stored in either order, the smaller first. -/
theorem insert_comm_of_lt
    {key other : String}
    (less : key < other)
    (value held : Value)
    (entries : Dictionary Value) :
    insert key value (insert other held entries) =
      insert other held (insert key value entries) := by
  induction entries with
  | nil =>
      rw [insert, insert_of_lt less, insert, insert_of_gt less, insert]
  | cons entry rest inductionHypothesis =>
      obtain ⟨name, stored⟩ := entry
      rcases lt_trichotomy key name with keyLess | rfl | keyGreater
      · rw [insert_of_lt keyLess, insert_of_gt less]
        rcases lt_trichotomy other name with otherLess | rfl | otherGreater
        · rw [insert_of_lt otherLess, insert_of_lt less]
        · rw [insert_of_eq, insert_of_lt less]
        · rw [insert_of_gt otherGreater, insert_of_lt keyLess]
      · rw [insert_of_gt less, insert_of_eq, insert_of_eq, insert_of_gt less]
      · have otherGreater : name < other := keyGreater.trans less
        rw [insert_of_gt keyGreater, insert_of_gt otherGreater, insert_of_gt otherGreater,
          insert_of_gt keyGreater, inductionHypothesis]

/-- Entries under different keys may be stored in either order. -/
theorem insert_comm
    {key other : String}
    (different : key ≠ other)
    (value held : Value)
    (entries : Dictionary Value) :
    insert key value (insert other held entries) =
      insert other held (insert key value entries) := by
  rcases lt_or_gt_of_ne different with less | greater
  · exact insert_comm_of_lt less value held entries
  · exact (insert_comm_of_lt greater held value entries).symm

end ActivityCatalog.Dictionary
