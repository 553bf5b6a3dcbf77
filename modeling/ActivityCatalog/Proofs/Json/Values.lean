import ActivityCatalog.Json.Reader
import ActivityCatalog.Proofs.Dictionary
import ActivityCatalog.Proofs.Stepwise

namespace ActivityCatalog.Json

/-!
# Values that are read back

The document of a value reads as the canonical form of the value, as far as there is
room for it, and whatever is read is canonical and fits the room.  So a value that was
read is read back as it is.
-/

namespace Document

theorem ofItems_eq (items : List Value) : ofItems items = items.map ofValue := by
  induction items with
  | nil =>
      rfl
  | cons item rest inductionHypothesis =>
      rw [ofItems, inductionHypothesis, List.map_cons]

theorem ofMembers_eq (members : List (String × Value)) :
    ofMembers members = members.map fun member => (some member.1, ofValue member.2) := by
  induction members with
  | nil =>
      rfl
  | cons member rest inductionHypothesis =>
      rw [ofMembers, inductionHypothesis, List.map_cons]

@[simp] theorem ofValue_array (items : List Value) :
    ofValue (.array items) = .array (items.map ofValue) := by
  rw [ofValue, ofItems_eq]

@[simp] theorem ofValue_object (members : List (String × Value)) :
    ofValue (.object members) =
      .object (members.map fun member => (some member.1, ofValue member.2)) := by
  rw [ofValue, ofMembers_eq]

end Document

namespace Value

theorem canonicalItems_eq (items : List Value) :
    canonicalItems items = items.map canonical := by
  induction items with
  | nil =>
      rfl
  | cons item rest inductionHypothesis =>
      rw [canonicalItems, inductionHypothesis, List.map_cons]

theorem canonicalMembers_eq (members : List (String × Value)) :
    canonicalMembers members = members.map fun member => (member.1, member.2.canonical) := by
  induction members with
  | nil =>
      rfl
  | cons member rest inductionHypothesis =>
      rw [canonicalMembers, inductionHypothesis, List.map_cons]

@[simp] theorem canonical_array (items : List Value) :
    (array items).canonical = .array (items.map canonical) := by
  rw [canonical, canonicalItems_eq]

@[simp] theorem canonical_object (members : List (String × Value)) :
    (object members).canonical =
      .object (Dictionary.ofList
        (members.map fun member => (member.1, member.2.canonical))) := by
  rw [canonical, canonicalMembers_eq]

theorem depthItems_le
    {items : List Value}
    {room : Nat} :
    depthItems items ≤ room ↔ ∀ item ∈ items, item.depth ≤ room := by
  induction items with
  | nil =>
      simp [depthItems]
  | cons item rest inductionHypothesis =>
      rw [depthItems, Nat.max_le, inductionHypothesis, List.forall_mem_cons]

theorem depthMembers_le
    {members : List (String × Value)}
    {room : Nat} :
    depthMembers members ≤ room ↔ ∀ member ∈ members, member.2.depth ≤ room := by
  induction members with
  | nil =>
      simp [depthMembers]
  | cons member rest inductionHypothesis =>
      rw [depthMembers, Nat.max_le, inductionHypothesis, List.forall_mem_cons]

theorem depth_array_le_succ
    {items : List Value}
    {room : Nat} :
    (array items).depth ≤ room + 1 ↔ ∀ item ∈ items, item.depth ≤ room := by
  rw [depth, Nat.succ_le_succ_iff, depthItems_le]

theorem depth_object_le_succ
    {members : List (String × Value)}
    {room : Nat} :
    (object members).depth ≤ room + 1 ↔ ∀ member ∈ members, member.2.depth ≤ room := by
  rw [depth, Nat.succ_le_succ_iff, depthMembers_le]

/-- An array takes room for itself and fits if its items fit inside. -/
theorem depth_array_le
    {items : List Value}
    {room : Nat} :
    (array items).depth ≤ room ↔
      ∃ inner, room = inner + 1 ∧ ∀ item ∈ items, item.depth ≤ inner := by
  cases room with
  | zero =>
      simp [depth]
  | succ room =>
      simp only [depth_array_le_succ, Nat.succ.injEq, exists_eq_left']

/-- An object takes room for itself and fits if its members fit inside. -/
theorem depth_object_le
    {members : List (String × Value)}
    {room : Nat} :
    (object members).depth ≤ room ↔
      ∃ inner, room = inner + 1 ∧ ∀ member ∈ members, member.2.depth ≤ inner := by
  cases room with
  | zero =>
      simp [depth]
  | succ room =>
      simp only [depth_object_le_succ, Nat.succ.injEq, exists_eq_left']

/-- No item of an array is lost in the canonical form. -/
theorem depth_array_le_canonical
    {items : List Value}
    (deep : ∀ item ∈ items, item.depth ≤ item.canonical.depth) :
    (array items).depth ≤ (array items).canonical.depth := by
  rw [canonical_array]
  obtain ⟨room, isDepth, fits⟩ :=
    depth_array_le.mp (Nat.le_refl (array (items.map canonical)).depth)
  rw [isDepth, depth_array_le_succ]
  intro item isItem
  exact (deep item isItem).trans (fits item.canonical (List.mem_map_of_mem isItem))

/-- No member of an object is lost in the canonical form if the names are different. -/
theorem depth_object_le_canonical
    {members : List (String × Value)}
    (different : (members.map Prod.fst).Nodup)
    (deep : ∀ member ∈ members, member.2.depth ≤ member.2.canonical.depth) :
    (object members).depth ≤ (object members).canonical.depth := by
  rw [canonical_object]
  obtain ⟨room, isDepth, fits⟩ := depth_object_le.mp (Nat.le_refl (object (Dictionary.ofList
    (members.map fun member => (member.1, member.2.canonical)))).depth)
  rw [isDepth, depth_object_le_succ]
  intro member isMember
  have sameNames :
      ((members.map fun member => (member.1, member.2.canonical)).map Prod.fst) =
        members.map Prod.fst :=
    List.map_map
  have listed := Dictionary.ofList_perm (sameNames.symm ▸ different)
  exact (deep member isMember).trans
    (fits (member.1, member.2.canonical) (listed.symm.subset (List.mem_map_of_mem isMember)))

theorem map_canonical
    {members : List (String × Value)}
    (canonicalMembers : ∀ member ∈ members, member.2.canonical = member.2) :
    (members.map fun member => (member.1, member.2.canonical)) = members := by
  refine Eq.trans (List.map_congr_left ?_) (List.map_id members)
  exact fun member isMember => Prod.ext rfl (canonicalMembers member isMember)

/-- An array is canonical if its items are. -/
theorem canonical_array_eq_self
    {items : List Value} :
    (array items).canonical = array items ↔ ∀ item ∈ items, item.canonical = item := by
  rw [canonical_array, array.injEq]
  constructor
  · exact fun isOwn => List.map_inj_left.mp (isOwn.trans (List.map_id items).symm)
  · exact fun itemsCanonical => (List.map_congr_left itemsCanonical).trans (List.map_id items)

/-- An object is canonical if its members are a dictionary of canonical values. -/
theorem canonical_object_eq_self
    {members : List (String × Value)} :
    (object members).canonical = object members ↔
      Dictionary.Sorted members ∧ ∀ member ∈ members, member.2.canonical = member.2 := by
  rw [canonical_object, object.injEq]
  have sortedAlike :
      Dictionary.Sorted (members.map fun member => (member.1, member.2.canonical)) ↔
        Dictionary.Sorted members :=
    List.pairwise_map
  constructor
  · intro isOwn
    have sorted : Dictionary.Sorted members :=
      isOwn ▸ Dictionary.sorted_ofList _
    rw [(sortedAlike.mpr sorted).ofList_eq] at isOwn
    refine ⟨sorted, ?_⟩
    intro member isMember
    have sameMembers := List.map_inj_left.mp (isOwn.trans (List.map_id _).symm)
    exact congrArg Prod.snd (sameMembers member isMember)
  · rintro ⟨sorted, canonicalMembers⟩
    rw [map_canonical canonicalMembers, sorted.ofList_eq]

end Value

namespace Reader

variable {Result : Type}

/-- Members that are read one after another are stored one after another. -/
theorem foldlM_insertMember
    {Item : Type}
    {reader : Document → Except ReadError Result}
    {items : List Item}
    {name : Item → String}
    {document : Item → Document}
    {result : Item → Result}
    (reads : ∀ item ∈ items, reader (document item) = .ok (result item))
    (start : Dictionary Result) :
    (items.map fun item => (some (name item), document item)).foldlM (insertMember reader) start =
      .ok (Dictionary.insertAll (items.map fun item => (name item, result item)) start) := by
  induction items generalizing start with
  | nil =>
      rfl
  | cons item rest inductionHypothesis =>
      obtain ⟨readsFirst, readsRest⟩ := List.forall_mem_cons.mp reads
      have inserted :
          insertMember reader start (some (name item), document item) =
            .ok (Dictionary.insert (name item) (result item) start) := by
        simp only [insertMember, nameOf, readsFirst, bind, Except.bind, pure, Except.pure]
      rw [List.map_cons, List.foldlM_cons, inserted]
      exact inductionHypothesis readsRest _

/-- A dictionary that is read is sorted, and each of its values was read. -/
theorem sorted_of_foldlM_insertMember
    {reader : Document → Except ReadError Result}
    {members : List (Option String × Document)}
    {entries : Dictionary Result}
    (ran : members.foldlM (insertMember reader) [] = .ok entries) :
    Dictionary.Sorted entries ∧
      ∀ entry ∈ entries, ∃ document, reader document = .ok entry.2 := by
  refine foldlM_induction
    (motive := fun _ held => Dictionary.Sorted held ∧
      ∀ entry ∈ held, ∃ document, reader document = .ok entry.2)
    ⟨List.Pairwise.nil, by simp⟩ ?_ ran
  rintro done member held next ⟨sorted, wereRead⟩ stepped
  obtain ⟨name, -, stepped⟩ := bind_eq_ok.mp stepped
  obtain ⟨result, readResult, stepped⟩ := bind_eq_ok.mp stepped
  cases stepped
  refine ⟨Dictionary.sorted_insert sorted name result, ?_⟩
  intro entry isEntry
  rcases Dictionary.eq_or_mem_of_mem_insert isEntry with isNew | before
  · exact ⟨member.2, isNew ▸ readResult⟩
  · exact wereRead entry before

/-- The document of a value reads as the canonical form of the value. -/
theorem value_ofValue
    {room : Nat}
    {value : Value}
    (fits : value.depth ≤ room) :
    Reader.value room (Document.ofValue value) = .ok value.canonical := by
  induction room generalizing value with
  | zero =>
      cases value with
      | array items =>
          simp [Value.depth] at fits
      | object members =>
          simp [Value.depth] at fits
      | null | bool | number | string =>
          rfl
  | succ room inductionHypothesis =>
      cases value with
      | array items =>
          have itemsFit := Value.depth_array_le_succ.mp fits
          have ran : (items.map Document.ofValue).mapM (Reader.value room) =
              .ok (items.map Value.canonical) := by
            refine mapM_eq_ok.mpr ?_
            refine List.forall₂_map_left_iff.mpr (List.forall₂_map_right_iff.mpr ?_)
            refine List.forall₂_same.mpr ?_
            intro item isItem
            exact inductionHypothesis (itemsFit item isItem)
          rw [Document.ofValue_array, Reader.value, ran, Value.canonical_array]
          rfl
      | object members =>
          have membersFit := Value.depth_object_le_succ.mp fits
          have ran :
              (members.map fun member => (some member.1, Document.ofValue member.2)).foldlM
                  (insertMember (Reader.value room)) [] =
                .ok (Dictionary.ofList
                  (members.map fun member => (member.1, member.2.canonical))) :=
            foldlM_insertMember
              (fun member isMember => inductionHypothesis (membersFit member isMember)) []
          rw [Document.ofValue_object, Reader.value, ran, Value.canonical_object]
          rfl
      | null | bool | number | string =>
          rfl

/-- A value that is read is canonical and fits the room. -/
theorem canonical_of_value
    {room : Nat}
    {document : Document}
    {value : Value}
    (wasRead : Reader.value room document = .ok value) :
    value.canonical = value ∧ value.depth ≤ room := by
  induction room using Nat.strong_induction_on generalizing document value with
  | _ room inductionHypothesis =>
      fun_cases Reader.value room document
      case case9 room items =>
        obtain ⟨values, ran, rfl⟩ := map_eq_ok.mp wasRead
        have wereRead : ∀ item ∈ values, item.canonical = item ∧ item.depth ≤ room := by
          intro item isItem
          obtain ⟨_, -, itemRead⟩ := exists_of_mem_of_mapM ran isItem
          exact inductionHypothesis room (Nat.lt_succ_self room) itemRead
        rw [Value.canonical_array, Value.depth_array_le_succ]
        refine ⟨?_, fun item isItem => (wereRead item isItem).2⟩
        rw [List.map_congr_left fun item isItem => (wereRead item isItem).1, List.map_id']
      case case10 room members =>
        obtain ⟨entries, ran, rfl⟩ := map_eq_ok.mp wasRead
        obtain ⟨sorted, wereRead⟩ := sorted_of_foldlM_insertMember ran
        have membersRead :
            ∀ member ∈ entries, member.2.canonical = member.2 ∧ member.2.depth ≤ room := by
          intro member isMember
          obtain ⟨_, memberRead⟩ := wereRead member isMember
          exact inductionHypothesis room (Nat.lt_succ_self room) memberRead
        rw [Value.canonical_object_eq_self, Value.depth_object_le_succ]
        exact ⟨⟨sorted, fun member isMember => (membersRead member isMember).1⟩,
          fun member isMember => (membersRead member isMember).2⟩
      all_goals
        rw [Reader.value] at wasRead
        cases wasRead <;> exact ⟨rfl, Nat.zero_le _⟩

/-- Reading something that may be absent and is there takes the reader of it. -/
theorem of_optional
    {reader : Reader Result}
    {room : Nat}
    {document : Document}
    {result : Result}
    (wasRead : optional reader room document = .ok (some result)) :
    reader room document = .ok result := by
  unfold optional at wasRead
  split at wasRead
  · cases wasRead
  · obtain ⟨_, itemRead, made⟩ := map_eq_ok.mp wasRead
    cases made
    exact itemRead

/-- Reading a list takes room for one container, and its items are read inside. -/
theorem of_list
    {reader : Reader Result}
    {room : Nat}
    {document : Document}
    {items : List Result}
    (wasRead : list reader room document = .ok items) :
    ∃ inner, room = inner + 1 ∧
      ∀ item ∈ items, ∃ document, reader inner document = .ok item := by
  unfold list at wasRead
  split at wasRead
  case h_2 inner documents =>
    refine ⟨inner, rfl, fun item isItem => ?_⟩
    obtain ⟨document, -, itemRead⟩ := exists_of_mem_of_mapM wasRead isItem
    exact ⟨document, itemRead⟩
  all_goals cases wasRead

/-- Reading a dictionary takes room for one container, and its values are read inside. -/
theorem of_dictionary
    {reader : Reader Result}
    {room : Nat}
    {document : Document}
    {entries : Dictionary Result}
    (wasRead : dictionary reader room document = .ok entries) :
    ∃ inner, room = inner + 1 ∧ Dictionary.Sorted entries ∧
      ∀ entry ∈ entries, ∃ document, reader inner document = .ok entry.2 := by
  unfold dictionary at wasRead
  split at wasRead
  case h_2 inner members =>
    exact ⟨inner, rfl, sorted_of_foldlM_insertMember wasRead⟩
  all_goals cases wasRead

/-- The document of an object reads as the dictionary of its canonical members. -/
theorem dictionary_ofValue
    {room : Nat}
    {members : List (String × Value)}
    (fits : ∀ member ∈ members, member.2.depth ≤ room) :
    dictionary Reader.value (room + 1) (Document.ofValue (.object members)) =
      .ok (Dictionary.ofList (members.map fun member => (member.1, member.2.canonical))) := by
  rw [Document.ofValue_object]
  exact foldlM_insertMember (fun member isMember => value_ofValue (fits member isMember)) []

/-- Where a canonical value reads as a dictionary, it is an object with these members. -/
theorem eq_object_of_dictionary
    {room : Nat}
    {held : Value}
    {given : Dictionary Value}
    (canonical : held.canonical = held)
    (fits : held.depth ≤ room)
    (wasRead : dictionary Reader.value room (Document.ofValue held) = .ok given) :
    held = .object given := by
  obtain ⟨inner, rfl, -⟩ := of_dictionary wasRead
  cases held with
  | object members =>
      rw [dictionary_ofValue (Value.depth_object_le_succ.mp fits)] at wasRead
      cases wasRead
      rw [← Value.canonical_object, canonical]
  | null | bool | number | string | array =>
      cases wasRead

end Reader

theorem Value.canonical_canonical (value : Value) :
    value.canonical.canonical = value.canonical :=
  (Reader.canonical_of_value (Reader.value_ofValue (Nat.le_refl value.depth))).1

end ActivityCatalog.Json
