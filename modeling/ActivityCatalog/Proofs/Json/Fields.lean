import ActivityCatalog.Proofs.Json.Records

namespace ActivityCatalog.Json

/-!
# Records field by field

The members of an object are taken one by one, and the items of an array in the places of the
fields.  So a record that is read has each of its fields filled with the part of the value that
is for the field, or as it was at the start if there is none.
-/

/-- Neither a value nor anything inside it is null. -/
inductive Value.NullFree : Value → Prop where
  | bool (value : Bool) : NullFree (.bool value)
  | number (value : Number) : NullFree (.number value)
  | string (text : String) : NullFree (.string text)
  | array
      {items : List Value}
      (each : ∀ item ∈ items, NullFree item) :
      NullFree (.array items)
  | object
      {members : List (String × Value)}
      (each : ∀ member ∈ members, NullFree member.2) :
      NullFree (.object members)

/--
The part of a value that is for a field of a record: the member of its name, or the item in its
place among the fields.
-/
def Value.part? (names : List String) (name : String) : Value → Option Value
  | .object members => Dictionary.get? name members
  | .array items => Dictionary.get? name (names.zip items)
  | _ => none

theorem Value.NullFree.isNull_eq_false
    {value : Value}
    (nullFree : value.NullFree) :
    value.isNull = false := by
  cases nullFree <;> rfl

namespace Reader

variable {Record : Type}

section Members

variable
  {fields : List (Field Record)}
  {room : Nat}
  {description : String}
  {start held : Record}
  {seen : List String}
  {members : List (String × Value)}

/-- Read the field that a member is for, if there is one. -/
def takeMember
    (fields : List (Field Record))
    (room : Nat)
    (held : Record)
    (member : String × Value) : Except ReadError Record :=
  match fields.find? fun field => field.name == member.1 with
  | some field => field.read room (Document.ofValue member.2) held
  | none => .ok held

/-- Members with different names are taken one by one, whatever was seen before. -/
theorem foldlM_readMember
    (different : (members.map Prod.fst).Nodup)
    (unseen : ∀ member ∈ members, member.1 ∉ seen) :
    ((members.map fun member => (some member.1, Document.ofValue member.2)).foldlM
        (readMember fields room) (held, seen)).map Prod.fst =
      members.foldlM (takeMember fields room) held := by
  induction members generalizing held seen with
  | nil =>
      rfl
  | cons member rest inductionHypothesis =>
      obtain ⟨fresh, restDifferent⟩ := List.nodup_cons.mp different
      obtain ⟨firstUnseen, restUnseen⟩ := List.forall_mem_cons.mp unseen
      rw [List.map_cons, List.foldlM_cons, List.foldlM_cons]
      simp only [readMember, nameOf, takeMember, bind, Except.bind]
      cases found : fields.find? fun field => field.name == member.1 with
      | none =>
          exact inductionHypothesis restDifferent restUnseen
      | some field =>
          have named : field.name = member.1 := by
            simpa using List.find?_some found
          have notSeen : seen.contains member.1 = false := by
            simpa using firstUnseen
          simp only [readField, named, notSeen, Bool.false_eq_true, if_false]
          cases field.read room (Document.ofValue member.2) held with
          | error fault =>
              rfl
          | ok next =>
              refine inductionHypothesis restDifferent fun other isOther isSeen => ?_
              rcases List.mem_cons.mp isSeen with sameName | before
              · exact fresh (sameName ▸ List.mem_map_of_mem isOther)
              · exact restUnseen other isOther before

/-- An object with different names is read as a record member by member. -/
theorem record_object (different : (members.map Prod.fst).Nodup) :
    record description fields start (room + 1) (Document.ofValue (.object members)) =
      members.foldlM (takeMember fields room) start := by
  rw [Document.ofValue_object]
  exact foldlM_readMember different (by simp)

section Found

variable
  {name : String}
  {field : Field Record}

theorem mem_of_found (found : fields.find? (fun field => field.name == name) = some field) :
    field ∈ fields ∧ field.name = name :=
  ⟨List.mem_of_find?_eq_some found, by simpa using List.find?_some found⟩

theorem takeMember_of_found
    (found : fields.find? (fun field => field.name == name) = some field)
    (room : Nat)
    (held : Record)
    (value : Value) :
    takeMember fields room held (name, value) =
      field.read room (Document.ofValue value) held := by
  rw [takeMember, found]

theorem takeMember_of_unknown
    (unknown : fields.find? (fun field => field.name == name) = none)
    (room : Nat)
    (held : Record)
    (value : Value) :
    takeMember fields room held (name, value) = .ok held := by
  rw [takeMember, unknown]

end Found

end Members

/--
How fields are filled: with the part of a value that is read into one of them, and with none as
long as nothing was read; reading one field leaves the others as they are.
-/
structure Fills
    (fields : List (Field Record))
    (start : Record)
    (filled : String → Option Value → Record → Prop) : Prop where
  different : (fields.map Field.name).Nodup
  initially : ∀ name ∈ fields.map Field.name, filled name none start
  own : ∀ field ∈ fields, ∀ room value before after,
    value.canonical = value → value.NullFree →
      field.read room (Document.ofValue value) before = .ok after →
        filled field.name (some value) after
  others : ∀ field ∈ fields, ∀ room document before after,
    field.read room document before = .ok after →
      ∀ name part, name ≠ field.name → filled name part before → filled name part after

section Parts

variable
  {fields : List (Field Record)}
  {filled : String → Option Value → Record → Prop}
  {room : Nat}
  {start held next result : Record}
  {name : String}
  {part : Option Value}
  {value : Value}
  {members : Dictionary Value}
  {items : List Value}

/-- Taking a member leaves the fields of other names as they are. -/
theorem Fills.other_of_takeMember
    (fills : Fills fields start filled)
    {taken : String}
    (taking : takeMember fields room held (taken, value) = .ok next)
    (different : name ≠ taken)
    (isFilled : filled name part held) :
    filled name part next := by
  cases found : fields.find? fun field => field.name == taken with
  | none =>
      rw [takeMember_of_unknown found] at taking
      cases taking
      exact isFilled
  | some field =>
      obtain ⟨isField, rfl⟩ := mem_of_found found
      rw [takeMember_of_found found] at taking
      exact fills.others field isField room _ held next taking name part different isFilled

/-- Taking a member fills the field of its name. -/
theorem Fills.own_of_takeMember
    (fills : Fills fields start filled)
    (isName : name ∈ fields.map Field.name)
    (canonical : value.canonical = value)
    (nullFree : value.NullFree)
    (taking : takeMember fields room held (name, value) = .ok next) :
    filled name (some value) next := by
  cases found : fields.find? fun field => field.name == name with
  | none =>
      obtain ⟨field, isField, isNamed⟩ := List.mem_map.mp isName
      have noField := List.find?_eq_none.mp found field isField
      exact absurd (beq_iff_eq.mpr isNamed) noField
  | some field =>
      obtain ⟨isField, rfl⟩ := mem_of_found found
      rw [takeMember_of_found found] at taking
      exact fills.own field isField room value held next canonical nullFree taking

theorem Fills.of_members
    (fills : Fills fields start filled)
    (canonical : (Value.object members).canonical = .object members)
    (nullFree : ∀ member ∈ members, member.2.NullFree)
    (ran : members.foldlM (takeMember fields room) start = .ok result)
    (isName : name ∈ fields.map Field.name) :
    filled name (Dictionary.get? name members) result := by
  obtain ⟨sorted, membersCanonical⟩ := Value.canonical_object_eq_self.mp canonical
  -- Of the members taken so far, at most one has the name of the field.
  let partOf (done : List (String × Value)) : Option Value :=
    if name ∈ Dictionary.keys done then Dictionary.get? name members else none
  have filledSoFar : filled name (partOf members) result := by
    refine foldlM_induction_append (motive := fun done held => filled name (partOf done) held)
      (fills.initially name isName) ?_ ran
    rintro done ⟨taken, value⟩ rest held next split isFilled taking
    have isMember : (taken, value) ∈ members := split ▸ by simp
    by_cases sameName : name = taken
    · subst sameName
      have isPart : partOf (done ++ [(name, value)]) = some value := by
        simp [partOf, Dictionary.keys, sorted.get?_eq_some.mpr isMember]
      rw [isPart]
      exact fills.own_of_takeMember isName (membersCanonical _ isMember) (nullFree _ isMember)
        taking
    · have samePart : partOf (done ++ [(taken, value)]) = partOf done := by
        have sameKeys : name ∈ Dictionary.keys (done ++ [(taken, value)]) ↔
            name ∈ Dictionary.keys done := by
          simp [Dictionary.keys, sameName]
        simp only [partOf, sameKeys]
      rw [samePart]
      exact fills.other_of_takeMember taking sameName isFilled
  have wholePart : partOf members = Dictionary.get? name members := by
    by_cases isKey : name ∈ Dictionary.keys members
    · exact if_pos isKey
    · refine (if_neg isKey).trans (Option.eq_none_iff_forall_ne_some.mpr ?_).symm
      intro value found
      exact isKey (List.mem_map_of_mem (sorted.get?_eq_some.mp found))
  exact wholePart ▸ filledSoFar

theorem Fills.of_cons
    {field : Field Record}
    {rest : List (Field Record)}
    (fills : Fills (field :: rest) start filled) :
    Fills rest start filled where
  different := (List.nodup_cons.mp fills.different).2
  initially := fun name isName => fills.initially name (List.mem_cons_of_mem _ isName)
  own := fun other isOther => fills.own other (List.mem_cons_of_mem _ isOther)
  others := fun other isOther => fills.others other (List.mem_cons_of_mem _ isOther)

/-- Items fill the fields in whose places they stand, if these are not filled yet. -/
theorem Fills.of_items
    (fills : Fills fields start filled)
    (canonical : ∀ item ∈ items, item.canonical = item)
    (nullFree : ∀ item ∈ items, item.NullFree)
    (unfilled : ∀ name ∈ fields.map Field.name, filled name none held)
    (wereRead : readItems room fields (items.map Document.ofValue) held = .ok result)
    (isName : name ∈ fields.map Field.name) :
    filled name (Dictionary.get? name ((fields.map Field.name).zip items)) result := by
  induction fields generalizing items held with
  | nil =>
      cases isName
  | cons field rest inductionHypothesis =>
      cases items with
      | nil =>
          cases wereRead
          exact unfilled name isName
      | cons item items =>
          obtain ⟨firstCanonical, restCanonical⟩ := List.forall_mem_cons.mp canonical
          obtain ⟨firstNullFree, restNullFree⟩ := List.forall_mem_cons.mp nullFree
          obtain ⟨next, itemRead, restRead⟩ := bind_eq_ok.mp wereRead
          have notInRest := (List.nodup_cons.mp fills.different).1
          rw [List.map_cons, List.zip_cons_cons, Dictionary.get?]
          by_cases isFirst : field.name = name
          · subst isFirst
            rw [if_pos rfl]
            have filledFirst := fills.own field List.mem_cons_self room item held next
              firstCanonical firstNullFree itemRead
            refine kept_of_readItems (motive := filled field.name (some item)) ?_ filledFirst
              restRead
            intro other isOther document before after isFilled otherRead
            have notOther : field.name ≠ other.name :=
              fun sameName => notInRest (sameName ▸ List.mem_map_of_mem isOther)
            exact fills.others other (List.mem_cons_of_mem _ isOther) room document before after
              otherRead _ _ notOther isFilled
          · rw [if_neg isFirst]
            have inRest : name ∈ rest.map Field.name :=
              (List.mem_cons.mp isName).resolve_left (Ne.symm isFirst)
            refine inductionHypothesis fills.of_cons restCanonical restNullFree ?_ restRead inRest
            intro other isOther
            have notFirst : other ≠ field.name := fun sameName => notInRest (sameName ▸ isOther)
            exact fills.others field List.mem_cons_self room _ held next itemRead other none
              notFirst (unfilled other (List.mem_cons_of_mem _ isOther))

/-- A record that is read has every field filled with the part of the value for it. -/
theorem Fills.of_record
    {description : String}
    (fills : Fills fields start filled)
    (canonical : value.canonical = value)
    (nullFree : value.NullFree)
    (wasRead : record description fields start room (Document.ofValue value) = .ok result)
    (isName : name ∈ fields.map Field.name) :
    filled name (value.part? (fields.map Field.name) name) result := by
  obtain ⟨inner, rfl, -⟩ := Reader.of_record wasRead
  cases nullFree with
  | object each =>
      have sorted := (Value.canonical_object_eq_self.mp canonical).1
      rw [record_object sorted.keys_nodup] at wasRead
      exact fills.of_members canonical each wasRead isName
  | array each =>
      rw [Document.ofValue_array] at wasRead
      obtain ⟨final, wereRead, rest⟩ := bind_eq_ok.mp wasRead
      split at rest
      · cases rest
      · cases rest
        exact fills.of_items (Value.canonical_array_eq_self.mp canonical) each fills.initially
          wereRead isName
  | bool | number | string =>
      cases wasRead

end Parts

end Reader

end ActivityCatalog.Json
