import ActivityCatalog.Proofs.Json.Fields
import ActivityCatalog.Proofs.Json.Overlay

namespace ActivityCatalog.Json.Reader

/-!
# Readers that supply defaults

A record is read into one that has its defaults already.  A value that holds the same defaults
may therefore lie below what is read: each of its members that shows through reads as what the
record has, and each one that is covered reads as what covers it.  So the record and the error
are those that are read of the layer alone, whatever room there is for either.
-/

variable {Record Result : Type}

/-- A reader takes no notice of the room. -/
def Roomless (reader : Reader Result) : Prop :=
  ∀ room other, reader room = reader other

theorem roomless_text : Roomless text := by
  intro room other
  funext document
  cases document with
  | string content => cases content <;> rfl
  | null | bool | number | array | object => rfl

theorem roomless_bool : Roomless bool := by
  intro room other
  funext document
  cases document <;> rfl

theorem roomless_natural (name : String) (greatest : Nat) : Roomless (natural name greatest) := by
  intro room other
  funext document
  unfold natural
  split <;> rfl

theorem Roomless.optional
    {reader : Reader Result}
    (roomless : Roomless reader) :
    Roomless (Reader.optional reader) := by
  intro room other
  funext document
  cases document <;> simp only [Reader.optional, roomless room other]

/-- A layer without nulls reads over a value as it reads alone. -/
def Supplies (reader : Reader Result) (base : Value) : Prop :=
  ∀ ⦃layer : Value⦄ ⦃room laidRoom : Nat⦄,
    layer.canonical = layer → layer.NullFree → layer.depth ≤ room →
      (base.overlay layer).depth ≤ laidRoom →
        reader laidRoom (Document.ofValue (base.overlay layer)) =
          reader room (Document.ofValue layer)

namespace Supplies

variable
  {reader : Reader Result}
  {base : Value}

/-- What reads over a value as it reads alone reads alike with any room that it fits. -/
theorem steady
    (supplies : Supplies reader base)
    {layer : Value}
    {room other : Nat}
    (canonical : layer.canonical = layer)
    (nullFree : layer.NullFree)
    (fits : layer.depth ≤ room)
    (fitsOther : layer.depth ≤ other) :
    reader room (Document.ofValue layer) = reader other (Document.ofValue layer) :=
  (supplies canonical nullFree fits (Nat.le_refl _)).symm.trans
    (supplies canonical nullFree fitsOther (Nat.le_refl _))

/-- What covers a value that is no object is read alone. -/
theorem of_roomless
    (roomless : Roomless reader)
    (notObject : base.isObject = false) :
    Supplies reader base := by
  intro layer room laidRoom _ _ _ _
  rw [Value.overlay_of_not_object_below notObject, roomless laidRoom room]

/-- A field is read over a value as what it is read by. -/
theorem field
    (supplies : Supplies reader base)
    {name : String}
    {store : Record → Result → Record}
    (held : Record) :
    Supplies (fun room document => (Field.of name reader store).read room document held)
      base := by
  intro layer room laidRoom canonical nullFree fits laidFits
  exact congrArg (Except.map (store held)) (supplies canonical nullFree fits laidFits)

/-- A dictionary is read over an empty one as it is read alone. -/
theorem dictionary (roomless : Roomless reader) :
    Supplies (Reader.dictionary reader) (.object []) := by
  intro layer room laidRoom canonical nullFree fits laidFits
  cases nullFree with
  | object each =>
      rename_i members
      obtain ⟨sorted, -⟩ := Value.canonical_object_eq_self.mp canonical
      have given : ∀ member ∈ members, member.2.isNull = false :=
        fun member isMember => (each member isMember).isNull_eq_false
      have unchanged : Value.overlayMembers [] members = members := by
        refine (Value.sorted_overlayMembers List.Pairwise.nil members).eq_of_mem_iff sorted ?_
        rintro ⟨name, value⟩
        rw [Value.mem_overlayMembers List.Pairwise.nil sorted given]
        simp [Dictionary.get?]
      rw [Value.overlay_object, unchanged] at laidFits ⊢
      obtain ⟨inner, rfl, -⟩ := Value.depth_object_le.mp fits
      obtain ⟨laidInner, rfl, -⟩ := Value.depth_object_le.mp laidFits
      rw [Document.ofValue_object, Reader.dictionary, Reader.dictionary, roomless laidInner inner]
  | bool | number | string | array =>
      cases room <;> cases laidRoom <;> rfl

end Supplies

section Records

variable
  {fields : List (Field Record)}
  {filled : String → Option Value → Record → Prop}
  {room laidRoom : Nat}
  {start held next : Record}
  {defaults members : Dictionary Value}

/--
A field of a record that is supplied with a default: it is filled with what is read into it and
leaves the other fields alone; it reads over its default as alone, and reads its default as what
the record has while nothing is filled in.
-/
structure SuppliedField
    (defaults : Dictionary Value)
    (filled : String → Option Value → Record → Prop)
    (field : Field Record) : Prop where
  own : ∀ room value before after, value.canonical = value → value.NullFree →
    field.read room (Document.ofValue value) before = .ok after →
      filled field.name (some value) after
  others : ∀ room document before after, field.read room document before = .ok after →
    ∀ name part, name ≠ field.name → filled name part before → filled name part after
  covered : ∀ held, Supplies (fun room document => field.read room document held)
    ((Dictionary.get? field.name defaults).getD .null)
  shown : ∀ room value held,
    Dictionary.get? field.name defaults = some value → value.depth ≤ room →
      filled field.name none held → field.read room (Document.ofValue value) held = .ok held

/-- A field that is read by itself takes what its reader and its storing take. -/
theorem SuppliedField.of
    {name : String}
    {reader : Reader Result}
    {store : Record → Result → Record}
    (supplies : Supplies reader ((Dictionary.get? name defaults).getD .null))
    (own : ∀ room value result before, value.canonical = value → value.NullFree →
      reader room (Document.ofValue value) = .ok result →
        filled name (some value) (store before result))
    (others : ∀ before result other part, other ≠ name →
      filled other part before → filled other part (store before result))
    (shown : ∀ room value held,
      Dictionary.get? name defaults = some value → value.depth ≤ room → filled name none held →
        ∃ result, reader room (Document.ofValue value) = .ok result ∧ store held result = held) :
    SuppliedField defaults filled (Field.of name reader store) where
  own := by
    intro room value before after canonical nullFree fieldRead
    obtain ⟨result, wasRead, rfl⟩ := read_of_eq_ok.mp fieldRead
    exact own room value result before canonical nullFree wasRead
  others := by
    intro room document before after fieldRead other part different isFilled
    obtain ⟨result, -, rfl⟩ := read_of_eq_ok.mp fieldRead
    exact others before result other part different isFilled
  covered := supplies.field
  shown := by
    intro room value held isDefault fits unfilled
    obtain ⟨result, wasRead, unchanged⟩ := shown room value held isDefault fits unfilled
    exact read_of_eq_ok.mpr ⟨result, wasRead, unchanged⟩

/-- A record starts with nothing filled in, and each of its fields is supplied with a default. -/
structure Defaulted
    (fields : List (Field Record))
    (start : Record)
    (defaults : Dictionary Value)
    (filled : String → Option Value → Record → Prop) : Prop where
  different : (fields.map Field.name).Nodup
  initially : ∀ name ∈ fields.map Field.name, filled name none start
  sorted : Dictionary.Sorted defaults
  each : ∀ field ∈ fields, SuppliedField defaults filled field

theorem Defaulted.fills
    (defaulted : Defaulted fields start defaults filled) :
    Fills fields start filled where
  different := defaulted.different
  initially := defaulted.initially
  own := fun field isField => (defaulted.each field isField).own
  others := fun field isField => (defaulted.each field isField).others

/-- A default that shows through is what the record has, if its field is filled with nothing. -/
theorem Defaulted.takeMember_shown
    (defaulted : Defaulted fields start defaults filled)
    {name : String}
    {value : Value}
    (isDefault : (name, value) ∈ defaults)
    (fits : value.depth ≤ room)
    (unfilled : name ∈ fields.map Field.name → filled name none held) :
    takeMember fields room held (name, value) = .ok held := by
  cases found : fields.find? fun field => field.name == name with
  | none =>
      exact takeMember_of_unknown found room held value
  | some field =>
      obtain ⟨isField, rfl⟩ := mem_of_found found
      rw [takeMember_of_found found]
      exact (defaulted.each field isField).shown room value held
        (defaulted.sorted.get?_eq_some.mpr isDefault) fits (unfilled (List.mem_map_of_mem isField))

/-- A member over its default is taken as it is alone. -/
theorem Defaulted.takeMember_covered
    (defaulted : Defaulted fields start defaults filled)
    {name : String}
    {value : Value}
    (canonical : value.canonical = value)
    (nullFree : value.NullFree)
    (fits : value.depth ≤ room)
    (laidFits : (Value.laidOver (Dictionary.get? name defaults) value).depth ≤ laidRoom) :
    takeMember fields laidRoom held (name, Value.laidOver (Dictionary.get? name defaults) value) =
      takeMember fields room held (name, value) := by
  cases found : fields.find? fun field => field.name == name with
  | none =>
      rw [takeMember_of_unknown found, takeMember_of_unknown found]
  | some field =>
      obtain ⟨isField, rfl⟩ := mem_of_found found
      rw [takeMember_of_found found, takeMember_of_found found]
      exact (defaulted.each field isField).covered held canonical nullFree fits laidFits

/-- Nothing is filled into the fields of a record that members do not name. -/
def IdleBeside
    (fields : List (Field Record))
    (filled : String → Option Value → Record → Prop)
    (members : Dictionary Value)
    (held : Record) : Prop :=
  ∀ name ∈ fields.map Field.name, name ∉ Dictionary.keys members → filled name none held

/-- A record starts with nothing filled in, whatever members are to come. -/
theorem Defaulted.idleBeside_start
    (defaulted : Defaulted fields start defaults filled) :
    IdleBeside fields filled members start :=
  fun name isName _ => defaulted.initially name isName

/-- A default that shows through changes nothing of a record that is idle there. -/
theorem Defaulted.takeMember_idle
    (defaulted : Defaulted fields start defaults filled)
    (sorted : Dictionary.Sorted members)
    (given : ∀ member ∈ members, member.2.isNull = false)
    {name : String}
    {value : Value}
    (inLaid : (name, value) ∈ Value.overlayMembers defaults members)
    (notGiven : name ∉ Dictionary.keys members)
    (fits : value.depth ≤ room)
    (idle : IdleBeside fields filled members held) :
    takeMember fields room held (name, value) = .ok held := by
  have isDefault : (name, value) ∈ defaults := by
    rcases (Value.mem_overlayMembers defaulted.sorted sorted given).mp inLaid with
      ⟨own, isMember, -⟩ | ⟨-, isDefault⟩
    · exact absurd (List.mem_map_of_mem isMember) notGiven
    · exact isDefault
  exact defaulted.takeMember_shown isDefault fits fun isName => idle name isName notGiven

/-- Members over the defaults fill only the fields that the members name. -/
theorem Defaulted.idleBeside_takeMember
    (defaulted : Defaulted fields start defaults filled)
    (sorted : Dictionary.Sorted members)
    (given : ∀ member ∈ members, member.2.isNull = false)
    {name : String}
    {value : Value}
    (inLaid : (name, value) ∈ Value.overlayMembers defaults members)
    (fits : value.depth ≤ room)
    (idle : IdleBeside fields filled members held)
    (taking : takeMember fields room held (name, value) = .ok next) :
    IdleBeside fields filled members next := by
  intro other isName notGiven
  by_cases isGiven : name ∈ Dictionary.keys members
  · have different : other ≠ name := by
      rintro rfl
      exact notGiven isGiven
    exact defaulted.fills.other_of_takeMember taking different (idle other isName notGiven)
  · rw [defaulted.takeMember_idle sorted given inLaid isGiven fits idle] at taking
    cases taking
    exact idle other isName notGiven

/--
Members over the defaults make the same record as the members alone: the defaults that show
through are left out, and the other members stand as they do alone.
-/
theorem Defaulted.foldlM_takeMember
    (defaulted : Defaulted fields start defaults filled)
    (canonical : (Value.object members).canonical = .object members)
    (nullFree : ∀ member ∈ members, member.2.NullFree)
    (fits : ∀ member ∈ members, member.2.depth ≤ room)
    (laidFits : ∀ member ∈ Value.overlayMembers defaults members, member.2.depth ≤ laidRoom) :
    (Value.overlayMembers defaults members).foldlM (takeMember fields laidRoom) start =
      members.foldlM (takeMember fields room) start := by
  obtain ⟨sorted, membersCanonical⟩ := Value.canonical_object_eq_self.mp canonical
  have given : ∀ member ∈ members, member.2.isNull = false :=
    fun member isMember => (nullFree member isMember).isNull_eq_false
  calc
    (Value.overlayMembers defaults members).foldlM (takeMember fields laidRoom) start
      = (Value.overlayMembers defaults members).foldlM
          (fun held member =>
            if decide (member.1 ∈ Dictionary.keys members) then
              takeMember fields laidRoom held member
            else
              pure held) start := by
        refine foldlM_congr_of_kept (motive := IdleBeside fields filled members)
          defaulted.idleBeside_start ?_ ?_
        · intro member inLaid held idle
          by_cases isGiven : member.1 ∈ Dictionary.keys members
          · simp only [isGiven, decide_true, ↓reduceIte]
          · simp only [isGiven, decide_false, Bool.false_eq_true, ↓reduceIte]
            exact defaulted.takeMember_idle sorted given inLaid isGiven
              (laidFits member inLaid) idle
        · intro member inLaid held next idle taking
          exact defaulted.idleBeside_takeMember sorted given inLaid (laidFits member inLaid) idle
            taking
    _ = (members.map fun member =>
          (member.1, Value.laidOver (Dictionary.get? member.1 defaults) member.2)).foldlM
            (takeMember fields laidRoom) start := by
        rw [← Value.filter_overlayMembers defaulted.sorted sorted given, List.foldlM_filter]
    _ = members.foldlM (takeMember fields room) start := by
        rw [List.foldlM_map]
        refine foldlM_congr_of_kept (motive := fun _ => True) trivial ?_ fun _ _ _ _ _ _ => trivial
        intro member isMember held _
        have inLaid := (Value.mem_overlayMembers defaulted.sorted sorted given).mpr
          (Or.inl ⟨member.2, isMember, rfl⟩)
        exact defaulted.takeMember_covered (membersCanonical member isMember)
          (nullFree member isMember) (fits member isMember) (laidFits _ inLaid)

/-- Items are read into fields alike with any room that they fit. -/
theorem readItems_steady
    {bases : Field Record → Value}
    {items : List Value}
    (supplies : ∀ field ∈ fields, ∀ held,
      Supplies (fun room document => field.read room document held) (bases field))
    (canonical : ∀ item ∈ items, item.canonical = item)
    (nullFree : ∀ item ∈ items, item.NullFree)
    (fits : ∀ item ∈ items, item.depth ≤ room)
    (laidFits : ∀ item ∈ items, item.depth ≤ laidRoom)
    (held : Record) :
    readItems room fields (items.map Document.ofValue) held =
      readItems laidRoom fields (items.map Document.ofValue) held := by
  induction fields generalizing items held with
  | nil =>
      rw [readItems.eq_2 _ _ _ _ (by simp), readItems.eq_2 _ _ _ _ (by simp)]
  | cons field rest inductionHypothesis =>
      cases items with
      | nil =>
          rfl
      | cons item items =>
          obtain ⟨suppliesFirst, suppliesRest⟩ := List.forall_mem_cons.mp supplies
          obtain ⟨firstCanonical, restCanonical⟩ := List.forall_mem_cons.mp canonical
          obtain ⟨firstNullFree, restNullFree⟩ := List.forall_mem_cons.mp nullFree
          obtain ⟨firstFits, restFits⟩ := List.forall_mem_cons.mp fits
          obtain ⟨firstLaidFits, restLaidFits⟩ := List.forall_mem_cons.mp laidFits
          have readAlike := (suppliesFirst held).steady firstCanonical firstNullFree firstFits
            firstLaidFits
          rw [List.map_cons, readItems, readItems, readAlike]
          refine bind_congr fun next => ?_
          exact inductionHypothesis suppliesRest restCanonical restNullFree restFits restLaidFits
            next

/-- A record reads over its defaults as it reads alone. -/
theorem Defaulted.supplies
    (defaulted : Defaulted fields start defaults filled)
    (description : String) :
    Supplies (Reader.record description fields start) (.object defaults) := by
  intro layer room laidRoom canonical nullFree fits laidFits
  cases nullFree with
  | object each =>
      rename_i members
      obtain ⟨sorted, -⟩ := Value.canonical_object_eq_self.mp canonical
      rw [Value.overlay_object] at laidFits ⊢
      obtain ⟨inner, rfl, membersFit⟩ := Value.depth_object_le.mp fits
      obtain ⟨laidInner, rfl, laidMembersFit⟩ := Value.depth_object_le.mp laidFits
      rw [record_object (Value.sorted_overlayMembers defaulted.sorted members).keys_nodup,
        record_object sorted.keys_nodup]
      exact defaulted.foldlM_takeMember canonical each membersFit laidMembersFit
  | array each =>
      rename_i items
      rw [Value.overlay_of_not_object rfl] at laidFits ⊢
      obtain ⟨inner, rfl, itemsFit⟩ := Value.depth_array_le.mp fits
      obtain ⟨laidInner, rfl, itemsLaidFit⟩ := Value.depth_array_le.mp laidFits
      have itemsCanonical := Value.canonical_array_eq_self.mp canonical
      rw [Document.ofValue_array, Reader.record, Reader.record,
        readItems_steady (fun field isField => (defaulted.each field isField).covered)
          itemsCanonical each itemsLaidFit itemsFit start]
  | bool | number | string =>
      cases room <;> cases laidRoom <;> rfl

/-- The defaults themselves read as the record that has them. -/
theorem Defaulted.record_defaults
    (defaulted : Defaulted fields start defaults filled)
    (description : String)
    (fits : (Value.object defaults).depth ≤ room) :
    record description fields start room (Document.ofValue (.object defaults)) = .ok start := by
  have emptyCanonical : (Value.object []).canonical = .object [] := rfl
  calc
    record description fields start room (Document.ofValue (.object defaults))
      = record description fields start 1 (Document.ofValue (.object [])) :=
        defaulted.supplies description emptyCanonical (.object (by simp)) (Nat.le_refl 1) fits
    _ = .ok start :=
        rfl

end Records

end ActivityCatalog.Json.Reader
