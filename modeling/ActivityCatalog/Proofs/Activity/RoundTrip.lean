import ActivityCatalog.Proofs.Activity.Components
import ActivityCatalog.Proofs.Activity.Same

namespace ActivityCatalog

/-!
# Records are read back

Every field of a record is told by the member that is written of it.  A record that was read
is sound: its dictionaries are sorted, its values canonical, and so are the records inside
it.  What is written of a sound record reads as the same record, with as much room as it
takes and with its members in any order.
-/

open Json

/-- A label is read as the dictionary of its texts. -/
theorem Label.field_eq
    {Record : Type}
    (name : String)
    (store : Record → Label → Record) :
    Field.of name reader store =
      .of name (Reader.dictionary Reader.text) fun record texts => store record ⟨texts⟩ := by
  have sameRead : ∀ room document record,
      (reader room document).map (store record) =
        (Reader.dictionary Reader.text room document).map fun texts => store record ⟨texts⟩ := by
    intro room document record
    unfold reader
    cases Reader.dictionary Reader.text room document <;> rfl
  simp only [Field.of, sameRead]

namespace Activity

theorem writtenAll_eq (activities : List Activity) :
    writtenAll activities = activities.map written := by
  induction activities with
  | nil =>
      rfl
  | cons activity rest inductionHypothesis =>
      rw [writtenAll, inductionHypothesis, List.map_cons]

/-- The members that are written of a record. -/
def told (activity : Activity) : Parts :=
  [ ("$schema", textMember "$schema" activity.schema),
    ("id", textMember "id" activity.id),
    ("version", textMember "version" activity.version),
    ("label", dictionaryMember "label"
      (activity.label.texts.map fun entry => (entry.1, .string entry.2))),
    ("period", optionalMember "period" Period.written activity.period),
    ("participations", listMember "participations"
      (activity.participations.map Participation.written)),
    ("subs", listMember "subs" (activity.subs.map written)),
    ("supers", listMember "supers" (activity.supers.map written)),
    ("attributeSets", dictionaryMember "attributeSets"
      (activity.attributeSets.map fun entry => (entry.1, entry.2.written))),
    ("blob", optionalMember "blob" Blob.written activity.blob) ]

theorem written_eq (activity : Activity) : activity.written = .object activity.told.members := by
  obtain ⟨schema, id, version, label, period, participations, subs, supers, attributeSets,
    blob⟩ := activity
  have labelMember :
      (if label.isEmpty then [] else [("label", label.written)]) =
        dictionaryMember "label" (label.texts.map fun entry => (entry.1, .string entry.2)) := by
    rcases label with ⟨_ | ⟨first, rest⟩⟩ <;> rfl
  rw [written.eq_1, labelMember, writtenAll_eq, writtenAll_eq]
  simp only [told, Parts.members, List.flatMap_cons, List.flatMap_nil, List.append_nil,
    List.append_assoc]

/-- Take over a field of a record. -/
def takeOver (source : Activity) (name : String) (activity : Activity) : Activity :=
  match name with
  | "$schema" => { activity with schema := source.schema }
  | "id" => { activity with id := source.id }
  | "version" => { activity with version := source.version }
  | "label" => { activity with label := source.label }
  | "period" => { activity with period := source.period }
  | "participations" => { activity with participations := source.participations }
  | "subs" => { activity with subs := source.subs }
  | "supers" => { activity with supers := source.supers }
  | "attributeSets" => { activity with attributeSets := source.attributeSets }
  | "blob" => { activity with blob := source.blob }
  | _ => activity

theorem takeOver_commute (source : Activity) : Reader.Commute source.takeOver := by
  intro first second activity
  unfold takeOver
  split <;> split <;> rfl

theorem names_fields (nested : Reader Activity) :
    (fields nested).map Field.name =
      ["$schema", "id", "version", "label", "period", "participations", "subs", "supers",
        "attributeSets", "blob"] :=
  rfl

/-- All fields together are the record. -/
theorem foldl_takeOver (source : Activity) (nested : Reader Activity) :
    ((fields nested).map Field.name).foldl (fun held name => source.takeOver name held) blank =
      source := by
  obtain ⟨schema, id, version, label, period, participations, subs, supers, attributeSets,
    blob⟩ := source
  simp only [names_fields, List.foldl_cons, List.foldl_nil, takeOver]

/-- The reader of the records that stand in a list of a record. -/
def nestedReader : Nat → Reader Activity
  | 0 => fun _ _ => .error .tooDeep
  | room + 1 => fun _ document => reader room document

theorem reads_nested
    {room : Nat}
    {value : Value}
    {activity : Activity}
    (reads : Reader.Reads reader room value activity) :
    Reader.Reads (nestedReader (room + 1)) room value activity :=
  ⟨reads.written, reads.canonical, reads.deep⟩

theorem reader_succ (room : Nat) :
    reader (room + 1) =
      Reader.record "struct ActivityVersion" (fields (nestedReader room)) blank (room + 1) := by
  funext document
  cases room <;> rfl

/-- What is written of a record fits a room if its fields fit the room inside. -/
theorem depth_written
    {activity : Activity}
    {room : Nat} :
    activity.written.depth ≤ room ↔ ∃ inner, room = inner + 1 ∧
      (activity.label.texts ≠ [] → ∃ deeper, inner = deeper + 1 ∧
          ∀ entry ∈ activity.label.texts, (Value.string entry.2).depth ≤ deeper) ∧
      (∀ period, activity.period = some period → period.written.depth ≤ inner) ∧
      (activity.participations ≠ [] → ∃ deeper, inner = deeper + 1 ∧
          ∀ participation ∈ activity.participations, participation.written.depth ≤ deeper) ∧
      (activity.subs ≠ [] → ∃ deeper, inner = deeper + 1 ∧
          ∀ sub ∈ activity.subs, sub.written.depth ≤ deeper) ∧
      (activity.supers ≠ [] → ∃ deeper, inner = deeper + 1 ∧
          ∀ super ∈ activity.supers, super.written.depth ≤ deeper) ∧
      (activity.attributeSets ≠ [] → ∃ deeper, inner = deeper + 1 ∧
          ∀ entry ∈ activity.attributeSets, entry.2.written.depth ≤ deeper) ∧
      ∀ blob, activity.blob = some blob → blob.written.depth ≤ inner := by
  have textFits : ∀ (name : String) (held : Option String) (inner : Nat),
      (∀ member ∈ textMember name held, member.2.depth ≤ inner) ↔ True :=
    fun _ _ _ => iff_true_intro depth_textMember
  rw [written_eq, Parts.depth_object]
  simp only [told, List.forall_mem_cons, List.not_mem_nil, false_implies, implies_true, and_true,
    true_and, textFits, depth_optionalMember, depth_listMember, depth_dictionaryMember]

/--
The dictionaries of a record are sorted, and its participations, its attribute sets and the
records inside it are sound.
-/
inductive Sound : Activity → Prop where
  | intro
      {activity : Activity}
      (label : Dictionary.Sorted activity.label.texts)
      (participations : ∀ participation ∈ activity.participations, participation.Sound)
      (subs : ∀ sub ∈ activity.subs, Sound sub)
      (supers : ∀ super ∈ activity.supers, Sound super)
      (sorted : Dictionary.Sorted activity.attributeSets)
      (attributeSets : ∀ entry ∈ activity.attributeSets, entry.2.Sound) :
      Sound activity

/-- What holds of a record while its fields are read with some room. -/
structure Progresses (room : Nat) (activity : Activity) : Prop where
  label : Dictionary.Sorted activity.label.texts
  labelFits : activity.label.texts ≠ [] → ∃ inner, room = inner + 1 ∧
    ∀ entry ∈ activity.label.texts, (Value.string entry.2).depth ≤ inner
  periodFits : ∀ period, activity.period = some period → period.written.depth ≤ room
  participations : ∀ participation ∈ activity.participations, participation.Sound
  participationsFit : activity.participations ≠ [] → ∃ inner, room = inner + 1 ∧
    ∀ participation ∈ activity.participations, participation.written.depth ≤ inner
  subs : ∀ sub ∈ activity.subs, Sound sub
  subsFit : activity.subs ≠ [] → ∃ inner, room = inner + 1 ∧
    ∀ sub ∈ activity.subs, sub.written.depth ≤ inner
  supers : ∀ super ∈ activity.supers, Sound super
  supersFit : activity.supers ≠ [] → ∃ inner, room = inner + 1 ∧
    ∀ super ∈ activity.supers, super.written.depth ≤ inner
  sorted : Dictionary.Sorted activity.attributeSets
  attributeSets : ∀ entry ∈ activity.attributeSets, entry.2.Sound
  attributeSetsFit : activity.attributeSets ≠ [] → ∃ inner, room = inner + 1 ∧
    ∀ entry ∈ activity.attributeSets, entry.2.written.depth ≤ inner
  blobFits : ∀ blob, activity.blob = some blob → blob.written.depth ≤ room

theorem Progresses.blank (room : Nat) : Progresses room blank where
  label := List.Pairwise.nil
  labelFits := by simp [Activity.blank, Label.empty]
  periodFits := by simp [Activity.blank]
  participations := by simp [Activity.blank]
  participationsFit := by simp [Activity.blank]
  subs := by simp [Activity.blank]
  subsFit := by simp [Activity.blank]
  supers := by simp [Activity.blank]
  supersFit := by simp [Activity.blank]
  sorted := List.Pairwise.nil
  attributeSets := by simp [Activity.blank]
  attributeSetsFit := by simp [Activity.blank]
  blobFits := by simp [Activity.blank]

theorem Progresses.sound
    {room : Nat}
    {activity : Activity}
    (progresses : Progresses room activity) :
    activity.Sound ∧ activity.written.depth ≤ room + 1 :=
  ⟨.intro progresses.label progresses.participations progresses.subs progresses.supers
      progresses.sorted progresses.attributeSets,
    depth_written.mpr ⟨room, rfl, progresses.labelFits, progresses.periodFits,
      progresses.participationsFit, progresses.subsFit, progresses.supersFit,
      progresses.attributeSetsFit, progresses.blobFits⟩⟩

/-- Items that are read from a list with some room are sound and fit inside. -/
theorem sound_of_list
    {Item : Type}
    {reader : Reader Item}
    {write : Item → Value}
    {isSound : Item → Prop}
    {room : Nat}
    {document : Document}
    {items : List Item}
    (wasRead : Reader.list reader room document = .ok items)
    (sound : ∀ inner, room = inner + 1 → ∀ document item,
      reader inner document = .ok item → isSound item ∧ (write item).depth ≤ inner) :
    (∀ item ∈ items, isSound item) ∧
      (items ≠ [] → ∃ inner, room = inner + 1 ∧ ∀ item ∈ items, (write item).depth ≤ inner) := by
  obtain ⟨inner, rfl, wereRead⟩ := Reader.of_list wasRead
  have itemSound : ∀ item ∈ items, isSound item ∧ (write item).depth ≤ inner := by
    intro item isItem
    obtain ⟨document, itemRead⟩ := wereRead item isItem
    exact sound inner rfl document item itemRead
  exact ⟨fun item isItem => (itemSound item isItem).1,
    fun _ => ⟨inner, rfl, fun item isItem => (itemSound item isItem).2⟩⟩

/-- Reading a field of a record keeps what holds, if records inside it are read soundly. -/
theorem Progresses.of_read
    {room : Nat}
    {nested : Reader Activity}
    {before after : Activity}
    {document : Document}
    {field : Json.Field Activity}
    (nestedSound : ∀ inner, room = inner + 1 → ∀ document activity,
      nested inner document = .ok activity → Sound activity ∧ activity.written.depth ≤ inner)
    (progresses : Progresses room before)
    (isField : field ∈ fields nested)
    (fieldRead : field.read room document before = .ok after) :
    Progresses room after := by
  simp only [fields, List.mem_cons, List.not_mem_nil, or_false] at isField
  rcases isField with rfl | rfl | rfl | rfl | rfl | rfl | rfl | rfl | rfl | rfl
  · obtain ⟨schema, -, rfl⟩ := Reader.read_of_eq_ok.mp fieldRead
    exact { progresses with }
  · obtain ⟨id, -, rfl⟩ := Reader.read_of_eq_ok.mp fieldRead
    exact { progresses with }
  · obtain ⟨version, -, rfl⟩ := Reader.read_of_eq_ok.mp fieldRead
    exact { progresses with }
  · rw [Label.field_eq] at fieldRead
    obtain ⟨texts, textsRead, rfl⟩ := Reader.read_of_eq_ok.mp fieldRead
    obtain ⟨inner, rfl, sorted, -⟩ := Reader.of_dictionary textsRead
    exact { progresses with
      label := sorted
      labelFits := fun _ => ⟨inner, rfl, fun _ _ => Nat.zero_le inner⟩ }
  · obtain ⟨_, periodRead, rfl⟩ := Reader.read_of_eq_ok.mp fieldRead
    refine { progresses with periodFits := ?_ }
    rintro period rfl
    exact Period.depth_of_reader (Reader.of_optional periodRead)
  · obtain ⟨participations, listRead, rfl⟩ := Reader.read_of_eq_ok.mp fieldRead
    obtain ⟨sound, fit⟩ := sound_of_list listRead fun _ _ _ _ => Participation.sound_of_reader
    exact { progresses with participations := sound, participationsFit := fit }
  · obtain ⟨subs, listRead, rfl⟩ := Reader.read_of_eq_ok.mp fieldRead
    obtain ⟨sound, fit⟩ := sound_of_list listRead nestedSound
    exact { progresses with subs := sound, subsFit := fit }
  · obtain ⟨supers, listRead, rfl⟩ := Reader.read_of_eq_ok.mp fieldRead
    obtain ⟨sound, fit⟩ := sound_of_list listRead nestedSound
    exact { progresses with supers := sound, supersFit := fit }
  · obtain ⟨attributeSets, dictionaryRead, rfl⟩ := Reader.read_of_eq_ok.mp fieldRead
    obtain ⟨inner, rfl, sorted, wereRead⟩ := Reader.of_dictionary dictionaryRead
    have sound : ∀ entry ∈ attributeSets, entry.2.Sound ∧ entry.2.written.depth ≤ inner := by
      intro entry isEntry
      obtain ⟨document, entryRead⟩ := wereRead entry isEntry
      exact AttributeSet.sound_of_reader entryRead
    exact { progresses with
      sorted := sorted
      attributeSets := fun entry isEntry => (sound entry isEntry).1
      attributeSetsFit := fun _ => ⟨inner, rfl, fun entry isEntry => (sound entry isEntry).2⟩ }
  · obtain ⟨_, blobRead, rfl⟩ := Reader.read_of_eq_ok.mp fieldRead
    refine { progresses with blobFits := ?_ }
    rintro blob rfl
    exact Blob.depth_of_reader (Reader.of_optional blobRead)

/-- A record that was read is sound and fits the room. -/
theorem sound_of_reader
    {room : Nat}
    {document : Document}
    {activity : Activity}
    (wasRead : reader room document = .ok activity) :
    activity.Sound ∧ activity.written.depth ≤ room := by
  induction room using Nat.strong_induction_on generalizing document activity with
  | _ room inductionHypothesis =>
      cases room with
      | zero =>
          obtain ⟨inner, isZero, -⟩ := Reader.of_record wasRead
          cases isZero
      | succ room =>
          rw [reader_succ] at wasRead
          obtain ⟨_, ⟨⟩, induction⟩ := Reader.of_record wasRead
          have nestedSound : ∀ inner, room = inner + 1 → ∀ document activity,
              nestedReader room inner document = .ok activity →
                Sound activity ∧ activity.written.depth ≤ inner := by
            rintro inner rfl document activity nestedRead
            exact inductionHypothesis inner (by omega) nestedRead
          refine (induction (Progresses room) (Progresses.blank room) ?_).sound
          intro field isField document before after progresses fieldRead
          exact progresses.of_read nestedSound isField fieldRead

/-- What is written of a sound record reads as the same record. -/
theorem Sound.reads_written
    {activity : Activity}
    {room : Nat}
    (sound : activity.Sound)
    (fits : activity.written.depth ≤ room) :
    Reader.Reads reader room activity.written activity := by
  induction sound generalizing room with
  | @intro activity label participations subs supers sorted attributeSets readsSubs readsSupers =>
      obtain ⟨room, rfl, labelFits, periodFits, participationsFit, subsFit, supersFit,
        attributeSetsFit, blobFits⟩ := depth_written.mp fits
      have each : ∀ part ∈ activity.told, Parts.PartTells (fields (nestedReader room)) room
          activity.takeOver blank part := by
        simp only [told, List.forall_mem_cons, List.not_mem_nil, false_implies, implies_true,
          and_true]
        refine ⟨.of_text rfl (fun _ => rfl) rfl, .of_text rfl (fun _ => rfl) rfl,
          .of_text rfl (fun _ => rfl) rfl, ?_, ?_, ?_, ?_, ?_, ?_, ?_⟩
        · have found := congrArg some (Label.field_eq "label" fun (held : Activity) label =>
            { held with label })
          refine .of_dictionary found (fun _ => rfl) rfl label fun someTexts => ?_
          obtain ⟨inner, isRoom, -⟩ := labelFits someTexts
          exact ⟨inner, isRoom, fun entry _ => Reader.reads_text inner entry.2⟩
        · exact .of_optional rfl (fun _ => rfl) rfl (fun _ => rfl) fun period isHeld =>
            Period.reads_written (periodFits period isHeld)
        · refine .of_list rfl (fun _ => rfl) rfl fun someParticipations => ?_
          obtain ⟨inner, isRoom, fit⟩ := participationsFit someParticipations
          exact ⟨inner, isRoom, fun participation isHeld =>
            (participations participation isHeld).reads_written (fit participation isHeld)⟩
        · refine .of_list rfl (fun _ => rfl) rfl fun someSubs => ?_
          obtain ⟨inner, rfl, fit⟩ := subsFit someSubs
          exact ⟨inner, rfl, fun sub isSub =>
            reads_nested (readsSubs sub isSub (fit sub isSub))⟩
        · refine .of_list rfl (fun _ => rfl) rfl fun someSupers => ?_
          obtain ⟨inner, rfl, fit⟩ := supersFit someSupers
          exact ⟨inner, rfl, fun super isSuper =>
            reads_nested (readsSupers super isSuper (fit super isSuper))⟩
        · refine .of_dictionary rfl (fun _ => rfl) rfl sorted fun someSets => ?_
          obtain ⟨inner, isRoom, fit⟩ := attributeSetsFit someSets
          exact ⟨inner, isRoom, fun entry isEntry =>
            (attributeSets entry isEntry).reads_written (fit entry isEntry)⟩
        · exact .of_optional rfl (fun _ => rfl) rfl (fun _ => rfl) fun blob isHeld =>
            Blob.reads_written (blobFits blob isHeld)
      have tell : activity.told.Tell (fields (nestedReader room)) room activity.takeOver blank :=
        ⟨rfl, names_fields _ ▸ by decide, activity.takeOver_commute, each⟩
      have read : Reader.Reads (Reader.record "struct ActivityVersion" (fields (nestedReader room))
          blank) (room + 1) (.object activity.told.members) activity :=
        tell.reads_record (activity.foldl_takeOver _)
      rw [written_eq]
      exact ⟨reader_succ room ▸ read.written, reader_succ room ▸ read.canonical, read.deep⟩

/-- A sound record is read back from the value that is written of it. -/
theorem Sound.ofValue_toValue
    {activity : Activity}
    (sound : activity.Sound) :
    ofValue activity.toValue = .ok activity := by
  have deep := (sound.reads_written (Nat.le_refl _)).deep
  exact (sound.reads_written deep).canonical

/--
A record that reads from a value, an object or an array of its fields, is read back from the
value that is written of it, and equals what is read.
-/
theorem read_back
    {value : Value}
    {activity : Activity}
    (wasRead : ofValue value = .ok activity) :
    ofValue activity.toValue = .ok activity ∧ activity.same activity = true :=
  ⟨(sound_of_reader wasRead).1.ofValue_toValue, activity.same_refl⟩

/-- A tour with a day inside it, led on seat 12 by a person whose nickname is kept as null. -/
def tour : Activity :=
  { blank with
    id := some "tour"
    version := some "1"
    label := ⟨[("de", "Reise"), ("en", "Tour")]⟩
    participations :=
      [ ⟨some (.person ⟨some "Ada", none, none, [("email", .null), ("nickname", .null)]⟩),
          ["lead"], [("note", .null), ("seat", .number (.integer 12))]⟩,
        ⟨some (.group ⟨none, none, [("givenName", .null)]⟩), [], []⟩ ]
    subs := [stub "day" "1"] }

/-- The tour as an array of its fields, with names in another order than they are written. -/
def tourItems : Value :=
  .array
    [ .null, .string "tour", .string "1",
      .object [("en", .string "Tour"), ("de", .string "Reise")], .null,
      .array
        [ .object
            [ ("seat", .number (.integer 12)), ("roles", .array [.string "lead"]), ("note", .null),
              ("participator", .object
                [("nickname", .null), ("givenName", .string "Ada"), ("email", .null)]) ],
          .object [("participator", .object [("givenName", .null)])] ],
      .array [.object [("version", .string "1"), ("id", .string "day")]] ]

/-- The tour is read back, its leader as a person and the others as a group. -/
theorem read_back_tour :
    ofValue tourItems = .ok tour ∧ ofValue tour.toValue = .ok tour ∧ tour.same tour = true := by
  have wasRead : ofValue tourItems = .ok tour := rfl
  exact ⟨wasRead, read_back wasRead⟩

end Activity

end ActivityCatalog
