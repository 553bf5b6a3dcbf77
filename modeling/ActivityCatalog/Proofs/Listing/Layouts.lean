import ActivityCatalog.Proofs.Json.Fields
import ActivityCatalog.Proofs.Listing

namespace ActivityCatalog.Listing

/-!
# The layouts of listings

Records that were read are written again in one of three layouts: as an array, under a name of
an object beside the root, or a single one by itself.  Which layout it is shows in the document
alone, for no field of a record is called as the records of a listing are.  So each layout is
read as what was written, with its members in any order.
-/

open Json

/-- The records in an array. -/
def listed (activities : List Activity) : Value :=
  .array (activities.map Activity.written)

/-- How a root is told: under its name, and where there is none by a null or not at all. -/
inductive TellsRoot : Option String → List (String × Value) → Prop where
  | text (root : String) : TellsRoot (some root) [("root", .string root)]
  | null : TellsRoot none [("root", .null)]
  | absent : TellsRoot none []

/-- The records under a name, after the members that tell the root. -/
def named (rootMembers : List (String × Value)) (activities : List Activity) : Value :=
  .object (rootMembers ++ [("activities", listed activities)])

/--
A text of a document is read as a listing, whatever the order of the members, if it can be read
and keeps all numbers.
-/
def ReadFrom (listing : Listing) (document : Value) : Prop :=
  ∀ arranged : Value, arranged.canonical = document.canonical →
    arranged.depth ≤ Reader.textRoom → arranged.Kept → ofText arranged.text = .ok listing

theorem readFrom_of_ofValue
    {listing : Listing}
    {document : Value}
    (wasRead : ofValue document.canonical = .ok listing) :
    ReadFrom listing document := by
  intro arranged sameMembers fits kept
  rw [ofText, Value.ofText_text kept fits, sameMembers]
  exact wasRead

section Layouts

variable
  {activities : List Activity}
  {activity : Activity}

theorem list_listed
    {room : Nat}
    (sound : ∀ activity ∈ activities, activity.Sound)
    (fits : (listed activities).canonical.depth ≤ room) :
    Reader.list Activity.reader room (Document.ofValue (listed activities).canonical) =
      .ok activities := by
  obtain ⟨inner, rfl, itemsFit⟩ : ∃ inner, room = inner + 1 ∧
      ∀ item ∈ (activities.map Activity.written).map Value.canonical, item.depth ≤ inner := by
    rwa [listed, Value.canonical_array, Value.depth_array_le] at fits
  refine (Reader.reads_list fun activity isListed => ?_).canonical
  have isSound := sound activity isListed
  have canonicalFits : activity.written.canonical.depth ≤ inner :=
    itemsFit _ (List.mem_map_of_mem (List.mem_map_of_mem isListed))
  have deep := (isSound.reads_written (Nat.le_refl _)).deep
  exact isSound.reads_written (deep.trans canonicalFits)

theorem ofValue_listed (sound : ∀ activity ∈ activities, activity.Sound) :
    ofValue (listed activities).canonical = .ok ⟨none, activities⟩ := by
  have isArray : (listed activities).canonical =
      .array ((activities.map Activity.written).map Value.canonical) :=
    Value.canonical_array _
  have wasRead := list_listed sound (Nat.le_refl _)
  rw [isArray] at wasRead ⊢
  rw [ofValue, Reader.ofValue, wasRead]

/-- The layout with a name, its members by name. -/
theorem canonical_named
    {root : Option String}
    {rootMembers : List (String × Value)}
    (tellsRoot : TellsRoot root rootMembers) :
    (named rootMembers activities).canonical =
      .object (("activities", (listed activities).canonical) :: rootMembers) := by
  -- By name the list of the records comes before the root, which is written first.
  have before : "activities" < "root" := by decide
  rw [named, Value.canonical_object]
  refine congrArg Value.object (Dictionary.ofList_eq_of_perm ?_ ?_)
  · cases tellsRoot with
    | text | null =>
        exact List.pairwise_pair.mpr before
    | absent =>
        exact List.pairwise_singleton _ _
  · cases tellsRoot with
    | text | null =>
        exact List.Perm.swap _ _ _
    | absent =>
        exact List.Perm.refl _

theorem ofValue_named
    {root : Option String}
    {rootMembers : List (String × Value)}
    (tellsRoot : TellsRoot root rootMembers)
    (sound : ∀ activity ∈ activities, activity.Sound) :
    ofValue (named rootMembers activities).canonical = .ok ⟨root, activities⟩ := by
  have different : ((("activities", (listed activities).canonical) :: rootMembers).map
      Prod.fst).Nodup := by
    cases tellsRoot <;> simp
  rw [canonical_named tellsRoot]
  obtain ⟨inner, isDepth, fits⟩ := Value.depth_object_le.mp (Nat.le_refl
    (Value.object (("activities", (listed activities).canonical) :: rootMembers)).depth)
  have listRead := list_listed sound (fits _ List.mem_cons_self)
  have wasRead : Reader.ofValue reader
      (.object (("activities", (listed activities).canonical) :: rootMembers)) =
        .ok ⟨root, activities⟩ := by
    rw [Reader.ofValue, isDepth, reader, Reader.record_object different, List.foldlM_cons]
    refine bind_eq_ok.mpr ⟨⟨none, activities⟩, ?_, ?_⟩
    · exact congrArg (Except.map fun activities => (⟨none, activities⟩ : Listing)) listRead
    · cases tellsRoot <;> rfl
  rw [ofValue, wasRead]
  rfl

/-- Every field of a record is written as one member at most, under its own name. -/
theorem named_told (activity : Activity) : activity.told.Named := by
  simp only [Parts.Named, Activity.told, List.forall_mem_cons, List.not_mem_nil, false_implies,
    implies_true, and_true]
  exact ⟨names_optionalMember _ _ _, names_optionalMember _ _ _, names_optionalMember _ _ _,
    names_dictionaryMember _ _, names_optionalMember _ _ _, names_listMember _ _,
    names_listMember _ _, names_listMember _ _, names_dictionaryMember _ _,
    names_optionalMember _ _ _⟩

/-- No member of a record is called as the records of a listing are. -/
theorem get?_activities_of_toValue
    {members : Dictionary Value}
    (isObject : activity.toValue = .object members) :
    Dictionary.get? "activities" members = none := by
  have sorted : Dictionary.Sorted members := by
    refine (Value.canonical_object_eq_self.mp ?_).1
    rw [← isObject, Activity.toValue, Value.canonical_canonical]
  rw [Activity.toValue, Activity.written_eq, Value.canonical_object] at isObject
  cases isObject
  refine Option.eq_none_iff_forall_ne_some.mpr fun value found => ?_
  -- What is found under the name would be a member that was written, so the name of a field.
  have isEntry := (Dictionary.mem_of_mem_insertAll (sorted.get?_eq_some.mp found)).resolve_right
    List.not_mem_nil
  obtain ⟨member, isMember, isNamed⟩ := List.mem_map.mp isEntry
  have inNames : "activities" ∈ activity.told.map Prod.fst := by
    have isName := (named_told activity).sublist.subset (List.mem_map_of_mem isMember)
    rwa [(Prod.ext_iff.mp isNamed).1] at isName
  simp [Activity.told] at inNames

theorem ofValue_toValue (sound : activity.Sound) :
    ofValue activity.toValue = .ok ⟨activity.id, [activity]⟩ := by
  have wasRead := sound.ofValue_toValue
  cases isObject : activity.toValue with
  | object members =>
      rw [isObject] at wasRead
      rw [ofValue, get?_activities_of_toValue isObject, wasRead]
      rfl
  | null | bool | number | string | array =>
      rw [Activity.toValue, Activity.written_eq, Value.canonical_object] at isObject
      cases isObject

/-- A record that can be stored is read from its text as a listing of its own. -/
theorem ofText_of_storable (storable : activity.Storable) :
    ofText activity.text = .ok ⟨activity.id, [activity]⟩ := by
  obtain ⟨room, document, wasRead⟩ := storable.wasRead
  have single := ofValue_toValue (Activity.sound_of_reader wasRead).1
  exact readFrom_of_ofValue single activity.written rfl storable.fits storable.kept

/--
Records that were read are read back from each layout that they are written in: without a root
from an array, with the root that was told from an object that has them under a name, and a
single one as the root, since nothing in it is called as the records of a listing are.
-/
theorem layouts_read_back
    {root : Option String}
    {rootMembers : List (String × Value)}
    (wereRead : ∀ activity ∈ activities,
      ∃ room document, Activity.reader room document = .ok activity)
    (tellsRoot : TellsRoot root rootMembers)
    (wasRead : ∃ room document, Activity.reader room document = .ok activity) :
    ReadFrom ⟨none, activities⟩ (listed activities) ∧
      ReadFrom ⟨root, activities⟩ (named rootMembers activities) ∧
        ReadFrom ⟨activity.id, [activity]⟩ activity.written ∧
          ∃ members, activity.toValue = .object members ∧
            Dictionary.get? "activities" members = none := by
  have sound : ∀ activity ∈ activities, activity.Sound := by
    intro activity isListed
    obtain ⟨room, document, activityRead⟩ := wereRead activity isListed
    exact (Activity.sound_of_reader activityRead).1
  obtain ⟨room, document, activityRead⟩ := wasRead
  have single := ofValue_toValue (Activity.sound_of_reader activityRead).1
  obtain ⟨members, isObject⟩ : ∃ members, activity.toValue = .object members :=
    ⟨_, by rw [Activity.toValue, Activity.written_eq, Value.canonical_object]⟩
  exact ⟨readFrom_of_ofValue (ofValue_listed sound),
    readFrom_of_ofValue (ofValue_named tellsRoot sound), readFrom_of_ofValue single,
    members, isObject, get?_activities_of_toValue isObject⟩

/--
A tour with a day inside it and the day once more, with the tour as the root.  The only number
that is written is that of a seat.
-/
theorem layouts_read_back_tour :
    (∀ activity ∈ [Activity.tour, Activity.stub "day" "1"],
        ∃ room document, Activity.reader room document = .ok activity) ∧
      TellsRoot (some "tour") [("root", .string "tour")] ∧
        ofText (listed [Activity.tour, Activity.stub "day" "1"]).text =
            .ok ⟨none, [Activity.tour, Activity.stub "day" "1"]⟩ ∧
          ofText (named [("root", .string "tour")] [Activity.tour, Activity.stub "day" "1"]).text =
              .ok ⟨some "tour", [Activity.tour, Activity.stub "day" "1"]⟩ ∧
            ofText Activity.tour.text = .ok ⟨some "tour", [Activity.tour]⟩ := by
  have tourRead : ∃ room document, Activity.reader room document = .ok Activity.tour :=
    ⟨Activity.tourItems.depth, Document.ofValue Activity.tourItems, rfl⟩
  have dayRead : ∃ room document, Activity.reader room document = .ok (Activity.stub "day" "1") :=
    ⟨1, Document.ofValue (.object [("id", .string "day"), ("version", .string "1")]), rfl⟩
  have wereRead : ∀ activity ∈ [Activity.tour, Activity.stub "day" "1"],
      ∃ room document, Activity.reader room document = .ok activity :=
    List.forall_mem_cons.mpr ⟨tourRead, List.forall_mem_singleton.mpr dayRead⟩
  obtain ⟨fromArray, fromObject, fromRecord, -⟩ :=
    layouts_read_back wereRead (.text "tour") tourRead
  exact ⟨wereRead, .text "tour", fromArray _ rfl (by decide) (Value.kept_of_fitsWord rfl),
    fromObject _ rfl (by decide) (Value.kept_of_fitsWord rfl),
    fromRecord _ rfl (by decide) (Value.kept_of_fitsWord rfl)⟩

end Layouts

end ActivityCatalog.Listing
