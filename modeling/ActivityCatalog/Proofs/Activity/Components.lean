import ActivityCatalog.Activity.Written
import ActivityCatalog.Proofs.Participation

namespace ActivityCatalog

/-!
# The components of a record are read back

Periods, blobs, attribute sets and their manifests: what is written of one fits a room
exactly if its own components fit inside, and reads as the same component with as much
room as it takes.
-/

open Json

namespace Period

/-- The members that are written of a period. -/
def told (period : Period) : Parts :=
  [ ("startTime", textMember "startTime" period.startTime),
    ("endTime", textMember "endTime" period.endTime) ]

theorem written_eq (period : Period) : period.written = .object period.told.members := by
  simp [written, told, Parts.members]

/-- Take over a field of a period. -/
def takeOver (source : Period) (name : String) (period : Period) : Period :=
  match name with
  | "startTime" => { period with startTime := source.startTime }
  | "endTime" => { period with endTime := source.endTime }
  | _ => period

theorem takeOver_commute (source : Period) : Reader.Commute source.takeOver := by
  intro first second period
  unfold takeOver
  split <;> split <;> rfl

theorem depth_written
    {period : Period}
    {room : Nat} :
    period.written.depth ≤ room ↔ ∃ inner, room = inner + 1 := by
  rw [written_eq, Parts.depth_object]
  refine exists_congr fun inner => and_iff_left ?_
  simp only [told, List.forall_mem_cons, List.not_mem_nil, false_implies, implies_true, and_true]
  exact ⟨depth_textMember, depth_textMember⟩

theorem depth_of_reader
    {room : Nat}
    {document : Document}
    {period : Period}
    (wasRead : reader room document = .ok period) :
    period.written.depth ≤ room := by
  obtain ⟨inner, isRoom, -⟩ := Reader.of_record wasRead
  exact depth_written.mpr ⟨inner, isRoom⟩

theorem reads_written
    {period : Period}
    {room : Nat}
    (fits : period.written.depth ≤ room) :
    Reader.Reads reader room period.written period := by
  obtain ⟨inner, rfl⟩ := depth_written.mp fits
  rw [written_eq, reader]
  refine Parts.Tell.reads_record ⟨rfl, by decide, period.takeOver_commute, ?_⟩ rfl
  simp only [told, List.forall_mem_cons, List.not_mem_nil, false_implies, implies_true, and_true]
  exact ⟨.of_text rfl (fun _ => rfl) rfl, .of_text rfl (fun _ => rfl) rfl⟩

end Period

namespace AttributeManifest

theorem depth_written
    {manifest : AttributeManifest}
    {room : Nat} :
    manifest.written.depth ≤ room ↔ ∃ inner, room = inner + 1 :=
  Value.depth_object_le.trans (exists_congr fun _ => and_iff_left depth_textMember)

theorem depth_of_reader
    {room : Nat}
    {document : Document}
    {manifest : AttributeManifest}
    (wasRead : reader room document = .ok manifest) :
    manifest.written.depth ≤ room := by
  obtain ⟨inner, isRoom, -⟩ := Reader.of_record wasRead
  exact depth_written.mpr ⟨inner, isRoom⟩

theorem reads_written
    {manifest : AttributeManifest}
    {room : Nat}
    (fits : manifest.written.depth ≤ room) :
    Reader.Reads reader room manifest.written manifest := by
  obtain ⟨inner, rfl⟩ := depth_written.mp fits
  exact Parts.reads_textRecord (fun _ => rfl) rfl

end AttributeManifest

namespace AttributeSet

/-- The members that are written of an attribute set. -/
def told (attributeSet : AttributeSet) : Parts :=
  [ ("manifest", optionalMember "manifest" AttributeManifest.written attributeSet.manifest),
    ("attributes", dictionaryMember "attributes"
      (attributeSet.attributes.map fun entry => (entry.1, id entry.2))) ]

theorem written_eq (attributeSet : AttributeSet) :
    attributeSet.written = .object attributeSet.told.members := by
  simp [written, told, Parts.members]

/-- Take over a field of an attribute set. -/
def takeOver (source : AttributeSet) (name : String) (attributeSet : AttributeSet) :
    AttributeSet :=
  match name with
  | "manifest" => { attributeSet with manifest := source.manifest }
  | "attributes" => { attributeSet with attributes := source.attributes }
  | _ => attributeSet

theorem takeOver_commute (source : AttributeSet) : Reader.Commute source.takeOver := by
  intro first second attributeSet
  unfold takeOver
  split <;> split <;> rfl

/-- The attributes of a set are a dictionary of canonical values. -/
structure Sound (attributeSet : AttributeSet) : Prop where
  sorted : Dictionary.Sorted attributeSet.attributes
  canonical : ∀ entry ∈ attributeSet.attributes, entry.2.canonical = entry.2

theorem depth_written
    {attributeSet : AttributeSet}
    {room : Nat} :
    attributeSet.written.depth ≤ room ↔ ∃ inner, room = inner + 1 ∧
      (∀ manifest, attributeSet.manifest = some manifest → manifest.written.depth ≤ inner) ∧
        (attributeSet.attributes ≠ [] → ∃ deeper, inner = deeper + 1 ∧
          ∀ entry ∈ attributeSet.attributes, entry.2.depth ≤ deeper) := by
  rw [written_eq, Parts.depth_object]
  simp only [told, List.forall_mem_cons, List.not_mem_nil, false_implies, implies_true, and_true,
    depth_optionalMember, depth_dictionaryMember]
  exact Iff.rfl

/-- An attribute set that was read is sound and fits the room. -/
theorem sound_of_reader
    {room : Nat}
    {document : Document}
    {attributeSet : AttributeSet}
    (wasRead : reader room document = .ok attributeSet) :
    attributeSet.Sound ∧ attributeSet.written.depth ≤ room := by
  obtain ⟨inner, rfl, induction⟩ := Reader.of_record wasRead
  suffices holds : attributeSet.Sound ∧
      (∀ manifest, attributeSet.manifest = some manifest → manifest.written.depth ≤ inner) ∧
        (attributeSet.attributes ≠ [] → ∃ deeper, inner = deeper + 1 ∧
          ∀ entry ∈ attributeSet.attributes, entry.2.depth ≤ deeper) from
    ⟨holds.1, depth_written.mpr ⟨inner, rfl, holds.2⟩⟩
  refine induction (fun held => held.Sound ∧
      (∀ manifest, held.manifest = some manifest → manifest.written.depth ≤ inner) ∧
        (held.attributes ≠ [] → ∃ deeper, inner = deeper + 1 ∧
          ∀ entry ∈ held.attributes, entry.2.depth ≤ deeper)) ?_ ?_
  · exact ⟨⟨List.Pairwise.nil, by simp⟩, by simp, by simp⟩
  · rintro field isField document before after ⟨sound, manifestFits, attributesFit⟩ fieldRead
    simp only [List.mem_cons, List.not_mem_nil, or_false] at isField
    rcases isField with rfl | rfl
    · obtain ⟨result, resultRead, rfl⟩ := Reader.read_of_eq_ok.mp fieldRead
      refine ⟨⟨sound.sorted, sound.canonical⟩, ?_, attributesFit⟩
      rintro manifest rfl
      exact AttributeManifest.depth_of_reader (Reader.of_optional resultRead)
    · obtain ⟨attributes, attributesRead, rfl⟩ := Reader.read_of_eq_ok.mp fieldRead
      obtain ⟨deeper, rfl, sorted, wereRead⟩ := Reader.of_dictionary attributesRead
      have canonical : ∀ entry ∈ attributes,
          entry.2.canonical = entry.2 ∧ entry.2.depth ≤ deeper := by
        intro entry isEntry
        obtain ⟨_, entryRead⟩ := wereRead entry isEntry
        exact Reader.canonical_of_value entryRead
      exact ⟨⟨sorted, fun entry isEntry => (canonical entry isEntry).1⟩, manifestFits,
        fun _ => ⟨deeper, rfl, fun entry isEntry => (canonical entry isEntry).2⟩⟩

theorem Sound.reads_written
    {attributeSet : AttributeSet}
    {room : Nat}
    (sound : attributeSet.Sound)
    (fits : attributeSet.written.depth ≤ room) :
    Reader.Reads reader room attributeSet.written attributeSet := by
  obtain ⟨inner, rfl, manifestFits, attributesFit⟩ := depth_written.mp fits
  rw [written_eq, reader]
  refine Parts.Tell.reads_record ⟨rfl, by decide, attributeSet.takeOver_commute, ?_⟩ rfl
  simp only [told, List.forall_mem_cons, List.not_mem_nil, false_implies, implies_true, and_true]
  constructor
  · exact .of_optional rfl (fun _ => rfl) rfl (fun _ => rfl) fun manifest isHeld =>
      AttributeManifest.reads_written (manifestFits manifest isHeld)
  · refine .of_dictionary rfl (fun _ => rfl) rfl sound.sorted fun someAttributes => ?_
    obtain ⟨deeper, isRoom, entriesFit⟩ := attributesFit someAttributes
    exact ⟨deeper, isRoom, fun entry isEntry =>
      Reader.reads_value (sound.canonical entry isEntry) (entriesFit entry isEntry)⟩

end AttributeSet

namespace BlobManifest

theorem depth_written
    {manifest : BlobManifest}
    {room : Nat} :
    manifest.written.depth ≤ room ↔ ∃ inner, room = inner + 1 :=
  Value.depth_object_le.trans (exists_congr fun _ => and_iff_left depth_textMember)

theorem depth_of_reader
    {room : Nat}
    {document : Document}
    {manifest : BlobManifest}
    (wasRead : reader room document = .ok manifest) :
    manifest.written.depth ≤ room := by
  obtain ⟨inner, isRoom, -⟩ := Reader.of_record wasRead
  exact depth_written.mpr ⟨inner, isRoom⟩

theorem reads_written
    {manifest : BlobManifest}
    {room : Nat}
    (fits : manifest.written.depth ≤ room) :
    Reader.Reads reader room manifest.written manifest := by
  obtain ⟨inner, rfl⟩ := depth_written.mp fits
  exact Parts.reads_textRecord (fun _ => rfl) rfl

end BlobManifest

namespace Blob

/-- The members that are written of a blob. -/
def told (blob : Blob) : Parts :=
  [ ("manifest", optionalMember "manifest" BlobManifest.written blob.manifest),
    ("bytesBase64", textMember "bytesBase64" blob.bytesBase64),
    ("blobRef", textMember "blobRef" blob.blobRef) ]

theorem written_eq (blob : Blob) : blob.written = .object blob.told.members := by
  simp [written, told, Parts.members]

/-- Take over a field of a blob. -/
def takeOver (source : Blob) (name : String) (blob : Blob) : Blob :=
  match name with
  | "manifest" => { blob with manifest := source.manifest }
  | "bytesBase64" => { blob with bytesBase64 := source.bytesBase64 }
  | "blobRef" => { blob with blobRef := source.blobRef }
  | _ => blob

theorem takeOver_commute (source : Blob) : Reader.Commute source.takeOver := by
  intro first second blob
  unfold takeOver
  split <;> split <;> rfl

theorem depth_written
    {blob : Blob}
    {room : Nat} :
    blob.written.depth ≤ room ↔ ∃ inner, room = inner + 1 ∧
      ∀ manifest, blob.manifest = some manifest → manifest.written.depth ≤ inner := by
  rw [written_eq, Parts.depth_object]
  simp only [told, List.forall_mem_cons, List.not_mem_nil, false_implies, implies_true, and_true,
    depth_optionalMember]
  exact exists_congr fun inner => and_congr_right fun _ =>
    and_iff_left ⟨depth_textMember, depth_textMember⟩

theorem depth_of_reader
    {room : Nat}
    {document : Document}
    {blob : Blob}
    (wasRead : reader room document = .ok blob) :
    blob.written.depth ≤ room := by
  obtain ⟨inner, rfl, induction⟩ := Reader.of_record wasRead
  refine depth_written.mpr ⟨inner, rfl, ?_⟩
  refine induction (fun held =>
    ∀ manifest, held.manifest = some manifest → manifest.written.depth ≤ inner) (by simp) ?_
  intro field isField document before after manifestFits fieldRead
  simp only [List.mem_cons, List.not_mem_nil, or_false] at isField
  rcases isField with rfl | rfl | rfl
  · obtain ⟨result, resultRead, rfl⟩ := Reader.read_of_eq_ok.mp fieldRead
    rintro manifest rfl
    exact BlobManifest.depth_of_reader (Reader.of_optional resultRead)
  all_goals
    obtain ⟨_, -, rfl⟩ := Reader.read_of_eq_ok.mp fieldRead
    exact manifestFits

theorem reads_written
    {blob : Blob}
    {room : Nat}
    (fits : blob.written.depth ≤ room) :
    Reader.Reads reader room blob.written blob := by
  obtain ⟨inner, rfl, manifestFits⟩ := depth_written.mp fits
  rw [written_eq, reader]
  refine Parts.Tell.reads_record ⟨rfl, by decide, blob.takeOver_commute, ?_⟩ rfl
  simp only [told, List.forall_mem_cons, List.not_mem_nil, false_implies, implies_true, and_true]
  refine ⟨?_, .of_text rfl (fun _ => rfl) rfl, .of_text rfl (fun _ => rfl) rfl⟩
  exact .of_optional rfl (fun _ => rfl) rfl (fun _ => rfl) fun manifest isHeld =>
    BlobManifest.reads_written (manifestFits manifest isHeld)

end Blob

end ActivityCatalog
