import ActivityCatalog.Listing
import ActivityCatalog.Proofs.Activity.Texts

namespace ActivityCatalog.Listing

/-!
# Records of listings that were read

Each record of a listing that is read from a text was read as a record, within the room that
there is in the text.  So it can be stored as soon as its own text keeps the numbers in it.
-/

open Json

/-- A record that was read within some room. -/
def WasRead (room : Nat) (activity : Activity) : Prop :=
  ∃ inner, inner ≤ room ∧ ∃ document, Activity.reader inner document = .ok activity

theorem wasRead_of_list
    {room : Nat}
    {document : Document}
    {activities : List Activity}
    (listRead : Reader.list Activity.reader room document = .ok activities) :
    ∀ activity ∈ activities, WasRead room activity := by
  obtain ⟨inner, rfl, wereRead⟩ := Reader.of_list listRead
  intro activity isRead
  exact ⟨inner, Nat.le_succ inner, wereRead activity isRead⟩

theorem wasRead_of_reader
    {room : Nat}
    {document : Document}
    {listing : Listing}
    (listingRead : reader room document = .ok listing) :
    ∀ activity ∈ listing.activities, WasRead room activity := by
  obtain ⟨inner, rfl, induction⟩ := Reader.of_record listingRead
  refine induction (fun held => ∀ activity ∈ held.activities, WasRead (inner + 1) activity)
    (by simp) ?_
  intro field isField document before after holds fieldRead
  simp only [List.mem_cons, List.not_mem_nil, or_false] at isField
  rcases isField with rfl | rfl
  · obtain ⟨root, -, rfl⟩ := Reader.read_of_eq_ok.mp fieldRead
    exact holds
  · obtain ⟨activities, listRead, rfl⟩ := Reader.read_of_eq_ok.mp fieldRead
    intro activity isRead
    obtain ⟨room, fits, wasRead⟩ := wasRead_of_list listRead activity isRead
    exact ⟨room, fits.trans (Nat.le_succ inner), wasRead⟩

theorem wasRead_of_ofValue
    {value : Value}
    {listing : Listing}
    (listingRead : ofValue value = .ok listing) :
    ∀ activity ∈ listing.activities, WasRead value.depth activity := by
  unfold ofValue at listingRead
  split at listingRead
  · split at listingRead
    · rename_i activities listRead
      cases listingRead
      exact wasRead_of_list listRead
    · cases listingRead
  · split at listingRead
    · split at listingRead
      · rename_i read recordRead
        cases listingRead
        exact wasRead_of_reader recordRead
      · cases listingRead
    · split at listingRead
      · rename_i activity activityRead
        cases listingRead
        rw [List.forall_mem_singleton]
        exact ⟨_, Nat.le_refl _, _, activityRead⟩
      · cases listingRead
  · cases listingRead

/-- The records of a listing that is read from a text are read within the room of a text. -/
theorem wasRead_of_ofText
    {text : String}
    {listing : Listing}
    (listingRead : ofText text = .ok listing) :
    ∀ activity ∈ listing.activities, WasRead Reader.textRoom activity := by
  unfold ofText Value.ofText Reader.ofText at listingRead
  split at listingRead
  · rename_i value valueRead
    split at valueRead
    · have fits := (Reader.canonical_of_value (mapError_eq_ok.mp valueRead)).2
      intro activity isRead
      obtain ⟨room, isWithin, wasRead⟩ := wasRead_of_ofValue listingRead activity isRead
      exact ⟨room, isWithin.trans fits, wasRead⟩
    · cases valueRead
  · cases listingRead

/-- A record that was read within the room of a text can be stored if its numbers are kept. -/
theorem WasRead.storable
    {activity : Activity}
    (wasRead : WasRead Reader.textRoom activity)
    (kept : activity.written.Kept) :
    activity.Storable := by
  obtain ⟨room, isWithin, document, activityRead⟩ := wasRead
  exact ⟨⟨room, document, activityRead⟩, (Activity.sound_of_reader activityRead).2.trans isWithin,
    kept⟩

end ActivityCatalog.Listing
