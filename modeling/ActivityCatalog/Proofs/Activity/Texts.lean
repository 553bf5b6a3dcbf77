import ActivityCatalog.Proofs.Activity.RoundTrip
import ActivityCatalog.Proofs.Json.Texts

namespace ActivityCatalog.Activity

/-!
# Records kept as texts

A record that was read from JSON is read back from its text, if the text keeps the numbers in
it and is not nested too deep to be read.
-/

open Json

/-- A record that was read, of which the text can be read and keeps all numbers. -/
structure Storable (activity : Activity) : Prop where
  wasRead : ∃ room document, reader room document = .ok activity
  fits : activity.written.depth ≤ Reader.textRoom
  kept : activity.written.Kept

/-- A record that is read back from its value can be stored if its numbers are integers. -/
theorem storable_of_reader_written
    {activity : Activity}
    (readBack : reader Reader.textRoom (Document.ofValue activity.written) = .ok activity)
    (fits : activity.written.depth ≤ Reader.textRoom)
    (integers : activity.written.numbers.all Number.fitsWord = true) :
    activity.Storable :=
  ⟨⟨_, _, readBack⟩, fits, Value.kept_of_fitsWord integers⟩

/-- A record that can be stored is read back from its text. -/
theorem Storable.ofText_text
    {activity : Activity}
    (storable : activity.Storable) :
    ofText activity.text = .ok activity := by
  obtain ⟨room, document, wasRead⟩ := storable.wasRead
  have sound := (sound_of_reader wasRead).1
  have isDocument : Document.ofText? activity.text = some (Document.ofValue activity.written) :=
    Document.ofText?_text storable.kept
  rw [ofText, Reader.ofText, isDocument]
  exact mapError_eq_ok.mpr (sound.reads_written storable.fits).written

end ActivityCatalog.Activity
