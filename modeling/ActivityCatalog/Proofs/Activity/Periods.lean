import ActivityCatalog.Proofs.Activity.Faults
import ActivityCatalog.Proofs.Timestamp.Written

namespace ActivityCatalog.Activity

/-!
# Periods that run backwards

The times of a period are read apart, each as a date-time or as a bare date.  Once midnight is
added to the bare dates, a period runs backwards exactly if the text of its start is behind that
of its end.
-/

open Timestamp

/-- A period with written times fails its check exactly if it ends before it starts. -/
theorem checkPeriod_written
    (id : String)
    (first last : WrittenTime) :
    checkPeriod id (some (Period.between first.text last.text)) =
      if last.completed < first.completed then
        .error (.invertedPeriod id first.text last.text)
      else
        .ok () := by
  have bounds :
      (Period.between first.text last.text).bounds id =
        .ok (some first.meant, some last.meant) := by
    simp [Period.bounds, Period.between, readTimestamp?, readTimestamp, WrittenTime.parse?_text,
      bind, Except.bind, Except.map, pure, Except.pure]
  have isBackwards : first.meant.isAfter last.meant = true ↔ last.completed < first.completed :=
    WrittenTime.isAfter_meant_iff
  simp only [checkPeriod, bounds, bind, Except.bind, isBackwards]
  rfl

/--
A record with an id whose period has written times is refused for its period exactly if the bytes
of the completed start are greater than those of the completed end.  The fault is told with the
texts as they stand in the record, and no other fault of the period is told.
-/
theorem validate_written_period
    {activity : Activity}
    {first last : WrittenTime}
    (hasId : activity.idText ≠ "")
    (hasPeriod : activity.period = some (Period.between first.text last.text))
    {id : String}
    {fault : RecordFault}
    (ofPeriod : fault.OfPeriod id) :
    activity.validate = .error fault ↔
      fault = .invertedPeriod activity.idText first.text last.text ∧
        Text.bytes last.completed < Text.bytes first.completed := by
  rw [validate_eq_error_of_period hasId ofPeriod, hasPeriod, checkPeriod_written,
    Text.bytes_lt_bytes]
  split
  · rename_i isInverted
    simp [isInverted, eq_comm]
  · rename_i isOrdered
    simp [isOrdered]

/-- The last day of February in a leap year. -/
def leapDay : WrittenTime :=
  .date ⟨2024, 2, 29, by decide, by decide⟩

/-- The second before the leap day starts. -/
def leapEve : WrittenTime :=
  .dateTime ⟨2024, 2, 28, by decide, by decide⟩ ⟨23, 59, 59, by decide, by decide, by decide⟩

/-- A hike between two times. -/
def hike (first last : WrittenTime) : Activity :=
  { Activity.stub "hike" "1" with period := some (Period.between first.text last.text) }

/-- A hike from the leap day back to the day before runs backwards, and the way there does not. -/
theorem validate_written_period_leapDay :
    (hike leapDay leapEve).idText ≠ "" ∧ (hike leapEve leapDay).idText ≠ "" ∧
      (hike leapDay leapEve).validate =
        .error (.invertedPeriod "hike" "2024-02-29" "2024-02-28T23:59:59Z") ∧
      ∀ id fault, RecordFault.OfPeriod id fault →
        (hike leapEve leapDay).validate ≠ .error fault := by
  have texts : leapDay.text = "2024-02-29" ∧ leapEve.text = "2024-02-28T23:59:59Z" := by
    decide
  have behind : Text.bytes leapEve.completed < Text.bytes leapDay.completed := by
    decide
  have hasId (first last : WrittenTime) : (hike first last).idText ≠ "" := by
    simp [hike, Activity.stub, idText]
  refine ⟨hasId _ _, hasId _ _, ?_, ?_⟩
  · rw [← texts.1, ← texts.2]
    exact (validate_written_period (hasId _ _) rfl (.invertedPeriod _ _)).mpr ⟨rfl, behind⟩
  · intro id fault ofPeriod failed
    have isBehind := (validate_written_period (hasId _ _) rfl ofPeriod).mp failed
    exact absurd isBehind.2 (List.lt_asymm behind)

end ActivityCatalog.Activity
