import ActivityCatalog.Proofs.Catalog.Greatest
import ActivityCatalog.Proofs.Directory.Answers
import ActivityCatalog.Rpc.Method

namespace ActivityCatalog.Rpc

/-!
# Asking for a version of an activity

A call for an activity names its id and perhaps a version.  A version that is a text is the one
that is answered, if it is there at all.  A version of any other kind is taken no notice of, so
that the answer is the latest version, as if none had been asked for.
-/

open Json

section Calls

variable
  {service : Service}
  {load : Load}
  {directory : Directory}
  {params : Value}
  {id : String}
  {value : Value}

theorem answered_eq_ok
    {Result : Type}
    {write : Result → Value}
    {answer : Except DirectoryFault Result × Directory} :
    (answered write answer).1 = .ok value ↔
      ∃ result, answer.1 = .ok result ∧ write result = value := by
  rw [answered, map_eq_ok]
  simp only [mapError_eq_ok]

theorem record_eq_ok
    {catalog : Catalog}
    {version : Option String}
    {record : Activity} :
    catalog.record id version = .ok record ↔ catalog.get? id version = some record := by
  unfold Catalog.record
  cases catalog.get? id version <;> cases version <;> simp

/-- A call for an id asks the directory for the record of the version that is a text. -/
theorem call_get
    (hasId : params.member? "id" = some (.string id))
    (someId : id ≠ "") :
    call service load "activity.get" params directory =
      answered Activity.toValue (directory.ask
        (fun catalog => catalog.record id (Params.text? "version" params)) load) := by
  have isText : Params.text "id" params = .ok id := by
    rw [Params.text, Params.text?, hasId]
    exact if_neg someId
  change withParams (Params.text "id" params) directory _ = _
  rw [isText]
  rfl

theorem call_get_eq_ok
    (hasId : params.member? "id" = some (.string id))
    (someId : id ≠ "") :
    (call service load "activity.get" params directory).1 = .ok value ↔
      ∃ catalog record, (directory.current load).1 = .ok catalog ∧
        catalog.get? id (Params.text? "version" params) = some record ∧
          value = record.toValue := by
  rw [call_get hasId someId, answered_eq_ok]
  constructor
  · rintro ⟨record, answered, rfl⟩
    obtain ⟨catalog, isCurrent, found⟩ := Directory.ask_eq_ok.mp answered
    exact ⟨catalog, record, isCurrent, record_eq_ok.mp found, rfl⟩
  · rintro ⟨catalog, record, isCurrent, found, rfl⟩
    exact ⟨record, Directory.ask_eq_ok.mpr ⟨catalog, isCurrent, record_eq_ok.mpr found⟩, rfl⟩

theorem text?_eq_some
    {key text : String} :
    Params.text? key params = some text ↔ params.member? key = some (.string text) := by
  have isText : ∀ held : Value, held.text? = some text ↔ held = .string text := by
    intro held
    cases held <;> simp [Value.text?]
  simp [Params.text?, Option.bind_eq_some_iff, isText]

/-- A directory answers from a catalog that is closed. -/
theorem closed_of_current
    {catalog : Catalog}
    (reached : directory.Reached)
    (isCurrent : (directory.current load).1 = .ok catalog) :
    catalog.Closed := by
  obtain ⟨listing, built⟩ := reached.holdsBuilt.current.1 catalog isCurrent
  exact Catalog.closed_of_build built

/--
A call for an id with a version that is a text is answered with the record of this version, and
with no other.  A call with a version of another kind, or with none, is answered as the call
for the id alone, with the record of the greatest version.
-/
theorem get_by_version
    (reached : directory.Reached)
    (hasId : params.member? "id" = some (.string id))
    (someId : id ≠ "") :
    (∀ version, params.member? "version" = some (.string version) → ∀ value,
        (call service load "activity.get" params directory).1 = .ok value ↔
          ∃ catalog record, (directory.current load).1 = .ok catalog ∧
            record ∈ catalog.records ∧ record.idText = id ∧ record.versionText = version ∧
              value = record.toValue) ∧
      ((∀ version, params.member? "version" ≠ some (.string version)) →
        call service load "activity.get" params directory =
            call service load "activity.get" (.object [("id", .string id)]) directory ∧
          ∀ value,
            (call service load "activity.get" params directory).1 = .ok value ↔
              ∃ catalog record, (directory.current load).1 = .ok catalog ∧
                record ∈ catalog.records ∧ record.idText = id ∧
                  catalog.IsGreatest id record.versionText ∧ value = record.toValue) := by
  constructor
  · intro version isText value
    rw [call_get_eq_ok hasId someId, text?_eq_some.mpr isText]
    refine exists_congr fun catalog => exists_congr fun record => and_congr_right ?_
    intro isCurrent
    rw [(closed_of_current reached isCurrent).get?_some_eq_some, and_assoc, and_assoc]
  · intro noText
    have noVersion : Params.text? "version" params = none :=
      Option.eq_none_iff_forall_ne_some.mpr fun version isText =>
        noText version (text?_eq_some.mp isText)
    have onlyId : (Value.object [("id", .string id)]).member? "id" = some (.string id) := rfl
    constructor
    · rw [call_get hasId someId, call_get onlyId someId, noVersion]
      rfl
    · intro value
      rw [call_get_eq_ok hasId someId, noVersion]
      refine exists_congr fun catalog => exists_congr fun record => and_congr_right ?_
      intro isCurrent
      rw [(closed_of_current reached isCurrent).get?_none_iff_isGreatest, and_assoc, and_assoc]

end Calls

/-- Two versions of a hotel. -/
def hotels : Listing :=
  ⟨none, [Activity.stub "hotel" "1", Activity.stub "hotel" "2"]⟩

/-- The catalog of both versions of the hotel. -/
def hotelCatalog : Catalog :=
  let found : Catalog :=
    ⟨[ ⟨⟨"hotel", "1"⟩, Activity.stub "hotel" "1", true⟩,
       ⟨⟨"hotel", "2"⟩, Activity.stub "hotel" "2", true⟩ ], 2, none, []⟩
  { found with issues := found.findIssues }

theorem build_hotels : Catalog.build hotels = .ok hotelCatalog :=
  Catalog.build_eq_ok.mpr
    ⟨⟨hotelCatalog.entries, 2, none, []⟩, ⟨hotelCatalog.entries, 2, none, []⟩, rfl, rfl, rfl⟩

/-- A call for the hotel with a version. -/
def hotelParams (version : Value) : Value :=
  .object [("id", .string "hotel"), ("version", version)]

/-- The answer of a service to a call for the hotel with a version. -/
def hotelAnswer (version : Value) : Except Fault Value :=
  (call ⟨⟨"en", 8⟩, "static"⟩ (fun _ => .ok hotels) "activity.get" (hotelParams version)
    (.unloaded none)).1

/-- The hotel is answered in its first version for the text, and in its last for the number. -/
theorem get_by_version_hotel :
    Directory.Reached (.unloaded none) ∧
      (∀ version, (hotelParams version).member? "id" = some (.string "hotel")) ∧ "hotel" ≠ "" ∧
      hotelAnswer (.string "1") = .ok (Activity.stub "hotel" "1").toValue ∧
        hotelAnswer (.ofNat 1) = .ok (Activity.stub "hotel" "2").toValue := by
  have reached : Directory.Reached (.unloaded none) := .unloaded none
  have isCurrent : ((Directory.unloaded none).current fun _ => .ok hotels).1 = .ok hotelCatalog :=
    Directory.current_of_built build_hotels
  have found : hotelCatalog.get? "hotel" none = some (Activity.stub "hotel" "2") := rfl
  have isGreatest : hotelCatalog.IsGreatest "hotel" "2" :=
    ((Catalog.closed_of_build build_hotels).isGreatest_of_get?_none found).1
  refine ⟨reached, fun _ => rfl, by decide, ?_, ?_⟩
  · refine ((get_by_version reached rfl (by decide)).1 "1" rfl _).mpr ?_
    exact ⟨hotelCatalog, Activity.stub "hotel" "1", isCurrent, List.mem_cons_self, rfl, rfl, rfl⟩
  · have noText : ∀ version, (hotelParams (.ofNat 1)).member? "version" ≠ some (.string version) :=
      fun version isText => by cases isText
    refine (((get_by_version reached rfl (by decide)).2 noText).2 _).mpr ?_
    exact ⟨hotelCatalog, Activity.stub "hotel" "2", isCurrent,
      List.mem_cons_of_mem _ List.mem_cons_self, rfl, isGreatest, rfl⟩

/-- Asked for the version that is the number one, the hotel is answered in another version. -/
theorem get_answers_another_version :
    ¬∀ service load directory params id given value,
      Directory.Reached directory →
        params.member? "id" = some (.string id) → id ≠ "" →
          params.member? "version" = some given → given ≠ .null →
            (call service load "activity.get" params directory).1 = .ok value →
              ∃ record : Activity, value = record.toValue ∧ record.idText = id ∧
                given = .string record.versionText := by
  intro holds
  have answered : hotelAnswer (.ofNat 1) = .ok (Activity.stub "hotel" "2").toValue :=
    (call_get_eq_ok rfl (by decide)).mpr ⟨hotelCatalog, Activity.stub "hotel" "2",
      Directory.current_of_built build_hotels, rfl, rfl⟩
  obtain ⟨record, -, -, isVersion⟩ := holds _ _ _ (hotelParams (.ofNat 1)) "hotel" (.ofNat 1) _
    (.unloaded none) rfl (by decide) rfl (by simp [Value.ofNat, Value.ofInt]) answered
  cases isVersion

end ActivityCatalog.Rpc
