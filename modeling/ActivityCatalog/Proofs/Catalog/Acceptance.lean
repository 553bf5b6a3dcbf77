import ActivityCatalog.Proofs.Activity.Faults
import ActivityCatalog.Proofs.Activity.Same
import ActivityCatalog.Proofs.Catalog.Flattening

namespace ActivityCatalog

/-!
# Which listings make a catalog, and why others do not

A listing makes a catalog exactly if the records at its top are valid and agree, so that those
of one key have equal normal forms, and all records embedded in them are valid.

Any other listing is refused for the first record that offends: first the records from the top
are checked, each by itself and then against the earlier ones of its key, and then the embedded
records, level by level.  An embedded record is never refused for want of an id, as one without
an id is passed over.
-/

namespace Catalog

/-- Records from the top that can stand together. -/
structure TopsAccepted (tops : List Activity) : Prop where
  valid : ∀ activity ∈ tops, ∃ warnings, activity.validate = .ok warnings
  agree : Activity.KeysAgree (tops.map Activity.normalForm)

/-- Records that can stand together at the top, with all that they embed. -/
structure Accepted (tops : List Activity) : Prop extends TopsAccepted tops where
  embeddedValid :
    ∀ node, Activity.IsEmbedded tops node → ∃ warnings, node.validate = .ok warnings

/-- The faults of a record from the top that comes after others. -/
inductive TopFault (earlier : List Activity) (activity : Activity) : RecordFault → Prop where
  | invalid
      {fault : RecordFault}
      (isInvalid : activity.validate = .error fault) :
      TopFault earlier activity fault
  | differs
      {key : Key}
      {warnings : List RecordWarning}
      {other : Activity}
      (isValid : activity.validate = .ok warnings)
      (keyed : activity.key? = some key)
      (isEarlier : other ∈ earlier)
      (otherKeyed : other.key? = some key)
      (differ : ¬other.normalForm.same activity.normalForm) :
      TopFault earlier activity (.duplicateVersion key)

/-- The faults for which records are refused: that of the first one that offends. -/
inductive Refused (tops : List Activity) : RecordFault → Prop where
  | top
      {earlier rest : List Activity}
      {activity : Activity}
      {fault : RecordFault}
      (isListed : tops = earlier ++ activity :: rest)
      (accepted : TopsAccepted earlier)
      (isFault : TopFault earlier activity fault) :
      Refused tops fault
  | embedded
      {earlier rest : List Activity}
      {node : Activity}
      {fault : RecordFault}
      (accepted : TopsAccepted tops)
      (isEmbedded : Activity.embedded tops = earlier ++ node :: rest)
      (valid : ∀ other ∈ earlier, ∃ warnings, other.validate = .ok warnings)
      (isInvalid : node.validate = .error fault) :
      Refused tops fault

section Faults

variable
  {catalog : Catalog}
  {activity : Activity}
  {fault : RecordFault}

/-- A valid record has a key. -/
theorem key?_of_validate
    (valid : ∃ warnings, activity.validate = .ok warnings) :
    ∃ key, activity.key? = some key := by
  obtain ⟨warnings, validated⟩ := valid
  obtain ⟨hasId, -, -⟩ := Activity.validate_eq_ok.mp validated
  exact ⟨_, if_neg hasId⟩

theorem admitted_eq_error :
    admitted activity = .error fault ↔ activity.validate = .error fault := by
  cases valid : activity.validate with
  | error other =>
      simp [admitted, Activity.normalized, valid, bind, Except.bind, Except.map]
  | ok warnings =>
      obtain ⟨key, keyed⟩ := key?_of_validate ⟨warnings, valid⟩
      have isAdmitted := admitted_eq_ok.mpr ⟨⟨warnings, valid⟩, keyed, rfl⟩
      simp [isAdmitted]

/-- A record from the top is refused for its own fault or for the record that is there. -/
theorem addTop_eq_error :
    catalog.addTop activity = .error fault ↔
      activity.validate = .error fault ∨
        ∃ key entry, (∃ warnings, activity.validate = .ok warnings) ∧
          activity.key? = some key ∧ catalog.entry? key = some entry ∧
            ¬entry.record.same activity.normalForm ∧ fault = .duplicateVersion key := by
  rw [addTop, bind_eq_error, admitted_eq_error]
  apply or_congr_right
  constructor
  · rintro ⟨⟨key, normal⟩, isAdmitted, failed⟩
    obtain ⟨valid, keyed, rfl⟩ := admitted_eq_ok.mp isAdmitted
    cases found : catalog.entry? key with
    | none =>
        simp only [found] at failed
        cases failed
    | some entry =>
        simp only [found] at failed
        split at failed
        · cases failed
        · rename_i differ
          cases failed
          exact ⟨key, entry, valid, keyed, found, differ, rfl⟩
  · rintro ⟨key, entry, valid, keyed, found, differ, rfl⟩
    refine ⟨(key, activity.normalForm), admitted_eq_ok.mpr ⟨valid, keyed, rfl⟩, ?_⟩
    simp only [found, if_neg differ]
    rfl

/-- An embedded record is refused for its own fault only. -/
theorem addEmbedded_eq_error :
    catalog.addEmbedded activity = .error fault ↔ activity.validate = .error fault := by
  rw [addEmbedded, bind_eq_error, admitted_eq_error]
  apply or_iff_left
  rintro ⟨⟨key, normal⟩, -, failed⟩
  cases found : catalog.entry? key with
  | none =>
      simp only [found] at failed
      cases failed
  | some entry =>
      simp only [found] at failed
      split at failed <;> cases failed

end Faults

section Tops

variable
  {catalog : Catalog}
  {earlier tops : List Activity}
  {activity : Activity}
  {fault : RecordFault}

/-- After records that are accepted, a record from the top is refused for its faults. -/
theorem Holds.addTop_eq_error
    (holds : catalog.Holds earlier [])
    (accepted : TopsAccepted earlier) :
    catalog.addTop activity = .error fault ↔ TopFault earlier activity fault := by
  rw [Catalog.addTop_eq_error]
  constructor
  · rintro (isInvalid | ⟨key, entry, ⟨warnings, isValid⟩, keyed, found, differ, rfl⟩)
    · exact .invalid isInvalid
    · rw [holds.entry key] at found
      cases isFirst : Activity.firstWith? key earlier with
      | none =>
          rw [entryFor?_of_embedded isFirst] at found
          cases found
      | some first =>
          rw [entryFor?_of_top isFirst] at found
          cases found
          obtain ⟨isEarlier, firstKeyed⟩ := Activity.firstWith?_some isFirst
          exact .differs isValid keyed isEarlier firstKeyed differ
  · intro isFault
    cases isFault with
    | invalid isInvalid =>
        exact .inl isInvalid
    | @differs key warnings other isValid keyed isEarlier otherKeyed differ =>
        refine .inr ?_
        cases isFirst : Activity.firstWith? key earlier with
        | none =>
            exact absurd otherKeyed (Activity.firstWith?_eq_none.mp isFirst other isEarlier)
        | some first =>
            -- The record is compared with the first of its key, which equals the other one.
            obtain ⟨firstEarlier, firstKeyed⟩ := Activity.firstWith?_some isFirst
            have sameOther := accepted.agree _ (List.mem_map_of_mem firstEarlier) _
              (List.mem_map_of_mem isEarlier) (firstKeyed.trans otherKeyed.symm)
            have found := holds.entry key
            rw [entryFor?_of_top isFirst] at found
            refine ⟨key, _, ⟨warnings, isValid⟩, keyed, found, ?_, rfl⟩
            intro sameActivity
            exact differ (Activity.same_trans (Activity.same_symm sameOther) sameActivity)

/-- One more record is accepted if it has no fault. -/
theorem topsAccepted_concat :
    TopsAccepted (earlier ++ [activity]) ↔
      TopsAccepted earlier ∧ ∀ fault, ¬TopFault earlier activity fault := by
  constructor
  · rintro ⟨valid, agree⟩
    obtain ⟨earlierValid, lastValid⟩ := List.forall_mem_append.mp valid
    obtain ⟨warnings, isValid⟩ := lastValid activity (List.mem_singleton_self activity)
    rw [List.map_append, List.map_singleton, Activity.keysAgree_concat] at agree
    refine ⟨⟨earlierValid, agree.1⟩, ?_⟩
    intro fault isFault
    cases isFault with
    | invalid isInvalid =>
        cases isValid.symm.trans isInvalid
    | differs _ keyed isEarlier otherKeyed differ =>
        exact differ (agree.2 _ (List.mem_map_of_mem isEarlier) (otherKeyed.trans keyed.symm))
  · rintro ⟨⟨earlierValid, agree⟩, noFault⟩
    have isValid : ∃ warnings, activity.validate = .ok warnings :=
      exists_ok_iff.mpr fun fault isInvalid => noFault fault (.invalid isInvalid)
    refine ⟨List.forall_mem_append.mpr ⟨earlierValid, List.forall_mem_singleton.mpr isValid⟩, ?_⟩
    rw [List.map_append, List.map_singleton, Activity.keysAgree_concat]
    refine ⟨agree, ?_⟩
    intro normal isNormal sameKey
    obtain ⟨other, isEarlier, rfl⟩ := List.mem_map.mp isNormal
    obtain ⟨warnings, validated⟩ := isValid
    obtain ⟨key, keyed⟩ := key?_of_validate ⟨warnings, validated⟩
    by_contra differ
    exact noFault _ (.differs validated keyed isEarlier (sameKey.trans keyed) differ)

/-- The records from the top can all be added exactly if they are accepted. -/
theorem exists_tops_iff :
    (∃ catalog, tops.foldlM Catalog.addTop empty = .ok catalog) ↔ TopsAccepted tops := by
  induction tops using List.reverseRecOn with
  | nil =>
      refine ⟨fun _ => ⟨?_, Activity.keysAgree_nil⟩, fun _ => ⟨empty, rfl⟩⟩
      intro activity isTop
      cases isTop
  | append_singleton earlier activity inductionHypothesis =>
      rw [topsAccepted_concat, ← inductionHypothesis]
      constructor
      · rintro ⟨catalog, added⟩
        rw [List.foldlM_append] at added
        obtain ⟨before, earlierAdded, lastAdded⟩ := bind_eq_ok.mp added
        have accepted := inductionHypothesis.mp ⟨before, earlierAdded⟩
        refine ⟨⟨before, earlierAdded⟩, ?_⟩
        intro fault isFault
        have refused := ((holds_of_tops earlierAdded).addTop_eq_error accepted).mpr isFault
        obtain ⟨next, stepped, -⟩ := bind_eq_ok.mp lastAdded
        cases refused.symm.trans stepped
      · rintro ⟨⟨before, earlierAdded⟩, noFault⟩
        have accepted := inductionHypothesis.mp ⟨before, earlierAdded⟩
        rw [foldlM_concat_of_ok earlierAdded]
        refine exists_ok_iff.mpr fun fault refused => noFault fault ?_
        exact ((holds_of_tops earlierAdded).addTop_eq_error accepted).mp refused

theorem foldlM_addTop_eq_error :
    tops.foldlM Catalog.addTop empty = .error fault ↔
      ∃ earlier activity rest, tops = earlier ++ activity :: rest ∧
        TopsAccepted earlier ∧ TopFault earlier activity fault := by
  rw [foldlM_eq_error]
  constructor
  · rintro ⟨earlier, activity, rest, catalog, isListed, added, refused⟩
    have accepted := exists_tops_iff.mp ⟨catalog, added⟩
    exact ⟨earlier, activity, rest, isListed, accepted,
      ((holds_of_tops added).addTop_eq_error accepted).mp refused⟩
  · rintro ⟨earlier, activity, rest, isListed, accepted, isFault⟩
    obtain ⟨catalog, added⟩ := exists_tops_iff.mpr accepted
    exact ⟨earlier, activity, rest, catalog, isListed, added,
      ((holds_of_tops added).addTop_eq_error accepted).mpr isFault⟩

end Tops

section Embedded

variable
  {catalog : Catalog}
  {embedded : List Activity}
  {fault : RecordFault}

/-- Embedded records can all be added exactly if they are valid. -/
theorem exists_all_iff :
    (∃ next, embedded.foldlM Catalog.addEmbedded catalog = .ok next) ↔
      ∀ node ∈ embedded, ∃ warnings, node.validate = .ok warnings := by
  induction embedded generalizing catalog with
  | nil =>
      refine ⟨fun _ node isNode => ?_, fun _ => ⟨catalog, rfl⟩⟩
      cases isNode
  | cons node rest inductionHypothesis =>
      rw [List.foldlM_cons, List.forall_mem_cons]
      constructor
      · rintro ⟨last, added⟩
        obtain ⟨next, stepped, restAdded⟩ := bind_eq_ok.mp added
        refine ⟨?_, inductionHypothesis.mp ⟨last, restAdded⟩⟩
        obtain ⟨-, isValid, -⟩ := addEmbedded_eq_ok.mp stepped
        exact isValid
      · rintro ⟨isValid, restValid⟩
        have added : ∃ next, catalog.addEmbedded node = .ok next := by
          refine exists_ok_iff.mpr fun fault refused => ?_
          exact exists_ok_iff.mp isValid fault (addEmbedded_eq_error.mp refused)
        obtain ⟨next, stepped⟩ := added
        obtain ⟨last, restAdded⟩ := inductionHypothesis.mpr restValid
        exact ⟨last, bind_eq_ok.mpr ⟨next, stepped, restAdded⟩⟩

theorem foldlM_addEmbedded_eq_error :
    embedded.foldlM Catalog.addEmbedded catalog = .error fault ↔
      ∃ earlier node rest, embedded = earlier ++ node :: rest ∧
        (∀ other ∈ earlier, ∃ warnings, other.validate = .ok warnings) ∧
          node.validate = .error fault := by
  rw [foldlM_eq_error]
  constructor
  · rintro ⟨earlier, node, rest, before, isListed, added, refused⟩
    exact ⟨earlier, node, rest, isListed, exists_all_iff.mp ⟨before, added⟩,
      addEmbedded_eq_error.mp refused⟩
  · rintro ⟨earlier, node, rest, isListed, valid, isInvalid⟩
    obtain ⟨before, added⟩ := exists_all_iff.mpr valid
    exact ⟨earlier, node, rest, before, isListed, added, addEmbedded_eq_error.mpr isInvalid⟩

end Embedded

section Build

variable
  {listing : Listing}
  {fault : RecordFault}

/-- A listing makes a catalog exactly if its records are accepted. -/
theorem exists_build_iff :
    (∃ catalog, build listing = .ok catalog) ↔ Accepted listing.activities := by
  constructor
  · rintro ⟨catalog, built⟩
    obtain ⟨tops, all, topsAdded, allAdded, -⟩ := build_eq_ok.mp built
    refine ⟨exists_tops_iff.mp ⟨tops, topsAdded⟩, ?_⟩
    intro node isEmbedded
    exact exists_all_iff.mp ⟨all, allAdded⟩ node (Activity.mem_embedded.mpr isEmbedded)
  · rintro ⟨topsAccepted, embeddedValid⟩
    obtain ⟨tops, topsAdded⟩ := exists_tops_iff.mpr topsAccepted
    obtain ⟨all, allAdded⟩ : ∃ all,
        (Activity.embedded listing.activities).foldlM Catalog.addEmbedded tops = .ok all :=
      exists_all_iff.mpr fun node member => embeddedValid node (Activity.mem_embedded.mp member)
    exact ⟨_, build_eq_ok.mpr ⟨tops, all, topsAdded, allAdded, rfl⟩⟩

theorem build_eq_error :
    build listing = .error fault ↔ Refused listing.activities fault := by
  have failed :
      build listing = .error fault ↔
        listing.activities.foldlM Catalog.addTop empty = .error fault ∨
          ∃ tops, listing.activities.foldlM Catalog.addTop empty = .ok tops ∧
            (Activity.embedded listing.activities).foldlM Catalog.addEmbedded tops =
              .error fault := by
    simp only [build_eq, bind_eq_error, pure, Except.pure, reduceCtorEq, and_false, exists_false,
      or_false]
  rw [failed, foldlM_addTop_eq_error]
  constructor
  · rintro (⟨earlier, activity, rest, isListed, accepted, isFault⟩ | ⟨tops, topsAdded, allFailed⟩)
    · exact .top isListed accepted isFault
    · obtain ⟨earlier, node, rest, isEmbedded, valid, isInvalid⟩ :=
        foldlM_addEmbedded_eq_error.mp allFailed
      exact .embedded (exists_tops_iff.mp ⟨tops, topsAdded⟩) isEmbedded valid isInvalid
  · intro refused
    cases refused with
    | top isListed accepted isFault =>
        exact .inl ⟨_, _, _, isListed, accepted, isFault⟩
    | embedded accepted isEmbedded valid isInvalid =>
        obtain ⟨tops, topsAdded⟩ := exists_tops_iff.mpr accepted
        exact .inr ⟨tops, topsAdded,
          foldlM_addEmbedded_eq_error.mpr ⟨_, _, _, isEmbedded, valid, isInvalid⟩⟩

end Build

/--
A listing makes a catalog exactly if its records from the top are valid, those of one key have
equal normal forms, and all embedded records are valid.  Otherwise it is refused for the fault
of the first record that offends, and never for an embedded record that has no id.
-/
theorem build_accepts (listing : Listing) :
    ((∃ catalog, build listing = .ok catalog) ↔ Accepted listing.activities) ∧
      (∀ fault, build listing = .error fault ↔ Refused listing.activities fault) ∧
        ∀ node, Activity.IsEmbedded listing.activities node →
          node.validate ≠ .error .missingId := by
  refine ⟨exists_build_iff, fun _ => build_eq_error, ?_⟩
  intro node isEmbedded isMissing
  exact Activity.hasKey_iff.mp isEmbedded.hasKey (Activity.validate_eq_missingId.mp isMissing)

end Catalog

end ActivityCatalog
