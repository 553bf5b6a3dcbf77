import ActivityCatalog.Activity.Embedded
import Mathlib.Data.List.Forall2
import Mathlib.Data.List.Nodup

namespace ActivityCatalog

/-!
# Equal records

Equality of records compares the numbers in them as numbers.  Every record equals itself, and
equal records compare alike with any other, so that equality is symmetric and transitive.  Equal
records have the same address, are stubs alike and link to equal records.
-/

/-- A zero equals the zeros, be they negative or not. -/
theorem Double.same_of_isZero
    {double : Double}
    (isZero : double.isZero = true)
    (other : Double) :
    double.same other = other.isZero := by
  unfold same
  by_cases equal : double = other
  · subst equal
    rw [isZero, Bool.true_and, Bool.or_true]
  · rw [beq_eq_false_iff_ne.mpr equal, isZero, Bool.true_and, Bool.false_or]

namespace Json

theorem Number.same_refl (number : Number) : number.same number = true := by
  cases number <;> simp [same, Double.same]

/-- Equal numbers compare alike with any other. -/
theorem Number.same_congr
    {left right : Number}
    (isSame : left.same right = true)
    (third : Number) :
    left.same third = right.same third := by
  cases left with
  | integer value =>
      cases right with
      | integer other =>
          rw [beq_iff_eq.mp isSame]
      | double other =>
          cases isSame
  | double value =>
      cases right with
      | integer other =>
          cases isSame
      | double other =>
          rcases Bool.or_eq_true_iff.mp isSame with equal | zeros
          · rw [beq_iff_eq.mp equal]
          · obtain ⟨isZero, otherIsZero⟩ := Bool.and_eq_true_iff.mp zeros
            cases third with
            | integer number =>
                rfl
            | double number =>
                exact (Double.same_of_isZero isZero number).trans
                  (Double.same_of_isZero otherIsZero number).symm

namespace Value

mutual

theorem same_refl : ∀ value : Value, value.same value = true
  | .null => by rw [same]
  | .bool _ => by rw [same, beq_self_eq_true]
  | .number held => by rw [same, held.same_refl]
  | .string _ => by rw [same, beq_self_eq_true]
  | .array items => by rw [same, sameItems_refl items]
  | .object members => by rw [same, sameMembers_refl members]

theorem sameItems_refl : ∀ items : List Value, sameItems items items = true
  | [] => by rw [sameItems]
  | item :: rest => by rw [sameItems, same_refl item, sameItems_refl rest, Bool.and_self]

theorem sameMembers_refl : ∀ members : List (String × Value), sameMembers members members = true
  | [] => by rw [sameMembers]
  | (name, value) :: rest => by
      rw [sameMembers, same_refl value, sameMembers_refl rest, beq_self_eq_true, Bool.and_self,
        Bool.and_self]

end

mutual

theorem same_congr : ∀ (left : Value) {right : Value},
    left.same right = true → ∀ third, left.same third = right.same third
  | .null, right, isSame, third => by
      cases right with
      | null => rfl
      | _ => simp [same] at isSame
  | .bool _, right, isSame, third => by
      cases right with
      | bool other =>
          rw [same, beq_iff_eq] at isSame
          rw [isSame]
      | _ => simp [same] at isSame
  | .number held, right, isSame, third => by
      cases right with
      | number other =>
          rw [same] at isSame
          cases third with
          | number number => rw [same, same, held.same_congr isSame number]
          | _ => simp [same]
      | _ => simp [same] at isSame
  | .string _, right, isSame, third => by
      cases right with
      | string other =>
          rw [same, beq_iff_eq] at isSame
          rw [isSame]
      | _ => simp [same] at isSame
  | .array items, right, isSame, third => by
      cases right with
      | array others =>
          rw [same] at isSame
          cases third with
          | array thirds => rw [same, same, sameItems_congr items isSame thirds]
          | _ => simp [same]
      | _ => simp [same] at isSame
  | .object members, right, isSame, third => by
      cases right with
      | object others =>
          rw [same] at isSame
          cases third with
          | object thirds => rw [same, same, sameMembers_congr members isSame thirds]
          | _ => simp [same]
      | _ => simp [same] at isSame

theorem sameItems_congr : ∀ (left : List Value) {right : List Value},
    sameItems left right = true → ∀ third, sameItems left third = sameItems right third
  | [], right, isSame, third => by
      cases right with
      | nil => rfl
      | cons _ _ => simp [sameItems] at isSame
  | item :: rest, right, isSame, third => by
      cases right with
      | nil => simp [sameItems] at isSame
      | cons other others =>
          rw [sameItems, Bool.and_eq_true] at isSame
          cases third with
          | nil => simp [sameItems]
          | cons next nexts =>
              rw [sameItems, sameItems, same_congr item isSame.1 next,
                sameItems_congr rest isSame.2 nexts]

theorem sameMembers_congr : ∀ (left : List (String × Value)) {right : List (String × Value)},
    sameMembers left right = true → ∀ third, sameMembers left third = sameMembers right third
  | [], right, isSame, third => by
      cases right with
      | nil => rfl
      | cons _ _ => simp [sameMembers] at isSame
  | (name, value) :: rest, right, isSame, third => by
      cases right with
      | nil => simp [sameMembers] at isSame
      | cons other others =>
          simp only [sameMembers, Bool.and_eq_true, beq_iff_eq] at isSame
          obtain ⟨⟨sameName, sameValue⟩, sameRest⟩ := isSame
          cases third with
          | nil => simp [sameMembers]
          | cons next nexts =>
              rw [sameMembers, sameMembers, sameName, same_congr value sameValue next.2,
                sameMembers_congr rest sameRest nexts]

end

end Value

end Json

theorem sameList_refl
    {Item : Type}
    {same : Item → Item → Bool}
    (items : List Item)
    (refl : ∀ item ∈ items, same item item = true) :
    sameList same items items = true := by
  induction items with
  | nil =>
      rfl
  | cons item rest inductionHypothesis =>
      obtain ⟨first, others⟩ := List.forall_mem_cons.mp refl
      rw [sameList, first, inductionHypothesis others, Bool.and_self]

theorem sameList_congr
    {Item : Type}
    {same : Item → Item → Bool}
    {left right : List Item}
    (alike : ∀ item ∈ left, ∀ other, same item other = true →
      ∀ third, same item third = same other third)
    (isSame : sameList same left right = true)
    (thirds : List Item) :
    sameList same left thirds = sameList same right thirds := by
  induction left generalizing right thirds with
  | nil =>
      cases right with
      | nil => rfl
      | cons _ _ => cases isSame
  | cons item rest inductionHypothesis =>
      cases right with
      | nil => cases isSame
      | cons other others =>
          obtain ⟨sameItem, sameRest⟩ := Bool.and_eq_true_iff.mp isSame
          obtain ⟨itemAlike, restAlike⟩ := List.forall_mem_cons.mp alike
          cases thirds with
          | nil => rfl
          | cons third thirds =>
              rw [sameList, sameList, itemAlike other sameItem third,
                inductionHypothesis restAlike sameRest thirds]

theorem isEmpty_eq_of_sameList
    {Item : Type}
    {same : Item → Item → Bool}
    {left right : List Item}
    (isSame : sameList same left right = true) :
    left.isEmpty = right.isEmpty := by
  cases left <;> cases right <;> first | rfl | simp [sameList] at isSame

theorem Participator.same_refl (participator : Participator) :
    participator.same participator = true := by
  cases participator <;>
    simp [same, Person.same, Group.same, Json.Value.sameMembers_refl]

theorem Participator.same_congr
    {left right : Participator}
    (isSame : left.same right = true)
    (third : Participator) :
    left.same third = right.same third := by
  cases left with
  | person held =>
      cases right with
      | group _ => cases isSame
      | person other =>
          simp only [same, Person.same, Bool.and_eq_true, beq_iff_eq] at isSame
          obtain ⟨⟨⟨sameGiven, sameFamily⟩, sameEmail⟩, sameExtensions⟩ := isSame
          have extensionsAlike := Json.Value.sameMembers_congr held.extensions sameExtensions
          cases third with
          | group _ => rfl
          | person _ =>
              simp only [same, Person.same, sameGiven, sameFamily, sameEmail, extensionsAlike]
  | group held =>
      cases right with
      | person _ => cases isSame
      | group other =>
          simp only [same, Group.same, Bool.and_eq_true, beq_iff_eq] at isSame
          obtain ⟨⟨sameDisplay, sameEmail⟩, sameExtensions⟩ := isSame
          have extensionsAlike := Json.Value.sameMembers_congr held.extensions sameExtensions
          cases third with
          | person _ => rfl
          | group _ => simp only [same, Group.same, sameDisplay, sameEmail, extensionsAlike]

theorem Participation.same_refl (participation : Participation) :
    participation.same participation = true := by
  obtain ⟨_ | participator, roles, extensions⟩ := participation <;>
    simp [same, Participator.same_refl, Json.Value.sameMembers_refl]

theorem Participation.same_congr
    {left right : Participation}
    (isSame : left.same right = true)
    (third : Participation) :
    left.same third = right.same third := by
  obtain ⟨participator, roles, extensions⟩ := left
  obtain ⟨other, otherRoles, otherExtensions⟩ := right
  simp only [same, Bool.and_eq_true, beq_iff_eq] at isSame
  obtain ⟨⟨sameParticipator, rfl⟩, sameExtensions⟩ := isSame
  simp only [same, Json.Value.sameMembers_congr extensions sameExtensions]
  congr 2
  cases participator with
  | none =>
      cases other with
      | none => rfl
      | some _ => cases sameParticipator
  | some held =>
      cases other with
      | none => cases sameParticipator
      | some present =>
          cases third.participator with
          | none => rfl
          | some next => exact held.same_congr sameParticipator next

theorem AttributeSet.same_refl (attributeSet : AttributeSet) :
    attributeSet.same attributeSet = true := by
  simp [same, Json.Value.sameMembers_refl]

theorem AttributeSet.same_congr
    {left right : AttributeSet}
    (isSame : left.same right = true)
    (third : AttributeSet) :
    left.same third = right.same third := by
  simp only [same, Bool.and_eq_true, beq_iff_eq] at isSame
  simp only [same, isSame.1, Json.Value.sameMembers_congr _ isSame.2]

namespace Activity

mutual

theorem same_refl : ∀ activity : Activity, activity.same activity = true
  | ⟨schema, id, version, label, period, participations, subs, supers, attributeSets, blob⟩ => by
      have sameParticipations :=
        sameList_refl participations fun participation _ => participation.same_refl
      have sameSets :
          sameList (fun left right => left.1 == right.1 && left.2.same right.2)
            attributeSets attributeSets = true :=
        sameList_refl attributeSets fun entry _ => by
          rw [beq_self_eq_true, entry.2.same_refl, Bool.and_self]
      rw [same]
      simp only [beq_self_eq_true, sameParticipations, sameAll_refl subs, sameAll_refl supers,
        sameSets, Bool.and_self]

theorem sameAll_refl : ∀ activities : List Activity, sameAll activities activities = true
  | [] => by rw [sameAll]
  | activity :: rest => by
      rw [sameAll, same_refl activity, sameAll_refl rest, Bool.and_self]

end

/-- What equal records have in common, field by field. -/
structure SameFields (left right : Activity) : Prop where
  schema : left.schema = right.schema
  id : left.id = right.id
  version : left.version = right.version
  label : left.label = right.label
  period : left.period = right.period
  participations : sameList Participation.same left.participations right.participations = true
  subs : sameAll left.subs right.subs = true
  supers : sameAll left.supers right.supers = true
  attributeSets : sameList (fun left right => left.1 == right.1 && left.2.same right.2)
    left.attributeSets right.attributeSets = true
  blob : left.blob = right.blob

theorem sameFields_of_same
    {left right : Activity}
    (isSame : left.same right = true) :
    SameFields left right := by
  cases left
  rw [same] at isSame
  simp only [Bool.and_eq_true, beq_iff_eq] at isSame
  obtain ⟨⟨⟨⟨⟨⟨⟨⟨⟨sameSchema, sameId⟩, sameVersion⟩, sameLabel⟩, samePeriod⟩,
    sameParticipations⟩, sameSubs⟩, sameSupers⟩, sameSets⟩, sameBlob⟩ := isSame
  exact ⟨sameSchema, sameId, sameVersion, sameLabel, samePeriod, sameParticipations, sameSubs,
    sameSupers, sameSets, sameBlob⟩

mutual

theorem same_congr : ∀ (left : Activity) {right : Activity},
    left.same right = true → ∀ third, left.same third = right.same third
  | ⟨schema, id, version, label, period, participations, subs, supers, attributeSets, blob⟩,
    right, isSame, third => by
      have fields := sameFields_of_same isSame
      have participationsAlike :=
        sameList_congr (fun held _ _ isSame third => held.same_congr isSame third)
          fields.participations third.participations
      have setsAlike := sameList_congr (fun entry _ other isSame third => by
        obtain ⟨sameName, sameSet⟩ := Bool.and_eq_true_iff.mp isSame
        rw [beq_iff_eq.mp sameName, entry.2.same_congr sameSet]) fields.attributeSets
          third.attributeSets
      cases right
      obtain ⟨rfl, rfl, rfl, rfl, rfl, -, sameSubs, sameSupers, -, rfl⟩ := fields
      rw [same, same, participationsAlike, sameAll_congr subs sameSubs,
        sameAll_congr supers sameSupers, setsAlike]

theorem sameAll_congr : ∀ (left : List Activity) {right : List Activity},
    sameAll left right = true → ∀ thirds, sameAll left thirds = sameAll right thirds
  | [], right, isSame, thirds => by
      cases right with
      | nil => rfl
      | cons _ _ => simp [sameAll] at isSame
  | activity :: rest, right, isSame, thirds => by
      cases right with
      | nil => simp [sameAll] at isSame
      | cons other others =>
          rw [sameAll, Bool.and_eq_true] at isSame
          cases thirds with
          | nil => simp [sameAll]
          | cons third thirds =>
              rw [sameAll, sameAll, same_congr activity isSame.1 third,
                sameAll_congr rest isSame.2 thirds]

end

section Equivalence

variable
  {first second third : Activity}

theorem same_symm (isSame : first.same second = true) : second.same first = true := by
  rw [← same_congr first isSame first]
  exact same_refl first

theorem same_trans
    (isSame : first.same second = true)
    (isNext : second.same third = true) :
    first.same third = true :=
  (same_congr first isSame third).trans isNext

end Equivalence

theorem sameAll_eq_true
    {left right : List Activity} :
    sameAll left right = true ↔
      List.Forall₂ (fun held other => held.same other = true) left right := by
  induction left generalizing right with
  | nil =>
      cases right <;> simp [sameAll]
  | cons activity rest inductionHypothesis =>
      cases right with
      | nil =>
          simp [sameAll]
      | cons other others =>
          rw [sameAll, Bool.and_eq_true, inductionHypothesis, List.forall₂_cons]

theorem isEmpty_eq_of_sameAll
    {left right : List Activity}
    (isSame : sameAll left right = true) :
    left.isEmpty = right.isEmpty := by
  cases left <;> cases right <;> first | rfl | simp [sameAll] at isSame

section Equal

variable
  {left right : Activity}

/-- Equal records have the same address. -/
theorem key?_eq_of_same (isSame : left.same right = true) : left.key? = right.key? := by
  have fields := sameFields_of_same isSame
  unfold key? idText versionText
  rw [fields.id, fields.version]

/-- Equal records link to equal records, in the same order. -/
theorem links_of_same (isSame : left.same right = true) :
    List.Forall₂ (fun held other => held.same other = true) left.links right.links := by
  have fields := sameFields_of_same isSame
  exact List.rel_append (sameAll_eq_true.mp fields.subs) (sameAll_eq_true.mp fields.supers)

/-- Equal records are stubs alike. -/
theorem isStub_eq_of_same (isSame : left.same right = true) : left.isStub = right.isStub := by
  have fields := sameFields_of_same isSame
  simp only [isStub, fields.label, fields.period, isEmpty_eq_of_sameList fields.participations,
    isEmpty_eq_of_sameAll fields.subs, isEmpty_eq_of_sameAll fields.supers,
    isEmpty_eq_of_sameList fields.attributeSets, fields.blob]

end Equal

/-- Records of one key are equal. -/
def KeysAgree (activities : List Activity) : Prop :=
  ∀ first ∈ activities, ∀ second ∈ activities,
    first.key? = second.key? → first.same second = true

section KeysAgree

variable
  {activities others : List Activity}
  {activity : Activity}

theorem keysAgree_nil : KeysAgree [] := by
  intro first isFirst
  cases isFirst

theorem keysAgree_of_nodup (different : (activities.map key?).Nodup) : KeysAgree activities := by
  intro first isFirst second isSecond sameKey
  rw [List.inj_on_of_nodup_map different isFirst isSecond sameKey]
  exact same_refl second

theorem KeysAgree.of_subset (agree : KeysAgree others) (subset : activities ⊆ others) :
    KeysAgree activities :=
  fun first isFirst second isSecond => agree first (subset isFirst) second (subset isSecond)

/-- Records agree if each of them equals one of others that agree. -/
theorem KeysAgree.of_same
    (agree : KeysAgree others)
    (present : ∀ activity ∈ activities, ∃ other ∈ others, other.same activity = true) :
    KeysAgree activities := by
  intro first isFirst second isSecond sameKey
  obtain ⟨held, isHeld, firstSame⟩ := present first isFirst
  obtain ⟨other, isOther, secondSame⟩ := present second isSecond
  have alsoSameKey : held.key? = other.key? := by
    rw [key?_eq_of_same firstSame, sameKey, key?_eq_of_same secondSame]
  have isSame := agree held isHeld other isOther alsoSameKey
  exact same_trans (same_symm firstSame) (same_trans isSame secondSame)

/-- One more record agrees with others if it equals those of its key. -/
theorem keysAgree_concat :
    KeysAgree (activities ++ [activity]) ↔
      KeysAgree activities ∧
        ∀ other ∈ activities, other.key? = activity.key? → other.same activity = true := by
  have isLast : activity ∈ activities ++ [activity] :=
    List.mem_append_right _ (List.mem_singleton_self activity)
  constructor
  · intro agree
    refine ⟨agree.of_subset (List.subset_append_left _ _), ?_⟩
    intro other isOther
    exact agree other (List.mem_append_left _ isOther) activity isLast
  · rintro ⟨agree, isSame⟩ first isFirst second isSecond sameKey
    rcases List.mem_append.mp isFirst with firstHeld | firstLast
    · rcases List.mem_append.mp isSecond with secondHeld | secondLast
      · exact agree first firstHeld second secondHeld sameKey
      · obtain rfl := List.mem_singleton.mp secondLast
        exact isSame first firstHeld sameKey
    · obtain rfl := List.mem_singleton.mp firstLast
      rcases List.mem_append.mp isSecond with secondHeld | secondLast
      · exact same_symm (isSame second secondHeld sameKey.symm)
      · obtain rfl := List.mem_singleton.mp secondLast
        exact same_refl second

end KeysAgree

end Activity

end ActivityCatalog
