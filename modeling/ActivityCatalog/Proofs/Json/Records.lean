import ActivityCatalog.Proofs.Json.Values
import Mathlib.Data.List.Nodup

namespace ActivityCatalog.Json.Reader

/-!
# Records that are read back

A value reads as a result if it does so as it is written and in its canonical form,
whose members stand in another order.  The members of a record have different names, and
each of them changes the record in its own place, so that their order does not matter.

Conversely, what every field keeps that is read holds of a record that was read.
-/

variable {Record Result : Type}

/--
A value reads as a result, as it is written and in its canonical form, in which nothing is
lost that would take room.
-/
structure Reads
    (reader : Reader Result)
    (room : Nat)
    (value : Value)
    (result : Result) : Prop where
  written : reader room (Document.ofValue value) = .ok result
  canonical : reader room (Document.ofValue value.canonical) = .ok result
  deep : value.depth ≤ value.canonical.depth

theorem reads_text (room : Nat) (content : String) :
    Reads text room (.string content) content :=
  ⟨rfl, rfl, Nat.le_refl 0⟩

theorem reads_value
    {room : Nat}
    {held : Value}
    (isCanonical : held.canonical = held)
    (fits : held.depth ≤ room) :
    Reads value room held held := by
  have own : value room (Document.ofValue held) = .ok held := by
    rw [value_ofValue fits, isCanonical]
  exact ⟨own, isCanonical.symm ▸ own, isCanonical.symm ▸ Nat.le_refl held.depth⟩

theorem optional_eq
    {reader : Reader Result}
    {room : Nat}
    {held : Value}
    (given : held.isNull = false) :
    optional reader room (Document.ofValue held) =
      (reader room (Document.ofValue held)).map some := by
  cases held with
  | null =>
      cases given
  | bool | number | string | array | object =>
      rfl

/-- A text that may be absent is there if it is no null. -/
theorem exists_text_of_optional
    {room : Nat}
    {held : Value}
    {result : Option String}
    (given : held.isNull = false)
    (wasRead : optional text room (Document.ofValue held) = .ok result) :
    ∃ content, held = .string content ∧ result = some content := by
  rw [optional_eq given] at wasRead
  cases held with
  | string content =>
      cases wasRead
      exact ⟨content, rfl, rfl⟩
  | null | bool | number | array | object =>
      cases wasRead

theorem eq_string_of_text
    {room : Nat}
    {held : Value}
    {content : String}
    (wasRead : text room (Document.ofValue held) = .ok content) :
    held = .string content := by
  cases held with
  | string held =>
      cases wasRead
      rfl
  | null | bool | number | array | object =>
      cases wasRead

/-- What reads as a list of texts is an array of them. -/
theorem eq_array_of_texts
    {room : Nat}
    {held : Value}
    {contents : List String}
    (wasRead : list text room (Document.ofValue held) = .ok contents) :
    held = .array (contents.map .string) := by
  obtain ⟨inner, rfl, -⟩ := of_list wasRead
  cases held with
  | array items =>
      rw [Document.ofValue_array] at wasRead
      have related := List.forall₂_map_left_iff.mp (mapM_eq_ok.mp wasRead)
      have same : List.Forall₂ Eq items (contents.map .string) :=
        List.forall₂_map_right_iff.mpr (related.imp fun _ _ => eq_string_of_text)
      exact congrArg Value.array (List.forall₂_eq_eq_eq ▸ same)
  | null | bool | number | string | object =>
      cases wasRead

theorem isNull_canonical (held : Value) : held.canonical.isNull = held.isNull := by
  cases held <;> rfl

theorem reads_optional
    {reader : Reader Result}
    {room : Nat}
    {held : Value}
    {result : Result}
    (given : held.isNull = false)
    (reads : Reads reader room held result) :
    Reads (optional reader) room held (some result) := by
  refine ⟨?_, ?_, reads.deep⟩
  · rw [optional_eq given, reads.written]
    rfl
  · rw [optional_eq ((isNull_canonical held).trans given), reads.canonical]
    rfl

theorem mapM_of_reads
    {Item : Type}
    {reader : Reader Result}
    {room : Nat}
    {items : List Item}
    {document : Item → Document}
    {result : Item → Result}
    (reads : ∀ item ∈ items, reader room (document item) = .ok (result item)) :
    (items.map document).mapM (reader room) = .ok (items.map result) := by
  refine mapM_eq_ok.mpr (List.forall₂_map_left_iff.mpr (List.forall₂_map_right_iff.mpr ?_))
  exact List.forall₂_same.mpr reads

theorem reads_list
    {reader : Reader Result}
    {room : Nat}
    {items : List Result}
    {write : Result → Value}
    (reads : ∀ item ∈ items, Reads reader room (write item) item) :
    Reads (list reader) (room + 1) (.array (items.map write)) items := by
  refine ⟨?_, ?_, Value.depth_array_le_canonical ?_⟩
  · simp only [Document.ofValue_array, List.map_map, Function.comp_def, list]
    rw [mapM_of_reads fun item isItem => (reads item isItem).written, List.map_id']
  · simp only [Value.canonical_array, Document.ofValue_array, List.map_map, Function.comp_def,
      list]
    rw [mapM_of_reads fun item isItem => (reads item isItem).canonical, List.map_id']
  · exact List.forall_mem_map.mpr fun item isItem => (reads item isItem).deep

/-- The canonical form of a dictionary has the canonical values under the same keys. -/
theorem canonical_of_sorted
    {entries : Dictionary Result}
    (sorted : Dictionary.Sorted entries)
    (write : Result → Value) :
    (Value.object (entries.map fun entry => (entry.1, write entry.2))).canonical =
      .object (entries.map fun entry => (entry.1, (write entry.2).canonical)) := by
  have stillSorted :
      Dictionary.Sorted (entries.map fun entry => (entry.1, (write entry.2).canonical)) :=
    List.pairwise_map.mpr sorted
  simp only [Value.canonical_object, List.map_map, Function.comp_def]
  rw [stillSorted.ofList_eq]

theorem reads_dictionary
    {reader : Reader Result}
    {room : Nat}
    {entries : Dictionary Result}
    {write : Result → Value}
    (sorted : Dictionary.Sorted entries)
    (reads : ∀ entry ∈ entries, Reads reader room (write entry.2) entry.2) :
    Reads (dictionary reader) (room + 1)
      (.object (entries.map fun entry => (entry.1, write entry.2))) entries := by
  have stored :
      Dictionary.insertAll (entries.map fun entry => (entry.1, entry.2)) [] = entries := by
    rw [List.map_id']
    exact sorted.ofList_eq
  refine ⟨?_, ?_, Value.depth_object_le_canonical ?_ ?_⟩
  · simp only [Document.ofValue_object, List.map_map, Function.comp_def, dictionary]
    rw [foldlM_insertMember fun entry isEntry => (reads entry isEntry).written, stored]
  · rw [canonical_of_sorted sorted]
    simp only [Document.ofValue_object, List.map_map, Function.comp_def, dictionary]
    rw [foldlM_insertMember fun entry isEntry => (reads entry isEntry).canonical, stored]
  · rw [List.map_map]
    exact sorted.keys_nodup
  · exact List.forall_mem_map.mpr fun entry isEntry => (reads entry isEntry).deep

/-- A step takes a member that it has not seen yet, and changes any record as told. -/
def Takes
    (step : Progress Record → Option String × Document → Except ReadError (Progress Record))
    (change : Record → Record)
    (name : String)
    (document : Document) : Prop :=
  ∀ record seen, name ∉ seen →
    ∃ after, step (record, seen) (some name, document) = .ok (change record, after) ∧
      after ⊆ name :: seen

section Members

variable
  {step : Progress Record → Option String × Document → Except ReadError (Progress Record)}

/-- Members with different names are taken one after another. -/
theorem foldlM_of_takes
    {Item : Type}
    {items : List Item}
    {name : Item → String}
    {document : Item → Document}
    {change : Item → Record → Record}
    (record : Record)
    (seen : List String)
    (different : (items.map name).Nodup)
    (unseen : ∀ item ∈ items, name item ∉ seen)
    (takes : ∀ item ∈ items, Takes step (change item) (name item) (document item)) :
    ∃ after,
      (items.map fun item => (some (name item), document item)).foldlM step (record, seen) =
        .ok (items.foldl (fun held item => change item held) record, after) := by
  induction items generalizing record seen with
  | nil =>
      exact ⟨seen, rfl⟩
  | cons item rest inductionHypothesis =>
      obtain ⟨fresh, restDifferent⟩ := List.nodup_cons.mp different
      obtain ⟨takesFirst, takesRest⟩ := List.forall_mem_cons.mp takes
      obtain ⟨firstUnseen, restUnseen⟩ := List.forall_mem_cons.mp unseen
      obtain ⟨after, stepped, onlyName⟩ := takesFirst record seen firstUnseen
      have stillUnseen : ∀ other ∈ rest, name other ∉ after := by
        intro other isOther member
        rcases List.mem_cons.mp (onlyName member) with sameName | before
        · exact fresh (sameName ▸ List.mem_map_of_mem isOther)
        · exact restUnseen other isOther before
      obtain ⟨final, ran⟩ :=
        inductionHypothesis (change item record) after restDifferent stillUnseen takesRest
      refine ⟨final, ?_⟩
      rw [List.map_cons, List.foldlM_cons, stepped]
      exact ran

/-- Changes of members with different names do not depend on one another. -/
def Independent (members : List (String × Value)) (change : String × Value → Record → Record) :
    Prop :=
  ∀ first ∈ members, ∀ second ∈ members, first.1 ≠ second.1 →
    ∀ record, change first (change second record) = change second (change first record)

/--
An object whose members are taken, as they are written and in their canonical form, gives the
same record as it is written and in its canonical form.
-/
theorem reads_object
    {reader : Reader Record}
    {room : Nat}
    {start : Record}
    {members : List (String × Value)}
    {change : String × Value → Record → Record}
    (runs : ∀ documents, reader (room + 1) (.object documents) =
      (documents.foldlM step (start, [])).map Prod.fst)
    (different : (members.map Prod.fst).Nodup)
    (independent : Independent members change)
    (takes : ∀ member ∈ members,
      Takes step (change member) member.1 (Document.ofValue member.2) ∧
        Takes step (change member) member.1 (Document.ofValue member.2.canonical))
    (deep : ∀ member ∈ members, member.2.depth ≤ member.2.canonical.depth) :
    Reads reader (room + 1) (.object members)
      (members.foldl (fun held member => change member held) start) := by
  refine ⟨?_, ?_, Value.depth_object_le_canonical different deep⟩
  · obtain ⟨after, ran⟩ :=
      foldlM_of_takes start [] different (by simp)
        fun member isMember => (takes member isMember).1
    rw [Document.ofValue_object, runs, ran]
    rfl
  · let canonicalMember (member : String × Value) := (member.1, member.2.canonical)
    have sameNames : (members.map canonicalMember).map Prod.fst = members.map Prod.fst :=
      List.map_map
    obtain ⟨listed, isListed, sameMembers⟩ :=
      Dictionary.exists_ofList_map_eq (sameNames.symm ▸ different)
    obtain ⟨after, ran⟩ :=
      foldlM_of_takes start [] ((sameMembers.map Prod.fst).nodup_iff.mpr different) (by simp)
        fun member isMember => (takes member (sameMembers.subset isMember)).2
    have sameRecord :
        listed.foldl (fun held member => change member held) start =
          members.foldl (fun held member => change member held) start := by
      refine sameMembers.foldl_eq' ?_ start
      intro first isFirst second isSecond held
      by_cases sameName : first.1 = second.1
      · have same : first = second :=
          List.inj_on_of_nodup_map different (sameMembers.subset isFirst)
            (sameMembers.subset isSecond) sameName
        rw [same]
      · exact independent second (sameMembers.subset isSecond) first (sameMembers.subset isFirst)
          (Ne.symm sameName) held
    rw [Value.canonical_object, isListed, Document.ofValue_object, List.map_map, runs,
      ← sameRecord]
    exact (congrArg (Except.map Prod.fst) ran)

end Members

section Fields

variable
  {fields : List (Field Record)}
  {keep : Record → String → Value → Record}
  {room : Nat}
  {change : Record → Record}
  {name : String}
  {document : Document}

theorem takes_of_reads
    {step : Progress Record → Option String × Document → Except ReadError (Progress Record)}
    {field : Field Record}
    (steps : ∀ progress, step progress (some name, document) =
      readField field room progress document)
    (named : field.name = name)
    (reads : ∀ record, field.read room document record = .ok (change record)) :
    Takes step change name document := by
  intro record seen fresh
  refine ⟨name :: seen, ?_, fun _ member => member⟩
  have unseen : seen.contains field.name = false := by
    simpa [named] using fresh
  rw [steps, readField, unseen, reads, named]
  rfl

/-- A member of a record is taken by the field of its name. -/
theorem takes_member
    {field : Field Record}
    (found : fields.find? (fun field => field.name == name) = some field)
    (reads : ∀ record, field.read room document record = .ok (change record)) :
    Takes (readMember fields room) change name document := by
  have named : field.name = name := by
    simpa using List.find?_some found
  refine takes_of_reads (fun progress => ?_) named reads
  simp only [readMember, nameOf, bind, Except.bind, found]

theorem takes_openMember
    {field : Field Record}
    (found : fields.find? (fun field => field.name == name) = some field)
    (reads : ∀ record, field.read room document record = .ok (change record)) :
    Takes (readOpenMember fields keep room) change name document := by
  have named : field.name = name := by
    simpa using List.find?_some found
  refine takes_of_reads (fun progress => ?_) named reads
  simp only [readOpenMember, nameOf, bind, Except.bind, found]

/-- A member that no field has the name of is kept. -/
theorem takes_kept
    {held : Value}
    (unknown : fields.find? (fun field => field.name == name) = none)
    (reads : value room document = .ok held) :
    Takes (readOpenMember fields keep room) (fun record => keep record name held) name
      document := by
  intro record seen _
  refine ⟨seen, ?_, List.subset_cons_self name seen⟩
  simp only [readOpenMember, nameOf, bind, Except.bind, unknown, reads, pure, Except.pure]

/-- A member is told if the field of its name reads its value and changes a record by it. -/
def Tells
    (fields : List (Field Record))
    (room : Nat)
    (change : String → Record → Record)
    (member : String × Value) : Prop :=
  ∃ field, fields.find? (fun field => field.name == member.1) = some field ∧
    ∀ record, Reads (fun room document => field.read room document record) room member.2
      (change member.1 record)

theorem tells_of_reads
    {fields : List (Field Record)}
    {change : String → Record → Record}
    {reader : Reader Result}
    {store : Record → Result → Record}
    {held : Value}
    {result : Result}
    (found : fields.find? (fun field => field.name == name) = some (.of name reader store))
    (reads : Reads reader room held result)
    (stores : ∀ record, store record result = change name record) :
    Tells fields room change (name, held) := by
  refine ⟨_, found, fun record => ?_⟩
  rw [← stores]
  exact ⟨congrArg (Except.map (store record)) reads.written,
    congrArg (Except.map (store record)) reads.canonical, reads.deep⟩

/-- A member that is told loses nothing in its canonical form that would take room. -/
theorem Tells.deep
    {change : String → Record → Record}
    {member : String × Value}
    (tells : Tells fields room change member)
    (start : Record) :
    member.2.depth ≤ member.2.canonical.depth := by
  obtain ⟨field, -, reads⟩ := tells
  exact (reads start).deep

/-- Changes of different places of a record do not depend on one another. -/
def Commute (change : String → Record → Record) : Prop :=
  ∀ first second record,
    change first (change second record) = change second (change first record)

/-- An object reads as the record that its members make of the start. -/
theorem reads_record
    {description : String}
    {start : Record}
    {members : List (String × Value)}
    {change : String → Record → Record}
    (different : (members.map Prod.fst).Nodup)
    (commute : Commute change)
    (tells : ∀ member ∈ members, Tells fields room change member) :
    Reads (record description fields start) (room + 1) (.object members)
      (members.foldl (fun held member => change member.1 held) start) := by
  refine reads_object (fun _ => rfl) different
    (fun first _ second _ _ => commute first.1 second.1) ?_ ?_
  · intro member isMember
    obtain ⟨field, found, reads⟩ := tells member isMember
    exact ⟨takes_member found fun record => (reads record).written,
      takes_member found fun record => (reads record).canonical⟩
  · exact fun member isMember => (tells member isMember).deep start

/-- Kept members do not depend on one another nor on the named ones. -/
structure KeepsApart
    (change : String → Record → Record)
    (keep : Record → String → Value → Record) : Prop where
  named : ∀ name other value record,
    change name (keep record other value) = keep (change name record) other value
  kept : ∀ name other value held record, name ≠ other →
    keep (keep record name value) other held = keep (keep record other held) name value

/-- What a member changes in a record: its own place if it is named, else what is kept. -/
def changeAmong
    (names : List String)
    (change : String → Record → Record)
    (keep : Record → String → Value → Record)
    (member : String × Value)
    (held : Record) : Record :=
  if member.1 ∈ names then change member.1 held else keep held member.1 member.2

section Among

variable
  {names : List String}
  {change : String → Record → Record}
  {member : String × Value}

theorem changeAmong_of_mem (isNamed : member.1 ∈ names) :
    changeAmong names change keep member = change member.1 :=
  funext fun _ => if_pos isNamed

theorem changeAmong_of_not_mem (notNamed : member.1 ∉ names) :
    changeAmong names change keep member = fun held => keep held member.1 member.2 :=
  funext fun _ => if_neg notNamed

theorem independent_changeAmong
    (commute : Commute change)
    (apart : KeepsApart change keep)
    (names : List String)
    (members : List (String × Value)) :
    Independent members (changeAmong names change keep) := by
  intro first _ second _ differ held
  by_cases firstNamed : first.1 ∈ names <;> by_cases secondNamed : second.1 ∈ names
  · rw [changeAmong_of_mem firstNamed, changeAmong_of_mem secondNamed, commute]
  · rw [changeAmong_of_mem firstNamed, changeAmong_of_not_mem secondNamed, apart.named]
  · rw [changeAmong_of_not_mem firstNamed, changeAmong_of_mem secondNamed, apart.named]
  · rw [changeAmong_of_not_mem firstNamed, changeAmong_of_not_mem secondNamed]
    exact apart.kept _ _ _ _ _ (Ne.symm differ)

end Among

/--
An object of named members and others reads as the record that keeps the others behind the
named ones.
-/
theorem reads_openRecord
    {description : String}
    {start : Record}
    {told others : List (String × Value)}
    {change : String → Record → Record}
    (different : ((told ++ others).map Prod.fst).Nodup)
    (commute : Commute change)
    (apart : KeepsApart change keep)
    (tells : ∀ member ∈ told, Tells fields room change member)
    (unknown : ∀ member ∈ others, ∀ field ∈ fields, field.name ≠ member.1)
    (reads : ∀ member ∈ others, Reads value room member.2 member.2) :
    Reads (openRecord description fields keep start) (room + 1) (.object (told ++ others))
      (others.foldl (fun held member => keep held member.1 member.2)
        (told.foldl (fun held member => change member.1 held) start)) := by
  let changeBy := changeAmong (told.map Prod.fst) change keep
  obtain ⟨-, -, disjoint⟩ := List.nodup_append.mp (List.map_append ▸ different)
  have byName : ∀ member ∈ told, changeBy member = change member.1 :=
    fun member isTold => changeAmong_of_mem (List.mem_map_of_mem isTold)
  have byKeeping : ∀ member ∈ others,
      changeBy member = fun held => keep held member.1 member.2 := by
    intro member isOther
    have notTold : member.1 ∉ told.map Prod.fst := fun isTold =>
      disjoint _ isTold _ (List.mem_map_of_mem isOther) rfl
    exact changeAmong_of_not_mem notTold
  have takes : ∀ member ∈ told ++ others,
      Takes (readOpenMember fields keep room) (changeBy member) member.1
          (Document.ofValue member.2) ∧
        Takes (readOpenMember fields keep room) (changeBy member) member.1
          (Document.ofValue member.2.canonical) := by
    intro member isMember
    rcases List.mem_append.mp isMember with isTold | isOther
    · obtain ⟨field, found, reads⟩ := tells member isTold
      rw [byName member isTold]
      exact ⟨takes_openMember found fun record => (reads record).written,
        takes_openMember found fun record => (reads record).canonical⟩
    · have notFound : fields.find? (fun field => field.name == member.1) = none := by
        simpa using unknown member isOther
      rw [byKeeping member isOther]
      exact ⟨takes_kept notFound (reads member isOther).written,
        takes_kept notFound (reads member isOther).canonical⟩
  have deep : ∀ member ∈ told ++ others, member.2.depth ≤ member.2.canonical.depth :=
    List.forall_mem_append.mpr
      ⟨fun member isTold => (tells member isTold).deep start,
        fun member isOther => (reads member isOther).deep⟩
  have sameRecord :
      (told ++ others).foldl (fun held member => changeBy member held) start =
        others.foldl (fun held member => keep held member.1 member.2)
          (told.foldl (fun held member => change member.1 held) start) := by
    rw [List.foldl_append,
      List.foldl_ext _ _ start fun held member isTold => congrFun (byName member isTold) held]
    exact List.foldl_ext _ _ _ fun held member isOther => congrFun (byKeeping member isOther) held
  rw [← sameRecord]
  exact reads_object (fun _ => rfl) different
    (independent_changeAmong commute apart _ _) takes deep

/-- Taking a named field changes the record by what was read. -/
theorem read_of_eq_ok
    {reader : Reader Result}
    {store : Record → Result → Record}
    {before after : Record} :
    (Field.of name reader store).read room document before = .ok after ↔
      ∃ result, reader room document = .ok result ∧ store before result = after :=
  map_eq_ok

theorem read_of_readField
    {field : Field Record}
    {before after : Progress Record}
    (stepped : readField field room before document = .ok after) :
    field.read room document before.1 = .ok after.1 := by
  unfold readField at stepped
  split at stepped
  · cases stepped
  · obtain ⟨record, wasRead, rfl⟩ := map_eq_ok.mp stepped
    exact wasRead

theorem kept_of_readItems
    {motive : Record → Prop}
    {items : List Document}
    {before after : Record}
    (kept : ∀ field ∈ fields, ∀ document earlier later,
      motive earlier → field.read room document earlier = .ok later → motive later)
    (holds : motive before)
    (wereRead : readItems room fields items before = .ok after) :
    motive after := by
  induction fields generalizing items before with
  | nil =>
      rw [readItems.eq_2 _ _ _ _ (by simp)] at wereRead
      cases wereRead
      exact holds
  | cons field rest inductionHypothesis =>
      obtain ⟨keptByFirst, keptByRest⟩ := List.forall_mem_cons.mp kept
      cases items with
      | nil =>
          cases wereRead
          exact holds
      | cons item items =>
          obtain ⟨next, wasRead, restRead⟩ := bind_eq_ok.mp wereRead
          exact inductionHypothesis keptByRest (keptByFirst item before next holds wasRead) restRead

/--
Reading a record takes room for one container, and what holds at the start and is kept by
every field holds of the record.
-/
theorem of_record
    {start result : Record}
    {description : String}
    (wasRead : record description fields start room document = .ok result) :
    ∃ inner, room = inner + 1 ∧
      ∀ motive : Record → Prop, motive start →
        (∀ field ∈ fields, ∀ document before after,
          motive before → field.read inner document before = .ok after → motive after) →
        motive result := by
  unfold record at wasRead
  split at wasRead
  case h_3 inner members =>
    obtain ⟨progress, ran, rfl⟩ := map_eq_ok.mp wasRead
    refine ⟨inner, rfl, fun motive initially kept => ?_⟩
    refine foldlM_induction (motive := fun _ held => motive held.1) initially ?_ ran
    intro _ member before after holds stepped
    obtain ⟨_, -, stepped⟩ := bind_eq_ok.mp stepped
    split at stepped
    · rename_i field found
      exact kept field (List.mem_of_find?_eq_some found) member.2 before.1 after.1 holds
        (read_of_readField stepped)
    · cases stepped
      exact holds
  case h_4 inner items =>
    obtain ⟨final, wereRead, rest⟩ := bind_eq_ok.mp wasRead
    refine ⟨inner, rfl, fun motive initially kept => ?_⟩
    have holds : motive final := kept_of_readItems kept initially wereRead
    split at rest
    · cases rest
    · cases rest
      exact holds
  all_goals cases wasRead

/-- Reading a record that keeps its unknown members takes room for one container. -/
theorem of_openRecord
    {start result : Record}
    {description : String}
    (wasRead : openRecord description fields keep start room document = .ok result) :
    ∃ inner members, room = inner + 1 ∧ document = .object members ∧
      ∃ progress, members.foldlM (readOpenMember fields keep inner) (start, []) = .ok progress ∧
        progress.1 = result := by
  unfold openRecord at wasRead
  split at wasRead
  case h_2 inner members =>
    exact ⟨inner, members, rfl, rfl, map_eq_ok.mp wasRead⟩
  all_goals cases wasRead

/--
What holds before the members of an open record, and is kept by each one that a field reads
and each one that is kept, holds after them.
-/
theorem openMembers_induction
    {Item : Type}
    {items : List Item}
    {member : Item → Option String × Document}
    {motive : List Item → Record → Prop}
    {start : Record}
    {final : Progress Record}
    (initially : motive [] start)
    (named : ∀ done item rest, items = done ++ item :: rest →
      ∀ field ∈ fields, (member item).1 = some field.name →
        ∀ before after, motive done before →
          field.read room (member item).2 before = .ok after → motive (done ++ [item]) after)
    (unknown : ∀ done item rest, items = done ++ item :: rest →
      ∀ name, (member item).1 = some name → (∀ field ∈ fields, field.name ≠ name) →
        ∀ before held, motive done before →
          value room (member item).2 = .ok held → motive (done ++ [item]) (keep before name held))
    (ran : (items.map member).foldlM (readOpenMember fields keep room) (start, []) = .ok final) :
    motive items final.1 := by
  rw [List.foldlM_map] at ran
  refine foldlM_induction_append (motive := fun done held => motive done held.1) initially ?_ ran
  intro done item rest before after split holds stepped
  obtain ⟨name, isName, stepped⟩ := bind_eq_ok.mp stepped
  have hasName : (member item).1 = some name := by
    cases given : (member item).1 with
    | none =>
        rw [given] at isName
        cases isName
    | some given =>
        rw [given] at isName
        cases isName
        rfl
  split at stepped
  · rename_i field found
    obtain rfl : field.name = name := by
      simpa using List.find?_some found
    exact named done item rest split field (List.mem_of_find?_eq_some found) hasName before.1
      after.1 holds (read_of_readField stepped)
  · rename_i notFound
    obtain ⟨held, wasRead, stepped⟩ := bind_eq_ok.mp stepped
    cases stepped
    refine unknown done item rest split name hasName ?_ before.1 held holds wasRead
    simpa using notFound

end Fields

end ActivityCatalog.Json.Reader
