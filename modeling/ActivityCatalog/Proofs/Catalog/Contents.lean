import ActivityCatalog.Catalog.Basic
import ActivityCatalog.Proofs.Activity.NormalForm
import ActivityCatalog.Proofs.Stepwise

namespace ActivityCatalog

/-!
# What a catalog holds of the records it was given

While a catalog is built it has been given some records from the top of the
listing and, after them, some embedded ones.  `Catalog.Holds` says what it then
holds: under every key the normal form of the record that the given ones choose
for it, and each addition keeps this.
-/

namespace Activity

/-- The first record with a key. -/
def firstWith? (key : Key) (activities : List Activity) : Option Activity :=
  activities.find? fun activity => activity.key? = some key

/-- The first record with a key that is not a stub. -/
def firstContent? (key : Key) (activities : List Activity) : Option Activity :=
  activities.find? fun activity => activity.key? = some key ∧ ¬activity.isStub

/-- The first record with a key that has content, or else the first with the key. -/
def preferred? (key : Key) (activities : List Activity) : Option Activity :=
  (firstContent? key activities).or (firstWith? key activities)

theorem firstWith?_concat (key : Key) (activities : List Activity) (activity : Activity) :
    firstWith? key (activities ++ [activity]) =
      (firstWith? key activities).or
        (if activity.key? = some key then some activity else none) := by
  simp [firstWith?]

theorem firstContent?_concat (key : Key) (activities : List Activity) (activity : Activity) :
    firstContent? key (activities ++ [activity]) =
      (firstContent? key activities).or
        (if activity.key? = some key ∧ ¬activity.isStub then some activity else none) := by
  simp [firstContent?]

theorem firstWith?_some
    {key : Key}
    {activities : List Activity}
    {activity : Activity}
    (found : firstWith? key activities = some activity) :
    activity ∈ activities ∧ activity.key? = some key :=
  ⟨List.mem_of_find?_eq_some found, by simpa using List.find?_some found⟩

theorem firstWith?_eq_none
    {key : Key}
    {activities : List Activity} :
    firstWith? key activities = none ↔
      ∀ activity ∈ activities, activity.key? ≠ some key := by
  simp [firstWith?]

/-- Some record is preferred for a key exactly when some record has it. -/
theorem preferred?_eq_none
    {key : Key}
    {activities : List Activity} :
    preferred? key activities = none ↔
      ∀ activity ∈ activities, activity.key? ≠ some key := by
  constructor
  · intro missing
    exact firstWith?_eq_none.mp (Option.or_eq_none_iff.mp missing).2
  · intro missing
    refine Option.or_eq_none_iff.mpr ⟨?_, firstWith?_eq_none.mpr missing⟩
    simp only [firstContent?, List.find?_eq_none]
    intro activity member
    simp [missing activity member]

/-- The record preferred for a key is one of the records and has the key. -/
theorem preferred?_some
    {key : Key}
    {activities : List Activity}
    {activity : Activity}
    (preferred : preferred? key activities = some activity) :
    activity ∈ activities ∧ activity.key? = some key := by
  rcases Option.or_eq_some_iff.mp preferred with content | ⟨-, first⟩
  · have found := List.find?_some content
    simp only [decide_eq_true_eq] at found
    exact ⟨List.mem_of_find?_eq_some content, found.1⟩
  · exact firstWith?_some first

/-- A record that is a stub is preferred for its key only if all others are stubs. -/
theorem firstContent?_eq_none_of_preferred_stub
    {key : Key}
    {activities : List Activity}
    {activity : Activity}
    (preferred : preferred? key activities = some activity)
    (stub : activity.isStub) :
    firstContent? key activities = none := by
  rcases Option.or_eq_some_iff.mp preferred with content | ⟨missing, -⟩
  · have found := List.find?_some content
    simp only [decide_eq_true_eq] at found
    exact absurd stub found.2
  · exact missing

/-- A record with another key changes nothing about the one preferred for a key. -/
theorem preferred?_concat_of_ne
    {key : Key}
    {activities : List Activity}
    {activity : Activity}
    (different : activity.key? ≠ some key) :
    preferred? key (activities ++ [activity]) = preferred? key activities := by
  simp [preferred?, firstContent?_concat, firstWith?_concat, different]

/-- A record is preferred for its key if it is the first with it. -/
theorem preferred?_concat_of_none
    {key : Key}
    {activities : List Activity}
    {activity : Activity}
    (missing : preferred? key activities = none)
    (keyed : activity.key? = some key) :
    preferred? key (activities ++ [activity]) = some activity := by
  obtain ⟨noContent, noFirst⟩ := Option.or_eq_none_iff.mp missing
  cases stub : activity.isStub <;>
    simp [preferred?, firstContent?_concat, firstWith?_concat, noContent, noFirst, keyed, stub]

/-- A record with content takes the place of a stub that was preferred. -/
theorem preferred?_concat_of_stub
    {key : Key}
    {activities : List Activity}
    {held activity : Activity}
    (preferred : preferred? key activities = some held)
    (heldStub : held.isStub)
    (keyed : activity.key? = some key)
    (content : ¬activity.isStub) :
    preferred? key (activities ++ [activity]) = some activity := by
  have noContent := firstContent?_eq_none_of_preferred_stub preferred heldStub
  simp [preferred?, firstContent?_concat, noContent, keyed, content]

/-- What is preferred for a key stays so if it has content or a stub follows. -/
theorem preferred?_concat_of_content
    {key : Key}
    {activities : List Activity}
    {held activity : Activity}
    (preferred : preferred? key activities = some held)
    (kept : ¬held.isStub ∨ activity.isStub) :
    preferred? key (activities ++ [activity]) = some held := by
  rcases Option.or_eq_some_iff.mp preferred with content | ⟨noContent, first⟩
  · simp [preferred?, firstContent?_concat, content]
  · have stub : activity.isStub := by
      rcases kept with heldContent | stub
      · have found := firstWith?_some first
        have none_of_content := List.find?_eq_none.mp noContent held found.1
        simp [found.2, heldContent] at none_of_content
      · exact stub
    simp [preferred?, firstContent?_concat, firstWith?_concat, noContent, first, stub]

end Activity

namespace Catalog

theorem entry?_key
    {catalog : Catalog}
    {key : Key}
    {entry : Entry}
    (found : catalog.entry? key = some entry) :
    entry.key = key := by
  simpa using List.find?_some found

theorem entry?_mem
    {catalog : Catalog}
    {key : Key}
    {entry : Entry}
    (found : catalog.entry? key = some entry) :
    entry ∈ catalog.entries :=
  List.mem_of_find?_eq_some found

theorem entry?_eq_none
    {catalog : Catalog}
    {key : Key} :
    catalog.entry? key = none ↔ key ∉ catalog.entries.map Entry.key := by
  simp [Catalog.entry?]

theorem entry?_add (catalog : Catalog) (entry : Entry) (key : Key) :
    entry? (catalog.add entry) key =
      (catalog.entry? key).or (if entry.key = key then some entry else none) := by
  simp [Catalog.entry?, add]

theorem entry?_add_self
    {catalog : Catalog}
    {entry : Entry}
    (fresh : catalog.entry? entry.key = none) :
    entry? (catalog.add entry) entry.key = some entry := by
  rw [entry?_add, fresh, if_pos rfl, Option.none_or]

theorem entry?_add_of_ne
    {entry : Entry}
    {key : Key}
    (catalog : Catalog)
    (different : entry.key ≠ key) :
    entry? (catalog.add entry) key = catalog.entry? key := by
  rw [entry?_add, if_neg different, Option.or_none]

/-- Putting another record under a key changes what is found under that key only. -/
theorem entry?_replace (catalog : Catalog) (key : Key) (record : Activity) (other : Key) :
    entry? (catalog.replace key record) other =
      (catalog.entry? other).map fun entry =>
        if entry.key = key then { entry with record } else entry := by
  have sameKeys :
      ((fun entry : Entry => entry.key == other) ∘ fun entry =>
        if entry.key = key then { entry with record } else entry) =
        fun entry => entry.key == other := by
    funext entry
    by_cases replaced : entry.key = key <;> simp [replaced]
  simp only [Catalog.entry?, replace, List.find?_map, sameKeys]

theorem entry?_replace_self
    {catalog : Catalog}
    {key : Key}
    {entry : Entry}
    (found : catalog.entry? key = some entry)
    (record : Activity) :
    entry? (catalog.replace key record) key = some { entry with record } := by
  rw [entry?_replace, found, Option.map_some, if_pos (entry?_key found)]

theorem entry?_replace_of_ne
    {key other : Key}
    (catalog : Catalog)
    (record : Activity)
    (different : key ≠ other) :
    entry? (catalog.replace key record) other = catalog.entry? other := by
  rw [entry?_replace]
  cases found : catalog.entry? other with
  | none =>
      rfl
  | some entry =>
      rw [Option.map_some, entry?_key found, if_neg (Ne.symm different)]

theorem keys_replace (catalog : Catalog) (key : Key) (record : Activity) :
    (catalog.replace key record).entries.map Entry.key = catalog.entries.map Entry.key := by
  simp only [replace, List.map_map]
  apply List.map_congr_left
  intro entry _
  by_cases replaced : entry.key = key <;> simp [replaced]

/-- A record is admitted if it is valid, under its key and in its normal form. -/
theorem admitted_eq_ok
    {activity normal : Activity}
    {key : Key} :
    admitted activity = .ok (key, normal) ↔
      (∃ warnings, activity.validate = .ok warnings) ∧
        activity.key? = some key ∧ normal = activity.normalForm := by
  cases valid : activity.validate with
  | error fault =>
      simp [admitted, Activity.normalized, valid, bind, Except.bind, Except.map]
  | ok warnings =>
      obtain ⟨hasId, -, -⟩ := Activity.validate_eq_ok.mp valid
      simp [admitted, Activity.normalized, valid, bind, Except.bind, Except.map,
        pure, Except.pure, Activity.key?, hasId, eq_comm]

/--
A record from the top is added under a new key, or it agrees with the record
that is already there.
-/
theorem addTop_eq_ok
    {catalog next : Catalog}
    {activity : Activity} :
    catalog.addTop activity = .ok next ↔
      ∃ key, (∃ warnings, activity.validate = .ok warnings) ∧ activity.key? = some key ∧
        ((catalog.entry? key = none ∧ next = catalog.add ⟨key, activity.normalForm, true⟩) ∨
          ∃ entry, catalog.entry? key = some entry ∧
            entry.record.same activity.normalForm ∧ next = catalog) := by
  rw [addTop, bind_eq_ok]
  constructor
  · rintro ⟨⟨key, normal⟩, admitted, added⟩
    obtain ⟨valid, keyed, rfl⟩ := admitted_eq_ok.mp admitted
    refine ⟨key, valid, keyed, ?_⟩
    cases found : catalog.entry? key with
    | none =>
        simp only [found] at added
        cases added
        exact .inl ⟨rfl, rfl⟩
    | some entry =>
        simp only [found] at added
        split at added
        · rename_i agrees
          cases added
          exact .inr ⟨entry, rfl, agrees, rfl⟩
        · cases added
  · rintro ⟨key, valid, keyed, added⟩
    refine ⟨(key, activity.normalForm), admitted_eq_ok.mpr ⟨valid, keyed, rfl⟩, ?_⟩
    rcases added with ⟨fresh, rfl⟩ | ⟨entry, found, agrees, rfl⟩
    · simp [fresh, pure, Except.pure]
    · simp [found, agrees, pure, Except.pure]

/--
An embedded record is added under a new key, or left out where a record from the
top, a record with content or another stub is to stay, or takes the place of a
stub.
-/
theorem addEmbedded_eq_ok
    {catalog next : Catalog}
    {activity : Activity} :
    catalog.addEmbedded activity = .ok next ↔
      ∃ key, (∃ warnings, activity.validate = .ok warnings) ∧ activity.key? = some key ∧
        ((catalog.entry? key = none ∧ next = catalog.add ⟨key, activity.normalForm, false⟩) ∨
          (∃ entry, catalog.entry? key = some entry ∧
            (entry.isTop ∨ ¬entry.record.isStub ∨ activity.isStub) ∧ next = catalog) ∨
          ∃ entry, catalog.entry? key = some entry ∧
            ¬entry.isTop ∧ entry.record.isStub ∧ ¬activity.isStub ∧
            next = catalog.replace key activity.normalForm) := by
  rw [addEmbedded, bind_eq_ok]
  constructor
  · rintro ⟨⟨key, normal⟩, admitted, added⟩
    obtain ⟨valid, keyed, rfl⟩ := admitted_eq_ok.mp admitted
    refine ⟨key, valid, keyed, ?_⟩
    cases found : catalog.entry? key with
    | none =>
        simp only [found] at added
        cases added
        exact .inl ⟨rfl, rfl⟩
    | some entry =>
        simp only [found, Activity.isStub_normalForm] at added
        split at added
        · rename_i stays
          cases added
          exact .inr (.inl ⟨entry, rfl, by simpa [or_assoc] using stays, rfl⟩)
        · rename_i replaced
          cases added
          simp only [Bool.or_eq_true, Bool.not_eq_true', not_or] at replaced
          exact .inr (.inr ⟨entry, rfl, replaced.1.1, by simpa using replaced.1.2,
            replaced.2, rfl⟩)
  · rintro ⟨key, valid, keyed, added⟩
    refine ⟨(key, activity.normalForm), admitted_eq_ok.mpr ⟨valid, keyed, rfl⟩, ?_⟩
    rcases added with ⟨fresh, rfl⟩ | ⟨entry, found, stays, rfl⟩ |
      ⟨entry, found, embedded, stub, content, rfl⟩
    · simp [fresh, pure, Except.pure]
    · have unchanged :
          (entry.isTop || !entry.record.isStub || activity.isStub) = true := by
        simpa [or_assoc] using stays
      simp [found, unchanged, pure, Except.pure]
    · simp [found, embedded, stub, content, pure, Except.pure]

/-- The entry that a catalog given some records is to have under a key. -/
def entryFor? (tops embedded : List Activity) (key : Key) : Option Entry :=
  match Activity.firstWith? key tops with
  | some activity =>
      some ⟨key, activity.normalForm, true⟩
  | none =>
      (Activity.preferred? key embedded).map fun activity => ⟨key, activity.normalForm, false⟩

theorem entryFor?_of_top
    {tops : List Activity}
    {key : Key}
    {activity : Activity}
    (first : Activity.firstWith? key tops = some activity)
    (embedded : List Activity) :
    entryFor? tops embedded key = some ⟨key, activity.normalForm, true⟩ := by
  simp [entryFor?, first]

theorem entryFor?_of_embedded
    {tops : List Activity}
    {key : Key}
    (noTop : Activity.firstWith? key tops = none)
    (embedded : List Activity) :
    entryFor? tops embedded key =
      (Activity.preferred? key embedded).map fun activity =>
        ⟨key, activity.normalForm, false⟩ := by
  simp [entryFor?, noTop]

/-- A record from the top has its entry if its key was free. -/
theorem entryFor?_top_of_none
    {tops : List Activity}
    {key : Key}
    {activity : Activity}
    (fresh : entryFor? tops [] key = none)
    (keyed : activity.key? = some key) :
    entryFor? (tops ++ [activity]) [] key = some ⟨key, activity.normalForm, true⟩ := by
  cases first : Activity.firstWith? key tops with
  | some top =>
      simp [entryFor?_of_top first] at fresh
  | none =>
      have isFirst : Activity.firstWith? key (tops ++ [activity]) = some activity := by
        rw [Activity.firstWith?_concat, first, keyed, if_pos rfl, Option.none_or]
      exact entryFor?_of_top isFirst []

/-- The first record from the top keeps its entry, whatever comes after it. -/
theorem entryFor?_top_of_some
    {tops : List Activity}
    {key : Key}
    {entry : Entry}
    (expected : entryFor? tops [] key = some entry)
    (activity : Activity) :
    entryFor? (tops ++ [activity]) [] key = some entry := by
  cases first : Activity.firstWith? key tops with
  | some top =>
      have isFirst : Activity.firstWith? key (tops ++ [activity]) = some top := by
        rw [Activity.firstWith?_concat, first, Option.some_or]
      rw [entryFor?_of_top first] at expected
      rw [entryFor?_of_top isFirst, expected]
  | none =>
      rw [entryFor?_of_embedded first] at expected
      cases expected

/-- A record from the top with another key changes nothing about a key. -/
theorem entryFor?_top_of_ne
    {key : Key}
    {activity : Activity}
    (tops embedded : List Activity)
    (different : activity.key? ≠ some key) :
    entryFor? (tops ++ [activity]) embedded key = entryFor? tops embedded key := by
  rw [entryFor?, entryFor?, Activity.firstWith?_concat, if_neg different, Option.or_none]

/-- An embedded record with another key changes nothing about a key. -/
theorem entryFor?_concat_of_ne
    {key : Key}
    {activity : Activity}
    (tops embedded : List Activity)
    (different : activity.key? ≠ some key) :
    entryFor? tops (embedded ++ [activity]) key = entryFor? tops embedded key := by
  simp only [entryFor?, Activity.preferred?_concat_of_ne different]

/-- An entry that is not from the top stands for the preferred embedded record. -/
theorem preferred_of_entryFor?
    {tops embedded : List Activity}
    {key : Key}
    {entry : Entry}
    (expected : entryFor? tops embedded key = some entry)
    (isEmbedded : ¬entry.isTop) :
    Activity.firstWith? key tops = none ∧
      ∃ activity, Activity.preferred? key embedded = some activity ∧
        entry = ⟨key, activity.normalForm, false⟩ := by
  cases first : Activity.firstWith? key tops with
  | some activity =>
      rw [entryFor?_of_top first] at expected
      cases expected
      exact absurd rfl isEmbedded
  | none =>
      rw [entryFor?_of_embedded first] at expected
      obtain ⟨activity, preferred, rfl⟩ := Option.map_eq_some_iff.mp expected
      exact ⟨rfl, activity, preferred, rfl⟩

/-- An embedded record has its entry if its key was free. -/
theorem entryFor?_concat_of_none
    {tops embedded : List Activity}
    {key : Key}
    {activity : Activity}
    (fresh : entryFor? tops embedded key = none)
    (keyed : activity.key? = some key) :
    entryFor? tops (embedded ++ [activity]) key = some ⟨key, activity.normalForm, false⟩ := by
  cases first : Activity.firstWith? key tops with
  | some top =>
      simp [entryFor?_of_top first] at fresh
  | none =>
      rw [entryFor?_of_embedded first, Option.map_eq_none_iff] at fresh
      rw [entryFor?_of_embedded first, Activity.preferred?_concat_of_none fresh keyed]
      rfl

/-- A record from the top and one with content keep their entry, others from a stub. -/
theorem entryFor?_concat_of_kept
    {tops embedded : List Activity}
    {key : Key}
    {entry : Entry}
    {activity : Activity}
    (expected : entryFor? tops embedded key = some entry)
    (kept : entry.isTop ∨ ¬entry.record.isStub ∨ activity.isStub) :
    entryFor? tops (embedded ++ [activity]) key = some entry := by
  cases first : Activity.firstWith? key tops with
  | some top =>
      rw [entryFor?_of_top first] at expected ⊢
      exact expected
  | none =>
      rw [entryFor?_of_embedded first] at expected ⊢
      obtain ⟨held, preferred, rfl⟩ := Option.map_eq_some_iff.mp expected
      have keptContent : ¬held.isStub ∨ activity.isStub := by
        simpa using kept
      rw [Activity.preferred?_concat_of_content preferred keptContent]
      rfl

/-- A record with content takes over the entry of an embedded stub. -/
theorem entryFor?_concat_of_stub
    {tops embedded : List Activity}
    {key : Key}
    {entry : Entry}
    {activity : Activity}
    (expected : entryFor? tops embedded key = some entry)
    (isEmbedded : ¬entry.isTop)
    (stub : entry.record.isStub)
    (keyed : activity.key? = some key)
    (content : ¬activity.isStub) :
    entryFor? tops (embedded ++ [activity]) key =
      some { entry with record := activity.normalForm } := by
  obtain ⟨noTop, held, preferred, rfl⟩ := preferred_of_entryFor? expected isEmbedded
  have heldStub : held.isStub := by
    simpa using stub
  rw [entryFor?_of_embedded noTop,
    Activity.preferred?_concat_of_stub preferred heldStub keyed content]
  rfl

/--
A catalog that was given valid records from the top and then embedded ones holds
what they choose under every key, once, and counts what it holds.
-/
structure Holds (catalog : Catalog) (tops embedded : List Activity) : Prop where
  entry : ∀ key, catalog.entry? key = entryFor? tops embedded key
  keysNodup : (catalog.entries.map Entry.key).Nodup
  count : catalog.count = catalog.entries.length
  valid : ∀ activity ∈ tops ++ embedded, ∃ warnings, activity.validate = .ok warnings

namespace Holds

theorem empty : Catalog.empty.Holds [] [] where
  entry key :=
    rfl
  keysNodup :=
    List.nodup_nil
  count :=
    rfl
  valid activity member := by
    simp at member

/-- An entry under a new key is held once and counted. -/
theorem add_fresh
    {catalog : Catalog}
    {entry : Entry}
    (keysNodup : (catalog.entries.map Entry.key).Nodup)
    (fresh : catalog.entry? entry.key = none) :
    ((catalog.add entry).entries.map Entry.key).Nodup := by
  have newKey := entry?_eq_none.mp fresh
  simp only [add, List.map_append, List.map_cons, List.map_nil]
  exact List.nodup_append.mpr ⟨keysNodup, by simp, by
    intro key member other isNew
    rw [List.mem_singleton.mp isNew]
    exact fun same => newKey (same ▸ member)⟩

/-- Where only what is under one key may have changed, it is enough to look there. -/
theorem entry_of_elsewhere
    {catalog next : Catalog}
    {tops embedded moreTops moreEmbedded : List Activity}
    {key : Key}
    (holds : catalog.Holds tops embedded)
    (atKey : next.entry? key = entryFor? moreTops moreEmbedded key)
    (sameHeld : ∀ other, key ≠ other → next.entry? other = catalog.entry? other)
    (sameExpected : ∀ other, key ≠ other →
      entryFor? moreTops moreEmbedded other = entryFor? tops embedded other)
    (other : Key) :
    next.entry? other = entryFor? moreTops moreEmbedded other := by
  by_cases sameKey : key = other
  · exact sameKey ▸ atKey
  · rw [sameHeld other sameKey, sameExpected other sameKey, holds.entry other]

/-- A record from the top is held if it is the first with its key. -/
theorem addTop
    {catalog next : Catalog}
    {tops : List Activity}
    {activity : Activity}
    (holds : catalog.Holds tops [])
    (added : catalog.addTop activity = .ok next) :
    next.Holds (tops ++ [activity]) [] := by
  obtain ⟨key, valid, keyed, added⟩ := addTop_eq_ok.mp added
  have allValid :
      ∀ other ∈ (tops ++ [activity]) ++ [], ∃ warnings, other.validate = .ok warnings := by
    rw [List.append_nil, List.forall_mem_append, List.forall_mem_singleton]
    exact ⟨fun other member => holds.valid other (List.mem_append_left _ member), valid⟩
  have sameExpected :
      ∀ other, key ≠ other → entryFor? (tops ++ [activity]) [] other = entryFor? tops [] other :=
    fun other different => entryFor?_top_of_ne tops [] (by simp [keyed, different])
  rcases added with ⟨fresh, rfl⟩ | ⟨entry, found, -, rfl⟩
  · have atKey := (entry?_add_self fresh).trans
      (entryFor?_top_of_none (holds.entry key ▸ fresh) keyed).symm
    exact ⟨holds.entry_of_elsewhere atKey (fun _ => entry?_add_of_ne catalog) sameExpected,
      add_fresh holds.keysNodup fresh, by simp [add, holds.count], allValid⟩
  · have atKey := found.trans (entryFor?_top_of_some (holds.entry key ▸ found) activity).symm
    exact ⟨holds.entry_of_elsewhere atKey (fun _ _ => rfl) sameExpected,
      holds.keysNodup, holds.count, allValid⟩

/-- An embedded record is held if the records from the top and before it let it. -/
theorem addEmbedded
    {catalog next : Catalog}
    {tops embedded : List Activity}
    {activity : Activity}
    (holds : catalog.Holds tops embedded)
    (added : catalog.addEmbedded activity = .ok next) :
    next.Holds tops (embedded ++ [activity]) := by
  obtain ⟨key, valid, keyed, added⟩ := addEmbedded_eq_ok.mp added
  have allValid :
      ∀ other ∈ tops ++ (embedded ++ [activity]),
        ∃ warnings, other.validate = .ok warnings := by
    rw [← List.append_assoc, List.forall_mem_append, List.forall_mem_singleton]
    exact ⟨holds.valid, valid⟩
  have sameExpected :
      ∀ other, key ≠ other →
        entryFor? tops (embedded ++ [activity]) other = entryFor? tops embedded other :=
    fun other different => entryFor?_concat_of_ne tops embedded (by simp [keyed, different])
  rcases added with ⟨fresh, rfl⟩ | ⟨entry, found, stays, rfl⟩ |
    ⟨entry, found, isEmbedded, stub, content, rfl⟩
  · have atKey := (entry?_add_self fresh).trans
      (entryFor?_concat_of_none (holds.entry key ▸ fresh) keyed).symm
    exact ⟨holds.entry_of_elsewhere atKey (fun _ => entry?_add_of_ne catalog) sameExpected,
      add_fresh holds.keysNodup fresh, by simp [add, holds.count], allValid⟩
  · have atKey := found.trans (entryFor?_concat_of_kept (holds.entry key ▸ found) stays).symm
    exact ⟨holds.entry_of_elsewhere atKey (fun _ _ => rfl) sameExpected,
      holds.keysNodup, holds.count, allValid⟩
  · have atKey := (entry?_replace_self found activity.normalForm).trans
      (entryFor?_concat_of_stub (holds.entry key ▸ found) isEmbedded stub keyed content).symm
    exact ⟨holds.entry_of_elsewhere atKey (fun _ => entry?_replace_of_ne catalog _) sameExpected,
      by simpa only [keys_replace] using holds.keysNodup, by simpa [replace] using holds.count,
      allValid⟩

/-- The keys of a catalog are those of the records that it was given. -/
theorem mem_keys
    {catalog : Catalog}
    {tops embedded : List Activity}
    (holds : catalog.Holds tops embedded)
    {key : Key} :
    key ∈ catalog.entries.map Entry.key ↔
      ∃ activity ∈ tops ++ embedded, activity.key? = some key := by
  have missing :
      entryFor? tops embedded key = none ↔
        ∀ activity ∈ tops ++ embedded, activity.key? ≠ some key := by
    cases first : Activity.firstWith? key tops with
    | some activity =>
        obtain ⟨member, keyed⟩ := Activity.firstWith?_some first
        rw [entryFor?_of_top first]
        simp only [reduceCtorEq, false_iff]
        exact fun none => none activity (List.mem_append_left _ member) keyed
    | none =>
        rw [entryFor?_of_embedded first, Option.map_eq_none_iff, Activity.preferred?_eq_none]
        simp only [List.mem_append, or_imp, forall_and]
        exact (and_iff_right (Activity.firstWith?_eq_none.mp first)).symm
  rw [← holds.entry key, entry?_eq_none] at missing
  constructor
  · intro member
    by_cases given : ∃ activity ∈ tops ++ embedded, activity.key? = some key
    · exact given
    · exact absurd member
        (missing.mpr fun activity isGiven keyed => given ⟨activity, isGiven, keyed⟩)
  · rintro ⟨activity, isGiven, keyed⟩
    by_cases member : key ∈ catalog.entries.map Entry.key
    · exact member
    · exact absurd keyed (missing.mp member activity isGiven)

end Holds

end Catalog

end ActivityCatalog
