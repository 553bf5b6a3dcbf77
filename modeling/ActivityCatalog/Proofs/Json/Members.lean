import ActivityCatalog.Participation
import ActivityCatalog.Proofs.Json.Records
import Mathlib.Data.List.Induction

namespace ActivityCatalog

/-!
# Members of records that may be left out

A field that is absent, and a list or a dictionary that is empty, has no member; every
other field has one member of its name.  Left out or not, the member of a field makes of a
record what the field says.
-/

namespace Json

theorem mem_optionalMember
    {Field : Type}
    {name : String}
    {write : Field → Value}
    {held : Option Field}
    {member : String × Value} :
    member ∈ optionalMember name write held ↔
      ∃ field, held = some field ∧ member = (name, write field) := by
  cases held <;> simp [optionalMember]

theorem mem_textMember
    {name : String}
    {held : Option String}
    {member : String × Value} :
    member ∈ textMember name held ↔
      ∃ content, held = some content ∧ member = (name, .string content) :=
  mem_optionalMember

theorem mem_listMember
    {name : String}
    {items : List Value}
    {member : String × Value} :
    member ∈ listMember name items ↔ items ≠ [] ∧ member = (name, .array items) := by
  cases items <;> simp [listMember]

theorem mem_dictionaryMember
    {name : String}
    {entries : List (String × Value)}
    {member : String × Value} :
    member ∈ dictionaryMember name entries ↔ entries ≠ [] ∧ member = (name, .object entries) := by
  cases entries <;> simp [dictionaryMember]

theorem optionalMember_eq_nil
    {Field : Type}
    {name : String}
    {write : Field → Value}
    {held : Option Field} :
    optionalMember name write held = [] ↔ held = none := by
  cases held <;> simp [optionalMember]

theorem listMember_eq_nil
    {name : String}
    {items : List Value} :
    listMember name items = [] ↔ items = [] := by
  cases items <;> simp [listMember]

theorem dictionaryMember_eq_nil
    {name : String}
    {entries : List (String × Value)} :
    dictionaryMember name entries = [] ↔ entries = [] := by
  cases entries <;> simp [dictionaryMember]

theorem depth_optionalMember
    {Field : Type}
    {name : String}
    {write : Field → Value}
    {held : Option Field}
    {room : Nat} :
    (∀ member ∈ optionalMember name write held, member.2.depth ≤ room) ↔
      ∀ field, held = some field → (write field).depth ≤ room := by
  cases held <;> simp [optionalMember]

theorem depth_textMember
    {name : String}
    {held : Option String}
    {room : Nat} :
    ∀ member ∈ textMember name held, member.2.depth ≤ room :=
  depth_optionalMember.mpr fun _ _ => Nat.zero_le room

theorem depth_listMember
    {Item : Type}
    {name : String}
    {write : Item → Value}
    {items : List Item}
    {room : Nat} :
    (∀ member ∈ listMember name (items.map write), member.2.depth ≤ room) ↔
      (items ≠ [] → ∃ inner, room = inner + 1 ∧
        ∀ item ∈ items, (write item).depth ≤ inner) := by
  have onlyMember :
      (∀ member ∈ listMember name (items.map write), member.2.depth ≤ room) ↔
        (items ≠ [] → (Value.array (items.map write)).depth ≤ room) := by
    simp [mem_listMember]
  simp only [onlyMember, Value.depth_array_le, List.forall_mem_map]

theorem depth_dictionaryMember
    {Item : Type}
    {name : String}
    {write : Item → Value}
    {entries : Dictionary Item}
    {room : Nat} :
    (∀ member ∈ dictionaryMember name (entries.map fun entry => (entry.1, write entry.2)),
        member.2.depth ≤ room) ↔
      (entries ≠ [] → ∃ inner, room = inner + 1 ∧
        ∀ entry ∈ entries, (write entry.2).depth ≤ inner) := by
  have onlyMember :
      (∀ member ∈ dictionaryMember name (entries.map fun entry => (entry.1, write entry.2)),
          member.2.depth ≤ room) ↔
        (entries ≠ [] →
          (Value.object (entries.map fun entry => (entry.1, write entry.2))).depth ≤ room) := by
    simp [mem_dictionaryMember]
  simp only [onlyMember, Value.depth_object_le, List.forall_mem_map]

/-- A field that may be absent has one member at most. -/
theorem names_optionalMember
    {Field : Type}
    (name : String)
    (write : Field → Value)
    (held : Option Field) :
    ((optionalMember name write held).map Prod.fst).Sublist [name] := by
  cases held
  · exact List.nil_sublist [name]
  · exact List.Sublist.refl [name]

theorem names_listMember (name : String) (items : List Value) :
    ((listMember name items).map Prod.fst).Sublist [name] := by
  cases items
  · exact List.nil_sublist [name]
  · exact List.Sublist.refl [name]

theorem names_dictionaryMember (name : String) (entries : List (String × Value)) :
    ((dictionaryMember name entries).map Prod.fst).Sublist [name] := by
  cases entries
  · exact List.nil_sublist [name]
  · exact List.Sublist.refl [name]

/-- The member of a field changes a record as the field does, if it is left out or not. -/
theorem foldl_of_names_sublist
    {Record : Type}
    {change : String → Record → Record}
    {name : String}
    {members : List (String × Value)}
    {record : Record}
    (names : (members.map Prod.fst).Sublist [name])
    (leftOut : members = [] → change name record = record) :
    members.foldl (fun held member => change member.1 held) record = change name record := by
  match members, names with
  | [], _ =>
      exact (leftOut rfl).symm
  | [member], names =>
      have sameName : member.1 = name := by simpa using names
      rw [List.foldl_cons, List.foldl_nil, sameName]
  | _ :: _ :: _, names =>
      simpa using names.length_le

/-- The fields of a record, each with the members that are written of it. -/
abbrev Parts :=
  List (String × List (String × Value))

namespace Parts

/-- The members that are written of all fields. -/
def members (parts : Parts) : List (String × Value) :=
  parts.flatMap Prod.snd

theorem depth_members
    {parts : Parts}
    {room : Nat} :
    (∀ member ∈ parts.members, member.2.depth ≤ room) ↔
      ∀ part ∈ parts, ∀ member ∈ part.2, member.2.depth ≤ room := by
  simp only [members, List.forall_mem_flatMap]

theorem depth_object
    {parts : Parts}
    {room : Nat} :
    (Value.object parts.members).depth ≤ room ↔
      ∃ inner, room = inner + 1 ∧ ∀ part ∈ parts, ∀ member ∈ part.2, member.2.depth ≤ inner := by
  simp only [Value.depth_object_le, depth_members]

/-- Every field has at most one member, under its own name. -/
def Named (parts : Parts) : Prop :=
  ∀ part ∈ parts, (part.2.map Prod.fst).Sublist [part.1]

theorem Named.sublist
    {parts : Parts}
    (named : parts.Named) :
    (parts.members.map Prod.fst).Sublist (parts.map Prod.fst) := by
  induction parts with
  | nil =>
      exact List.Sublist.refl []
  | cons part rest inductionHypothesis =>
      obtain ⟨namedFirst, namedRest⟩ := List.forall_mem_cons.mp named
      rw [members, List.flatMap_cons, List.map_append, List.map_cons]
      exact namedFirst.append (inductionHypothesis namedRest)

/-- Members of fields with different names have different names. -/
theorem Named.nodup
    {parts : Parts}
    (named : parts.Named)
    (different : (parts.map Prod.fst).Nodup) :
    (parts.members.map Prod.fst).Nodup :=
  different.sublist named.sublist

/-- A field that was left out adds the members that it has now. -/
theorem members_filled
    (earlier later : Parts)
    (name : String)
    (added : List (String × Value)) :
    (members (earlier ++ (name, added) :: later)).Perm
      (added ++ members (earlier ++ (name, []) :: later)) := by
  simp only [members, List.flatMap_append, List.flatMap_cons, List.nil_append]
  exact List.perm_append_comm_assoc _ _ _

/-- A field without a member of its name is left out. -/
theorem Named.eq_nil
    {parts : Parts}
    {part : String × List (String × Value)}
    (named : parts.Named)
    (isPart : part ∈ parts)
    (absent : part.1 ∉ parts.members.map Prod.fst) :
    part.2 = [] := by
  refine List.eq_nil_iff_forall_not_mem.mpr fun member isMember => absent ?_
  have ownName : member.1 ∈ [part.1] :=
    (named part isPart).subset (List.mem_map_of_mem isMember)
  have inAll : member ∈ parts.members :=
    List.mem_flatMap.mpr ⟨part, isPart, isMember⟩
  exact List.mem_singleton.mp ownName ▸ List.mem_map_of_mem inAll

/--
A record that keeps its unknown members has all that were given: those of its fields and, in
a dictionary, the others, none of which has the name of a field.
-/
structure Holds
    (parts : Parts)
    (extensions : Dictionary Value)
    (given : List (String × Value)) : Prop where
  perm : (parts.members ++ extensions).Perm given
  sorted : Dictionary.Sorted extensions
  unnamed : ∀ member ∈ extensions, member.1 ∉ parts.map Prod.fst

/-- A field whose name was not given yet may have any members from now on. -/
theorem Holds.filled
    (earlier : Parts)
    {later : Parts}
    {name : String}
    {members added : List (String × Value)}
    {extensions : Dictionary Value}
    {given : List (String × Value)}
    (holds : Holds (earlier ++ (name, members) :: later) extensions given)
    (named : Named (earlier ++ (name, members) :: later))
    (fresh : name ∉ given.map Prod.fst) :
    Holds (earlier ++ (name, added) :: later) extensions (given ++ added) := by
  have absent : name ∉ (Parts.members (earlier ++ (name, members) :: later)).map Prod.fst := by
    intro isTold
    have inAll := List.mem_append_left (extensions.map Prod.fst) isTold
    exact fresh ((holds.perm.map Prod.fst).subset (List.map_append ▸ inAll))
  have leftOut : members = [] :=
    named.eq_nil (List.mem_append_right earlier List.mem_cons_self) absent
  subst leftOut
  have filled := (members_filled earlier later name added).append_right extensions
  rw [List.append_assoc] at filled
  refine ⟨?_, holds.sorted, ?_⟩
  · exact filled.trans ((holds.perm.append_left added).trans List.perm_append_comm)
  · intro member isMember
    have unnamed := holds.unnamed member isMember
    rwa [List.map_append, List.map_cons] at unnamed ⊢

theorem Holds.inserted
    {parts : Parts}
    {extensions : Dictionary Value}
    {given : List (String × Value)}
    {name : String}
    {held : Value}
    (holds : Holds parts extensions given)
    (unnamed : name ∉ parts.map Prod.fst)
    (fresh : name ∉ given.map Prod.fst) :
    Holds parts (Dictionary.insert name held extensions) (given ++ [(name, held)]) := by
  have freshExtension : name ∉ Dictionary.keys extensions := by
    intro member
    have inAll : name ∈ (parts.members ++ extensions).map Prod.fst :=
      List.map_append ▸ List.mem_append_right _ member
    exact fresh ((holds.perm.map Prod.fst).subset inAll)
  have inserted := Dictionary.insert_perm freshExtension held
  refine ⟨?_, Dictionary.sorted_insert holds.sorted name held, ?_⟩
  · exact (inserted.append_left parts.members).trans
      (List.perm_middle.trans
        ((holds.perm.cons (name, held)).trans (List.perm_append_singleton _ given).symm))
  · intro member isMember
    rcases Dictionary.eq_or_mem_of_mem_insert isMember with rfl | earlier
    · exact unnamed
    · exact holds.unnamed member earlier

/--
The members of all fields change a record as the fields do, since a field that is left out
is as it is at the start.
-/
theorem foldl_members
    {Record : Type}
    {change : String → Record → Record}
    {start : Record}
    {parts : Parts}
    (commute : Reader.Commute change)
    (named : parts.Named)
    (leftOut : ∀ part ∈ parts, part.2 = [] → change part.1 start = start) :
    parts.members.foldl (fun held member => change member.1 held) start =
      (parts.map Prod.fst).foldl (fun held name => change name held) start := by
  induction parts using List.reverseRecOn with
  | nil =>
      rfl
  | append_singleton parts part inductionHypothesis =>
      obtain ⟨namedBefore, namedLast⟩ := List.forall_mem_append.mp named
      obtain ⟨leftOutBefore, leftOutLast⟩ := List.forall_mem_append.mp leftOut
      have unchanged :
          ∀ names : List String, part.2 = [] →
            change part.1 (names.foldl (fun held name => change name held) start) =
              names.foldl (fun held name => change name held) start := by
        intro names absent
        induction names using List.reverseRecOn with
        | nil =>
            exact leftOutLast part List.mem_cons_self absent
        | append_singleton names name inductionHypothesis =>
            rw [List.foldl_append, List.foldl_cons, List.foldl_nil, commute, inductionHypothesis]
      rw [members, List.flatMap_append, List.flatMap_singleton, List.foldl_append, ← members,
        inductionHypothesis namedBefore leftOutBefore,
        foldl_of_names_sublist (namedLast part List.mem_cons_self) (unchanged _),
        List.map_append, List.foldl_append]
      rfl

section Part

variable
  {Record Item : Type}
  {fields : List (Field Record)}
  {room : Nat}
  {change : String → Record → Record}
  {start : Record}
  {name : String}

/--
A part of a record tells a field: the field of a member reads what is written there, and
changes any record in its own place; a field that is left out is as it is at the start.
-/
structure PartTells
    (fields : List (Field Record))
    (room : Nat)
    (change : String → Record → Record)
    (start : Record)
    (part : String × List (String × Value)) : Prop where
  named : (part.2.map Prod.fst).Sublist [part.1]
  leftOut : part.2 = [] → change part.1 start = start
  tells : ∀ member ∈ part.2, Reader.Tells fields room change member

/-- A field that may be absent is told if what is there is read back. -/
theorem PartTells.of_optional
    {reader : Reader Item}
    {write : Item → Value}
    {store : Record → Option Item → Record}
    {held : Option Item}
    (found : fields.find? (fun field => field.name == name) =
      some (.of name (Reader.optional reader) store))
    (stores : ∀ record, store record held = change name record)
    (absent : store start none = start)
    (given : ∀ item, (write item).isNull = false)
    (reads : ∀ item, held = some item → Reader.Reads reader room (write item) item) :
    PartTells fields room change start (name, optionalMember name write held) where
  named := names_optionalMember name write held
  leftOut := by
    intro isLeftOut
    rw [← stores, optionalMember_eq_nil.mp isLeftOut, absent]
  tells := by
    intro member isMember
    obtain ⟨item, isHeld, rfl⟩ := mem_optionalMember.mp isMember
    exact Reader.tells_of_reads found (Reader.reads_optional (given item) (reads item isHeld))
      fun record => isHeld ▸ stores record

theorem PartTells.of_text
    {store : Record → Option String → Record}
    {held : Option String}
    (found : fields.find? (fun field => field.name == name) =
      some (.of name (Reader.optional Reader.text) store))
    (stores : ∀ record, store record held = change name record)
    (absent : store start none = start) :
    PartTells fields room change start (name, textMember name held) :=
  PartTells.of_optional found stores absent (fun _ => rfl)
    fun content _ => Reader.reads_text room content

/-- A list is told if it is empty or there is room for it and its items are read back. -/
theorem PartTells.of_list
    {reader : Reader Item}
    {write : Item → Value}
    {store : Record → List Item → Record}
    {items : List Item}
    (found : fields.find? (fun field => field.name == name) =
      some (.of name (Reader.list reader) store))
    (stores : ∀ record, store record items = change name record)
    (absent : store start [] = start)
    (reads : items ≠ [] → ∃ inner, room = inner + 1 ∧
      ∀ item ∈ items, Reader.Reads reader inner (write item) item) :
    PartTells fields room change start (name, listMember name (items.map write)) where
  named := names_listMember name (items.map write)
  leftOut := by
    intro isLeftOut
    have isEmpty : items = [] := List.map_eq_nil_iff.mp (listMember_eq_nil.mp isLeftOut)
    rw [← stores, isEmpty, absent]
  tells := by
    intro member isMember
    obtain ⟨isGiven, rfl⟩ := mem_listMember.mp isMember
    obtain ⟨inner, rfl, readsItems⟩ := reads fun isEmpty => isGiven (isEmpty ▸ rfl)
    exact Reader.tells_of_reads found (Reader.reads_list readsItems) stores

/-- A dictionary is told if it is empty or there is room for it and its values are read back. -/
theorem PartTells.of_dictionary
    {reader : Reader Item}
    {write : Item → Value}
    {store : Record → Dictionary Item → Record}
    {entries : Dictionary Item}
    (found : fields.find? (fun field => field.name == name) =
      some (.of name (Reader.dictionary reader) store))
    (stores : ∀ record, store record entries = change name record)
    (absent : store start [] = start)
    (sorted : Dictionary.Sorted entries)
    (reads : entries ≠ [] → ∃ inner, room = inner + 1 ∧
      ∀ entry ∈ entries, Reader.Reads reader inner (write entry.2) entry.2) :
    PartTells fields room change start
      (name, dictionaryMember name (entries.map fun entry => (entry.1, write entry.2))) where
  named := names_dictionaryMember name _
  leftOut := by
    intro isLeftOut
    have isEmpty : entries = [] := List.map_eq_nil_iff.mp (dictionaryMember_eq_nil.mp isLeftOut)
    rw [← stores, isEmpty, absent]
  tells := by
    intro member isMember
    obtain ⟨isGiven, rfl⟩ := mem_dictionaryMember.mp isMember
    obtain ⟨inner, rfl, readsEntries⟩ := reads fun isEmpty => isGiven (isEmpty ▸ rfl)
    exact Reader.tells_of_reads found (Reader.reads_dictionary sorted readsEntries) stores

end Part

/-- The parts of a record tell its fields, which have different names. -/
structure Tell
    {Record : Type}
    (parts : Parts)
    (fields : List (Field Record))
    (room : Nat)
    (change : String → Record → Record)
    (start : Record) : Prop where
  names : parts.map Prod.fst = fields.map Field.name
  different : (fields.map Field.name).Nodup
  commute : Reader.Commute change
  each : ∀ part ∈ parts, PartTells fields room change start part

section Tell

variable
  {Record : Type}
  {parts : Parts}
  {fields : List (Field Record)}
  {keep : Record → String → Value → Record}
  {room : Nat}
  {change : String → Record → Record}
  {start result : Record}
  {description : String}

theorem Tell.named (tell : parts.Tell fields room change start) : parts.Named :=
  fun part isPart => (tell.each part isPart).named

theorem Tell.tells
    (tell : parts.Tell fields room change start)
    (member : String × Value)
    (isMember : member ∈ parts.members) :
    Reader.Tells fields room change member := by
  obtain ⟨part, isPart, inPart⟩ := List.mem_flatMap.mp isMember
  exact (tell.each part isPart).tells member inPart

theorem Tell.nodup (tell : parts.Tell fields room change start) :
    (parts.members.map Prod.fst).Nodup :=
  tell.named.nodup (tell.names ▸ tell.different)

theorem Tell.foldl_members
    (tell : parts.Tell fields room change start)
    (made : (fields.map Field.name).foldl (fun held name => change name held) start = result) :
    parts.members.foldl (fun held member => change member.1 held) start = result := by
  have leftOut : ∀ part ∈ parts, part.2 = [] → change part.1 start = start :=
    fun part isPart => (tell.each part isPart).leftOut
  rw [Parts.foldl_members tell.commute tell.named leftOut, tell.names, made]

/-- The members of the fields read as the record that the fields make. -/
theorem Tell.reads_record
    (tell : parts.Tell fields room change start)
    (made : (fields.map Field.name).foldl (fun held name => change name held) start = result) :
    Reader.Reads (Reader.record description fields start) (room + 1) (.object parts.members)
      result := by
  rw [← tell.foldl_members made]
  exact Reader.reads_record tell.nodup tell.commute tell.tells

/-- A record of one text that may be absent is read back. -/
theorem reads_textRecord
    {name : String}
    {store : Record → Option String → Record}
    {held : Option String}
    (stores : ∀ record, store record held = result)
    (absent : store start none = start) :
    Reader.Reads (Reader.record description [.of name (Reader.optional Reader.text) store] start)
      (room + 1) (.object (textMember name held)) result := by
  have found :
      [Field.of name (Reader.optional Reader.text) store].find?
          (fun field => field.name == name) =
        some (.of name (Reader.optional Reader.text) store) :=
    List.find?_cons_of_pos (beq_self_eq_true name)
  have part :
      PartTells [.of name (Reader.optional Reader.text) store] room (fun _ _ => result) start
        (name, textMember name held) :=
    .of_text found stores absent
  have tell :
      Tell [(name, textMember name held)] [.of name (Reader.optional Reader.text) store] room
        (fun _ _ => result) start :=
    ⟨rfl, List.nodup_singleton name, fun _ _ _ => rfl, List.forall_mem_singleton.mpr part⟩
  have onlyPart : members [(name, textMember name held)] = textMember name held :=
    List.append_nil _
  rw [← onlyPart]
  exact tell.reads_record rfl

/-- The members of the fields and others read as the record that keeps the others. -/
theorem Tell.reads_openRecord
    {others : Dictionary Value}
    (store : Dictionary Value → Record)
    (tell : parts.Tell fields room change start)
    (apart : Reader.KeepsApart change keep)
    (made : (fields.map Field.name).foldl (fun held name => change name held) start = store [])
    (keeps : ∀ held name value,
      keep (store held) name value = store (Dictionary.insert name value held))
    (sorted : Dictionary.Sorted others)
    (unnamed : ∀ member ∈ others, member.1 ∉ parts.map Prod.fst)
    (reads : ∀ member ∈ others, Reader.Reads Reader.value room member.2 member.2) :
    Reader.Reads (Reader.openRecord description fields keep start) (room + 1)
      (.object (parts.members ++ others)) (store others) := by
  have unknown : ∀ member ∈ others, ∀ field ∈ fields, field.name ≠ member.1 := by
    intro member isOther field isField sameName
    have isName : field.name ∈ parts.map Prod.fst :=
      tell.names ▸ List.mem_map_of_mem isField
    exact unnamed member isOther (sameName ▸ isName)
  have different : ((parts.members ++ others).map Prod.fst).Nodup := by
    rw [List.map_append]
    refine List.nodup_append.mpr ⟨tell.nodup, sorted.keys_nodup, ?_⟩
    rintro name isTold _ isOther rfl
    obtain ⟨member, isMember, rfl⟩ := List.mem_map.mp isOther
    exact unnamed member isMember (tell.named.sublist.subset isTold)
  have stored : ∀ (members : List (String × Value)) (held : Dictionary Value),
      members.foldl (fun held member => keep held member.1 member.2) (store held) =
        store (Dictionary.insertAll members held) := by
    intro members
    induction members with
    | nil =>
        exact fun held => rfl
    | cons member rest inductionHypothesis =>
        intro held
        rw [List.foldl_cons, keeps, inductionHypothesis]
        rfl
  have whole :
      others.foldl (fun held member => keep held member.1 member.2)
          (parts.members.foldl (fun held member => change member.1 held) start) =
        store others := by
    rw [tell.foldl_members made, stored]
    exact congrArg store sorted.ofList_eq
  rw [← whole]
  exact Reader.reads_openRecord different tell.commute apart tell.tells unknown reads

end Tell

/--
An open record that is read from canonical members has those that are kept, if a field that
reads one of them fills its own part with it or leaves it out, and if no other is left out.
-/
theorem holds_kept_of_openRecord
    {Record : Type}
    (told : Record → Parts)
    (others : Record → Dictionary Value)
    (kept : String × Value → Bool)
    {fields : List (Field Record)}
    {keep : Record → String → Value → Record}
    {room : Nat}
    {start result : Record}
    {description : String}
    {given : Dictionary Value}
    (names : ∀ record, (told record).map Prod.fst = fields.map Field.name)
    (initially : (told start).Holds (others start) [])
    (fills : ∀ field ∈ fields, ∀ done held before after,
      (told before).Holds (others before) done →
        field.name ∉ done.map Prod.fst → (field.name, held) ∈ given →
          field.read room (Document.ofValue held) before = .ok after →
            (told after).Holds (others after) (done ++ [(field.name, held)].filter kept))
    (keeps : ∀ record name value,
      told (keep record name value) = told record ∧
        others (keep record name value) = Dictionary.insert name value (others record))
    (keptOthers : ∀ member ∈ given, member.1 ∉ fields.map Field.name → kept member)
    (different : (given.map Prod.fst).Nodup)
    (canonical : ∀ member ∈ given, Reader.Reads Reader.value room member.2 member.2)
    (wasRead : Reader.openRecord description fields keep start (room + 1)
      (Document.ofValue (.object given)) = .ok result) :
    (told result).Holds (others result) (given.filter kept) := by
  rw [Document.ofValue_object] at wasRead
  obtain ⟨progress, ran, rfl⟩ := map_eq_ok.mp wasRead
  have isFresh : ∀ done item rest, given = done ++ item :: rest →
      item.1 ∉ (done.filter kept).map Prod.fst := by
    intro done item rest split earlier
    rw [split, List.map_append, List.map_cons] at different
    have inDone := (List.filter_sublist.map Prod.fst).subset earlier
    exact (List.nodup_append.mp different).2.2 _ inDone _ List.mem_cons_self rfl
  refine Reader.openMembers_induction
    (motive := fun done held => (told held).Holds (others held) (done.filter kept))
    initially ?_ ?_ ran
  · rintro done ⟨name, held⟩ rest split field isField isName before after holds fieldRead
    obtain rfl : name = field.name := Option.some.inj isName
    rw [List.filter_append]
    exact fills field isField _ held before after holds (isFresh done _ rest split)
      (split ▸ by simp) fieldRead
  · rintro done item rest split name isName notField before held holds valueRead
    obtain rfl : item.1 = name := Option.some.inj isName
    have isGiven : item ∈ given := split ▸ by simp
    obtain rfl : item.2 = held :=
      Except.ok.inj ((canonical item isGiven).written.symm.trans valueRead)
    have notNamed : item.1 ∉ fields.map Field.name := by
      intro isNamed
      obtain ⟨field, isField, sameName⟩ := List.mem_map.mp isNamed
      exact notField field isField sameName
    obtain ⟨toldAsBefore, inserted⟩ := keeps before item.1 item.2
    rw [toldAsBefore, inserted, List.filter_append,
      List.filter_cons_of_pos (keptOthers item isGiven notNamed), List.filter_nil]
    exact holds.inserted (names before ▸ notNamed) (isFresh done item rest split)

/--
An open record that is read from canonical members, of which none is null, has all of them if
a field that reads one of them fills its own part.
-/
theorem holds_of_openRecord
    {Record : Type}
    (told : Record → Parts)
    (others : Record → Dictionary Value)
    {fields : List (Field Record)}
    {keep : Record → String → Value → Record}
    {room : Nat}
    {start result : Record}
    {description : String}
    {given : Dictionary Value}
    (names : ∀ record, (told record).map Prod.fst = fields.map Field.name)
    (initially : (told start).Holds (others start) [])
    (fills : ∀ field ∈ fields, ∀ done held before after,
      (told before).Holds (others before) done →
        field.name ∉ done.map Prod.fst → held.isNull = false →
          field.read room (Document.ofValue held) before = .ok after →
            (told after).Holds (others after) (done ++ [(field.name, held)]))
    (keeps : ∀ record name value,
      told (keep record name value) = told record ∧
        others (keep record name value) = Dictionary.insert name value (others record))
    (different : (given.map Prod.fst).Nodup)
    (canonical : ∀ member ∈ given, Reader.Reads Reader.value room member.2 member.2)
    (present : ∀ member ∈ given, member.2.isNull = false)
    (wasRead : Reader.openRecord description fields keep start (room + 1)
      (Document.ofValue (.object given)) = .ok result) :
    (told result).Holds (others result) given := by
  have holds :=
    holds_kept_of_openRecord told others (fun _ => true) names initially
      (fun field isField done held before after holds fresh isGiven fieldRead =>
        fills field isField done held before after holds fresh (present _ isGiven) fieldRead)
      keeps (fun _ _ _ => rfl) different canonical wasRead
  rwa [List.filter_true] at holds

end Parts

end Json

end ActivityCatalog
