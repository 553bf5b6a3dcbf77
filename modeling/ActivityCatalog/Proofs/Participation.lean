import ActivityCatalog.Proofs.Json.Members

namespace ActivityCatalog

/-!
# Participations are read back

Beside its named members a participator keeps others under different names.  Where one of
them has the name of a field it is null, since nulls are set aside before the named members
are read.  What is written of such a participator reads as the same person or the same
group, and every participator that was read is one of these.
-/

open Json

namespace Person

/-- The named members that are written of a person. -/
def told (person : Person) : Parts :=
  [ ("givenName", textMember "givenName" person.givenName),
    ("familyName", textMember "familyName" person.familyName),
    ("email", textMember "email" person.email) ]

/-- Take over a named text of a person. -/
def takeOver (source : Person) (name : String) (person : Person) : Person :=
  match name with
  | "givenName" => { person with givenName := source.givenName }
  | "familyName" => { person with familyName := source.familyName }
  | "email" => { person with email := source.email }
  | _ => person

theorem takeOver_commute (source : Person) : Reader.Commute source.takeOver := by
  intro first second person
  unfold takeOver
  split <;> split <;> rfl

theorem takeOver_apart (source : Person) : Reader.KeepsApart source.takeOver keep where
  named name other value person := by
    unfold takeOver
    split <;> rfl
  kept name other value held person different := by
    have sameExtensions :=
      Dictionary.insert_comm (Ne.symm different) held value person.extensions
    simp only [keep, sameExtensions]

theorem told_tell (source : Person) (room : Nat) :
    source.told.Tell fields room source.takeOver ⟨none, none, none, []⟩ where
  names := rfl
  different := by decide
  commute := source.takeOver_commute
  each := by
    simp only [told, List.forall_mem_cons, List.not_mem_nil, false_implies, implies_true, and_true]
    exact ⟨.of_text rfl (fun _ => rfl) rfl, .of_text rfl (fun _ => rfl) rfl,
      .of_text rfl (fun _ => rfl) rfl⟩

theorem reads_members
    {room : Nat}
    {source : Person}
    {others : Extensions}
    (sorted : Dictionary.Sorted others)
    (unnamed : ∀ member ∈ others, member.1 ∉ source.told.map Prod.fst)
    (reads : ∀ member ∈ others, Reader.Reads Reader.value room member.2 member.2) :
    Reader.Reads reader (room + 1) (.object (source.told.members ++ others))
      { source with extensions := others } := by
  exact (source.told_tell room).reads_openRecord
    (fun held : Extensions => ({ source with extensions := held } : Person))
    source.takeOver_apart rfl (fun _ _ _ => rfl) sorted unnamed reads

/-- A person that is read from canonical members, of which none is null, has all of them. -/
theorem holds_of_reader
    {room : Nat}
    {given : Dictionary Value}
    {person : Person}
    (different : (given.map Prod.fst).Nodup)
    (canonical : ∀ member ∈ given, Reader.Reads Reader.value room member.2 member.2)
    (present : ∀ member ∈ given, member.2.isNull = false)
    (wasRead : reader (room + 1) (Document.ofValue (.object given)) = .ok person) :
    person.told.Holds person.extensions given := by
  have initially : (told ⟨none, none, none, []⟩).Holds [] [] :=
    ⟨List.Perm.refl [], List.Pairwise.nil, by simp⟩
  have keeps : ∀ person name value, told (keep person name value) = told person ∧
      (keep person name value).extensions = Dictionary.insert name value person.extensions :=
    fun _ _ _ => ⟨rfl, rfl⟩
  refine Parts.holds_of_openRecord told extensions (fun _ => rfl) initially ?_ keeps
    different canonical present wasRead
  intro field isField done held before after holds fresh isGiven fieldRead
  have named := (before.told_tell room).named
  simp only [fields, List.mem_cons, List.not_mem_nil, or_false] at isField
  rcases isField with rfl | rfl | rfl
  all_goals
    obtain ⟨_, textRead, rfl⟩ := Reader.read_of_eq_ok.mp fieldRead
    obtain ⟨content, rfl, rfl⟩ := Reader.exists_text_of_optional isGiven textRead
  · exact holds.filled [] named fresh
  · exact holds.filled (before.told.take 1) named fresh
  · exact holds.filled (before.told.take 2) named fresh

end Person

namespace Group

/-- The named members that are written of a group. -/
def told (team : Group) : Parts :=
  [ ("display", textMember "display" team.display),
    ("email", textMember "email" team.email) ]

/-- Take over a named text of a group. -/
def takeOver (source : Group) (name : String) (team : Group) : Group :=
  match name with
  | "display" => { team with display := source.display }
  | "email" => { team with email := source.email }
  | _ => team

theorem takeOver_commute (source : Group) : Reader.Commute source.takeOver := by
  intro first second team
  unfold takeOver
  split <;> split <;> rfl

theorem takeOver_apart (source : Group) : Reader.KeepsApart source.takeOver keep where
  named name other value team := by
    unfold takeOver
    split <;> rfl
  kept name other value held team different := by
    have sameExtensions :=
      Dictionary.insert_comm (Ne.symm different) held value team.extensions
    simp only [keep, sameExtensions]

theorem told_tell (source : Group) (room : Nat) :
    source.told.Tell fields room source.takeOver ⟨none, none, []⟩ where
  names := rfl
  different := by decide
  commute := source.takeOver_commute
  each := by
    simp only [told, List.forall_mem_cons, List.not_mem_nil, false_implies, implies_true, and_true]
    exact ⟨.of_text rfl (fun _ => rfl) rfl, .of_text rfl (fun _ => rfl) rfl⟩

theorem reads_members
    {room : Nat}
    {source : Group}
    {others : Extensions}
    (sorted : Dictionary.Sorted others)
    (unnamed : ∀ member ∈ others, member.1 ∉ source.told.map Prod.fst)
    (reads : ∀ member ∈ others, Reader.Reads Reader.value room member.2 member.2) :
    Reader.Reads reader (room + 1) (.object (source.told.members ++ others))
      { source with extensions := others } := by
  exact (source.told_tell room).reads_openRecord
    (fun held : Extensions => ({ source with extensions := held } : Group))
    source.takeOver_apart rfl (fun _ _ _ => rfl) sorted unnamed reads

/-- A group that is read from canonical members, of which none is null, has all of them. -/
theorem holds_of_reader
    {room : Nat}
    {given : Dictionary Value}
    {team : Group}
    (different : (given.map Prod.fst).Nodup)
    (canonical : ∀ member ∈ given, Reader.Reads Reader.value room member.2 member.2)
    (present : ∀ member ∈ given, member.2.isNull = false)
    (wasRead : reader (room + 1) (Document.ofValue (.object given)) = .ok team) :
    team.told.Holds team.extensions given := by
  have initially : (told ⟨none, none, []⟩).Holds [] [] :=
    ⟨List.Perm.refl [], List.Pairwise.nil, by simp⟩
  have keeps : ∀ team name value, told (keep team name value) = told team ∧
      (keep team name value).extensions = Dictionary.insert name value team.extensions :=
    fun _ _ _ => ⟨rfl, rfl⟩
  refine Parts.holds_of_openRecord told extensions (fun _ => rfl) initially ?_ keeps
    different canonical present wasRead
  intro field isField done held before after holds fresh isGiven fieldRead
  have named := (before.told_tell room).named
  simp only [fields, List.mem_cons, List.not_mem_nil, or_false] at isField
  rcases isField with rfl | rfl
  all_goals
    obtain ⟨_, textRead, rfl⟩ := Reader.read_of_eq_ok.mp fieldRead
    obtain ⟨content, rfl, rfl⟩ := Reader.exists_text_of_optional isGiven textRead
  · exact holds.filled [] named fresh
  · exact holds.filled (before.told.take 1) named fresh

end Group

namespace Participator

/-- The named members that are written of a participator. -/
def told : Participator → Parts
  | .person individual => individual.told
  | .group team => team.told

/-- All members that are written of a participator. -/
def members (participator : Participator) : List (String × Value) :=
  participator.told.members ++ participator.extensions

theorem written_eq (participator : Participator) :
    participator.written = .object participator.members := by
  cases participator <;>
    simp [written, Person.written, Group.written, members, told, Person.told, Group.told,
      Parts.members, extensions]

/-- Whether the participator is a person. -/
def isPerson : Participator → Bool
  | .person _ => true
  | .group _ => false

/--
The members of a participator have different names and canonical values; only a null among
the unnamed ones may have the name of a field; and they are those of a person if it is one.
-/
structure Sound (participator : Participator) : Prop where
  different : (participator.members.map Prod.fst).Nodup
  canonical : (Value.object participator.extensions).canonical = .object participator.extensions
  unnamed : ∀ member ∈ participator.extensions,
    member.2.isNull = false → member.1 ∉ participator.told.map Prod.fst
  shaped : isPersonShaped (Dictionary.ofList participator.members) = participator.isPerson

theorem exists_string_of_told
    {participator : Participator}
    {member : String × Value}
    (isTold : member ∈ participator.told.members) :
    ∃ content, member.2 = .string content := by
  cases participator <;>
    simp only [told, Person.told, Group.told, Parts.members, List.flatMap_cons,
      List.flatMap_nil, List.mem_append, mem_textMember, List.not_mem_nil, or_false] at isTold <;>
    aesop

/--
A participator keeps the members that were given: it has no others, only a null of them has
the name of a field without being told as one, and they make it a person or a group.
-/
structure Keeps (participator : Participator) (given : Dictionary Value) : Prop where
  all : participator.members.Perm given
  sorted : Dictionary.Sorted given
  sortedExtensions : Dictionary.Sorted participator.extensions
  unnamed : ∀ member ∈ participator.extensions,
    member.2.isNull = false → member.1 ∉ participator.told.map Prod.fst
  shaped : isPersonShaped given = participator.isPerson

section Keeps

variable
  {participator : Participator}
  {given : Dictionary Value}

theorem Keeps.different (keeps : participator.Keeps given) :
    (participator.members.map Prod.fst).Nodup :=
  (keeps.all.map Prod.fst).nodup_iff.mpr keeps.sorted.keys_nodup

theorem Keeps.ofList_members (keeps : participator.Keeps given) :
    Dictionary.ofList participator.members = given :=
  Dictionary.ofList_eq_of_perm keeps.sorted keeps.all

theorem Keeps.sound
    (keeps : participator.Keeps given)
    (canonical : ∀ member ∈ given, member.2.canonical = member.2) :
    participator.Sound where
  different := keeps.different
  canonical := by
    refine Value.canonical_object_eq_self.mpr ⟨keeps.sortedExtensions, ?_⟩
    intro member isMember
    exact canonical member (keeps.all.subset (List.mem_append_right _ isMember))
  unnamed := keeps.unnamed
  shaped := by
    rw [keeps.ofList_members, keeps.shaped]

end Keeps

/-- The nulls that were set aside are kept with the unnamed members. -/
theorem holds_with_nulls
    {parts : Parts}
    {others given : Dictionary Value}
    (sorted : Dictionary.Sorted given)
    (holds : parts.Holds others (given.filter fun member => !member.2.isNull)) :
    let kept := Dictionary.insertAll (given.filter fun member => member.2.isNull) others
    (parts.members ++ kept).Perm given ∧ Dictionary.Sorted kept ∧
      ∀ member ∈ kept, member.2.isNull = false → member.1 ∉ parts.map Prod.fst := by
  have whole :
      ((given.filter fun member => member.2.isNull) ++ (parts.members ++ others)).Perm given :=
    (holds.perm.append_left _).trans (List.filter_append_perm _ given)
  have different :
      (Dictionary.keys ((given.filter fun member => member.2.isNull) ++ others)).Nodup := by
    have allDifferent := (whole.map Prod.fst).nodup_iff.mpr sorted.keys_nodup
    refine allDifferent.sublist (List.Sublist.map Prod.fst ?_)
    exact (List.Sublist.refl _).append (List.sublist_append_right _ others)
  refine ⟨?_, Dictionary.sorted_insertAll holds.sorted _, ?_⟩
  · refine ((Dictionary.insertAll_perm different).append_left parts.members).trans ?_
    refine List.Perm.trans ?_ whole
    rw [← List.append_assoc, ← List.append_assoc]
    exact List.perm_append_comm.append_right others
  · intro member isMember isGiven
    rcases Dictionary.mem_of_mem_insertAll isMember with isNull | isOther
    · rw [(List.mem_filter.mp isNull).2] at isGiven
      cases isGiven
    · exact holds.unnamed member isOther

/-- A participator that is read from members of its own keeps them all. -/
theorem keeps_of_reader
    {room : Nat}
    {document : Document}
    {participator : Participator}
    (wasRead : reader room document = .ok participator) :
    ∃ given, Reader.dictionary Reader.value room document = .ok given ∧
      participator.Keeps given := by
  obtain ⟨given, givenRead, wasRead⟩ := bind_eq_ok.mp wasRead
  obtain ⟨inner, rfl, sorted, wereRead⟩ := Reader.of_dictionary givenRead
  have present : ∀ member ∈ given.filter fun member => !member.2.isNull,
      member.2.isNull = false := by
    intro member isGiven
    simpa using (List.mem_filter.mp isGiven).2
  have different : ((given.filter fun member => !member.2.isNull).map Prod.fst).Nodup :=
    (sorted.filter _).keys_nodup
  have reads : ∀ member ∈ given.filter fun member => !member.2.isNull,
      Reader.Reads Reader.value inner member.2 member.2 := by
    intro member isGiven
    obtain ⟨_, memberRead⟩ := wereRead member (List.mem_filter.mp isGiven).1
    obtain ⟨isCanonical, fits⟩ := Reader.canonical_of_value memberRead
    exact Reader.reads_value isCanonical fits
  refine ⟨given, givenRead, ?_⟩
  split at wasRead
  · rename_i shaped
    obtain ⟨individual, individualRead, made⟩ := bind_eq_ok.mp wasRead
    cases made
    obtain ⟨all, sortedExtensions, unnamed⟩ := holds_with_nulls sorted
      (Person.holds_of_reader different reads present individualRead)
    exact ⟨all, sorted, sortedExtensions, unnamed, shaped⟩
  · rename_i notShaped
    obtain ⟨team, teamRead, made⟩ := bind_eq_ok.mp wasRead
    cases made
    obtain ⟨all, sortedExtensions, unnamed⟩ := holds_with_nulls sorted
      (Group.holds_of_reader different reads present teamRead)
    exact ⟨all, sorted, sortedExtensions, unnamed, Bool.eq_false_iff.mpr notShaped⟩

/-- A participator that was read is sound and fits the room. -/
theorem sound_of_reader
    {room : Nat}
    {document : Document}
    {participator : Participator}
    (wasRead : reader room document = .ok participator) :
    participator.Sound ∧ participator.written.depth ≤ room := by
  obtain ⟨given, givenRead, keeps⟩ := keeps_of_reader wasRead
  obtain ⟨inner, rfl, -, wereRead⟩ := Reader.of_dictionary givenRead
  have canonical : ∀ member ∈ given, member.2.canonical = member.2 ∧ member.2.depth ≤ inner := by
    intro member isMember
    obtain ⟨_, memberRead⟩ := wereRead member isMember
    exact Reader.canonical_of_value memberRead
  refine ⟨keeps.sound fun member isMember => (canonical member isMember).1, ?_⟩
  rw [written_eq, Value.depth_object_le_succ]
  exact fun member isMember => (canonical member (keeps.all.subset isMember)).2

section Written

variable
  {participator : Participator}
  {room : Nat}
  {document : Document}

theorem Sound.sorted (sound : participator.Sound) : Dictionary.Sorted participator.extensions :=
  (Value.canonical_object_eq_self.mp sound.canonical).1

theorem Sound.canonical_member
    (sound : participator.Sound)
    (member : String × Value)
    (isMember : member ∈ participator.members) :
    member.2.canonical = member.2 := by
  rcases List.mem_append.mp isMember with isTold | isKept
  · obtain ⟨content, isText⟩ := exists_string_of_told isTold
    rw [isText]
    rfl
  · exact (Value.canonical_object_eq_self.mp sound.canonical).2 member isKept

/-- The members that are no nulls are those that are told and the unnamed ones among them. -/
theorem Sound.filter_given (sound : participator.Sound) :
    ((Dictionary.ofList participator.members).filter fun member => !member.2.isNull) =
      Dictionary.ofList (participator.told.members ++
        participator.extensions.filter fun member => !member.2.isNull) := by
  have allTold :
      (participator.told.members.filter fun member => !member.2.isNull) =
        participator.told.members := by
    refine List.filter_eq_self.mpr fun member isTold => ?_
    obtain ⟨content, isText⟩ := exists_string_of_told isTold
    rw [isText]
    rfl
  have sameMembers :=
    (Dictionary.ofList_perm sound.different).filter fun member => !member.2.isNull
  rw [members, List.filter_append, allTold] at sameMembers
  exact (Dictionary.ofList_eq_of_perm
    ((Dictionary.sorted_ofList _).filter _) sameMembers.symm).symm

/-- Nulls that are set aside and put back are with the other unnamed members again. -/
theorem Sound.insertAll_nulls (sound : participator.Sound) :
    Dictionary.insertAll
        ((Dictionary.ofList participator.members).filter fun member => member.2.isNull)
        (participator.extensions.filter fun member => !member.2.isNull) =
      participator.extensions := by
  have noneTold :
      (participator.told.members.filter fun member => member.2.isNull) = [] := by
    refine List.filter_eq_nil_iff.mpr fun member isTold => ?_
    obtain ⟨content, isText⟩ := exists_string_of_told isTold
    rw [isText]
    exact Bool.false_ne_true
  have sameNulls :=
    (Dictionary.ofList_perm sound.different).filter fun member => member.2.isNull
  rw [members, List.filter_append, noneTold, List.nil_append] at sameNulls
  refine Dictionary.insertAll_eq_of_perm (sound.sorted.filter _) sound.sorted ?_
  exact (sameNulls.append_right _).trans (List.filter_append_perm _ participator.extensions)

theorem Sound.canonical_given (sound : participator.Sound) :
    (Value.object (participator.told.members ++
        participator.extensions.filter fun member => !member.2.isNull)).canonical =
      .object ((Dictionary.ofList participator.members).filter fun member =>
        !member.2.isNull) := by
  rw [Value.canonical_object, sound.filter_given]
  refine congrArg (Value.object ∘ Dictionary.ofList) (Value.map_canonical ?_)
  intro member isMember
  refine sound.canonical_member member ?_
  rcases List.mem_append.mp isMember with isTold | isKept
  · exact List.mem_append_left _ isTold
  · exact List.mem_append_right _ (List.mem_filter.mp isKept).1

/-- A sound participator is read from any document whose members are its own. -/
theorem Sound.read_of_dictionary
    (sound : participator.Sound)
    (fits : ∀ member ∈ participator.extensions, member.2.depth ≤ room)
    (membersRead : Reader.dictionary Reader.value (room + 1) document =
      .ok (Dictionary.ofList participator.members)) :
    reader (room + 1) document = .ok participator := by
  have sortedGiven := sound.sorted.filter fun member => !member.2.isNull
  have unnamedGiven : ∀ member ∈ participator.extensions.filter fun member => !member.2.isNull,
      member.1 ∉ participator.told.map Prod.fst := by
    intro member isGiven
    obtain ⟨isKept, notNull⟩ := List.mem_filter.mp isGiven
    exact sound.unnamed member isKept (by simpa using notNull)
  have readsGiven : ∀ member ∈ participator.extensions.filter fun member => !member.2.isNull,
      Reader.Reads Reader.value room member.2 member.2 := by
    intro member isGiven
    obtain ⟨isKept, -⟩ := List.mem_filter.mp isGiven
    exact Reader.reads_value
      (sound.canonical_member member (List.mem_append_right _ isKept)) (fits member isKept)
  have shaped := sound.shaped
  have canonicalGiven := sound.canonical_given
  have nullsBack := sound.insertAll_nulls
  rw [reader, membersRead]
  cases participator with
  | person individual =>
      have individualRead := (Person.reads_members sortedGiven unnamedGiven readsGiven).canonical
      replace canonicalGiven := congrArg Document.ofValue canonicalGiven
      replace individualRead :=
        (congrArg (Person.reader (room + 1)) canonicalGiven).symm.trans individualRead
      simp only [bind, Except.bind, shaped, isPerson, if_true, individualRead, pure, Except.pure]
      exact congrArg (fun kept => Except.ok (person { individual with extensions := kept }))
        nullsBack
  | group team =>
      have teamRead := (Group.reads_members sortedGiven unnamedGiven readsGiven).canonical
      replace canonicalGiven := congrArg Document.ofValue canonicalGiven
      replace teamRead :=
        (congrArg (Group.reader (room + 1)) canonicalGiven).symm.trans teamRead
      simp only [bind, Except.bind, shaped, isPerson, teamRead, pure, Except.pure]
      exact congrArg (fun kept => Except.ok (group { team with extensions := kept })) nullsBack

/-- What is written of a sound participator reads as the same person or the same group. -/
theorem Sound.reads_written
    (sound : participator.Sound)
    (fits : participator.written.depth ≤ room) :
    Reader.Reads reader room participator.written participator := by
  rw [written_eq] at fits ⊢
  obtain ⟨room, rfl, membersFit⟩ := Value.depth_object_le.mp fits
  have extensionsFit : ∀ member ∈ participator.extensions, member.2.depth ≤ room :=
    fun member isKept => membersFit member (List.mem_append_right _ isKept)
  have sorted := Dictionary.sorted_ofList participator.members
  have sameMembers := Dictionary.ofList_perm sound.different
  refine ⟨?_, ?_, Value.depth_object_le_canonical sound.different ?_⟩
  · refine sound.read_of_dictionary extensionsFit ?_
    rw [Reader.dictionary_ofValue membersFit, Value.map_canonical sound.canonical_member]
  · have listedCanonical : ∀ member ∈ Dictionary.ofList participator.members,
        member.2.canonical = member.2 :=
      fun member isMember => sound.canonical_member member (sameMembers.subset isMember)
    refine sound.read_of_dictionary extensionsFit ?_
    rw [Value.canonical_object, Value.map_canonical sound.canonical_member,
      Reader.dictionary_ofValue, Value.map_canonical listedCanonical, sorted.ofList_eq]
    exact fun member isMember => membersFit member (sameMembers.subset isMember)
  · intro member isMember
    rw [sound.canonical_member member isMember]

end Written

end Participator

namespace Participation

/-- The named members that are written of a participation. -/
def told (participation : Participation) : Parts :=
  [ ("participator",
      optionalMember "participator" Participator.written participation.participator),
    ("roles", listMember "roles" (participation.roles.map .string)) ]

theorem written_eq (participation : Participation) :
    participation.written = .object (participation.told.members ++ participation.extensions) := by
  simp [written, told, Parts.members]

/-- Take over a named field of a participation. -/
def takeOver (source : Participation) (name : String) (participation : Participation) :
    Participation :=
  match name with
  | "participator" => { participation with participator := source.participator }
  | "roles" => { participation with roles := source.roles }
  | _ => participation

theorem takeOver_commute (source : Participation) : Reader.Commute source.takeOver := by
  intro first second participation
  unfold takeOver
  split <;> split <;> rfl

theorem takeOver_apart (source : Participation) : Reader.KeepsApart source.takeOver keep where
  named name other value participation := by
    unfold takeOver
    split <;> rfl
  kept name other value held participation different := by
    have sameExtensions :=
      Dictionary.insert_comm (Ne.symm different) held value participation.extensions
    simp only [keep, sameExtensions]

/--
The participator of a participation is sound, and its unnamed members are a dictionary of
canonical values without the name of a field.
-/
structure Sound (participation : Participation) : Prop where
  participator : ∀ participator, participation.participator = some participator →
    participator.Sound
  canonical :
    (Value.object participation.extensions).canonical = .object participation.extensions
  unnamed : ∀ member ∈ participation.extensions, member.1 ∉ fields.map Field.name

/-- The parts of a participation fit a room. -/
@[mk_iff]
structure PartsFit (participation : Participation) (room : Nat) : Prop where
  participator : ∀ participator, participation.participator = some participator →
    participator.written.depth ≤ room
  roles : participation.roles ≠ [] → ∃ inner, room = inner + 1 ∧
    ∀ role ∈ participation.roles, (Value.string role).depth ≤ inner
  extensions : ∀ member ∈ participation.extensions, member.2.depth ≤ room

/-- What is written of a participation fits a room if its parts fit the room inside. -/
theorem depth_written
    {participation : Participation}
    {room : Nat} :
    participation.written.depth ≤ room ↔
      ∃ inner, room = inner + 1 ∧ participation.PartsFit inner := by
  rw [written_eq, Value.depth_object_le]
  refine exists_congr fun inner => and_congr_right fun _ => ?_
  rw [partsFit_iff, List.forall_mem_append, Parts.depth_members]
  simp only [told, List.forall_mem_cons, List.not_mem_nil, false_implies, implies_true, and_true,
    depth_optionalMember, depth_listMember, and_assoc]

/-- A participation stays sound with a canonical value that is kept under no field's name. -/
theorem Sound.keep
    {participation : Participation}
    {name : String}
    {value : Value}
    (sound : participation.Sound)
    (unnamed : name ∉ fields.map Field.name)
    (isCanonical : value.canonical = value) :
    (participation.keep name value).Sound := by
  obtain ⟨sorted, canonicalMembers⟩ := Value.canonical_object_eq_self.mp sound.canonical
  refine ⟨sound.participator,
    Value.canonical_object_eq_self.mpr ⟨Dictionary.sorted_insert sorted name value, ?_⟩, ?_⟩
  · intro member isMember
    rcases Dictionary.eq_or_mem_of_mem_insert isMember with rfl | earlier
    · exact isCanonical
    · exact canonicalMembers member earlier
  · intro member isMember
    rcases Dictionary.eq_or_mem_of_mem_insert isMember with rfl | earlier
    · exact unnamed
    · exact sound.unnamed member earlier

theorem PartsFit.keep
    {participation : Participation}
    {room : Nat}
    {value : Value}
    (fit : participation.PartsFit room)
    (name : String)
    (valueFits : value.depth ≤ room) :
    (participation.keep name value).PartsFit room := by
  refine ⟨fit.participator, fit.roles, ?_⟩
  intro member isMember
  rcases Dictionary.eq_or_mem_of_mem_insert isMember with rfl | earlier
  · exact valueFits
  · exact fit.extensions member earlier

/-- Whatever is read into a field, a participation stays sound and fits. -/
theorem Sound.of_field
    {room : Nat}
    {document : Document}
    {field : Json.Field Participation}
    {before after : Participation}
    (isField : field ∈ fields)
    (sound : before.Sound)
    (fit : before.PartsFit room)
    (fieldRead : field.read room document before = .ok after) :
    after.Sound ∧ after.PartsFit room := by
  simp only [fields, List.mem_cons, List.not_mem_nil, or_false] at isField
  rcases isField with rfl | rfl
  · obtain ⟨result, resultRead, rfl⟩ := Reader.read_of_eq_ok.mp fieldRead
    have soundParticipator : ∀ participator, result = some participator →
        participator.Sound ∧ participator.written.depth ≤ room := by
      rintro participator rfl
      exact Participator.sound_of_reader (Reader.of_optional resultRead)
    exact ⟨⟨fun participator isHeld => (soundParticipator participator isHeld).1,
        sound.canonical, sound.unnamed⟩,
      ⟨fun participator isHeld => (soundParticipator participator isHeld).2, fit.roles,
        fit.extensions⟩⟩
  · obtain ⟨roles, rolesRead, rfl⟩ := Reader.read_of_eq_ok.mp fieldRead
    obtain ⟨inner, rfl, -⟩ := Reader.of_list rolesRead
    exact ⟨⟨sound.participator, sound.canonical, sound.unnamed⟩,
      ⟨fit.participator, fun _ => ⟨inner, rfl, fun _ _ => Nat.zero_le inner⟩, fit.extensions⟩⟩

/-- A participation that was read is sound and fits the room. -/
theorem sound_of_reader
    {room : Nat}
    {document : Document}
    {participation : Participation}
    (wasRead : reader room document = .ok participation) :
    participation.Sound ∧ participation.written.depth ≤ room := by
  obtain ⟨inner, members, rfl, rfl, progress, ran, rfl⟩ := Reader.of_openRecord wasRead
  rw [← List.map_id members] at ran
  suffices holds : progress.1.Sound ∧ progress.1.PartsFit inner from
    ⟨holds.1, depth_written.mpr ⟨inner, rfl, holds.2⟩⟩
  refine Reader.openMembers_induction
    (motive := fun _ held => held.Sound ∧ held.PartsFit inner) ?_ ?_ ?_ ran
  · exact ⟨⟨by simp, rfl, by simp⟩, ⟨by simp, by simp, by simp⟩⟩
  · rintro done item rest - field isField - before after ⟨sound, fit⟩ fieldRead
    exact sound.of_field isField fit fieldRead
  · rintro done item rest - name - notField before held ⟨sound, fit⟩ valueRead
    obtain ⟨isCanonical, fits⟩ := Reader.canonical_of_value valueRead
    have unnamed : name ∉ fields.map Field.name := by
      intro isNamed
      obtain ⟨field, isField, sameName⟩ := List.mem_map.mp isNamed
      exact notField field isField sameName
    exact ⟨sound.keep unnamed isCanonical, fit.keep name fits⟩

/-- What is written of a sound participation reads as the same participation. -/
theorem Sound.reads_written
    {participation : Participation}
    {room : Nat}
    (sound : participation.Sound)
    (fits : participation.written.depth ≤ room) :
    Reader.Reads reader room participation.written participation := by
  obtain ⟨room, rfl, fit⟩ := depth_written.mp fits
  obtain ⟨sorted, canonicalMembers⟩ := Value.canonical_object_eq_self.mp sound.canonical
  have tell : participation.told.Tell fields room participation.takeOver ⟨none, [], []⟩ := by
    refine ⟨rfl, by decide, participation.takeOver_commute, ?_⟩
    simp only [told, List.forall_mem_cons, List.not_mem_nil, false_implies, implies_true, and_true]
    constructor
    · refine .of_optional rfl (fun _ => rfl) rfl (fun participator => ?_) ?_
      · cases participator <;> rfl
      · intro participator isHeld
        exact (sound.participator participator isHeld).reads_written
          (fit.participator participator isHeld)
    · refine .of_list rfl (fun _ => rfl) rfl fun someRoles => ?_
      obtain ⟨inner, rfl, -⟩ := fit.roles someRoles
      exact ⟨inner, rfl, fun role _ => Reader.reads_text inner role⟩
  rw [written_eq]
  exact tell.reads_openRecord
    (fun held : Extensions => ({ participation with extensions := held } : Participation))
    participation.takeOver_apart rfl (fun _ _ _ => rfl) sorted sound.unnamed
    fun member isMember => Reader.reads_value (canonicalMembers member isMember)
      (fit.extensions member isMember)

end Participation

end ActivityCatalog
