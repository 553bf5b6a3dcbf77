import ActivityCatalog.Proofs.Participation

namespace ActivityCatalog

/-!
# Participations are kept as they were given

Named members, other members and nulls share the names of one object.  Whatever value reads
as a participator is written again with the same members.  A participation loses two kinds
of members, which say nothing: a null instead of a participator, and a list of no roles.

A value is given by its canonical form, since no object of it repeats a name.  What is
written lists named members first, and so its canonical form is compared with the value.
-/

open Json

/-- The names of the members of an object, in their order. -/
def Json.Value.names : Value → List String
  | .object members =>
      members.map Prod.fst
  | _ =>
      []

namespace Participator

variable
  {participator : Participator}
  {given : Dictionary Value}

theorem isGiven_iff
    (sorted : Dictionary.Sorted given)
    {name : String} :
    isGiven name given = true ↔ ∃ value, (name, value) ∈ given ∧ value ≠ .null := by
  simp only [← sorted.get?_eq_some, isGiven]
  cases Dictionary.get? name given with
  | none =>
      simp
  | some value =>
      cases value <;> simp [Value.isNull]

/-- A participator is a person if a given or a family name was given that is no null. -/
theorem Keeps.isPerson_iff (keeps : participator.Keeps given) :
    participator.isPerson = true ↔
      ∃ name ∈ ["givenName", "familyName"], ∃ value,
        (name, value) ∈ given ∧ value ≠ .null := by
  rw [← keeps.shaped, isPersonShaped, Bool.or_eq_true, isGiven_iff keeps.sorted,
    isGiven_iff keeps.sorted]
  simp only [List.exists_mem_cons_iff, List.not_mem_nil, false_and, exists_false, or_false]

theorem names_written (participator : Participator) :
    participator.written.names = participator.members.map Prod.fst := by
  rw [written_eq]
  rfl

/-- The members that are kept are written, under their names and with their values. -/
theorem Keeps.canonical_written
    (keeps : participator.Keeps given)
    (canonical : ∀ member ∈ given, member.2.canonical = member.2) :
    participator.written.canonical = .object given := by
  have canonicalMembers : ∀ member ∈ participator.members, member.2.canonical = member.2 :=
    fun member isMember => canonical member (keeps.all.subset isMember)
  rw [written_eq, Value.canonical_object, Value.map_canonical canonicalMembers,
    keeps.ofList_members]

/-- A canonical value that reads as a participator is an object, and its members are kept. -/
theorem keeps_of_value
    {room : Nat}
    {held : Value}
    (canonical : held.canonical = held)
    (fits : held.depth ≤ room)
    (wasRead : reader room (Document.ofValue held) = .ok participator) :
    ∃ given, held = .object given ∧ participator.Keeps given := by
  obtain ⟨given, givenRead, keeps⟩ := keeps_of_reader wasRead
  exact ⟨given, Reader.eq_object_of_dictionary canonical fits givenRead, keeps⟩

/-- What reads as a participator is what is written of it. -/
theorem canonical_written_of_reader
    {room : Nat}
    {held : Value}
    (canonical : held.canonical = held)
    (fits : held.depth ≤ room)
    (wasRead : reader room (Document.ofValue held) = .ok participator) :
    participator.written.canonical = held := by
  obtain ⟨given, rfl, keeps⟩ := keeps_of_value canonical fits wasRead
  exact keeps.canonical_written (Value.canonical_object_eq_self.mp canonical).2

end Participator

namespace Participation

/-- Whether a member is written again: not a null instead of a participator, nor no roles. -/
def isKept : String × Value → Bool
  | ("participator", .null) =>
      false
  | ("roles", .array []) =>
      false
  | _ =>
      true

variable
  {participation : Participation}
  {given : Dictionary Value}
  {room : Nat}

/-- The named members that are written of a participation, with canonical values. -/
def listed (participation : Participation) : Parts :=
  [ ("participator",
      optionalMember "participator" (fun participator => participator.written.canonical)
        participation.participator),
    ("roles", listMember "roles" (participation.roles.map .string)) ]

theorem listed_named (participation : Participation) : participation.listed.Named := by
  simp only [Parts.Named, listed, List.forall_mem_cons, List.not_mem_nil, false_implies,
    implies_true, and_true]
  exact ⟨names_optionalMember _ _ _, names_listMember _ _⟩

theorem map_canonical_told (participation : Participation) :
    (participation.told.members.map fun member => (member.1, member.2.canonical)) =
      participation.listed.members := by
  have participatorPart (held : Option Participator) :
      ((optionalMember "participator" Participator.written held).map fun member =>
          (member.1, member.2.canonical)) =
        optionalMember "participator" (fun participator => participator.written.canonical)
          held := by
    cases held <;> rfl
  have rolesPart (roles : List String) :
      ((listMember "roles" (roles.map .string)).map fun member =>
          (member.1, member.2.canonical)) = listMember "roles" (roles.map .string) := by
    refine Value.map_canonical fun member isMember => ?_
    obtain ⟨-, rfl⟩ := mem_listMember.mp isMember
    rw [Value.canonical_array, List.map_map]
    rfl
  simp only [told, listed, Parts.members, List.flatMap_cons, List.flatMap_nil, List.map_append,
    List.map_nil, participatorPart, rolesPart]

theorem isKept_of_unnamed
    {member : String × Value}
    (unnamed : member.1 ∉ fields.map Field.name) :
    isKept member = true := by
  unfold isKept
  split
  · exact absurd (by decide) unnamed
  · exact absurd (by decide) unnamed
  · rfl

/-- A member for the participator fills the field, or is a null and is left out. -/
theorem filter_participator
    {held : Value}
    {result : Option Participator}
    (canonical : held.canonical = held)
    (fits : held.depth ≤ room)
    (wasRead : Reader.optional Participator.reader room (Document.ofValue held) = .ok result) :
    [("participator", held)].filter isKept =
      optionalMember "participator" (fun participator => participator.written.canonical)
        result := by
  cases held with
  | null =>
      cases wasRead
      rfl
  | bool | number | string | array | object =>
      rw [Reader.optional_eq rfl] at wasRead
      obtain ⟨participator, participatorRead, rfl⟩ := map_eq_ok.mp wasRead
      have same := Participator.canonical_written_of_reader canonical fits participatorRead
      simp only [optionalMember, same]
      rfl

/-- A member for the roles fills the field, or lists none and is left out. -/
theorem filter_roles
    {held : Value}
    {roles : List String}
    (wasRead : Reader.list Reader.text room (Document.ofValue held) = .ok roles) :
    [("roles", held)].filter isKept = listMember "roles" (roles.map .string) := by
  rw [Reader.eq_array_of_texts wasRead]
  cases roles <;> rfl

/-- A participation that is read from canonical members has all that say something. -/
theorem holds_of_reader
    (canonical : (Value.object given).canonical = .object given)
    (fits : (Value.object given).depth ≤ room)
    (wasRead : reader room (Document.ofValue (.object given)) = .ok participation) :
    participation.listed.Holds participation.extensions (given.filter isKept) := by
  obtain ⟨sorted, canonicalMembers⟩ := Value.canonical_object_eq_self.mp canonical
  obtain ⟨inner, rfl, membersFit⟩ := Value.depth_object_le.mp fits
  have initially : (listed ⟨none, [], []⟩).Holds [] [] :=
    ⟨List.Perm.refl [], List.Pairwise.nil, by simp⟩
  have keeps : ∀ participation name value, listed (keep participation name value) =
      listed participation ∧ (keep participation name value).extensions =
        Dictionary.insert name value participation.extensions :=
    fun _ _ _ => ⟨rfl, rfl⟩
  refine Parts.holds_kept_of_openRecord listed extensions isKept (fun _ => rfl) initially ?_
    keeps (fun _ _ => isKept_of_unnamed) sorted.keys_nodup ?_ wasRead
  · -- A field that reads its member fills its part, which had no member before.
    intro field isField done held before after holds fresh isMember fieldRead
    have named := before.listed_named
    simp only [fields, List.mem_cons, List.not_mem_nil, or_false] at isField
    rcases isField with rfl | rfl
    · obtain ⟨result, resultRead, rfl⟩ := Reader.read_of_eq_ok.mp fieldRead
      have filled :=
        filter_participator (canonicalMembers _ isMember) (membersFit _ isMember) resultRead
      exact filled ▸ holds.filled [] named fresh
    · obtain ⟨roles, rolesRead, rfl⟩ := Reader.read_of_eq_ok.mp fieldRead
      exact filter_roles rolesRead ▸ holds.filled (before.listed.take 1) named fresh
  · intro member isMember
    exact Reader.reads_value (canonicalMembers member isMember) (membersFit member isMember)

/-- What is written of such a participation are these members, each under its own name. -/
theorem written_of_holds
    (sorted : Dictionary.Sorted given)
    (canonical : ∀ member ∈ given, member.2.canonical = member.2)
    (holds : participation.listed.Holds participation.extensions given) :
    participation.written.canonical = .object given ∧ participation.written.names.Nodup := by
  have canonicalExtensions :
      (participation.extensions.map fun member => (member.1, member.2.canonical)) =
        participation.extensions :=
    Value.map_canonical fun member isMember =>
      canonical member (holds.perm.subset (List.mem_append_right _ isMember))
  have members :
      ((participation.told.members ++ participation.extensions).map fun member =>
          (member.1, member.2.canonical)) =
        participation.listed.members ++ participation.extensions := by
    rw [List.map_append, map_canonical_told, canonicalExtensions]
  have names :
      participation.written.names =
        (participation.listed.members ++ participation.extensions).map Prod.fst := by
    rw [← members, List.map_map, written_eq]
    rfl
  constructor
  · rw [written_eq, Value.canonical_object, members,
      Dictionary.ofList_eq_of_perm sorted holds.perm]
  · rw [names]
    exact (holds.perm.map Prod.fst).nodup_iff.mpr sorted.keys_nodup

/--
Whatever object reads as a participator is what is written of it, and it is a person if it
has a given or a family name that is no null.  Whatever object reads as a participation is
what is written of it but for a null instead of a participator and a list of no roles.
Nothing that is written repeats a name.
-/
theorem reads_verbatim
    {members : Dictionary Value}
    (canonical : (Value.object members).canonical = .object members) :
    (∀ participator,
        Reader.ofValue Participator.reader (.object members) = .ok participator →
          participator.written.canonical = .object members ∧
            participator.written.names.Nodup ∧
            (participator.isPerson = true ↔
              ∃ name ∈ ["givenName", "familyName"], ∃ value,
                (name, value) ∈ members ∧ value ≠ .null)) ∧
      ∀ participation,
        Reader.ofValue reader (.object members) = .ok participation →
          participation.written.canonical = .object (members.filter isKept) ∧
            participation.written.names.Nodup ∧
            ∀ participator, participation.participator = some participator →
              participator.written.names.Nodup := by
  obtain ⟨sorted, canonicalMembers⟩ := Value.canonical_object_eq_self.mp canonical
  constructor
  · intro participator wasRead
    obtain ⟨_, isObject, keeps⟩ :=
      Participator.keeps_of_value canonical (Nat.le_refl _) wasRead
    cases isObject
    rw [participator.names_written]
    exact ⟨keeps.canonical_written canonicalMembers, keeps.different, keeps.isPerson_iff⟩
  · intro participation wasRead
    have holds := holds_of_reader canonical (Nat.le_refl _) wasRead
    obtain ⟨written, distinct⟩ := written_of_holds (sorted.filter isKept)
      (fun member isMember => canonicalMembers member (List.mem_filter.mp isMember).1) holds
    refine ⟨written, distinct, ?_⟩
    intro participator isHeld
    rw [participator.names_written]
    exact ((sound_of_reader wasRead).1.participator participator isHeld).different

/-- The members of a person: two of the named ones are null, and another one is unnamed. -/
def personMembers : Dictionary Value :=
  [ ("email", .null), ("familyName", .null), ("givenName", .string "Ada"),
    ("slack", .string "#ada") ]

/-- The members of a participation in no roles, with an unnamed null. -/
def ownerMembers : Dictionary Value :=
  [("participator", .object personMembers), ("roles", .array []), ("since", .null)]

/-- The nulls of a person are written again, and only the roles of its participation are not. -/
theorem reads_verbatim_owner :
    ∃ individual participation,
      Reader.ofValue Participator.reader (.object personMembers) = .ok (.person individual) ∧
        individual.givenName = some "Ada" ∧
        individual.written.canonical = .object personMembers ∧
        Reader.ofValue reader (.object ownerMembers) = .ok participation ∧
        participation.participator = some (.person individual) ∧
        participation.written.canonical =
          .object [("participator", .object personMembers), ("since", .null)] ∧
        participation.written.names.Nodup := by
  let individual : Person :=
    ⟨some "Ada", none, none,
      [("email", .null), ("familyName", .null), ("slack", .string "#ada")]⟩
  let participation : Participation :=
    ⟨some (.person individual), [], [("since", .null)]⟩
  have personRead :
      Reader.ofValue Participator.reader (.object personMembers) = .ok (.person individual) :=
    rfl
  have ownerRead : Reader.ofValue reader (.object ownerMembers) = .ok participation :=
    rfl
  have personCanonical :
      (Value.object personMembers).canonical = .object personMembers :=
    rfl
  have ownerCanonical : (Value.object ownerMembers).canonical = .object ownerMembers :=
    rfl
  obtain ⟨ofPerson, -⟩ := reads_verbatim personCanonical
  obtain ⟨-, ofOwner⟩ := reads_verbatim ownerCanonical
  obtain ⟨personWritten, -, -⟩ := ofPerson _ personRead
  obtain ⟨ownerWritten, distinct, -⟩ := ofOwner _ ownerRead
  exact ⟨individual, participation, personRead, rfl, personWritten, ownerRead, rfl,
    ownerWritten, distinct⟩

end Participation

end ActivityCatalog
