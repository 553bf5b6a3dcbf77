import ActivityCatalog.Json.Reader

namespace ActivityCatalog

/-!
# Participations

A participation links a person or a group to the roles it plays.  All three
records keep the members that they do not name, a null among them included, so
that what is written is what was read.

An object is a person exactly if its given or family name is there and not null.
-/

/-- Members that a record keeps without naming them. -/
abbrev Extensions :=
  Dictionary Json.Value

/-- A natural person. -/
structure Person where
  givenName : Option String
  familyName : Option String
  email : Option String
  extensions : Extensions
  deriving Repr, BEq, Inhabited

/-- A group of people. -/
structure Group where
  display : Option String
  email : Option String
  extensions : Extensions
  deriving Repr, BEq, Inhabited

/-- Who takes part: a person or a group. -/
inductive Participator where
  | person (person : Person)
  | group (group : Group)
  deriving Repr, BEq, Inhabited

/-- A participator and the addresses of its roles. -/
structure Participation where
  participator : Option Participator
  roles : List String
  extensions : Extensions
  deriving Repr, BEq, Inhabited

namespace Json

/-- The member of a record for a field that may be absent. -/
def optionalMember {Field : Type} (name : String) (write : Field → Value) :
    Option Field → List (String × Value)
  | none =>
      []
  | some field =>
      [(name, write field)]

/-- The member of a record for a text that may be absent. -/
def textMember (name : String) (text : Option String) : List (String × Value) :=
  optionalMember name .string text

/-- The member of a record for a list, left out if it is empty. -/
def listMember (name : String) : List Value → List (String × Value)
  | [] =>
      []
  | items =>
      [(name, .array items)]

/-- The member of a record for a dictionary, left out if it is empty. -/
def dictionaryMember (name : String) : List (String × Value) → List (String × Value)
  | [] =>
      []
  | members =>
      [(name, .object members)]

end Json

namespace Person

/-- The person as a JSON object: named members, then the others by name. -/
def written (person : Person) : Json.Value :=
  .object <|
    Json.textMember "givenName" person.givenName ++
    Json.textMember "familyName" person.familyName ++
    Json.textMember "email" person.email ++
    person.extensions

/-- The named members of a person. -/
def fields : List (Json.Field Person) :=
  [ .of "givenName" (Json.Reader.optional Json.Reader.text)
      fun person givenName => { person with givenName },
    .of "familyName" (Json.Reader.optional Json.Reader.text)
      fun person familyName => { person with familyName },
    .of "email" (Json.Reader.optional Json.Reader.text)
      fun person email => { person with email } ]

/-- Keep a member that a person does not name. -/
def keep (person : Person) (name : String) (value : Json.Value) : Person :=
  { person with extensions := Dictionary.insert name value person.extensions }

/-- Read a person. -/
def reader : Json.Reader Person :=
  Json.Reader.openRecord "struct Person" fields keep ⟨none, none, none, []⟩

/-- Equality of persons, comparing numbers as numbers. -/
def same (left right : Person) : Bool :=
  left.givenName == right.givenName && left.familyName == right.familyName &&
    left.email == right.email && Json.Value.sameMembers left.extensions right.extensions

end Person

namespace Group

/-- The group as a JSON object: named members, then the others by name. -/
def written (group : Group) : Json.Value :=
  .object <|
    Json.textMember "display" group.display ++
    Json.textMember "email" group.email ++
    group.extensions

/-- The named members of a group. -/
def fields : List (Json.Field Group) :=
  [ .of "display" (Json.Reader.optional Json.Reader.text)
      fun group display => { group with display },
    .of "email" (Json.Reader.optional Json.Reader.text)
      fun group email => { group with email } ]

/-- Keep a member that a group does not name. -/
def keep (group : Group) (name : String) (value : Json.Value) : Group :=
  { group with extensions := Dictionary.insert name value group.extensions }

/-- Read a group. -/
def reader : Json.Reader Group :=
  Json.Reader.openRecord "struct Group" fields keep ⟨none, none, []⟩

/-- Equality of groups, comparing numbers as numbers. -/
def same (left right : Group) : Bool :=
  left.display == right.display && left.email == right.email &&
    Json.Value.sameMembers left.extensions right.extensions

end Group

namespace Participator

/-- The address for mail, if there is one. -/
def email : Participator → Option String
  | .person individual =>
      individual.email
  | .group team =>
      team.email

/-- The members that are kept without a name of their own. -/
def extensions : Participator → Extensions
  | .person individual =>
      individual.extensions
  | .group team =>
      team.extensions

/-- The participator as a JSON object. -/
def written : Participator → Json.Value
  | .person individual =>
      individual.written
  | .group team =>
      team.written

/-- Whether a member is there and not null. -/
def isGiven (name : String) (members : Dictionary Json.Value) : Bool :=
  match Dictionary.get? name members with
  | some value => !value.isNull
  | none => false

/-- Whether the members are those of a person. -/
def isPersonShaped (members : Dictionary Json.Value) : Bool :=
  isGiven "givenName" members || isGiven "familyName" members

/--
Read a participator.  Nulls are set aside before the named members are read,
and are kept with the members without a name of their own.
-/
def reader : Json.Reader Participator := fun room document => do
  let members ← Json.Reader.dictionary Json.Reader.value room document
  let nulls := members.filter fun member => member.2.isNull
  let given := members.filter fun member => !member.2.isNull
  let rest := Json.Document.ofValue (.object given)
  if isPersonShaped members then
    let individual ← Person.reader room rest
    pure <| .person
      { individual with extensions := Dictionary.insertAll nulls individual.extensions }
  else
    let team ← Group.reader room rest
    pure <| .group
      { team with extensions := Dictionary.insertAll nulls team.extensions }

/-- Equality of participators, comparing numbers as numbers. -/
def same : Participator → Participator → Bool
  | .person left, .person right =>
      left.same right
  | .group left, .group right =>
      left.same right
  | _, _ =>
      false

end Participator

namespace Participation

/-- The participation of a participator in roles. -/
def ofRoles (participator : Participator) (roles : List String) : Participation :=
  ⟨some participator, roles, []⟩

/-- The participation as a JSON object. -/
def written (participation : Participation) : Json.Value :=
  .object <|
    Json.optionalMember "participator" Participator.written participation.participator ++
    Json.listMember "roles" (participation.roles.map .string) ++
    participation.extensions

/-- The named members of a participation. -/
def fields : List (Json.Field Participation) :=
  [ .of "participator" (Json.Reader.optional Participator.reader)
      fun participation participator => { participation with participator },
    .of "roles" (Json.Reader.list Json.Reader.text)
      fun participation roles => { participation with roles } ]

/-- Keep a member that a participation does not name. -/
def keep (participation : Participation) (name : String) (value : Json.Value) :
    Participation :=
  { participation with extensions := Dictionary.insert name value participation.extensions }

/-- Read a participation. -/
def reader : Json.Reader Participation :=
  Json.Reader.openRecord "struct Participation" fields keep ⟨none, [], []⟩

/-- Equality of participations, comparing numbers as numbers. -/
def same (left right : Participation) : Bool :=
  (match left.participator, right.participator with
    | none, none => true
    | some left, some right => left.same right
    | _, _ => false) &&
    left.roles == right.roles &&
    Json.Value.sameMembers left.extensions right.extensions

end Participation

end ActivityCatalog
