namespace ActivityCatalog

/-!
# The order of versions and of keys

Versions are ordered so that the greatest is the latest: the empty version comes
first, then the all-digit versions by value, then all others by their bytes.
All-digit versions of one value with different leading zeros go by their bytes,
so that only equal texts are ties.

An activity version is addressed by its id and version; keys go by id, then by
version.
-/

namespace Version

/-- The three classes of versions. -/
inductive Kind where
  | blank
  | digits
  | other
  deriving Repr, DecidableEq

/-- The place of a class among the three. -/
def Kind.rank : Kind → Nat
  | .blank => 0
  | .digits => 1
  | .other => 2

/-- The class of a version. -/
def kind (version : String) : Kind :=
  if version = "" then
    .blank
  else if version.toList.all Char.isDigit then
    .digits
  else
    .other

/-- The digits of a version without leading zeros. -/
def significant (version : String) : List Char :=
  version.toList.dropWhile (· == '0')

/-- The order by value of digit lists without leading zeros. -/
def digitOrder (left right : List Char) : Ordering :=
  (compare left.length right.length).then (compare left right)

/-- The order of versions. -/
def order (left right : String) : Ordering :=
  match kind left, kind right with
  | .digits, .digits =>
      (digitOrder (significant left) (significant right)).then (compare left right)
  | leftKind, rightKind =>
      (compare leftKind.rank rightKind.rank).then (compare left right)

/-- Whether a version is no later than another. -/
def notLater (left right : String) : Bool :=
  order left right != .gt

/-- The latest of a list of versions. -/
def latest? : List String → Option String
  | [] =>
      none
  | first :: rest =>
      some (rest.foldl (fun held next => if order held next = .lt then next else held) first)

end Version

/-- The address of an activity version; an absent version is the empty one. -/
structure Key where
  id : String
  version : String
  deriving Repr, DecidableEq

namespace Key

/-- The order of keys. -/
def order (left right : Key) : Ordering :=
  (compare left.id right.id).then (Version.order left.version right.version)

/-- Whether a key comes no later than another. -/
def notAfter (left right : Key) : Bool :=
  order left right != .gt

/-- The text of a key. -/
def text (key : Key) : String :=
  key.id ++ "|" ++ key.version

end Key

end ActivityCatalog
