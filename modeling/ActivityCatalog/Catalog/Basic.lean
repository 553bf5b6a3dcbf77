import ActivityCatalog.Activity.Embedded
import ActivityCatalog.Listing

namespace ActivityCatalog

/-!
# Catalogs

A catalog is the flat view of a listing: at most one record under each key, all
of them valid and in normal form.  The records at the top of the listing come
first, and two of them with one key must agree.  An embedded record only fills a
key that no top record claims, where content takes the place of a stub and is
itself never replaced.

`Catalog.build` makes the catalog of a listing or tells the first fault.  The
embedded records wait in a queue: the first of them is added and what it links to
waits behind the others.
-/

/-- A link whose target lists others, but not its source, in the other direction. -/
structure Issue where
  source : Key
  target : Key
  direction : Direction
  deriving Repr, DecidableEq

/-- A record under its key. -/
structure Entry where
  key : Key
  record : Activity
  isTop : Bool
  deriving Repr, BEq

/-- The flat view of a listing, with the number of its records. -/
structure Catalog where
  entries : List Entry
  count : Nat
  root : Option String
  issues : List Issue
  deriving Repr, BEq

/-- The text of an issue. -/
def Issue.message (issue : Issue) : String :=
  issue.source.text ++ " lists " ++ issue.target.text ++ " in " ++
    issue.direction.listName ++ " but " ++ issue.target.text ++ " does not list " ++
    issue.source.id ++ " in " ++ issue.direction.opposite.listName

namespace Catalog

/-- The catalog without records. -/
def empty : Catalog :=
  ⟨[], 0, none, []⟩

/-- The entry under a key. -/
def entry? (catalog : Catalog) (key : Key) : Option Entry :=
  catalog.entries.find? fun entry => entry.key == key

/-- The number of records. -/
def size (catalog : Catalog) : Nat :=
  catalog.count

/-- Add an entry after the others. -/
def add (catalog : Catalog) (entry : Entry) : Catalog :=
  { catalog with entries := catalog.entries ++ [entry], count := catalog.count + 1 }

/-- Put another record under the key of an entry; the number of records stays. -/
def replace (catalog : Catalog) (key : Key) (record : Activity) : Catalog :=
  { catalog with
    entries := catalog.entries.map fun entry =>
      if entry.key = key then { entry with record } else entry }

/-- The normal form of a record and its key. -/
def admitted (activity : Activity) : Except RecordFault (Key × Activity) := do
  let (normal, _) ← activity.normalized
  match normal.key? with
  | some key => pure (key, normal)
  | none => throw .missingId

/-- Add a record from the top of a listing. -/
def addTop (catalog : Catalog) (activity : Activity) : Except RecordFault Catalog := do
  let (key, normal) ← admitted activity
  match catalog.entry? key with
  | none => pure (catalog.add ⟨key, normal, true⟩)
  | some entry =>
      if entry.record.same normal then
        pure catalog
      else
        throw (.duplicateVersion key)

/-- Add an embedded record. -/
def addEmbedded (catalog : Catalog) (activity : Activity) : Except RecordFault Catalog := do
  let (key, normal) ← admitted activity
  match catalog.entry? key with
  | none => pure (catalog.add ⟨key, normal, false⟩)
  | some entry =>
      if entry.isTop || !entry.record.isStub || normal.isStub then
        pure catalog
      else
        pure (catalog.replace key normal)

/-- Add the pending records that have a key, and then what they link to. -/
def addPending (catalog : Catalog) : List Activity → Except RecordFault Catalog
  | [] =>
      pure catalog
  | activity :: pending =>
      if activity.hasKey then do
        let next ← catalog.addEmbedded activity
        next.addPending (pending ++ activity.links)
      else
        catalog.addPending pending
termination_by pending => Activity.weightAll pending
decreasing_by
  · simp only [Activity.weightAll_append, Activity.weightAll, Activity.weight_eq]
    omega
  · simp only [Activity.weightAll, Activity.weight_eq]
    omega

/-- The later of two records of one activity. -/
def later (held next : Activity) : Activity :=
  if Version.order held.versionText next.versionText = .lt then next else held

/-- The record of an id and a version, or of the latest version. -/
def get? (catalog : Catalog) (id : String) : Option String → Option Activity
  | some version =>
      (catalog.entry? ⟨id, version⟩).map Entry.record
  | none =>
      match catalog.entries.filter fun entry => entry.key.id == id with
      | [] => none
      | first :: rest =>
          some (rest.foldl (fun held entry => later held entry.record) first.record)

/-- The record that a link points at, if there is one. -/
def lookup? (catalog : Catalog) (link : Activity) : Option Activity :=
  if link.idText = "" then none else catalog.get? link.idText link.version

/-- The record that a link stands for: the one it points at or else itself. -/
def resolve? (catalog : Catalog) (link : Activity) : Option Activity :=
  if link.hasKey then some ((catalog.lookup? link).getD link) else none

/-- The records that links stand for, those without a key left out. -/
def resolveAll (catalog : Catalog) (links : List Activity) : List Activity :=
  links.filterMap catalog.resolve?

/-- The issue of a link of a record, if there is one. -/
def issueOf? (catalog : Catalog) (source : Key) (direction : Direction)
    (link : Activity) : Option Issue :=
  match catalog.lookup? link with
  | none => none
  | some target =>
      let back := direction.opposite
      if (target.linked back).isEmpty || target.lists back source.id then
        none
      else
        target.key?.map fun targetKey => ⟨source, targetKey, direction⟩

/-- The issues of an entry, those of its subs before those of its supers. -/
def issuesOf (catalog : Catalog) (entry : Entry) : List Issue :=
  entry.record.subs.filterMap (catalog.issueOf? entry.key .down) ++
    entry.record.supers.filterMap (catalog.issueOf? entry.key .up)

/-- All issues, in the order of the keys of the records that they start from. -/
def findIssues (catalog : Catalog) : List Issue :=
  (catalog.entries.mergeSort fun left right => Key.notAfter left.key right.key).flatMap
    catalog.issuesOf

/-- The catalog of a listing. -/
def build (listing : Listing) : Except RecordFault Catalog := do
  let tops ← listing.activities.foldlM addTop empty
  let all ← tops.addPending (listing.activities.flatMap Activity.links)
  pure { all with root := listing.root, issues := all.findIssues }

end Catalog

end ActivityCatalog
