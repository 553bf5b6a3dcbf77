import ActivityCatalog.Catalog.Basic

namespace ActivityCatalog

/-!
# Walks along links

A walk follows the links of one direction from a record and gives every activity
version that can be reached, once, with the length of the shortest chain of
links to it.

A walk is given out one record at a time.  `Traversal.next?` takes the first
record of the queue and lets the new ones among those it links to wait behind
the others; a record is new if its key was not met before.
-/

/-- A walk under way: what waits to be given out, and the keys met so far. -/
structure Traversal where
  catalog : Catalog
  direction : Direction
  limit : Option Nat
  queue : List (Nat × Activity)
  seen : List Key

namespace Traversal

/-- Whether nothing deeper than a depth is asked for. -/
def isLimit (walk : Traversal) (depth : Nat) : Bool :=
  match walk.limit with
  | some limit => limit ≤ depth
  | none => false

/-- Let a record at a depth wait behind the others, if its key is new. -/
def enqueue (depth : Nat) (walk : Traversal) (activity : Activity) : Traversal :=
  match activity.key? with
  | none => walk
  | some key =>
      if walk.seen.contains key then
        walk
      else
        { walk with queue := walk.queue ++ [(depth, activity)], seen := key :: walk.seen }

/-- Let what a record at a depth links to wait, unless it lies too deep. -/
def expand (walk : Traversal) (depth : Nat) (activity : Activity) : Traversal :=
  if walk.isLimit depth then
    walk
  else
    (walk.catalog.resolveAll (activity.linked walk.direction)).foldl
      (enqueue (depth + 1)) walk

/-- The walk that starts from a record. -/
def start (catalog : Catalog) (first : Activity) (direction : Direction)
    (limit : Option Nat) : Traversal :=
  expand ⟨catalog, direction, limit, [], first.key?.toList⟩ 0 first

/-- The next record with its depth, and the walk after it. -/
def next? (walk : Traversal) : Option ((Nat × Activity) × Traversal) :=
  match walk.queue with
  | [] => none
  | (depth, activity) :: rest =>
      some ((depth, activity), expand { walk with queue := rest } depth activity)

/-- A round of collecting: the next record is given out, or all that were given out are told. -/
def round (given : List (Nat × Activity)) (walk : Traversal) :
    List (Nat × Activity) × Traversal ⊕ List (Nat × Activity) :=
  match walk.next? with
  | none => .inr given.reverse
  | some (item, rest) => .inl (item :: given, rest)

/-- The records still to come, behind those given out already, the last first. -/
def collect (given : List (Nat × Activity)) (walk : Traversal) : List (Nat × Activity) :=
  (repeatM (m := Id) (fun (given, walk) => pure (round given walk)) (given, walk)).run

theorem collect_eq (given : List (Nat × Activity)) (walk : Traversal) :
    collect given walk =
      match walk.next? with
      | none => given.reverse
      | some (item, rest) => collect (item :: given) rest := by
  rw [collect, repeatM_eq_of_monadTail]
  cases found : walk.next? with
  | none =>
      have isRound : round given walk = .inr given.reverse := by
        rw [round, found]
      simp only [repeatM.body, isRound]
      rfl
  | some next =>
      have isRound : round given walk = .inl (next.1 :: given, next.2) := by
        rw [round, found]
      simp only [repeatM.body, isRound]
      rfl

end Traversal

/-- The records reached from a record, with their depths. -/
def Catalog.walk (catalog : Catalog) (start : Activity) (direction : Direction)
    (limit : Option Nat) : List (Nat × Activity) :=
  (Traversal.start catalog start direction limit).collect []

end ActivityCatalog
