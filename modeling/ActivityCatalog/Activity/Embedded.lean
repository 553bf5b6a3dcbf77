import ActivityCatalog.Activity.Basic

namespace ActivityCatalog.Activity

/-!
# Embedded records

A record links to others by holding them, and those hold others in turn.  It
weighs as much as there are records in it, so that each of them is lighter.
-/

/-- The records that a record links to, subs before supers. -/
def links (activity : Activity) : List Activity :=
  activity.subs ++ activity.supers

/-- Whether the record can be addressed. -/
def hasKey (activity : Activity) : Bool :=
  activity.key?.isSome

mutual

/-- The number of records in a record, counting itself. -/
def weight : Activity → Nat
  | ⟨_, _, _, _, _, _, subs, supers, _, _⟩ =>
      weightAll subs + weightAll supers + 1

/-- The number of records in a list of records. -/
def weightAll : List Activity → Nat
  | [] =>
      0
  | activity :: rest =>
      activity.weight + weightAll rest

end

/-- The records in two lists are those in the one and those in the other. -/
theorem weightAll_append (first second : List Activity) :
    weightAll (first ++ second) = weightAll first + weightAll second := by
  induction first with
  | nil =>
      simp [weightAll]
  | cons activity rest inductionHypothesis =>
      simp only [List.cons_append, weightAll, inductionHypothesis]
      omega

/-- A record is one more than what it links to. -/
theorem weight_eq (activity : Activity) :
    activity.weight = weightAll activity.links + 1 := by
  cases activity
  simp [weight, links, weightAll_append]

end ActivityCatalog.Activity
