import ActivityCatalog.Json.Merge
import ActivityCatalog.Proofs.Json.Values
import Mathlib.Data.List.Infix

namespace ActivityCatalog.Json.Value

/-!
# What a layer makes of a value, path by path

A path of names leads from an object to its member, and from there on; it leads nowhere where a
member is missing or null.  A layer decides what stands at each path that leads somewhere in it,
and hides what is below a value of it that is no object; everywhere else the value below it
stays.  Laid over the value a second time it changes nothing.
-/

/-- The value that a path of names leads to; none is at a null. -/
def reached? (path : List String) (value : Value) : Option Value :=
  match path with
  | [] => if value.isNull then none else some value
  | name :: rest => (value.member? name).bind fun member => reached? rest member

/-- Whether a value is an object. -/
def isObject : Value → Bool
  | .object _ => true
  | _ => false

/-- A path ends early, at a value that is no object. -/
def Blocked (path : List String) (value : Value) : Prop :=
  ∃ shorter, shorter <+: path ∧ shorter ≠ path ∧
    ∃ held, reached? shorter value = some held ∧ held.isObject = false

section Paths

variable
  {name : String}
  {path rest : List String}
  {value : Value}

theorem exists_object_of_isObject (isObject : value.isObject = true) :
    ∃ members, value = .object members := by
  cases value with
  | object members => exact ⟨members, rfl⟩
  | null | bool | number | string | array => cases isObject

theorem reached?_nil (given : value.isNull = false) : reached? [] value = some value := by
  rw [reached?, given]
  rfl

theorem reached?_of_isNull (isNull : value.isNull = true) : reached? path value = none := by
  cases value with
  | null => cases path <;> rfl
  | bool | number | string | array | object => cases isNull

/-- No longer path leads into a value that is no object. -/
theorem reached?_cons_of_not_object (notObject : value.isObject = false) :
    reached? (name :: rest) value = none := by
  cases value with
  | object members => cases notObject
  | null | bool | number | string | array => rfl

theorem blocked_cons :
    value.Blocked (name :: rest) ↔
      (value.isNull = false ∧ value.isObject = false) ∨
        ∃ member, value.member? name = some member ∧ member.Blocked rest := by
  constructor
  · rintro ⟨shorter, isPrefix, notWhole, held, isReached, notObject⟩
    cases shorter with
    | nil =>
        rw [reached?] at isReached
        split at isReached
        · cases isReached
        · rename_i given
          cases isReached
          exact Or.inl ⟨Bool.eq_false_of_not_eq_true given, notObject⟩
    | cons first shorter =>
        obtain ⟨rfl, restPrefix⟩ := List.cons_prefix_cons.mp isPrefix
        obtain ⟨member, isMember, isReached⟩ := Option.bind_eq_some_iff.mp isReached
        have notRest : shorter ≠ rest := fun same => notWhole (congrArg _ same)
        exact Or.inr ⟨member, isMember, shorter, restPrefix, notRest, held, isReached, notObject⟩
  · rintro (⟨given, notObject⟩ | ⟨member, isMember, shorter, isPrefix, notWhole, held, isReached,
      notObject⟩)
    · exact ⟨[], List.nil_prefix, List.cons_ne_nil name rest |>.symm, value, reached?_nil given,
        notObject⟩
    · refine ⟨name :: shorter, List.cons_prefix_cons.mpr ⟨rfl, isPrefix⟩,
        fun same => notWhole (List.cons.inj same).2, held, ?_, notObject⟩
      rw [reached?, isMember]
      exact isReached

theorem not_blocked_of_isNull (isNull : value.isNull = true) : ¬ value.Blocked path := by
  rintro ⟨shorter, -, -, held, isReached, -⟩
  rw [reached?_of_isNull isNull] at isReached
  cases isReached

theorem not_blocked_nil : ¬ value.Blocked [] := by
  rintro ⟨shorter, isPrefix, notWhole, -⟩
  exact notWhole (List.prefix_nil.mp isPrefix)

/-- A path that ends early leads nowhere. -/
theorem Blocked.reached?_eq_none (blocked : value.Blocked path) : reached? path value = none := by
  induction path generalizing value with
  | nil =>
      exact absurd blocked not_blocked_nil
  | cons name rest inductionHypothesis =>
      rcases blocked_cons.mp blocked with ⟨-, notObject⟩ | ⟨member, isMember, restBlocked⟩
      · exact reached?_cons_of_not_object notObject
      · rw [reached?, isMember]
        exact inductionHypothesis restBlocked

end Paths

section Members

variable
  {name : String}
  {value : Value}
  {held layer : Dictionary Value}

/-- A value that is no object takes the place of what is below it. -/
theorem overlay_of_not_object (notObject : value.isObject = false) (below : Value) :
    below.overlay value = value := by
  cases value with
  | object members => cases notObject
  | null | bool | number | string | array => rfl

/-- An object takes the place of what is no object. -/
theorem overlay_of_not_object_below {below : Value} (notObject : below.isObject = false) :
    below.overlay value = value := by
  cases value with
  | object members =>
      cases below with
      | object members => cases notObject
      | null | bool | number | string | array => rfl
  | null | bool | number | string | array => rfl

theorem overlay_object (held layer : Dictionary Value) :
    (object held).overlay (.object layer) = .object (overlayMembers held layer) :=
  rfl

/-- What a member of a layer makes of the member below it, which is null if there is none. -/
def laidOver (below : Option Value) (value : Value) : Value :=
  (below.getD .null).overlay value

@[simp] theorem laidOver_none : laidOver none value = value :=
  overlay_of_not_object_below rfl

theorem overlayMembers_cons_of_isNull
    (isNull : value.isNull = true)
    (held : Dictionary Value)
    (rest : List (String × Value)) :
    overlayMembers held ((name, value) :: rest) = overlayMembers held rest := by
  rw [overlayMembers, isNull]
  rfl

theorem overlayMembers_cons
    (given : value.isNull = false)
    (held : Dictionary Value)
    (rest : List (String × Value)) :
    overlayMembers held ((name, value) :: rest) =
      overlayMembers (Dictionary.insert name (laidOver (Dictionary.get? name held) value) held)
        rest := by
  rw [overlayMembers, given]
  cases Dictionary.get? name held with
  | none =>
      rw [laidOver_none]
      rfl
  | some below =>
      rfl

theorem sorted_overlayMembers
    (sorted : Dictionary.Sorted held)
    (layer : List (String × Value)) :
    Dictionary.Sorted (overlayMembers held layer) := by
  induction layer generalizing held with
  | nil =>
      exact sorted
  | cons member rest inductionHypothesis =>
      obtain ⟨name, value⟩ := member
      cases isNull : value.isNull with
      | true =>
          rw [overlayMembers_cons_of_isNull isNull]
          exact inductionHypothesis sorted
      | false =>
          rw [overlayMembers_cons isNull]
          exact inductionHypothesis (Dictionary.sorted_insert sorted name _)

/-- A member that the layer does not name stays. -/
theorem get?_overlayMembers_of_not_mem
    (absent : name ∉ Dictionary.keys layer) :
    Dictionary.get? name (overlayMembers held layer) = Dictionary.get? name held := by
  induction layer generalizing held with
  | nil =>
      rfl
  | cons member rest inductionHypothesis =>
      obtain ⟨first, value⟩ := member
      obtain ⟨notFirst, notInRest⟩ := not_or.mp (mt List.mem_cons.mpr absent)
      cases isNull : value.isNull with
      | true =>
          rw [overlayMembers_cons_of_isNull isNull, inductionHypothesis notInRest]
      | false =>
          rw [overlayMembers_cons isNull, inductionHypothesis notInRest,
            Dictionary.get?_insert_of_ne notFirst]

/-- A member of the layer stands over the one below it, unless it is null. -/
theorem get?_overlayMembers_of_mem
    (different : (Dictionary.keys layer).Nodup)
    (isMember : (name, value) ∈ layer) :
    Dictionary.get? name (overlayMembers held layer) =
      if value.isNull then
        Dictionary.get? name held
      else
        some (laidOver (Dictionary.get? name held) value) := by
  induction layer generalizing held with
  | nil =>
      cases isMember
  | cons member rest inductionHypothesis =>
      obtain ⟨first, firstValue⟩ := member
      obtain ⟨notInRest, restDifferent⟩ := List.nodup_cons.mp different
      rcases List.mem_cons.mp isMember with isFirst | inRest
      · cases isFirst
        cases isNull : value.isNull with
        | true =>
            rw [overlayMembers_cons_of_isNull isNull, get?_overlayMembers_of_not_mem notInRest]
            rfl
        | false =>
            rw [overlayMembers_cons isNull, get?_overlayMembers_of_not_mem notInRest,
              Dictionary.get?_insert_self]
            rfl
      · have notFirst : name ≠ first := by
          rintro rfl
          exact notInRest (List.mem_map.mpr ⟨_, inRest, rfl⟩)
        cases isNull : firstValue.isNull with
        | true =>
            rw [overlayMembers_cons_of_isNull isNull, inductionHypothesis restDifferent inRest]
        | false =>
            rw [overlayMembers_cons isNull, inductionHypothesis restDifferent inRest,
              Dictionary.get?_insert_of_ne notFirst]

/-- A member that the layer lacks, or has as a null, stays. -/
theorem get?_overlayMembers_of_lacking
    (sorted : Dictionary.Sorted layer)
    (lacks : ∀ value, Dictionary.get? name layer = some value → value.isNull = true) :
    Dictionary.get? name (overlayMembers held layer) = Dictionary.get? name held := by
  by_cases isName : name ∈ Dictionary.keys layer
  · obtain ⟨⟨_, value⟩, isMember, rfl⟩ := List.mem_map.mp isName
    rw [get?_overlayMembers_of_mem sorted.keys_nodup isMember,
      lacks value (sorted.get?_eq_some.mpr isMember), if_pos rfl]
  · exact get?_overlayMembers_of_not_mem isName

/-- A member that the layer has stands over the one below it. -/
theorem get?_overlayMembers_of_given
    (sorted : Dictionary.Sorted layer)
    (found : Dictionary.get? name layer = some value)
    (given : value.isNull = false) :
    Dictionary.get? name (overlayMembers held layer) =
      some (laidOver (Dictionary.get? name held) value) := by
  rw [get?_overlayMembers_of_mem sorted.keys_nodup (sorted.get?_eq_some.mp found), given]
  rfl

/--
The members that a layer without nulls makes of those below it: its own, each over the one below
it, and those that it does not name.
-/
theorem mem_overlayMembers
    (heldSorted : Dictionary.Sorted held)
    (sorted : Dictionary.Sorted layer)
    (given : ∀ member ∈ layer, member.2.isNull = false) :
    (name, value) ∈ overlayMembers held layer ↔
      (∃ own, (name, own) ∈ layer ∧ laidOver (Dictionary.get? name held) own = value) ∨
        (name ∉ Dictionary.keys layer ∧ (name, value) ∈ held) := by
  rw [← (sorted_overlayMembers heldSorted layer).get?_eq_some]
  by_cases isName : name ∈ Dictionary.keys layer
  · obtain ⟨⟨_, own⟩, isMember, rfl⟩ := List.mem_map.mp isName
    have found := sorted.get?_eq_some.mpr isMember
    rw [get?_overlayMembers_of_given sorted found (given _ isMember), Option.some_inj]
    constructor
    · exact fun isOver => Or.inl ⟨own, isMember, isOver⟩
    · rintro (⟨other, isOther, isOver⟩ | ⟨notName, -⟩)
      · obtain rfl : own = other :=
          Option.some.inj (found.symm.trans (sorted.get?_eq_some.mpr isOther))
        exact isOver
      · exact absurd isName notName
  · rw [get?_overlayMembers_of_not_mem isName, heldSorted.get?_eq_some]
    constructor
    · exact fun isHeld => Or.inr ⟨isName, isHeld⟩
    · rintro (⟨own, isMember, -⟩ | ⟨-, isHeld⟩)
      · exact absurd (List.mem_map_of_mem isMember) isName
      · exact isHeld

/-- The members that a layer names stand as the layer has them, each over the one below it. -/
theorem filter_overlayMembers
    (heldSorted : Dictionary.Sorted held)
    (sorted : Dictionary.Sorted layer)
    (given : ∀ member ∈ layer, member.2.isNull = false) :
    (overlayMembers held layer).filter (fun member => member.1 ∈ Dictionary.keys layer) =
      layer.map fun member => (member.1, laidOver (Dictionary.get? member.1 held) member.2) := by
  have coverSorted : Dictionary.Sorted
      (layer.map fun member => (member.1, laidOver (Dictionary.get? member.1 held) member.2)) :=
    List.pairwise_map.mpr sorted
  refine ((sorted_overlayMembers heldSorted layer).filter _).eq_of_mem_iff coverSorted ?_
  rintro ⟨name, value⟩
  rw [List.mem_filter, mem_overlayMembers heldSorted sorted given, List.mem_map]
  constructor
  · rintro ⟨⟨own, isMember, rfl⟩ | ⟨notName, -⟩, isName⟩
    · exact ⟨(name, own), isMember, rfl⟩
    · exact absurd (of_decide_eq_true isName) notName
  · rintro ⟨⟨_, own⟩, isMember, isCover⟩
    cases isCover
    exact ⟨Or.inl ⟨own, isMember, rfl⟩, decide_eq_true (List.mem_map.mpr ⟨_, isMember, rfl⟩)⟩

/-- A layer changes nothing if each of its members changes nothing of the one below it. -/
theorem overlayMembers_eq_self
    (sorted : Dictionary.Sorted held)
    (unchanged : ∀ member ∈ layer, member.2.isNull = false →
      ∃ below, Dictionary.get? member.1 held = some below ∧ below.overlay member.2 = below) :
    overlayMembers held layer = held := by
  induction layer with
  | nil =>
      rfl
  | cons member rest inductionHypothesis =>
      obtain ⟨name, value⟩ := member
      obtain ⟨firstUnchanged, restUnchanged⟩ := List.forall_mem_cons.mp unchanged
      cases isNull : value.isNull with
      | true =>
          rw [overlayMembers_cons_of_isNull isNull, inductionHypothesis restUnchanged]
      | false =>
          obtain ⟨below, found, same⟩ := firstUnchanged isNull
          have sameMember : laidOver (some below) value = below := same
          rw [overlayMembers_cons isNull, found, sameMember, sorted.insert_eq_self found,
            inductionHypothesis restUnchanged]

end Members

/--
What stands at a path after a layer was laid over a value: what the layer has there, if it is no
object; an object, where the layer has one; else what was below, unless the path ends early in
the layer.
-/
structure LaidAt (path : List String) (below layer laid : Value) : Prop where
  replaced : ∀ value, reached? path layer = some value → value.isObject = false →
    reached? path laid = some value
  joined : ∀ value, reached? path layer = some value → value.isObject = true →
    ∃ held, reached? path laid = some held ∧ held.isObject = true
  kept : reached? path layer = none → ¬ layer.Blocked path →
    reached? path laid = reached? path below
  hidden : layer.Blocked path → reached? path laid = none

section LaidAt

variable
  {name : String}
  {path rest : List String}
  {below layer laid value : Value}
  {held members merged : Dictionary Value}

theorem LaidAt.of_replaced
    (nothingBelow : reached? path layer = none → ¬ layer.Blocked path →
      reached? path below = none) :
    LaidAt path below layer layer where
  replaced := fun _ isReached _ => isReached
  joined := fun value isReached isObject => ⟨value, isReached, isObject⟩
  kept := fun notReached notBlocked => notReached.trans (nothingBelow notReached notBlocked).symm
  hidden := Blocked.reached?_eq_none

/-- A path through a member that the layer lacks leads on as it did below. -/
theorem LaidAt.of_lacking
    (lacks : ∀ value, Dictionary.get? name members = some value → value.isNull = true)
    (stays : Dictionary.get? name merged = Dictionary.get? name held) :
    LaidAt (name :: rest) (.object held) (.object members) (.object merged) := by
  have notReached : reached? (name :: rest) (.object members) = none :=
    Option.bind_eq_none_iff.mpr fun value isMember => reached?_of_isNull (lacks value isMember)
  have notBlocked : ¬ (object members).Blocked (name :: rest) := by
    intro blocked
    rcases blocked_cons.mp blocked with ⟨-, notObject⟩ | ⟨value, isMember, restBlocked⟩
    · cases notObject
    · exact not_blocked_of_isNull (lacks value isMember) restBlocked
  refine ⟨?_, ?_, fun _ _ => ?_, fun blocked => absurd blocked notBlocked⟩
  · intro value isReached
    rw [notReached] at isReached
    cases isReached
  · intro value isReached
    rw [notReached] at isReached
    cases isReached
  · rw [reached?, reached?, member?, member?, stays]

/-- A path through a member of the layer leads on as it does from there. -/
theorem LaidAt.of_member
    (isMember : Dictionary.get? name members = some layer)
    (isMerged : Dictionary.get? name merged = some laid)
    (laidAt : LaidAt rest ((Dictionary.get? name held).getD .null) layer laid) :
    LaidAt (name :: rest) (.object held) (.object members) (.object merged) := by
  have inLayer : reached? (name :: rest) (.object members) = reached? rest layer := by
    rw [reached?, member?, isMember, Option.bind_some]
  have inMerged : reached? (name :: rest) (.object merged) = reached? rest laid := by
    rw [reached?, member?, isMerged, Option.bind_some]
  have inHeld : reached? (name :: rest) (.object held) =
      reached? rest ((Dictionary.get? name held).getD .null) := by
    rw [reached?, member?]
    cases Dictionary.get? name held with
    | none => exact (reached?_of_isNull rfl).symm
    | some value => rfl
  have blockedAlike : (object members).Blocked (name :: rest) ↔ layer.Blocked rest := by
    rw [blocked_cons, member?, isMember]
    simp [isObject]
  refine ⟨?_, ?_, ?_, ?_⟩
  · rw [inLayer, inMerged]
    exact laidAt.replaced
  · rw [inLayer, inMerged]
    exact laidAt.joined
  · rw [inLayer, inMerged, inHeld, blockedAlike]
    exact laidAt.kept
  · rw [inMerged, blockedAlike]
    exact laidAt.hidden

/-- A canonical layer that is not null is laid over a value path by path. -/
theorem laidAt_overlay
    (given : layer.isNull = false)
    (canonical : layer.canonical = layer)
    (path : List String)
    (below : Value) :
    LaidAt path below layer (below.overlay layer) := by
  induction path generalizing below layer with
  | nil =>
      refine ⟨?_, ?_, ?_, fun blocked => absurd blocked not_blocked_nil⟩
      all_goals rw [reached?_nil given]
      · rintro value ⟨⟩ notObject
        rw [overlay_of_not_object notObject, reached?_nil given]
      · rintro value ⟨⟩ isObject
        obtain ⟨members, rfl⟩ := exists_object_of_isObject isObject
        cases below <;> exact ⟨_, rfl, rfl⟩
      · intro notReached
        cases notReached
  | cons name rest inductionHypothesis =>
      cases layerObject : layer.isObject with
      | false =>
          rw [overlay_of_not_object layerObject]
          exact .of_replaced fun _ notBlocked =>
            absurd (blocked_cons.mpr (Or.inl ⟨given, layerObject⟩)) notBlocked
      | true =>
          cases belowObject : below.isObject with
          | false =>
              rw [overlay_of_not_object_below belowObject]
              exact .of_replaced fun _ _ => reached?_cons_of_not_object belowObject
          | true =>
              obtain ⟨members, rfl⟩ := exists_object_of_isObject layerObject
              obtain ⟨held, rfl⟩ := exists_object_of_isObject belowObject
              obtain ⟨sorted, membersCanonical⟩ := canonical_object_eq_self.mp canonical
              rw [overlay_object]
              by_cases lacks : ∀ value, Dictionary.get? name members = some value →
                  value.isNull = true
              · exact .of_lacking lacks (get?_overlayMembers_of_lacking sorted lacks)
              · push Not at lacks
                obtain ⟨value, found, given⟩ := lacks
                have valueGiven := Bool.eq_false_of_not_eq_true given
                have valueCanonical :=
                  membersCanonical _ (sorted.get?_eq_some.mp found)
                exact .of_member found
                  (get?_overlayMembers_of_given sorted found valueGiven)
                  (inductionHypothesis valueGiven valueCanonical _)

end LaidAt

section Again

variable
  {room : Nat}
  {below layer value : Value}

/-- A value laid over itself is itself. -/
theorem overlay_self
    (canonical : value.canonical = value)
    (fits : value.depth ≤ room) :
    value.overlay value = value := by
  induction room using Nat.strong_induction_on generalizing value with
  | _ room inductionHypothesis =>
      cases value with
      | object members =>
          obtain ⟨inner, rfl, membersFit⟩ := depth_object_le.mp fits
          obtain ⟨sorted, membersCanonical⟩ := canonical_object_eq_self.mp canonical
          rw [overlay_object, overlayMembers_eq_self sorted]
          intro member isMember _
          exact ⟨member.2, sorted.get?_eq_some.mpr isMember,
            inductionHypothesis inner (Nat.lt_succ_self inner)
              (membersCanonical member isMember) (membersFit member isMember)⟩
      | null | bool | number | string | array =>
          rfl

/-- A layer that is laid over a value again changes nothing. -/
theorem overlay_overlay
    (belowCanonical : below.canonical = below)
    (layerCanonical : layer.canonical = layer)
    (fits : layer.depth ≤ room) :
    (below.overlay layer).overlay layer = below.overlay layer := by
  induction room using Nat.strong_induction_on generalizing below layer with
  | _ room inductionHypothesis =>
      cases layerObject : layer.isObject with
      | false =>
          rw [overlay_of_not_object layerObject, overlay_of_not_object layerObject]
      | true =>
          cases belowObject : below.isObject with
          | false =>
              rw [overlay_of_not_object_below belowObject, overlay_self layerCanonical fits]
          | true =>
              obtain ⟨members, rfl⟩ := exists_object_of_isObject layerObject
              obtain ⟨held, rfl⟩ := exists_object_of_isObject belowObject
              obtain ⟨inner, rfl, membersFit⟩ := depth_object_le.mp fits
              obtain ⟨sorted, membersCanonical⟩ := canonical_object_eq_self.mp layerCanonical
              obtain ⟨heldSorted, heldCanonical⟩ := canonical_object_eq_self.mp belowCanonical
              rw [overlay_object, overlay_object,
                overlayMembers_eq_self (sorted_overlayMembers heldSorted members)]
              intro member isMember given
              refine ⟨_, get?_overlayMembers_of_given sorted
                (sorted.get?_eq_some.mpr isMember) given, ?_⟩
              refine inductionHypothesis inner (Nat.lt_succ_self inner) ?_
                (membersCanonical member isMember) (membersFit member isMember)
              cases found : Dictionary.get? member.1 held with
              | none => rfl
              | some value => exact heldCanonical _ (heldSorted.get?_eq_some.mp found)

end Again

/--
A layer that is not null decides what stands at each path of the value that it makes of the one
below it, and makes nothing else of that value when it is laid over it again.
-/
theorem overlay_by_path
    {below layer : Value}
    (belowCanonical : below.canonical = below)
    (layerCanonical : layer.canonical = layer) :
    (layer.isNull = false → ∀ path, LaidAt path below layer (below.overlay layer)) ∧
      (below.overlay layer).overlay layer = below.overlay layer :=
  ⟨fun given path => laidAt_overlay given layerCanonical path below,
    overlay_overlay belowCanonical layerCanonical (Nat.le_refl _)⟩

/-- A server with a host and a port, and ports that it had before. -/
def serverBelow : Value :=
  .object
    [ ("former", .array [.ofNat 80, .ofNat 81]),
      ("server", .object [("host", .string "localhost"), ("port", .ofNat 8080)]) ]

/-- Another port, no host, and a list of ports with another length. -/
def serverLayer : Value :=
  .object
    [ ("former", .array [.ofNat 82]),
      ("server", .object [("host", .null), ("port", .ofNat 9090), ("zone", .object [])]) ]

/-- The host stays, the port and the list are replaced, and nothing is left of the list before. -/
theorem overlay_by_path_server :
    serverBelow.canonical = serverBelow ∧
      serverLayer.canonical = serverLayer ∧
      serverLayer.isNull = false ∧
      reached? ["server", "host"] (serverBelow.overlay serverLayer) = some (.string "localhost") ∧
      reached? ["server", "port"] (serverBelow.overlay serverLayer) = some (.ofNat 9090) ∧
      reached? ["former", "0"] (serverBelow.overlay serverLayer) = none ∧
      (serverBelow.overlay serverLayer).overlay serverLayer =
        serverBelow.overlay serverLayer := by
  have belowCanonical : serverBelow.canonical = serverBelow := rfl
  have layerCanonical : serverLayer.canonical = serverLayer := rfl
  have given : serverLayer.isNull = false := rfl
  obtain ⟨byPath, again⟩ := overlay_by_path belowCanonical layerCanonical
  have hostOpen : ¬ serverLayer.Blocked ["server", "host"] := by
    simp [serverLayer, blocked_cons, isObject, member?, Dictionary.get?, not_blocked_nil]
  have listBlocks : serverLayer.Blocked ["former", "0"] := by
    simp [serverLayer, blocked_cons, isObject, isNull, member?, Dictionary.get?]
  exact ⟨belowCanonical, layerCanonical, given, (byPath given _).kept rfl hostOpen,
    (byPath given _).replaced _ rfl rfl, (byPath given _).hidden listBlocks, again⟩

end ActivityCatalog.Json.Value
