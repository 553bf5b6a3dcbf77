import ActivityCatalog.Catalog.Basic

namespace ActivityCatalog

/-!
# Navigation trees

The navigation tree of a record shows its subs, theirs and so on.  Each activity
version is expanded at most once.  A node whose record has subs but which is not
expanded carries the mark that says why: the record is already on the path from
the root, it was expanded earlier in the tree, or the depth limit is reached.

A tree grows depth first and without recursion: the frames of the records on the
path stand on a stack above the frame of the root, each with the subs that are
still to be visited and the children that are done.
-/

/-- A node of a navigation tree. -/
structure NavNode where
  id : String
  version : Option String
  label : String
  children : List NavNode
  truncated : Bool
  cycle : Bool
  repeated : Bool
  deriving Repr, BEq, Inhabited

namespace NavNode

/-- The node of a record without children or marks. -/
def leaf (activity : Activity) (locale : String) : NavNode where
  id := activity.idText
  version := activity.version
  label := (activity.label.display? locale).getD activity.idText
  children := []
  truncated := false
  cycle := false
  repeated := false

mutual

/-- The number of nodes of a tree. -/
def count : NavNode → Nat
  | ⟨_, _, _, children, _, _, _⟩ =>
      countAll children + 1

/-- The number of nodes of a list of trees. -/
def countAll : List NavNode → Nat
  | [] =>
      0
  | node :: rest =>
      node.count + countAll rest

end

/-- The member of a mark, left out if it is not set. -/
def markMember (name : String) (isSet : Bool) : List (String × Json.Value) :=
  if isSet then [(name, .bool true)] else []

mutual

/-- The tree as a JSON object. -/
def written : NavNode → Json.Value
  | ⟨id, version, label, children, truncated, cycle, repeated⟩ =>
      .object <|
        [("id", .string id)] ++
        Json.textMember "version" version ++
        [("label", .string label)] ++
        Json.listMember "children" (writtenAll children) ++
        markMember "truncated" truncated ++
        markMember "cycle" cycle ++
        markMember "repeated" repeated

/-- The JSON object of each tree. -/
def writtenAll : List NavNode → List Json.Value
  | [] =>
      []
  | node :: rest =>
      node.written :: writtenAll rest

end

end NavNode

/-- A node whose children are still being added. -/
structure Frame where
  node : NavNode
  key : Key
  waiting : List Activity

/-- What a visit of a record gives. -/
inductive Visit where
  | leaf (node : NavNode)
  | expand (frame : Frame)

/-- A tree under way: the frame of its root, those on the path above it, the
innermost first, and the keys expanded so far. -/
structure Growth where
  root : Frame
  stack : List Frame
  expanded : List Key

/-- Add a child after the others. -/
def Frame.addChild (frame : Frame) (child : NavNode) : Frame :=
  { frame with node := { frame.node with children := frame.node.children ++ [child] } }

namespace Catalog

/--
Visit a record at a depth: it becomes a leaf, with the mark that says why, or it
is expanded and its key noted.
-/
def visit (catalog : Catalog) (locale : String) (limit : Nat) (activity : Activity)
    (depth : Nat) (onPath : Key → Bool) (expanded : List Key) : Visit × List Key :=
  let node := NavNode.leaf activity locale
  match activity.key? with
  | none => (.leaf node, expanded)
  | some key =>
      if onPath key then
        (.leaf { node with cycle := true }, expanded)
      else
        let subs := catalog.resolveAll activity.subs
        if subs.isEmpty then
          (.leaf node, expanded)
        else if expanded.contains key then
          (.leaf { node with repeated := true }, expanded)
        else if limit ≤ depth then
          (.leaf { node with truncated := true }, expanded)
        else
          (.expand ⟨node, key, subs⟩, key :: expanded)

end Catalog

namespace Growth

/-- The innermost frame. -/
def top (growth : Growth) : Frame :=
  growth.stack.head?.getD growth.root

/-- Change the innermost frame. -/
def mapTop (change : Frame → Frame) (growth : Growth) : Growth :=
  match growth.stack with
  | [] => { growth with root := change growth.root }
  | frame :: below => { growth with stack := change frame :: below }

/-- Whether a key is that of a record on the path. -/
def onPath (growth : Growth) (key : Key) : Bool :=
  growth.root.key == key || growth.stack.any fun frame => frame.key == key

/-- Add a child to the innermost frame. -/
def attach (growth : Growth) (child : NavNode) : Growth :=
  growth.mapTop fun frame => frame.addChild child

/-- Visit the next sub of the innermost frame, whose later ones go on waiting. -/
def advance (catalog : Catalog) (locale : String) (limit : Nat) (growth : Growth)
    (activity : Activity) (rest : List Activity) : Growth :=
  let moved := growth.mapTop fun frame => { frame with waiting := rest }
  match catalog.visit locale limit activity (growth.stack.length + 1) growth.onPath
      growth.expanded with
  | (.leaf node, expanded) => { moved with expanded }.attach node
  | (.expand frame, expanded) => { moved with stack := frame :: moved.stack, expanded }

/--
One step: visit the next sub of the innermost frame or, if there is none, close
the frame, which becomes a child of the one below.  The root is closed last.
-/
def step (catalog : Catalog) (locale : String) (limit : Nat) (growth : Growth) :
    NavNode ⊕ Growth :=
  match growth.top.waiting, growth.stack with
  | activity :: rest, _ => .inr (growth.advance catalog locale limit activity rest)
  | [], frame :: below => .inr ({ growth with stack := below }.attach frame.node)
  | [], [] => .inl growth.root.node

/-- The tree that the steps end with. -/
def run (catalog : Catalog) (locale : String) (limit : Nat) (growth : Growth) : NavNode :=
  (repeatM (m := Id) (fun growth => pure (growth.step catalog locale limit).swap) growth).run

theorem run_eq (catalog : Catalog) (locale : String) (limit : Nat) (growth : Growth) :
    growth.run catalog locale limit =
      match growth.step catalog locale limit with
      | .inl tree => tree
      | .inr next => next.run catalog locale limit := by
  rw [run, repeatM_eq_of_monadTail, repeatM.body]
  cases growth.step catalog locale limit with
  | inl tree => rfl
  | inr next => rfl

end Growth

/-- The navigation tree of a record, so many levels deep. -/
def Catalog.navTree (catalog : Catalog) (root : Activity) (locale : String) (limit : Nat) :
    NavNode :=
  match catalog.visit locale limit root 0 (fun _ => false) [] with
  | (.leaf node, _) => node
  | (.expand frame, expanded) => Growth.run catalog locale limit ⟨frame, [], expanded⟩

end ActivityCatalog
