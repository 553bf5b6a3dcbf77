import ActivityCatalog.Navigation

namespace ActivityCatalog

/-!
# The positions of a navigation tree

`NavNode.positions` lists the nodes of a tree in preorder, each with the keys of its
proper ancestors.  The length of that path is the depth of the node.
`expandedKeys` are the keys of the nodes with children among some positions, the last
first, as a tree that grows notes them.
-/

namespace NavNode

/-- The key of the record that a node shows. -/
def key (node : NavNode) : Key :=
  ⟨node.id, node.version.getD ""⟩

/-- The node without its children and marks. -/
def bare (node : NavNode) : NavNode :=
  { node with children := [], truncated := false, cycle := false, repeated := false }

/-- The three marks of a node. -/
def marks (node : NavNode) : List Bool :=
  [node.cycle, node.repeated, node.truncated]

end NavNode

/-- A node of a tree with the keys of its proper ancestors, the innermost first. -/
structure Position where
  path : List Key
  node : NavNode

namespace NavNode

mutual

/-- The positions of a tree in preorder, below a path. -/
def positions (path : List Key) : NavNode → List Position
  | ⟨id, version, label, children, truncated, cycle, repeated⟩ =>
      ⟨path, ⟨id, version, label, children, truncated, cycle, repeated⟩⟩ ::
        positionsAll (⟨id, version.getD ""⟩ :: path) children

/-- The positions of trees one after another. -/
def positionsAll (path : List Key) : List NavNode → List Position
  | [] =>
      []
  | node :: rest =>
      node.positions path ++ positionsAll path rest

end

theorem positions_eq (node : NavNode) (path : List Key) :
    node.positions path = ⟨path, node⟩ :: positionsAll (node.key :: path) node.children := by
  cases node
  rw [positions, key]

theorem positionsAll_singleton (path : List Key) (node : NavNode) :
    positionsAll path [node] = node.positions path := by
  rw [positionsAll, positionsAll, List.append_nil]

theorem positionsAll_append (path : List Key) (nodes more : List NavNode) :
    positionsAll path (nodes ++ more) = positionsAll path nodes ++ positionsAll path more := by
  induction nodes with
  | nil =>
      rfl
  | cons node rest inductionHypothesis =>
      rw [List.cons_append, positionsAll, positionsAll, inductionHypothesis, List.append_assoc]

mutual

/-- Every node of a tree has one position. -/
theorem length_positions (path : List Key) : (node : NavNode) →
    (node.positions path).length = node.count
  | ⟨id, version, label, children, truncated, cycle, repeated⟩ => by
      rw [positions, List.length_cons, length_positionsAll, count]

theorem length_positionsAll (path : List Key) : (nodes : List NavNode) →
    (positionsAll path nodes).length = countAll nodes
  | [] =>
      rfl
  | node :: rest => by
      rw [positionsAll, List.length_append, length_positions, length_positionsAll, countAll]

end

end NavNode

/-- The keys of the nodes with children, the last first. -/
def expandedKeys (positions : List Position) : List Key :=
  ((positions.filter fun position => !position.node.children.isEmpty).map
    fun position => position.node.key).reverse

@[simp]
theorem expandedKeys_nil : expandedKeys [] = [] :=
  rfl

@[simp]
theorem expandedKeys_append (earlier later : List Position) :
    expandedKeys (earlier ++ later) = expandedKeys later ++ expandedKeys earlier := by
  simp [expandedKeys]

theorem expandedKeys_cons (position : Position) (rest : List Position) :
    expandedKeys (position :: rest) = expandedKeys rest ++ expandedKeys [position] :=
  expandedKeys_append [position] rest

theorem expandedKeys_of_childless
    {position : Position}
    (childless : position.node.children = []) :
    expandedKeys [position] = [] := by
  simp [expandedKeys, childless]

theorem expandedKeys_of_expanded
    {position : Position}
    (hasChildren : position.node.children ≠ []) :
    expandedKeys [position] = [position.node.key] := by
  simp [expandedKeys, hasChildren]

end ActivityCatalog
