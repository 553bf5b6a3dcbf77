import ActivityCatalog.Navigation

namespace ActivityCatalog.NavNode

/-!
# Outlines

The outline of a navigation tree has a line for every node, indented by two
spaces for each level above it, with its label, its id and the mark that says why
it is not expanded.
-/

/-- The mark of a node in an outline. -/
def mark (cycle repeated truncated : Bool) : String :=
  if cycle then " (cycle)"
  else if repeated then " (see above)"
  else if truncated then " (...)"
  else ""

/-- The spaces before the line of a node on a level. -/
def indentation (level : Nat) : String :=
  String.ofList (List.replicate (2 * level) ' ')

mutual

/-- The lines of a tree whose root is on a level. -/
def linesAt (level : Nat) : NavNode → List String
  | ⟨id, _, label, children, truncated, cycle, repeated⟩ =>
      (indentation level ++ label ++ " [" ++ id ++ "]" ++ mark cycle repeated truncated) ::
        linesOfAll (level + 1) children

/-- The lines of trees whose roots are on a level. -/
def linesOfAll (level : Nat) : List NavNode → List String
  | [] =>
      []
  | node :: rest =>
      linesAt level node ++ linesOfAll level rest

end

/-- The outline of a tree, every line ended. -/
def outline (tree : NavNode) : String :=
  String.join ((tree.linesAt 0).map (· ++ "\n"))

end ActivityCatalog.NavNode
