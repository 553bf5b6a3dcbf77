import ActivityCatalog.FileTree

namespace ActivityCatalog.FileTree

/-!
# What stands where after a change

Putting a node in a place and taking away what stands there changes this place alone.
-/

section Changes

variable
  {File : Type}
  {place other : Place}

theorem find?_elsewhere
    (nodes : List (Place × FileNode File))
    (different : place ≠ other) :
    (nodes.filter fun held => held.1 != place).find? (fun held => held.1 == other) =
      nodes.find? fun held => held.1 == other := by
  rw [List.find?_filter]
  congr 1
  funext held
  by_cases isOther : held.1 = other <;> simp [isOther, different.symm]

/-- A node that was put in a place stands there, and elsewhere what stood there before. -/
theorem node?_put
    (tree : FileTree File)
    (node : FileNode File)
    (notGiven : other.isGiven = false) :
    (tree.put place node).node? other = if place = other then some node else tree.node? other := by
  simp only [node?, put, notGiven, Bool.false_eq_true, ↓reduceIte, List.find?_cons]
  by_cases isPlace : place = other
  · simp [isPlace]
  · rw [find?_elsewhere tree.nodes isPlace, beq_eq_false_iff_ne.mpr isPlace, if_neg isPlace]

/-- Nothing stands in a place from which all was taken away, and elsewhere what stood there. -/
theorem node?_vacate
    (tree : FileTree File)
    (notGiven : other.isGiven = false) :
    (tree.vacate place).node? other = if place = other then none else tree.node? other := by
  simp only [node?, vacate, notGiven, Bool.false_eq_true, ↓reduceIte]
  by_cases isPlace : place = other
  · have gone : (tree.nodes.filter fun held => held.1 != place).find?
        (fun held => held.1 == other) = none := by
      simp [isPlace]
    rw [gone, if_pos isPlace]
    rfl
  · rw [find?_elsewhere tree.nodes isPlace, if_neg isPlace]

/-- In a place that nothing was taken away from since stands what is there now. -/
theorem nodeOf?_generation (tree : FileTree File) :
    tree.nodeOf? place (tree.generation place) = tree.node? place := by
  rw [nodeOf?, beq_self_eq_true, if_pos rfl]

theorem putOf_generation (tree : FileTree File) (node : FileNode File) :
    tree.putOf place (tree.generation place) node = tree.put place node := by
  rw [putOf, beq_self_eq_true, if_pos rfl]

end Changes

/-- What is read under a name depends only on what stands there. -/
theorem read_congr
    {File : Type}
    {tree other : FileTree File}
    {path : FilePath}
    {piece : FileName}
    (onePiece : FilePath.pieces path = [piece])
    (sameThere : tree.node? (FilePath.goOn (FilePath.start path) piece) =
      other.node? (FilePath.goOn (FilePath.start path) piece)) :
    tree.read path = other.read path := by
  have sameStep : tree.step (FilePath.start path, .folder) piece =
      other.step (FilePath.start path, .folder) piece := by
    simp only [step, sameThere]
  rw [read, read, find, find, onePiece, follow, follow, List.foldlM_cons, List.foldlM_cons,
    sameStep]
  rfl

end ActivityCatalog.FileTree
