import ActivityCatalog.Archive.Query
import ActivityCatalog.Proofs.Stepwise

namespace ActivityCatalog.Layout

/-!
# The layout of archives that were made here

In the standard layout nothing is missing, so that it stays as it is when an archive is opened,
and all rows can be read in it.
-/

/-- Names are compared by their characters as small letters. -/
theorem isSame_eq :
    isSame = fun left right =>
      left.toList.map Char.toLower == right.toList.map Char.toLower := by
  funext left right
  change (left.map Char.toLower == right.map Char.toLower) = _
  rw [Bool.eq_iff_iff, beq_iff_eq, beq_iff_eq, ← String.toList_inj, String.toList_map,
    String.toList_map]

/-- A layout that no statement changes is left as it is, also where changes are refused. -/
theorem performAll_of_unchanged
    {layout : Layout}
    {statements : List LayoutStatement}
    (unchanged : ∀ statement ∈ statements, ∀ toDo, layout.perform statement toDo = .ok layout)
    (refusal : Option StorageFailure) :
    layout.performAll refusal statements = .ok layout := by
  induction statements with
  | nil =>
      rfl
  | cons statement rest inductionHypothesis =>
      obtain ⟨first, others⟩ := List.forall_mem_cons.mp unchanged
      refine bind_eq_ok.mpr ⟨layout, first _, ?_⟩
      rw [bne_self_eq_false]
      exact inductionHypothesis others

theorem completed_standard (refusal : Option StorageFailure) :
    standard.completed refusal = .ok standard := by
  refine performAll_of_unchanged ?_ refusal
  intro statement isStatement toDo
  simp only [statements, List.mem_cons, List.not_mem_nil, or_false] at isStatement
  rcases isStatement with rfl | rfl | rfl | rfl
  all_goals
    unfold perform table? find?
    rw [isSame_eq]
    rfl

theorem table?_rowTable : standard.table? rowTable = some ⟨.table, rowTable, rowColumns⟩ := by
  unfold table? find?
  rw [isSame_eq]
  rfl

theorem versionColumnOf_standard :
    standard.versionColumnOf = .ok ⟨versionColumn, .integer, false, true⟩ := by
  unfold versionColumnOf table? find?
  rw [isSame_eq]
  rfl

/-- A schema version can be stored without anything else. -/
theorem checkRequired_standard :
    standard.checkRequired versionTable [versionColumn] = .ok () := by
  unfold checkRequired table? find? unfilled?
  rw [isSame_eq]
  rfl

/-- The columns that are filled when a row is stored are laid out. -/
theorem checkFilled_standard : standard.checkFilled = .ok () := by
  decide +kernel

/-- A row can be stored without anything else. -/
theorem checkRequired_rowTable : standard.checkRequired rowTable filledColumns = .ok () := by
  decide +kernel

/-- The query of all rows names only columns of the standard layout. -/
theorem check_all_standard : Query.all.check standard = .ok () := by
  rw [Query.check, table?_rowTable]
  unfold Query.all
  simp only [Query.checkFrom, isSame_eq]
  rfl

end ActivityCatalog.Layout
