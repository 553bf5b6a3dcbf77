import ActivityCatalog.Proofs.Archive.Layouts
import Mathlib.Tactic.FinCases

namespace ActivityCatalog

/-!
# Laying out again

A layout is only ever added to, and what a statement asked for stays when others are done after
it, since their objects have other names.  So the layout that all statements left is complete:
none of them changes it when it is done again, whether changes are refused then or not.
-/

/-- The name of the object that a statement makes. -/
def LayoutStatement.name : LayoutStatement → String
  | .table _ name _ _ => name
  | .index _ name _ _ => name

namespace Layout

section Added

variable
  {layout next after : Layout}
  {object : LaidObject}
  {kinds : List ObjectKind}
  {statement later : LayoutStatement}
  {statements : List LayoutStatement}
  {refusal : Option StorageFailure}
  {toDo name : String}

theorem isSame_self (name : String) : isSame name name = true :=
  beq_self_eq_true _

/-- An object that was found is found before all that are added. -/
theorem find?_append_of_some
    {found : LaidObject}
    (isFound : layout.find? kinds name = some found)
    (added : Layout) :
    Layout.find? (layout ++ added) kinds name = some found := by
  unfold find? at isFound ⊢
  rw [List.find?_append, isFound, Option.some_or]

/-- What is looked for is not an object of another kind or name that is added. -/
theorem find?_append_of_not
    (isOther : (kinds.contains object.kind && isSame object.name name) = false) :
    Layout.find? (layout ++ [object]) kinds name = layout.find? kinds name := by
  unfold find?
  rw [List.find?_append, List.find?_singleton, isOther]
  exact Option.or_none

theorem find?_append_self
    (isKind : kinds.contains object.kind = true)
    (isName : isSame object.name name = true) :
    (Layout.find? (layout ++ [object]) kinds name).isSome = true := by
  unfold find?
  rw [List.find?_append, List.find?_singleton, isKind, isName]
  cases List.find? (fun held => kinds.contains held.kind && isSame held.name name) layout <;> rfl

/-- A statement changes nothing, or adds an object of its own name. -/
theorem perform_eq_ok (performed : layout.perform statement toDo = .ok next) :
    next = layout ∨ ∃ object, object.name = statement.name ∧ next = layout ++ [object] := by
  unfold perform at performed
  cases statement with
  | table lead name body columns =>
      dsimp only at performed
      split at performed
      · cases performed
        exact .inl rfl
      · split at performed
        · cases performed
        · cases performed
          exact .inr ⟨_, rfl, rfl⟩
  | index lead name owner column =>
      dsimp only at performed
      split at performed
      · cases performed
      · cases performed
      · split at performed
        · cases performed
        · split at performed
          · cases performed
            exact .inl rfl
          · split at performed
            · cases performed
              exact .inr ⟨_, rfl, rfl⟩
            · cases performed

/-- What a statement asks for is there. -/
def HasMade (layout : Layout) : LayoutStatement → Prop
  | .table _ name _ _ =>
      (layout.table? name).isSome = true
  | .index _ name owner _ =>
      (∃ indexed, layout.table? owner = some indexed ∧ indexed.kind ≠ .view) ∧
        layout.table? name = none ∧ (layout.find? [.index] name).isSome = true

/-- A statement changes nothing where all that it asks for is there. -/
theorem HasMade.perform_eq
    (hasMade : layout.HasMade statement)
    (toDo : String) :
    layout.perform statement toDo = .ok layout := by
  unfold perform
  cases statement with
  | table lead name body columns =>
      exact if_pos hasMade
  | index lead name owner column =>
      obtain ⟨⟨⟨kind, ownName, columns⟩, isTable, notView⟩, noTable, hasIndex⟩ := hasMade
      dsimp only
      rw [isTable]
      cases kind with
      | view =>
          exact absurd rfl notView
      | table | index =>
          dsimp only
          rw [noTable, hasIndex]
          rfl

/-- What a statement asks for is there after it was done. -/
theorem hasMade_of_perform (performed : layout.perform statement toDo = .ok next) :
    next.HasMade statement := by
  unfold perform at performed
  cases statement with
  | table lead name body columns =>
      dsimp only at performed
      split at performed
      · cases performed
        assumption
      · split at performed
        · cases performed
        · cases performed
          exact find?_append_self rfl (isSame_self name)
  | index lead name owner column =>
      dsimp only at performed
      split at performed
      · cases performed
      · cases performed
      · rename_i indexed notView isTable
        have isIndexed : ∃ indexed, layout.table? owner = some indexed ∧ indexed.kind ≠ .view := by
          refine ⟨indexed, isTable, ?_⟩
          intro isView
          obtain ⟨kind, ownName, columns⟩ := indexed
          cases isView
          exact notView ownName columns rfl
        split at performed
        · cases performed
        · rename_i noTable
          have isFree : layout.table? name = none := by
            simpa using noTable
          split at performed
          · rename_i hasIndex
            cases performed
            exact ⟨isIndexed, isFree, hasIndex⟩
          · split at performed
            · cases performed
              obtain ⟨indexed, isTable, notView⟩ := isIndexed
              refine ⟨⟨indexed, find?_append_of_some isTable _, notView⟩, ?_,
                find?_append_self rfl (isSame_self name)⟩
              exact (find?_append_of_not rfl).trans isFree
            · cases performed

/-- What a statement asked for is not taken away by one for an object of another name. -/
theorem HasMade.perform
    (hasMade : layout.HasMade statement)
    (isOther : isSame later.name statement.name = false)
    (performed : layout.perform later toDo = .ok next) :
    next.HasMade statement := by
  rcases perform_eq_ok performed with rfl | ⟨object, sameName, rfl⟩
  · exact hasMade
  · cases statement with
    | table lead name body columns =>
        obtain ⟨found, isFound⟩ := Option.isSome_iff_exists.mp hasMade
        exact Option.isSome_iff_exists.mpr ⟨found, find?_append_of_some isFound _⟩
    | index lead name owner column =>
        obtain ⟨⟨indexed, isTable, notView⟩, noTable, hasIndex⟩ := hasMade
        obtain ⟨found, isFound⟩ := Option.isSome_iff_exists.mp hasIndex
        have isApart : ([ObjectKind.table, .view].contains object.kind &&
            isSame object.name name) = false := by
          have isOtherName : isSame object.name name = false := by
            rw [sameName]
            exact isOther
          rw [isOtherName, Bool.and_false]
        refine ⟨⟨indexed, find?_append_of_some isTable _, notView⟩, ?_,
          Option.isSome_iff_exists.mpr ⟨found, find?_append_of_some isFound _⟩⟩
        exact (find?_append_of_not isApart).trans noTable

/-- The first of the statements that were done was done, and then all others. -/
theorem performAll_cons_eq_ok
    (performed : layout.performAll refusal (statement :: statements) = .ok after) :
    ∃ next toDo, layout.perform statement toDo = .ok next ∧
      next.performAll refusal statements = .ok after := by
  unfold performAll at performed
  obtain ⟨next, first, rest⟩ := bind_eq_ok.mp performed
  refine ⟨next, _, first, ?_⟩
  split at rest
  · obtain ⟨_, -, rest⟩ := bind_eq_ok.mp rest
    exact rest
  · exact rest

theorem HasMade.performAll
    (hasMade : layout.HasMade statement)
    (areOther : ∀ later ∈ statements, isSame later.name statement.name = false)
    (performed : layout.performAll refusal statements = .ok after) :
    after.HasMade statement := by
  induction statements generalizing layout with
  | nil =>
      cases performed
      exact hasMade
  | cons later rest inductionHypothesis =>
      obtain ⟨isOther, restOther⟩ := List.forall_mem_cons.mp areOther
      obtain ⟨next, toDo, first, restPerformed⟩ := performAll_cons_eq_ok performed
      exact inductionHypothesis (hasMade.perform isOther first) restOther restPerformed

/-- All is there that statements for objects of different names asked for. -/
theorem hasMade_of_performAll
    (areApart : statements.Pairwise fun statement later =>
      isSame later.name statement.name = false)
    (performed : layout.performAll refusal statements = .ok after) :
    ∀ statement ∈ statements, after.HasMade statement := by
  induction statements generalizing layout with
  | nil =>
      nofun
  | cons first rest inductionHypothesis =>
      obtain ⟨firstApart, restApart⟩ := List.pairwise_cons.mp areApart
      obtain ⟨next, toDo, firstPerformed, restPerformed⟩ := performAll_cons_eq_ok performed
      refine List.forall_mem_cons.mpr ⟨?_, inductionHypothesis restApart restPerformed⟩
      exact (hasMade_of_perform firstPerformed).performAll firstApart restPerformed

theorem find?_of_performAll
    {found : LaidObject}
    (isFound : layout.find? kinds name = some found)
    (performed : layout.performAll refusal statements = .ok after) :
    after.find? kinds name = some found := by
  induction statements generalizing layout with
  | nil =>
      cases performed
      exact isFound
  | cons statement rest inductionHypothesis =>
      obtain ⟨next, toDo, first, restPerformed⟩ := performAll_cons_eq_ok performed
      refine inductionHypothesis ?_ restPerformed
      rcases perform_eq_ok first with rfl | ⟨object, -, rfl⟩
      · exact isFound
      · exact find?_append_of_some isFound _

end Added

variable
  {layout after : Layout}
  {refusal : Option StorageFailure}

/-- The objects of an archive have different names. -/
theorem statements_apart :
    statements.Pairwise fun statement later => isSame later.name statement.name = false := by
  rw [isSame_eq]
  unfold statements
  simp only [List.pairwise_cons, LayoutStatement.name]
  refine ⟨?_, ?_, ?_, ?_, List.Pairwise.nil⟩
  all_goals
    intro later isLater
    fin_cases isLater <;> rfl

/-- A layout with all that an archive needs stays as it is when it is laid out again. -/
theorem completed_completed
    (completes : layout.completed refusal = .ok after)
    (other : Option StorageFailure) :
    after.completed other = .ok after := by
  have hasMade := hasMade_of_performAll statements_apart completes
  refine performAll_of_unchanged ?_ other
  intro statement isStatement toDo
  exact (hasMade statement isStatement).perform_eq toDo

/-- The column of the schema versions stays what it is when an archive is laid out. -/
theorem versionColumnOf_of_completed
    {column : Column}
    (completes : layout.completed refusal = .ok after)
    (isColumn : layout.versionColumnOf = .ok column) :
    after.versionColumnOf = .ok column := by
  unfold versionColumnOf at isColumn ⊢
  cases isTable : layout.table? versionTable with
  | none =>
      rw [isTable] at isColumn
      cases isColumn
  | some table =>
      have stays : after.table? versionTable = some table :=
        find?_of_performAll isTable completes
      rw [isTable] at isColumn
      rw [stays]
      exact isColumn

end Layout

end ActivityCatalog
