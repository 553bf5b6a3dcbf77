import Mathlib.Logic.Relation
import ActivityCatalog.Navigation

namespace ActivityCatalog

/-!
# How navigation trees grow

`Grows` says recursively what some records on a path grow into, one after another,
and how the expanded keys change on the way.  The stack of frames does the same
step by step: from any state its steps lead to the one where the trees that the
innermost frame's waiting records grow into are its children.

Both rest on `Catalog.visit`, which `Catalog.visit_of_key` describes once.
-/

namespace Catalog

variable {catalog : Catalog} {locale : String} {limit : Nat}

/--
A record with a key is expanded if it is not on the path, has subs, was not
expanded before and lies above the limit; otherwise its mark says what is missing.
-/
theorem visit_of_key
    {activity : Activity}
    {depth : Nat}
    {onPath : Key → Bool}
    {expanded : List Key}
    {key : Key}
    (keyed : activity.key? = some key) :
    catalog.visit locale limit activity depth onPath expanded =
      if ¬onPath key ∧ catalog.resolveAll activity.subs ≠ [] ∧ key ∉ expanded ∧ depth < limit then
        (.expand ⟨NavNode.leaf activity locale, key, catalog.resolveAll activity.subs⟩,
          key :: expanded)
      else
        (.leaf
          { NavNode.leaf activity locale with
            cycle := onPath key
            repeated :=
              decide (¬onPath key ∧ catalog.resolveAll activity.subs ≠ [] ∧ key ∈ expanded)
            truncated :=
              decide (¬onPath key ∧ catalog.resolveAll activity.subs ≠ [] ∧ key ∉ expanded) },
          expanded) := by
  unfold visit
  by_cases cycles : onPath key
  · simp [keyed, cycles, NavNode.leaf]
  · by_cases childless : catalog.resolveAll activity.subs = []
    · simp [keyed, cycles, childless, NavNode.leaf]
    · by_cases again : key ∈ expanded
      · simp [keyed, cycles, childless, again, NavNode.leaf]
      · by_cases above : depth < limit
        · simp [keyed, cycles, childless, again, above, Nat.not_le_of_lt above]
        · simp [keyed, cycles, childless, again, above, Nat.le_of_not_lt above, NavNode.leaf]

theorem visit_of_no_key
    {activity : Activity}
    {depth : Nat}
    {onPath : Key → Bool}
    {expanded : List Key}
    (noKey : activity.key? = none) :
    catalog.visit locale limit activity depth onPath expanded =
      (.leaf (NavNode.leaf activity locale), expanded) := by
  simp [visit, noKey]

/-- What is known of a record that a visit expanded. -/
theorem of_visit_expand
    {activity : Activity}
    {depth : Nat}
    {onPath : Key → Bool}
    {expanded noted : List Key}
    {frame : Frame}
    (visited :
      catalog.visit locale limit activity depth onPath expanded = (.expand frame, noted)) :
    activity.key? = some frame.key ∧
      ¬onPath frame.key ∧
      catalog.resolveAll activity.subs ≠ [] ∧
      frame.key ∉ expanded ∧
      depth < limit ∧
      frame = ⟨NavNode.leaf activity locale, frame.key, catalog.resolveAll activity.subs⟩ ∧
      noted = frame.key :: expanded := by
  cases keyed : activity.key? with
  | none =>
      rw [visit_of_no_key keyed] at visited
      cases visited
  | some key =>
      rw [visit_of_key keyed] at visited
      split at visited
      · rename_i expands
        obtain ⟨notOnPath, hasSubs, isNew, above⟩ := expands
        cases visited
        exact ⟨rfl, notOnPath, hasSubs, isNew, above, rfl, rfl⟩
      · cases visited

/-- What is known of a record with a key that a visit did not expand. -/
theorem of_visit_leaf
    {activity : Activity}
    {depth : Nat}
    {onPath : Key → Bool}
    {expanded noted : List Key}
    {node : NavNode}
    {key : Key}
    (keyed : activity.key? = some key)
    (visited :
      catalog.visit locale limit activity depth onPath expanded = (.leaf node, noted)) :
    noted = expanded ∧
      node =
        { NavNode.leaf activity locale with
          cycle := onPath key
          repeated :=
            decide (¬onPath key ∧ catalog.resolveAll activity.subs ≠ [] ∧ key ∈ expanded)
          truncated :=
            decide (¬onPath key ∧ catalog.resolveAll activity.subs ≠ [] ∧ key ∉ expanded) } ∧
      (¬onPath key → catalog.resolveAll activity.subs ≠ [] → key ∉ expanded → limit ≤ depth) := by
  rw [visit_of_key keyed] at visited
  split at visited
  · cases visited
  · rename_i stays
    cases visited
    refine ⟨rfl, rfl, ?_⟩
    intro notOnPath hasSubs isNew
    exact Nat.le_of_not_lt fun above => stays ⟨notOnPath, hasSubs, isNew, above⟩

end Catalog

/--
Some records on a path grow into trees, one after another.  The keys on the path
come innermost first; two more lists of keys are those expanded before and after.
-/
inductive Grows (catalog : Catalog) (locale : String) (limit : Nat) :
    List Key → List Key → List Activity → List NavNode → List Key → Prop where
  | done (path expanded : List Key) :
      Grows catalog locale limit path expanded [] [] expanded
  | leaf
      {path expanded noted final : List Key}
      {activity : Activity}
      {rest : List Activity}
      {node : NavNode}
      {nodes : List NavNode} :
      catalog.visit locale limit activity path.length path.contains expanded =
        (.leaf node, noted) →
      Grows catalog locale limit path noted rest nodes final →
      Grows catalog locale limit path expanded (activity :: rest) (node :: nodes) final
  | expand
      {path expanded noted grown final : List Key}
      {activity : Activity}
      {rest : List Activity}
      {frame : Frame}
      {children nodes : List NavNode} :
      catalog.visit locale limit activity path.length path.contains expanded =
        (.expand frame, noted) →
      Grows catalog locale limit (frame.key :: path) noted frame.waiting children grown →
      Grows catalog locale limit path grown rest nodes final →
      Grows catalog locale limit path expanded (activity :: rest)
        ({ frame.node with children } :: nodes) final

/-- Every list of records grows into trees: the path cannot get longer than the limit. -/
theorem exists_grows (catalog : Catalog) (locale : String) (limit : Nat)
    (path expanded : List Key) (activities : List Activity) :
    ∃ nodes final, Grows catalog locale limit path expanded activities nodes final := by
  generalize room : limit - path.length = levels
  induction levels using Nat.strongRecOn generalizing path expanded activities with
  | ind levels deeper =>
      induction activities generalizing expanded with
      | nil =>
          exact ⟨[], expanded, .done path expanded⟩
      | cons activity rest inductionHypothesis =>
          cases visited :
              catalog.visit locale limit activity path.length path.contains expanded with
          | mk visit noted =>
              cases visit with
              | leaf node =>
                  obtain ⟨nodes, final, grows⟩ := inductionHypothesis noted
                  exact ⟨node :: nodes, final, .leaf visited grows⟩
              | expand frame =>
                  obtain ⟨-, -, -, -, below, -⟩ := Catalog.of_visit_expand visited
                  have shorter : limit - (frame.key :: path).length < levels := by
                    rw [List.length_cons]
                    omega
                  obtain ⟨children, grown, childrenGrow⟩ :=
                    deeper _ shorter (frame.key :: path) noted frame.waiting rfl
                  obtain ⟨nodes, final, restGrows⟩ := inductionHypothesis grown
                  exact ⟨_, final, .expand visited childrenGrow restGrows⟩

/-- Let a frame have more children, and others wait in it. -/
def Frame.grown (frame : Frame) (nodes : List NavNode) (rest : List Activity) : Frame :=
  ⟨{ frame.node with children := frame.node.children ++ nodes }, frame.key, rest⟩

@[simp]
theorem Frame.grown_nil (frame : Frame) (rest : List Activity) :
    frame.grown [] rest = { frame with waiting := rest } := by
  obtain ⟨node, key, waiting⟩ := frame
  cases node
  simp [grown]

@[simp]
theorem Frame.grown_grown (frame : Frame) (nodes more : List NavNode)
    (rest others : List Activity) :
    (frame.grown nodes rest).grown more others = frame.grown (nodes ++ more) others := by
  simp [grown]

/-- The node of a frame that a visit opened has the children that are added to it. -/
theorem Catalog.node_of_expanded
    {catalog : Catalog}
    {locale : String}
    {limit depth : Nat}
    {activity : Activity}
    {onPath : Key → Bool}
    {expanded noted : List Key}
    {frame : Frame}
    (visited :
      catalog.visit locale limit activity depth onPath expanded = (.expand frame, noted))
    (children : List NavNode)
    (rest : List Activity) :
    (frame.grown children rest).node = { frame.node with children } := by
  obtain ⟨-, -, -, -, -, same, -⟩ := of_visit_expand visited
  rw [same, Frame.grown, NavNode.leaf, List.nil_append]

namespace Growth

variable {catalog : Catalog} {locale : String} {limit : Nat}

/-- The keys on the path of a tree under way, the innermost first. -/
def path (growth : Growth) : List Key :=
  growth.stack.map Frame.key ++ [growth.root.key]

/-- Open a frame above the others. -/
def push (growth : Growth) (frame : Frame) : Growth :=
  { growth with stack := frame :: growth.stack }

/-- Let the innermost frame have more children, and others wait in it. -/
def grown (growth : Growth) (nodes : List NavNode) (rest : List Activity)
    (expanded : List Key) : Growth :=
  { growth.mapTop fun frame => frame.grown nodes rest with expanded }

theorem onPath_eq (growth : Growth) : growth.onPath = growth.path.contains := by
  funext key
  rw [onPath, path, List.contains_eq_any_beq, List.any_append, List.any_map, Bool.or_comm]
  simp [BEq.comm, Function.comp_def]

theorem length_path (growth : Growth) : growth.path.length = growth.stack.length + 1 := by
  simp [path]

@[simp]
theorem path_push (growth : Growth) (frame : Frame) :
    (growth.push frame).path = frame.key :: growth.path :=
  rfl

@[simp]
theorem path_grown (growth : Growth) (nodes : List NavNode) (rest : List Activity)
    (expanded : List Key) :
    (growth.grown nodes rest expanded).path = growth.path := by
  obtain ⟨root, _ | ⟨frame, below⟩, noted⟩ := growth <;> rfl

@[simp]
theorem waiting_grown (growth : Growth) (nodes : List NavNode) (rest : List Activity)
    (expanded : List Key) :
    (growth.grown nodes rest expanded).top.waiting = rest := by
  obtain ⟨root, _ | ⟨frame, below⟩, noted⟩ := growth <;> rfl

@[simp]
theorem expanded_grown (growth : Growth) (nodes : List NavNode) (rest : List Activity)
    (expanded : List Key) :
    (growth.grown nodes rest expanded).expanded = expanded :=
  rfl

@[simp]
theorem grown_grown (growth : Growth) (nodes more : List NavNode)
    (rest others : List Activity) (expanded noted : List Key) :
    (growth.grown nodes rest expanded).grown more others noted =
      growth.grown (nodes ++ more) others noted := by
  obtain ⟨root, _ | ⟨frame, below⟩, met⟩ := growth <;> simp [grown, mapTop]

theorem grown_push (growth : Growth) (frame : Frame) (nodes : List NavNode)
    (rest others : List Activity) (expanded noted : List Key) :
    ((growth.grown [] rest expanded).push frame).grown nodes others noted =
      (growth.grown [] rest noted).push (frame.grown nodes others) :=
  rfl

theorem grown_nothing (growth : Growth) :
    growth.grown [] growth.top.waiting growth.expanded = growth := by
  obtain ⟨root, _ | ⟨frame, below⟩, met⟩ := growth <;> simp [grown, mapTop, top]

/-- Steps lead from one state to another. -/
def Leads (catalog : Catalog) (locale : String) (limit : Nat) : Growth → Growth → Prop :=
  Relation.ReflTransGen fun before after => before.step catalog locale limit = .inr after

/-- The tree that the steps end with stays the same along the steps. -/
theorem Leads.run_eq
    {before after : Growth}
    (leads : Leads catalog locale limit before after) :
    before.run catalog locale limit = after.run catalog locale limit := by
  induction leads using Relation.ReflTransGen.head_induction_on with
  | refl =>
      rfl
  | head steps _ inductionHypothesis =>
      rw [Growth.run_eq, steps]
      exact inductionHypothesis

/-- A waiting record that is not expanded becomes a child of the innermost frame. -/
theorem step_of_leaf
    {growth : Growth}
    {activity : Activity}
    {rest : List Activity}
    {node : NavNode}
    {noted : List Key}
    (waiting : growth.top.waiting = activity :: rest)
    (visited :
      catalog.visit locale limit activity growth.path.length growth.path.contains
        growth.expanded = (.leaf node, noted)) :
    growth.step catalog locale limit = .inr (growth.grown [node] rest noted) := by
  rw [length_path, ← onPath_eq] at visited
  rw [step, waiting]
  simp only [advance, visited]
  obtain ⟨root, _ | ⟨frame, below⟩, met⟩ := growth <;> rfl

/-- A waiting record that is expanded opens a frame. -/
theorem step_of_expand
    {growth : Growth}
    {activity : Activity}
    {rest : List Activity}
    {frame : Frame}
    {noted : List Key}
    (waiting : growth.top.waiting = activity :: rest)
    (visited :
      catalog.visit locale limit activity growth.path.length growth.path.contains
        growth.expanded = (.expand frame, noted)) :
    growth.step catalog locale limit = .inr ((growth.grown [] rest noted).push frame) := by
  rw [length_path, ← onPath_eq] at visited
  rw [step, waiting]
  simp only [advance, visited]
  obtain ⟨root, _ | ⟨frame, below⟩, met⟩ := growth <;> simp [grown, push, mapTop]

/-- A frame in which nothing waits becomes a child of the one below. -/
theorem step_of_closed
    {growth : Growth}
    {frame : Frame}
    (nothingWaits : frame.waiting = []) :
    (growth.push frame).step catalog locale limit =
      .inr (growth.grown [frame.node] growth.top.waiting growth.expanded) := by
  have isTop : (growth.push frame).top.waiting = [] :=
    nothingWaits
  rw [step, isTop]
  obtain ⟨root, _ | ⟨other, below⟩, met⟩ := growth <;> rfl

/-- The steps attach what the waiting records grow into to the innermost frame. -/
theorem leads_of_grows
    {path expanded final : List Key}
    {activities : List Activity}
    {nodes : List NavNode}
    (grows : Grows catalog locale limit path expanded activities nodes final)
    (growth : Growth)
    (isPath : growth.path = path)
    (isExpanded : growth.expanded = expanded)
    (waiting : growth.top.waiting = activities) :
    Leads catalog locale limit growth (growth.grown nodes [] final) := by
  induction grows generalizing growth with
  | done path expanded =>
      have nothing : growth.grown [] [] expanded = growth := by
        rw [← isExpanded, ← waiting, grown_nothing]
      rw [nothing]
      exact .refl
  | @leaf path expanded noted final activity rest node nodes visited _ inductionHypothesis =>
      subst isPath isExpanded
      have later :=
        inductionHypothesis (growth.grown [node] rest noted) (path_grown ..) rfl (waiting_grown ..)
      rw [grown_grown] at later
      exact .head (step_of_leaf waiting visited) later
  | @expand path expanded noted grown final activity rest frame children nodes visited _ _
      childrenLead restLeads =>
      subst isPath isExpanded
      have opened :=
        childrenLead ((growth.grown [] rest noted).push frame) (by simp) rfl rfl
      have closed :
          (((growth.grown [] rest noted).push frame).grown children [] grown).step
              catalog locale limit =
            .inr (growth.grown [{ frame.node with children }] rest grown) := by
        rw [grown_push, step_of_closed rfl, Catalog.node_of_expanded visited]
        simp
      have later :=
        restLeads (growth.grown [{ frame.node with children }] rest grown)
          (path_grown ..) rfl (waiting_grown ..)
      rw [grown_grown] at later
      exact .head (step_of_expand waiting visited) (opened.trans (.head closed later))

/-- With nothing but the root open, the steps end with what its waiting records grow into. -/
theorem run_of_grows
    {frame : Frame}
    {expanded final : List Key}
    {children : List NavNode}
    (grows :
      Grows catalog locale limit [frame.key] expanded frame.waiting children final) :
    run catalog locale limit ⟨frame, [], expanded⟩ = (frame.grown children []).node := by
  have leads := leads_of_grows grows ⟨frame, [], expanded⟩ rfl rfl rfl
  rw [leads.run_eq, Growth.run_eq]
  rfl

end Growth

/-- The navigation tree of a record is the tree that the record grows into. -/
theorem navTree_of_grows
    {catalog : Catalog}
    {locale : String}
    {limit : Nat}
    {root : Activity}
    {nodes : List NavNode}
    {final : List Key}
    (grows : Grows catalog locale limit [] [] [root] nodes final) :
    nodes = [catalog.navTree root locale limit] := by
  have noPath : (fun _ => false) = ([] : List Key).contains := by
    funext key
    rfl
  rw [Catalog.navTree, noPath]
  cases grows with
  | leaf visited restGrows =>
      cases restGrows
      rw [List.length_nil] at visited
      rw [visited]
  | expand visited childrenGrow restGrows =>
      cases restGrows
      rw [List.length_nil] at visited
      have tree := Growth.run_of_grows childrenGrow
      rw [Catalog.node_of_expanded visited] at tree
      rw [visited]
      exact congrArg (fun node => [node]) tree.symm

end ActivityCatalog
