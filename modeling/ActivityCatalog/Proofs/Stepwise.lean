import Mathlib.Data.List.Forall2

namespace ActivityCatalog

/-!
# Steps that may fail

A run of steps succeeds when every step does, and else fails with the first step that
fails.  What holds at the start and is kept by every step that succeeds holds at the
end of a run that succeeds.
-/

variable {Fault State Item Result : Type}

/-- Two steps succeed when the first does and then the second. -/
theorem bind_eq_ok
    {first : Except Fault State}
    {second : State → Except Fault Result}
    {result : Result} :
    (first >>= second) = .ok result ↔
      ∃ state, first = .ok state ∧ second state = .ok result := by
  cases first with
  | error fault =>
      simp [bind, Except.bind]
  | ok state =>
      simp [bind, Except.bind]

/-- A result that is changed afterwards is there when the result is. -/
theorem map_eq_ok
    {first : Except Fault State}
    {change : State → Result}
    {result : Result} :
    first.map change = .ok result ↔ ∃ state, first = .ok state ∧ change state = result := by
  cases first with
  | error fault =>
      simp [Except.map]
  | ok state =>
      simp [Except.map]

/-- Telling a fault in another way does not change a result. -/
theorem mapError_eq_ok
    {Other : Type}
    {first : Except Fault Result}
    {change : Fault → Other}
    {result : Result} :
    first.mapError change = .ok result ↔ first = .ok result := by
  cases first with
  | error fault =>
      simp [Except.mapError]
  | ok state =>
      simp [Except.mapError]

/-- Two steps fail when the first does, or the second after it. -/
theorem bind_eq_error
    {first : Except Fault State}
    {second : State → Except Fault Result}
    {fault : Fault} :
    (first >>= second) = .error fault ↔
      first = .error fault ∨ ∃ state, first = .ok state ∧ second state = .error fault := by
  cases first with
  | error other =>
      simp [bind, Except.bind]
  | ok state =>
      simp [bind, Except.bind]

theorem mapError_eq_error
    {Other : Type}
    {first : Except Fault Result}
    {change : Fault → Other}
    {told : Other} :
    first.mapError change = .error told ↔ ∃ fault, first = .error fault ∧ change fault = told := by
  cases first with
  | error fault =>
      simp [Except.mapError]
  | ok state =>
      simp [Except.mapError]

/-- There is a result when there is no fault. -/
theorem exists_ok_iff {first : Except Fault Result} :
    (∃ result, first = .ok result) ↔ ∀ fault, first ≠ .error fault := by
  cases first with
  | error fault =>
      simp
  | ok result =>
      simp

section Effects

variable
  {Next : Type}
  {first : ExceptT Fault (StateM State) Item}
  {second : Item → ExceptT Fault (StateM State) Next}
  {before after : State}

/-- Where the first of two steps on a state succeeds, the second is done on what it left. -/
theorem run_bind_ok
    {item : Item}
    (ran : first.run.run before = (.ok item, after)) :
    (first >>= second).run.run before = (second item).run.run after := by
  simp only [ExceptT.run_bind, StateT.run_bind] at ran ⊢
  rw [ran]
  rfl

/-- Where the first of two steps on a state fails, what it left stays. -/
theorem run_bind_error
    {fault : Fault}
    (ran : first.run.run before = (.error fault, after)) :
    (first >>= second).run.run before = (.error fault, after) := by
  simp only [ExceptT.run_bind, StateT.run_bind] at ran ⊢
  rw [ran]
  rfl

end Effects

/-- A step for each item succeeds when every one of them does. -/
theorem mapM_eq_ok
    {step : Item → Except Fault Result}
    {items : List Item}
    {results : List Result} :
    items.mapM step = .ok results ↔
      List.Forall₂ (fun item result => step item = .ok result) items results := by
  induction items generalizing results with
  | nil =>
      cases results <;> simp [pure, Except.pure]
  | cons item rest inductionHypothesis =>
      rw [List.mapM_cons]
      constructor
      · intro ran
        obtain ⟨result, stepped, ran⟩ := bind_eq_ok.mp ran
        obtain ⟨others, restRan, made⟩ := bind_eq_ok.mp ran
        cases made
        exact List.Forall₂.cons stepped (inductionHypothesis.mp restRan)
      · intro related
        cases related with
        | cons stepped restRelated =>
            rw [stepped, inductionHypothesis.mpr restRelated]
            rfl

/-- Whatever is in the second of two related lists is related to something in the first. -/
theorem exists_of_mem_right
    {related : Item → Result → Prop}
    {items : List Item}
    {results : List Result}
    {result : Result}
    (pairs : List.Forall₂ related items results)
    (member : result ∈ results) :
    ∃ item ∈ items, related item result := by
  induction pairs with
  | nil =>
      cases member
  | cons pair _ inductionHypothesis =>
      rcases List.mem_cons.mp member with rfl | inRest
      · exact ⟨_, List.mem_cons_self, pair⟩
      · obtain ⟨item, isItem, isRelated⟩ := inductionHypothesis inRest
        exact ⟨item, List.mem_cons_of_mem _ isItem, isRelated⟩

/-- Each result of steps for all items is that of one of them. -/
theorem exists_of_mem_of_mapM
    {step : Item → Except Fault Result}
    {items : List Item}
    {results : List Result}
    {result : Result}
    (ran : items.mapM step = .ok results)
    (member : result ∈ results) :
    ∃ item ∈ items, step item = .ok result := by
  have found := exists_of_mem_right (mapM_eq_ok.mp ran) member
  exact found

/-- A run that succeeded goes on with the step for one more item. -/
theorem foldlM_concat_of_ok
    {step : State → Item → Except Fault State}
    {items : List Item}
    {item : Item}
    {start state : State}
    (ran : items.foldlM step start = .ok state) :
    (items ++ [item]).foldlM step start = step state item := by
  rw [List.foldlM_append, ran]
  exact bind_pure (step state item)

/-- A run that failed does not go on. -/
theorem foldlM_concat_of_error
    {step : State → Item → Except Fault State}
    {items : List Item}
    {item : Item}
    {start : State}
    {fault : Fault}
    (ran : items.foldlM step start = .error fault) :
    (items ++ [item]).foldlM step start = .error fault := by
  rw [List.foldlM_append, ran]
  rfl

/-- A run fails with the step for some item, when those before it succeeded. -/
theorem foldlM_eq_error
    {step : State → Item → Except Fault State}
    {items : List Item}
    {start : State}
    {fault : Fault} :
    items.foldlM step start = .error fault ↔
      ∃ done item rest state, items = done ++ item :: rest ∧
        done.foldlM step start = .ok state ∧ step state item = .error fault := by
  constructor
  · intro failed
    induction items generalizing start with
    | nil =>
        cases failed
    | cons item rest inductionHypothesis =>
        rw [List.foldlM_cons] at failed
        rcases bind_eq_error.mp failed with firstFailed | ⟨next, stepped, restFailed⟩
        · exact ⟨[], item, rest, start, rfl, rfl, firstFailed⟩
        · obtain ⟨done, later, others, state, rfl, ran, laterFailed⟩ :=
            inductionHypothesis restFailed
          exact ⟨item :: done, later, others, state, rfl, bind_eq_ok.mpr ⟨next, stepped, ran⟩,
            laterFailed⟩
  · rintro ⟨done, item, rest, state, rfl, ran, failed⟩
    rw [List.foldlM_append]
    exact bind_eq_error.mpr (.inr ⟨state, ran, bind_eq_error.mpr (.inl failed)⟩)

/-- What every step keeps, along the items it was given and before those that follow. -/
theorem foldlM_induction_append
    {step : State → Item → Except Fault State}
    {motive : List Item → State → Prop}
    {items : List Item}
    {start final : State}
    (initially : motive [] start)
    (kept :
      ∀ {done item rest state next},
        items = done ++ item :: rest →
        motive done state →
        step state item = .ok next →
        motive (done ++ [item]) next)
    (ran : items.foldlM step start = .ok final) :
    motive items final := by
  have fromPrefix :
      ∀ {rest done state},
        items = done ++ rest →
        motive done state →
        List.foldlM step state rest = .ok final →
        motive items final := by
    intro rest
    induction rest with
    | nil =>
        intro done state split holds finished
        cases finished
        exact (List.append_nil done ▸ split) ▸ holds
    | cons item rest inductionHypothesis =>
        intro done state split holds finished
        rw [List.foldlM_cons] at finished
        obtain ⟨next, stepped, finished⟩ := bind_eq_ok.mp finished
        have splitNext : items = (done ++ [item]) ++ rest := by
          rw [split, List.append_assoc, List.singleton_append]
        exact inductionHypothesis splitNext (kept split holds stepped) finished
  exact fromPrefix (List.nil_append items).symm initially ran

/-- What every step keeps, along the items it was given, holds after a run. -/
theorem foldlM_induction
    {step : State → Item → Except Fault State}
    {motive : List Item → State → Prop}
    {items : List Item}
    {start final : State}
    (initially : motive [] start)
    (kept :
      ∀ {done item state next},
        motive done state →
        step state item = .ok next →
        motive (done ++ [item]) next)
    (ran : items.foldlM step start = .ok final) :
    motive items final :=
  foldlM_induction_append initially (fun _ holds stepped => kept holds stepped) ran

/-- Steps that agree as long as something holds that they keep make the same run. -/
theorem foldlM_congr_of_kept
    {step other : State → Item → Except Fault State}
    {motive : State → Prop}
    {items : List Item}
    {start : State}
    (initially : motive start)
    (agree : ∀ item ∈ items, ∀ state, motive state → step state item = other state item)
    (kept : ∀ item ∈ items, ∀ state next, motive state → step state item = .ok next →
      motive next) :
    items.foldlM step start = items.foldlM other start := by
  induction items generalizing start with
  | nil =>
      rfl
  | cons item rest inductionHypothesis =>
      obtain ⟨agreeFirst, agreeRest⟩ := List.forall_mem_cons.mp agree
      obtain ⟨keptFirst, keptRest⟩ := List.forall_mem_cons.mp kept
      rw [List.foldlM_cons, List.foldlM_cons, ← agreeFirst start initially]
      cases stepped : step start item with
      | error fault =>
          rfl
      | ok next =>
          exact inductionHypothesis (keptFirst start next initially stepped) agreeRest keptRest

end ActivityCatalog
