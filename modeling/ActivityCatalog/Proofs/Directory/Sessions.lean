import ActivityCatalog.Directory
import ActivityCatalog.Proofs.Stepwise

namespace ActivityCatalog.Directory

/-!
# Sessions with a directory

In a session calls are made of a directory one after another: questions, reloads, and requests
for what is known without loading.  The loads of a source give one listing or fault after
another.  A call loads the source once if it is a reload, or a question and nothing is held yet.

A call that loads holds what the load gave, or changes nothing but the number of loads.  A call
that does not load changes nothing, and whatever a load would give at the moment is not looked
at.  Everything that is said of sessions is carried from there along the calls.
-/

/-- What a directory is asked. -/
inductive Question where
  | mainActivity
  | record (id : String) (version : Option String)
  | linkedTo (id : String) (direction : Direction)
  | walkFrom (id : String) (direction : Direction) (limit : Option Nat)
  | issues
  deriving Repr, DecidableEq

/-- What a question is answered with. -/
inductive Answer where
  | activity (activity : Activity)
  | activities (activities : List Activity)
  | walked (items : List (Nat × Activity))
  | issues (issues : List Issue)

/-- An answer of one kind among all answers. -/
def told {Found : Type} (tell : Found → Answer)
    (asked : Except DirectoryFault Found × Directory) :
    Except DirectoryFault Answer × Directory :=
  (asked.1.map tell, asked.2)

/-- Put a question to a directory. -/
def Question.put (load : Load) (directory : Directory) :
    Question → Except DirectoryFault Answer × Directory
  | .mainActivity =>
      told .activity (directory.mainActivity load)
  | .record id version =>
      told .activity (directory.ask (fun catalog => catalog.record id version) load)
  | .linkedTo id direction =>
      told .activities (directory.ask (fun catalog => catalog.linkedTo id direction) load)
  | .walkFrom id direction limit =>
      told .walked (directory.ask (fun catalog => catalog.walkFrom id direction limit) load)
  | .issues =>
      told .issues (directory.ask (fun catalog => .ok catalog.issues) load)

/-- A call of a directory. -/
inductive Call where
  | ask (question : Question)
  | reload
  | stats (source : String)
  | size
  | isLoaded
  deriving Repr, DecidableEq

/-- What a call is replied to with. -/
inductive Reply where
  | answered (answer : Except DirectoryFault Answer)
  | reloaded (records : Except DirectoryFault Nat)
  | stats (stats : DirectoryStats)
  | size (records : Nat)
  | isLoaded (isLoaded : Bool)

/-- The fault that a reply tells. -/
def Reply.fault? : Reply → Option DirectoryFault
  | .answered (.error fault) => some fault
  | .reloaded (.error fault) => some fault
  | _ => none

namespace Call

/-- Make a call of a directory. -/
def perform (load : Load) (directory : Directory) : Call → Reply × Directory
  | .ask question =>
      let (answer, after) := question.put load directory
      (.answered answer, after)
  | .reload =>
      let (records, after) := directory.reload load
      (.reloaded records, after)
  | .stats source =>
      (.stats (directory.stats source), directory)
  | .size =>
      (.size directory.size, directory)
  | .isLoaded =>
      (.isLoaded directory.isLoaded, directory)

/-- Whether a call loads the source: a reload does, and a question if nothing is held. -/
def loads (directory : Directory) : Call → Bool
  | .ask _ => !directory.isLoaded
  | .reload => true
  | .stats _ | .size | .isLoaded => false

end Call

/-- The directory that has loaded its source once more, and holds what it held. -/
def loadedInVain (directory : Directory) : Directory :=
  { directory with loads := directory.loads + 1 }

section Step

variable
  {directory : Directory}
  {catalog : Catalog}
  {call : Call}

theorem hold_error (fault : DirectoryFault) :
    directory.hold (.error fault) = directory.loadedInVain :=
  rfl

theorem loads_hold (found : Except DirectoryFault Catalog) :
    (directory.hold found).loads = directory.loads + 1 := by
  cases found <;> rfl

theorem hold_loadedInVain (found : Except DirectoryFault Catalog) :
    directory.loadedInVain.hold found = (directory.hold found).loadedInVain := by
  cases found <;> rfl

/-- The answer to a question that a catalog has, with the directory's own main activity. -/
def Question.answerOf (choice : Option String) (catalog : Catalog) :
    Question → Except DirectoryFault Answer
  | .mainActivity => (catalog.mainActivity choice).map .activity
  | .record id version => (catalog.record id version).map .activity
  | .linkedTo id direction => (catalog.linkedTo id direction).map .activities
  | .walkFrom id direction limit => (catalog.walkFrom id direction limit).map .walked
  | .issues => .ok (.issues catalog.issues)

theorem told_ask
    {Found : Type}
    (query : Catalog → Except DirectoryFault Found)
    (tell : Found → Answer)
    (load : Load) :
    told tell (directory.ask query load) =
      directory.ask (fun catalog => (query catalog).map tell) load := by
  unfold ask told
  cases directory.current load with
  | mk found after =>
      cases found <;> rfl

/-- All questions are put to the catalog that is held or loaded. -/
theorem Question.put_eq (question : Question) (load : Load) :
    question.put load directory =
      directory.ask (question.answerOf directory.root) load := by
  cases question with
  | mainActivity => exact told_ask _ _ load
  | record id version => exact told_ask _ _ load
  | linkedTo id direction => exact told_ask _ _ load
  | walkFrom id direction limit => exact told_ask _ _ load
  | issues => exact told_ask _ _ load

theorem ask_of_held
    {Found : Type}
    {query : Catalog → Except DirectoryFault Found}
    (held : directory.catalog = some catalog)
    (load : Load) :
    directory.ask query load = (query catalog, directory) := by
  rw [ask, current, held]
  rfl

theorem ask_of_unloaded
    {Found : Type}
    {query : Catalog → Except DirectoryFault Found}
    (unloaded : directory.catalog = none)
    (load : Load) :
    directory.ask query load =
      ((loadCatalog load).bind query, directory.hold (loadCatalog load)) := by
  rw [ask, current, unloaded]

theorem Call.perform_ask_of_held
    (question : Question)
    (held : directory.catalog = some catalog)
    (load : Load) :
    (Call.ask question).perform load directory =
      (.answered (question.answerOf directory.root catalog), directory) := by
  rw [perform, question.put_eq, ask_of_held held]

theorem Call.perform_ask_of_unloaded
    (question : Question)
    (unloaded : directory.catalog = none)
    (load : Load) :
    (Call.ask question).perform load directory =
      (.answered ((loadCatalog load).bind (question.answerOf directory.root)),
        directory.hold (loadCatalog load)) := by
  rw [perform, question.put_eq, ask_of_unloaded unloaded]

theorem isLoaded_eq_false : directory.isLoaded = false ↔ directory.catalog = none :=
  Option.isSome_eq_false_iff.trans Option.isNone_iff_eq_none

theorem isLoaded_eq_true :
    directory.isLoaded = true ↔ ∃ catalog, directory.catalog = some catalog :=
  Option.isSome_iff_exists

/-- A call that loads holds what the load gives; its fault is the one of the reply. -/
theorem Call.perform_of_loads
    (loads : call.loads directory = true)
    (load : Load) :
    (call.perform load directory).2 = directory.hold (loadCatalog load) ∧
      ∀ fault, loadCatalog load = .error fault →
        (call.perform load directory).1.fault? = some fault := by
  cases call with
  | ask question =>
      have unloaded : directory.catalog = none := by
        simpa [Call.loads, isLoaded_eq_false] using loads
      rw [perform_ask_of_unloaded question unloaded]
      refine ⟨rfl, fun fault failed => ?_⟩
      rw [failed]
      rfl
  | reload =>
      refine ⟨rfl, fun fault failed => ?_⟩
      rw [perform, Directory.reload, failed]
      rfl
  | stats source => cases loads
  | size => cases loads
  | isLoaded => cases loads

/-- A call that does not load changes nothing and does not depend on what a load would give. -/
theorem Call.perform_of_not_loads
    (noLoad : call.loads directory = false)
    (load : Load) :
    (call.perform load directory).2 = directory ∧
      ∀ other, call.perform other directory = call.perform load directory := by
  cases call with
  | ask question =>
      have isLoaded : directory.isLoaded = true := by
        simpa [Call.loads] using noLoad
      obtain ⟨catalog, held⟩ := isLoaded_eq_true.mp isLoaded
      rw [perform_ask_of_held question held]
      exact ⟨rfl, fun other => perform_ask_of_held question held other⟩
  | reload => cases noLoad
  | stats source => exact ⟨rfl, fun _ => rfl⟩
  | size => exact ⟨rfl, fun _ => rfl⟩
  | isLoaded => exact ⟨rfl, fun _ => rfl⟩

/-- How often the source was loaded in vain is seen in no reply. -/
theorem Call.perform_loadedInVain (load : Load) :
    call.perform load directory.loadedInVain =
      ((call.perform load directory).1, (call.perform load directory).2.loadedInVain) := by
  cases call with
  | ask question =>
      cases held : directory.catalog with
      | none =>
          have stillUnloaded : directory.loadedInVain.catalog = none := held
          rw [perform_ask_of_unloaded question held,
            perform_ask_of_unloaded question stillUnloaded, hold_loadedInVain]
          rfl
      | some catalog =>
          have stillHeld : directory.loadedInVain.catalog = some catalog := held
          rw [perform_ask_of_held question held, perform_ask_of_held question stillHeld]
          rfl
  | reload =>
      simp only [perform, Directory.reload, hold_loadedInVain]
  | stats source => rfl
  | size => rfl
  | isLoaded => rfl

end Step

/-- One call in a session. -/
structure Turn where
  before : Directory
  call : Call
  reply : Reply
  after : Directory

namespace Turn

/-- Make a call while loads give one listing or fault after another. -/
def of (gives : Nat → Except DirectoryFault Listing) (directory : Directory) (call : Call) : Turn :=
  let performed := call.perform (fun _ => gives directory.loads) directory
  ⟨directory, call, performed.1, performed.2⟩

/-- Whether the source was loaded for the call. -/
def loads (turn : Turn) : Bool :=
  turn.call.loads turn.before

end Turn

/-- Make calls one after another. -/
def session (gives : Nat → Except DirectoryFault Listing) (directory : Directory) :
    List Call → List Turn
  | [] => []
  | call :: rest =>
      let turn := Turn.of gives directory call
      turn :: session gives turn.after rest

/--
What calls keep, along the turns that were made before, holds before and after each turn of a
session.  A turn is a call of the directory that it finds, and other calls follow it.
-/
theorem session_induction
    {gives : Nat → Except DirectoryFault Listing}
    {directory : Directory}
    {motive : List Turn → Directory → Prop}
    (initially : motive [] directory)
    (kept : ∀ done held call, motive done held →
      motive (done ++ [Turn.of gives held call]) (Turn.of gives held call).after)
    {calls : List Call}
    {earlier later : List Turn}
    {turn : Turn}
    (split : session gives directory calls = earlier ++ turn :: later) :
    ∃ held call, turn = Turn.of gives held call ∧ motive earlier held ∧
      motive (earlier ++ [turn]) turn.after ∧ ∃ rest, later = session gives turn.after rest := by
  induction earlier generalizing directory calls motive with
  | nil =>
      cases calls with
      | nil =>
          cases split
      | cons call rest =>
          obtain ⟨rfl, rfl⟩ := List.cons.inj split
          exact ⟨directory, call, rfl, initially, kept [] directory call initially, rest, rfl⟩
  | cons first earlier inductionHypothesis =>
      cases calls with
      | nil =>
          cases split
      | cons call rest =>
          obtain ⟨rfl, restSplit⟩ := List.cons.inj split
          exact inductionHypothesis (kept [] directory call initially)
            (fun done held next holds => kept (_ :: done) held next holds) restSplit

/--
A directory holds the catalog of the latest load that gave one: a load that succeeded, and of
which the listing makes a catalog.
-/
def HoldsLatest (gives : Nat → Except DirectoryFault Listing) (directory : Directory) : Prop :=
  ∀ catalog, directory.catalog = some catalog ↔
    ∃ latest < directory.loads, loadCatalog (fun _ => gives latest) = .ok catalog ∧
      ∀ later, latest < later → later < directory.loads →
        ∀ other, loadCatalog (fun _ => gives later) ≠ .ok other

section Turns

variable
  {gives : Nat → Except DirectoryFault Listing}
  {directory : Directory}

theorem holdsLatest_unloaded (root : Option String) : (unloaded root).HoldsLatest gives := by
  intro catalog
  constructor
  · intro held
    cases held
  · rintro ⟨latest, isBefore, -⟩
    cases isBefore

/-- One more load makes what it gives the latest, if it gives a catalog. -/
theorem HoldsLatest.hold
    (holds : directory.HoldsLatest gives) :
    (directory.hold (loadCatalog fun _ => gives directory.loads)).HoldsLatest gives := by
  intro catalog
  cases loaded : loadCatalog fun _ => gives directory.loads with
  | ok found =>
      rw [loads_hold]
      constructor
      · rintro ⟨⟩
        refine ⟨directory.loads, Nat.lt_succ_self _, loaded, ?_⟩
        intro later isLater isBefore
        omega
      · rintro ⟨latest, isBefore, given, isLatest⟩
        rcases Nat.lt_succ_iff_lt_or_eq.mp isBefore with isEarlier | rfl
        · exact absurd loaded (isLatest _ isEarlier (Nat.lt_succ_self _) found)
        · exact congrArg some (Except.ok.inj (loaded.symm.trans given))
  | error fault =>
      rw [loads_hold, hold_error, loadedInVain, holds catalog]
      constructor
      · rintro ⟨latest, isBefore, given, isLatest⟩
        refine ⟨latest, Nat.lt_succ_of_lt isBefore, given, ?_⟩
        intro later isLater isWithin other gaveOther
        rcases Nat.lt_succ_iff_lt_or_eq.mp isWithin with isEarlier | rfl
        · exact isLatest later isLater isEarlier other gaveOther
        · cases loaded.symm.trans gaveOther
      · rintro ⟨latest, isWithin, given, isLatest⟩
        rcases Nat.lt_succ_iff_lt_or_eq.mp isWithin with isBefore | rfl
        · exact ⟨latest, isBefore, given, fun later isLater isEarlier =>
            isLatest later isLater (Nat.lt_succ_of_lt isEarlier)⟩
        · cases loaded.symm.trans given

namespace Turn

variable {call : Call}

theorem after_of_loads
    (loads : call.loads directory = true) :
    (Turn.of gives directory call).after =
      directory.hold (loadCatalog fun _ => gives directory.loads) :=
  (Call.perform_of_loads loads _).1

theorem after_of_not_loads
    (noLoad : call.loads directory = false) :
    (Turn.of gives directory call).after = directory :=
  (Call.perform_of_not_loads noLoad _).1

/-- A question is answered from what is held, and changes nothing then. -/
theorem of_ask_of_held
    {catalog : Catalog}
    (held : directory.catalog = some catalog)
    (question : Question) :
    (Turn.of gives directory (.ask question)).reply =
        .answered (question.answerOf directory.root catalog) ∧
      (Turn.of gives directory (.ask question)).after = directory := by
  rw [Turn.of, Call.perform_ask_of_held question held]
  exact ⟨rfl, rfl⟩

theorem holdsLatest
    (holds : directory.HoldsLatest gives) :
    (Turn.of gives directory call).after.HoldsLatest gives := by
  cases loads : call.loads directory with
  | true =>
      rw [after_of_loads loads]
      exact holds.hold
  | false =>
      rw [after_of_not_loads loads]
      exact holds

theorem loads_after :
    (Turn.of gives directory call).after.loads =
      directory.loads + if (Turn.of gives directory call).loads then 1 else 0 := by
  change _ = directory.loads + if call.loads directory then 1 else 0
  cases loads : call.loads directory with
  | true =>
      rw [after_of_loads loads]
      cases loadCatalog fun _ => gives directory.loads <;> rfl
  | false =>
      rw [after_of_not_loads loads]
      rfl

/-- What is held stays, but for a reload that succeeds. -/
theorem held_after
    {catalog : Catalog}
    (held : directory.catalog = some catalog)
    (noReload : ∀ records, (Turn.of gives directory call).reply ≠ .reloaded (.ok records)) :
    (Turn.of gives directory call).after.catalog = some catalog ∧
      (Turn.of gives directory call).after.root = directory.root := by
  cases loads : call.loads directory with
  | false =>
      rw [after_of_not_loads loads]
      exact ⟨held, rfl⟩
  | true =>
      have isReload : call = .reload := by
        cases call <;> simp [Call.loads, isLoaded, held] at loads ⊢
      subst isReload
      rw [after_of_loads loads]
      cases loaded : loadCatalog fun _ => gives directory.loads with
      | ok found =>
          refine absurd ?_ (noReload found.size)
          simp only [Turn.of, Call.perform, reload, loaded]
          rfl
      | error fault =>
          exact ⟨held, rfl⟩

theorem isLoaded_after
    (isLoaded : directory.isLoaded = true) :
    (Turn.of gives directory call).after.isLoaded = true := by
  cases loads : call.loads directory with
  | false =>
      rw [after_of_not_loads loads]
      exact isLoaded
  | true =>
      rw [after_of_loads loads]
      cases loadCatalog fun _ => gives directory.loads with
      | ok found => rfl
      | error fault => exact isLoaded

end Turn

end Turns

section Session

variable
  {gives : Nat → Except DirectoryFault Listing}
  {directory : Directory}
  {calls : List Call}

/-- A turn of a session is a call, behind which the session goes on. -/
theorem session_goes_on
    {earlier later : List Turn}
    {turn : Turn}
    (split : session gives directory calls = earlier ++ turn :: later) :
    ∃ held call rest, turn = Turn.of gives held call ∧ later = session gives turn.after rest := by
  obtain ⟨held, call, isTurn, -, -, rest, goesOn⟩ :=
    session_induction (motive := fun _ _ => True) trivial (fun _ _ _ _ => trivial) split
  exact ⟨held, call, rest, isTurn, goesOn⟩

theorem exists_call_of_mem
    {turn : Turn}
    (isHere : turn ∈ session gives directory calls) :
    ∃ held call, turn = Turn.of gives held call := by
  obtain ⟨earlier, later, split⟩ := List.append_of_mem isHere
  obtain ⟨held, call, -, isTurn, -⟩ := session_goes_on split
  exact ⟨held, call, isTurn⟩

theorem isLoaded_of_session
    (isLoaded : directory.isLoaded = true) :
    ∀ turn ∈ session gives directory calls, turn.before.isLoaded ∧ turn.after.isLoaded := by
  intro turn isHere
  obtain ⟨earlier, later, split⟩ := List.append_of_mem isHere
  obtain ⟨held, call, rfl, before, after, -⟩ :=
    session_induction (motive := fun _ held => held.isLoaded = true) isLoaded
      (fun _ _ _ => Turn.isLoaded_after) split
  exact ⟨before, after⟩

theorem holdsLatest_of_session
    (holds : directory.HoldsLatest gives) :
    ∀ turn ∈ session gives directory calls,
      turn.before.HoldsLatest gives ∧ turn.after.HoldsLatest gives := by
  intro turn isHere
  obtain ⟨earlier, later, split⟩ := List.append_of_mem isHere
  obtain ⟨held, call, rfl, before, after, -⟩ :=
    session_induction (motive := fun _ held => held.HoldsLatest gives) holds
      (fun _ _ _ => Turn.holdsLatest) split
  exact ⟨before, after⟩

theorem loads_of_session
    {earlier later : List Turn}
    {turn : Turn}
    (split : session gives directory calls = earlier ++ turn :: later) :
    turn.after.loads = directory.loads + (earlier ++ [turn]).countP Turn.loads := by
  obtain ⟨held, call, rfl, -, counted, -⟩ :=
    session_induction
      (motive := fun done held => held.loads = directory.loads + done.countP Turn.loads) rfl
      (fun done held call counted => by
        rw [Turn.loads_after, counted, List.countP_append, List.countP_singleton,
          Nat.add_assoc])
      split
  exact counted

/-- What is held is held until a reload succeeds. -/
theorem held_of_session
    {catalog : Catalog}
    (held : directory.catalog = some catalog)
    {earlier later : List Turn}
    {turn : Turn}
    (split : session gives directory calls = earlier ++ turn :: later)
    (noReload : ∀ turn ∈ earlier, ∀ records, turn.reply ≠ .reloaded (.ok records)) :
    turn.before.catalog = some catalog ∧ turn.before.root = directory.root := by
  obtain ⟨found, call, rfl, stays, -⟩ :=
    session_induction
      (motive := fun done found =>
        (∀ turn ∈ done, ∀ records, turn.reply ≠ .reloaded (.ok records)) →
          found.catalog = some catalog ∧ found.root = directory.root)
      (fun _ => ⟨held, rfl⟩)
      (fun done found call stays noReload => by
        obtain ⟨noneDone, noneNow⟩ := List.forall_mem_append.mp noReload
        obtain ⟨stillHeld, sameRoot⟩ := stays noneDone
        obtain ⟨afterHeld, afterRoot⟩ :=
          Turn.held_after stillHeld (noneNow _ (List.mem_singleton_self _))
        exact ⟨afterHeld, afterRoot.trans sameRoot⟩)
      split
  exact stays noReload

/-- A load in vain is as if it had not been among the loads. -/
theorem replies_loadedInVain :
    (session gives directory.loadedInVain calls).map Turn.reply =
      (session (fun number => gives (number + 1)) directory calls).map Turn.reply := by
  induction calls generalizing directory with
  | nil =>
      rfl
  | cons call rest inductionHypothesis =>
      let next := Turn.of (fun number => gives (number + 1)) directory call
      have ofVain : Turn.of gives directory.loadedInVain call =
          ⟨directory.loadedInVain, call, next.reply, next.after.loadedInVain⟩ := by
        rw [Turn.of, Call.perform_loadedInVain]
        rfl
      rw [session, ofVain, List.map_cons, inductionHypothesis]
      rfl

/-- A load that fails is seen in the reply, and in nothing afterwards. -/
theorem failed_of_session
    {turn : Turn}
    (isHere : turn ∈ session gives directory calls)
    (loads : turn.loads = true)
    {fault : DirectoryFault}
    (failed : loadCatalog (fun _ => gives turn.before.loads) = .error fault) :
    turn.reply.fault? = some fault ∧
      ∀ calls, (session gives turn.after calls).map Turn.reply =
        (session (fun number => gives (number + 1)) turn.before calls).map Turn.reply := by
  obtain ⟨held, call, rfl⟩ := exists_call_of_mem isHere
  have callLoads : call.loads held = true := loads
  have loadFailed : loadCatalog (fun _ => gives held.loads) = .error fault := failed
  have replied := (Call.perform_of_loads callLoads fun _ => gives held.loads).2 fault failed
  refine ⟨replied, fun calls => ?_⟩
  rw [Turn.after_of_loads callLoads, loadFailed, hold_error]
  exact replies_loadedInVain

theorem unread_of_session
    {turn : Turn}
    (isHere : turn ∈ session gives directory calls)
    (noLoad : turn.loads = false) :
    turn.after = turn.before ∧
      ∀ load, turn.call.perform load turn.before = (turn.reply, turn.before) := by
  obtain ⟨held, call, rfl⟩ := exists_call_of_mem isHere
  obtain ⟨unchanged, unread⟩ := Call.perform_of_not_loads noLoad fun _ => gives held.loads
  exact ⟨unchanged, fun load => (unread load).trans (Prod.ext rfl unchanged)⟩

/-- A question to a loaded directory is answered in the same way until a reload succeeds. -/
theorem sameReply_of_session
    {earlier between later : List Turn}
    {first second : Turn}
    (split : session gives directory calls = earlier ++ first :: (between ++ second :: later))
    (isLoaded : first.before.isLoaded = true)
    {question : Question}
    (firstAsks : first.call = .ask question)
    (secondAsks : second.call = .ask question)
    (noReload : ∀ turn ∈ between, ∀ records, turn.reply ≠ .reloaded (.ok records)) :
    first.reply = second.reply := by
  obtain ⟨found, call, rest, rfl, restSplit⟩ := session_goes_on split
  obtain rfl : call = .ask question := firstAsks
  obtain ⟨catalog, held⟩ : ∃ catalog, found.catalog = some catalog :=
    isLoaded_eq_true.mp isLoaded
  obtain ⟨replied, unchanged⟩ := Turn.of_ask_of_held held question
  rw [unchanged] at restSplit
  obtain ⟨secondHeld, sameRoot⟩ := held_of_session held restSplit.symm noReload
  have isSecond : second ∈ session gives found rest := by
    rw [← restSplit]
    exact List.mem_append_right _ List.mem_cons_self
  obtain ⟨other, call, rfl⟩ := exists_call_of_mem isSecond
  obtain rfl : call = .ask question := secondAsks
  obtain ⟨secondReplied, -⟩ := Turn.of_ask_of_held secondHeld question
  have rootStays : other.root = found.root := sameRoot
  rw [replied, ← rootStays]
  exact secondReplied.symm

end Session

/--
What is said of the turns of a session with a directory that was not loaded at first, while the
loads of its source give one listing or fault after another.
-/
structure Lawful (gives : Nat → Except DirectoryFault Listing) (turns : List Turn) : Prop where
  staysLoaded :
    ∀ earlier turn later, turns = earlier ++ turn :: later →
      (turn.before.isLoaded → turn.after.isLoaded) ∧
        (turn.after.isLoaded → ∀ next ∈ later, next.before.isLoaded ∧ next.after.isLoaded)
  holdsLatest :
    ∀ turn ∈ turns, turn.before.HoldsLatest gives ∧ turn.after.HoldsLatest gives
  -- Whatever is called afterwards is replied to as if the failed load had not been among the
  -- loads and the call had not been made.
  failed :
    ∀ turn ∈ turns, turn.loads →
      ∀ fault, loadCatalog (fun _ => gives turn.before.loads) = .error fault →
        turn.reply.fault? = some fault ∧
          ∀ calls, (session gives turn.after calls).map Turn.reply =
            (session (fun number => gives (number + 1)) turn.before calls).map Turn.reply
  unread :
    ∀ turn ∈ turns, turn.loads = false →
      turn.after = turn.before ∧
        ∀ load, turn.call.perform load turn.before = (turn.reply, turn.before)
  counted :
    ∀ earlier turn later, turns = earlier ++ turn :: later →
      turn.after.loads = (earlier ++ [turn]).countP Turn.loads
  sameReply :
    ∀ earlier first between second later,
      turns = earlier ++ first :: (between ++ second :: later) →
        first.before.isLoaded →
          ∀ question, first.call = .ask question → second.call = .ask question →
            (∀ turn ∈ between, ∀ records, turn.reply ≠ .reloaded (.ok records)) →
              first.reply = second.reply

/--
Whatever the loads of a source give and whatever calls are made of a directory, one after
another: it stays loaded once it is, it holds what the latest load gave that gave a catalog, a
load that fails is seen in nothing but its own reply, there is one load for each reload and for
each question while nothing is held and none for other calls, and a question is answered alike
until a reload succeeds.
-/
theorem session_lawful
    (gives : Nat → Except DirectoryFault Listing)
    (root : Option String)
    (calls : List Call) :
    Lawful gives (session gives (unloaded root) calls) := by
  refine ⟨?_, holdsLatest_of_session (holdsLatest_unloaded root), ?_, ?_, ?_, ?_⟩
  · intro earlier turn later split
    obtain ⟨held, call, rest, rfl, rfl⟩ := session_goes_on split
    exact ⟨Turn.isLoaded_after, isLoaded_of_session⟩
  · intro turn isHere loads fault failed
    exact failed_of_session isHere loads failed
  · intro turn isHere noLoad
    exact unread_of_session isHere noLoad
  · intro earlier turn later split
    rw [loads_of_session split]
    exact Nat.zero_add _
  · intro earlier first between second later split isLoaded question firstAsks secondAsks
    exact sameReply_of_session split isLoaded firstAsks secondAsks

-- The first load fails, and the source is empty from then on.
example :
    (session (fun number => if number = 0 then .error (.unavailable "not yet") else .ok ⟨none, []⟩)
        (unloaded none) [.ask .issues, .size, .ask .issues, .reload, .isLoaded]).map
        (fun turn => (turn.after.isLoaded, turn.after.loads)) =
      [(false, 1), (false, 1), (true, 2), (true, 3), (true, 3)] := by
  cbv

end ActivityCatalog.Directory
