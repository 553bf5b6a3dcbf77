import ActivityCatalog.Directory
import ActivityCatalog.Proofs.Catalog.Reach
import ActivityCatalog.Proofs.Navigation.Marks

namespace ActivityCatalog

/-!
# Directories answer with clean records

Whatever a directory was asked and however often it was reloaded, it holds a
catalog that was built, or none.  A built catalog is closed, so everything that is
reached along links from its records is one of its records: valid, in normal form
and never an embedded record in its place.
-/

namespace Catalog

variable {catalog : Catalog}

theorem mem_records_of_latest
    {id : String}
    {activity : Activity}
    (found : catalog.latest id = .ok activity) :
    activity ∈ catalog.records := by
  unfold latest at found
  split at found
  · rename_i record stands
    cases found
    exact mem_records_of_get? stands
  · cases found

theorem mem_records_of_mainActivity
    {choice : Option String}
    {root : Activity}
    (found : catalog.mainActivity choice = .ok root) :
    root ∈ catalog.records := by
  unfold mainActivity at found
  split at found
  · cases found
  · split at found
    · rename_i record stands
      cases found
      exact mem_records_of_get? stands
    · cases found

namespace Closed

/-- What the latest version of an id links to are records of the catalog. -/
theorem mem_records_of_linkedTo
    (closed : catalog.Closed)
    {id : String}
    {direction : Direction}
    {activities : List Activity}
    (answered : catalog.linkedTo id direction = .ok activities) :
    ∀ activity ∈ activities, activity ∈ catalog.records := by
  obtain ⟨start, found, rfl⟩ := map_eq_ok.mp answered
  intro activity member
  exact closed.mem_records_of_mem_resolveAll (mem_records_of_latest found) member

/-- What is reached from the latest version of an id are records of the catalog. -/
theorem mem_records_of_walkFrom
    (closed : catalog.Closed)
    {id : String}
    {direction : Direction}
    {limit : Option Nat}
    {items : List (Nat × Activity)}
    (answered : catalog.walkFrom id direction limit = .ok items) :
    ∀ item ∈ items, item.2 ∈ catalog.records := by
  obtain ⟨start, found, rfl⟩ := map_eq_ok.mp answered
  intro item member
  exact Traversal.mem_records_of_mem_walk closed (mem_records_of_latest found) member

/-- Every node of a navigation tree shows a record of the catalog. -/
theorem exists_shown
    (closed : catalog.Closed)
    {root : Activity}
    (member : root ∈ catalog.records)
    {locale : String}
    {limit : Nat}
    {position : Position}
    (inTree : position ∈ (catalog.navTree root locale limit).positions []) :
    ∃ record ∈ catalog.records,
      record.key? = some position.node.key ∧ position.node.bare = NavNode.leaf record locale := by
  obtain ⟨-, faithful⟩ := closed.navTree_faithful member locale limit
  obtain ⟨before, after, split⟩ := List.append_of_mem inTree
  rw [split] at faithful
  obtain ⟨record, recordMember, keyed, truthful⟩ := faithful.exists_record
  exact ⟨record, recordMember, keyed, truthful.shown⟩

end Closed

end Catalog

namespace Directory

/-- A question or a reload takes a directory from one state to another. -/
inductive Moves : Directory → Directory → Prop where
  | ask
      {Answer : Type}
      (query : Catalog → Except DirectoryFault Answer)
      (load : Load)
      (directory : Directory) :
      Moves directory (directory.ask query load).2
  | reload (load : Load) (directory : Directory) :
      Moves directory (directory.reload load).2

/-- A directory that was not loaded at first can get into a state. -/
inductive Reached : Directory → Prop where
  | unloaded (root : Option String) :
      Reached (.unloaded root)
  | move
      {before after : Directory} :
      Reached before →
      Moves before after →
      Reached after

/-- If a directory holds a catalog, it was built of some listing. -/
def HoldsBuilt (directory : Directory) : Prop :=
  ∀ catalog, directory.catalog = some catalog →
    ∃ listing, Catalog.build listing = .ok catalog

/-- Loading gives a catalog that was built. -/
theorem exists_built_of_load
    {load : Load}
    {catalog : Catalog}
    (loaded : loadCatalog load = .ok catalog) :
    ∃ listing, Catalog.build listing = .ok catalog := by
  obtain ⟨listing, -, built⟩ := bind_eq_ok.mp loaded
  exact ⟨listing, mapError_eq_ok.mp built⟩

namespace HoldsBuilt

variable {directory : Directory} {load : Load}

theorem hold
    (holdsBuilt : directory.HoldsBuilt) :
    (directory.hold (loadCatalog load)).HoldsBuilt := by
  intro catalog held
  cases loaded : loadCatalog load with
  | ok found =>
      rw [loaded] at held
      obtain rfl : found = catalog := Option.some.inj held
      exact exists_built_of_load loaded
  | error fault =>
      rw [loaded] at held
      exact holdsBuilt catalog held

/-- A directory answers from a catalog that was built, and then holds it. -/
theorem current
    (holdsBuilt : directory.HoldsBuilt) :
    (∀ catalog, (directory.current load).1 = .ok catalog →
        ∃ listing, Catalog.build listing = .ok catalog) ∧
      (directory.current load).2.HoldsBuilt := by
  unfold Directory.current
  split
  · rename_i catalog held
    refine ⟨?_, holdsBuilt⟩
    intro found same
    cases same
    exact holdsBuilt catalog held
  · exact ⟨fun catalog loaded => exists_built_of_load loaded, holdsBuilt.hold⟩

end HoldsBuilt

/-- A move never makes a directory hold what was not built. -/
theorem Moves.holdsBuilt
    {before after : Directory}
    (moves : Moves before after)
    (holdsBuilt : before.HoldsBuilt) :
    after.HoldsBuilt := by
  cases moves with
  | ask query load =>
      exact holdsBuilt.current.2
  | reload load =>
      exact holdsBuilt.hold

theorem Reached.holdsBuilt
    {directory : Directory}
    (reached : directory.Reached) :
    directory.HoldsBuilt := by
  induction reached with
  | unloaded root =>
      intro catalog held
      cases held
  | move _ moves inductionHypothesis =>
      exact moves.holdsBuilt inductionHypothesis

/-- A question is answered when there is a catalog and the catalog has the answer. -/
theorem ask_eq_ok
    {Answer : Type}
    {query : Catalog → Except DirectoryFault Answer}
    {load : Load}
    {directory : Directory}
    {answer : Answer} :
    (directory.ask query load).1 = .ok answer ↔
      ∃ catalog, (directory.current load).1 = .ok catalog ∧ query catalog = .ok answer :=
  bind_eq_ok

/-- A directory that was not loaded yet answers from the catalog of what it loads. -/
theorem current_of_built
    {root : Option String}
    {listing : Listing}
    {catalog : Catalog}
    (built : Catalog.build listing = .ok catalog) :
    ((unloaded root).current fun _ => .ok listing).1 = .ok catalog := by
  change (Catalog.build listing).mapError _ = _
  rw [built]
  rfl

/--
Everything that a directory answers a question about links with is a record of a
catalog, and so is what every node of its navigation tree shows.
-/
structure AnswersFrom (directory : Directory) (load : Load) (catalog : Catalog) : Prop where
  linked :
    ∀ id direction activities,
      (directory.ask (fun current => current.linkedTo id direction) load).1 = .ok activities →
        ∀ activity ∈ activities, activity ∈ catalog.records
  walked :
    ∀ id direction limit items,
      (directory.ask (fun current => current.walkFrom id direction limit) load).1 = .ok items →
        ∀ item ∈ items, item.2 ∈ catalog.records
  shown :
    ∀ (presenter : Presenter) locale depth tree,
      (presenter.navTree locale depth load directory).1 = .ok tree →
        ∀ position ∈ tree.positions [],
          ∃ record ∈ catalog.records,
            record.key? = some position.node.key ∧
              position.node.bare =
                NavNode.leaf record (locale.getD presenter.defaultLocale)

/-- A directory answers from the closed catalog that it holds. -/
theorem answersFrom_of_closed
    {directory : Directory}
    {load : Load}
    {catalog : Catalog}
    (closed : catalog.Closed)
    (current : (directory.current load).1 = .ok catalog) :
    directory.AnswersFrom load catalog := by
  have isCurrent : ∀ {found}, (directory.current load).1 = .ok found → found = catalog := by
    intro found same
    rw [current] at same
    exact (Except.ok.inj same).symm
  refine ⟨?_, ?_, ?_⟩
  · intro id direction activities answered
    obtain ⟨found, held, answer⟩ := ask_eq_ok.mp answered
    obtain rfl := isCurrent held
    exact closed.mem_records_of_linkedTo answer
  · intro id direction limit items answered
    obtain ⟨found, held, answer⟩ := ask_eq_ok.mp answered
    obtain rfl := isCurrent held
    exact closed.mem_records_of_walkFrom answer
  · intro presenter locale depth tree answered position inTree
    obtain ⟨found, held, answer⟩ := ask_eq_ok.mp answered
    obtain rfl := isCurrent held
    obtain ⟨root, isMain, rfl⟩ := map_eq_ok.mp answer
    exact closed.exists_shown (Catalog.mem_records_of_mainActivity isMain) inTree

/--
In a built catalog every record stands under its own key, is valid and in normal
form, and its links with an id lead to records; no link stands for itself.  Every
state of a directory answers from a built catalog, with nothing but its records.
-/
theorem answers_clean :
    (∀ listing catalog,
      Catalog.build listing = .ok catalog →
        ∀ id version record,
          catalog.get? id (some version) = some record →
            id ≠ "" ∧
              record.key? = some ⟨id, version⟩ ∧
              record.normalized = .ok (record, []) ∧
              ∀ direction, ∀ link ∈ record.linked direction,
                catalog.resolve? link = catalog.lookup? link ∧
                  (link.idText ≠ "" →
                    ∃ target ∈ catalog.records, catalog.lookup? link = some target)) ∧
      ∀ (directory : Directory) load catalog,
        directory.Reached →
          (directory.current load).1 = .ok catalog →
            (∃ listing, Catalog.build listing = .ok catalog) ∧
              directory.AnswersFrom load catalog := by
  constructor
  · intro listing catalog built id version record found
    have closed := Catalog.closed_of_build built
    obtain ⟨entry, stands, same⟩ := Option.map_eq_some_iff.mp found
    have member := Catalog.entry?_mem stands
    have keyed := closed.keyed entry member
    rw [Catalog.entry?_key stands, same] at keyed
    have recordMember : record ∈ catalog.records :=
      Catalog.mem_records_of_get? found
    refine ⟨?_, keyed, same ▸ closed.clean entry member, ?_⟩
    · obtain ⟨hasId, isKey⟩ := Activity.key?_eq_some.mp keyed
      cases isKey
      exact hasId
    · intro direction link linked
      exact ⟨closed.resolve?_eq_lookup? recordMember linked,
        closed.exists_lookup? recordMember linked⟩
  · intro directory load catalog reached current
    obtain ⟨listing, built⟩ := reached.holdsBuilt.current.1 catalog current
    exact ⟨⟨listing, built⟩, answersFrom_of_closed (Catalog.closed_of_build built) current⟩

/-- Asked for the subs of the trip, a directory gives the hotel in its normal form. -/
theorem answers_clean_trip :
    Catalog.build Catalog.tripListing = .ok Catalog.tripCatalog ∧
      Reached (.unloaded none) ∧
      ((unloaded none).ask (fun current => current.linkedTo "trip" .down)
          fun _ => .ok Catalog.tripListing).1 = .ok [Catalog.hotel, Catalog.day] ∧
      Catalog.hotel ∈ Catalog.tripCatalog.records ∧
      Catalog.hotel.normalized = .ok (Catalog.hotel, []) := by
  have current :
      ((unloaded none).current fun _ => .ok Catalog.tripListing).1 = .ok Catalog.tripCatalog := by
    change (Catalog.build Catalog.tripListing).mapError _ = _
    rw [Catalog.build_tripListing]
    rfl
  have answered :
      ((unloaded none).ask (fun current => current.linkedTo "trip" .down)
          fun _ => .ok Catalog.tripListing).1 = .ok [Catalog.hotel, Catalog.day] :=
    ask_eq_ok.mpr ⟨Catalog.tripCatalog, current, rfl⟩
  obtain ⟨stored, given⟩ := answers_clean
  obtain ⟨-, answers⟩ := given (unloaded none) _ _ (.unloaded none) current
  have member : Catalog.hotel ∈ Catalog.tripCatalog.records :=
    answers.linked "trip" .down _ answered _ List.mem_cons_self
  obtain ⟨-, -, clean, -⟩ :=
    stored _ _ Catalog.build_tripListing "hotel" "1" Catalog.hotel rfl
  exact ⟨Catalog.build_tripListing, .unloaded none, answered, member, clean⟩

end Directory

end ActivityCatalog
