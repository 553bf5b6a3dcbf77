import ActivityCatalog.Proofs.Navigation.Extent

namespace ActivityCatalog.Catalog

/-!
# Navigation trees and walks down to the same depth

A navigation tree shows nothing but what a walk down the subs finds within the same
depth, and it may show less.  An activity is expanded at its first place in preorder;
when that place lies at the end of a detour, the depth limit cuts off what a shorter
chain would still reach, and the nearer place is only marked as repeated.

How far down a tree is complete depends on the records that it cuts off too early:
on whether their subs are shown elsewhere.  A deeper tree can hide what a shallower one
shows, since the longer detour is then expanded.
-/

/-- The navigation tree of a limit shows all that lies within some depth. -/
def ShowsWithin (catalog : Catalog) (root : Activity) (locale : String) (limit depth : Nat) :
    Prop :=
  ∀ key, catalog.Within root (some depth) key → key ∈ (catalog.navTree root locale limit).keys

/-- The subs of all records that the tree cuts off above some depth are shown elsewhere in it. -/
def ShowsCutSubs (catalog : Catalog) (root : Activity) (locale : String) (limit depth : Nat) :
    Prop :=
  ∀ length record,
    catalog.Chain .down root length record →
    length < depth →
    ∀ cut ∈ (catalog.navTree root locale limit).cutKeys, record.key? = some cut →
    ∀ sub, catalog.LinksTo .down record sub →
    ∀ key, sub.key? = some key → key ∈ (catalog.navTree root locale limit).keys

section Tree

variable
  {catalog : Catalog}
  {root : Activity}
  {locale : String}
  {limit depth : Nat}

theorem Closed.showsWithin_iff
    (closed : catalog.Closed)
    (member : root ∈ catalog.records) :
    catalog.ShowsWithin root locale limit depth ↔
      catalog.ShowsCutSubs root locale limit depth := by
  constructor
  · intro showsAll length record chain above _ _ _ sub linked key keyed
    apply showsAll
    apply (closed.within_iff member).mpr
    refine ⟨length + 1, sub, .link chain linked, ?_, keyed⟩
    rintro bound ⟨⟩
    exact above
  · intro showsSubs key within
    obtain ⟨length, record, chain, short, keyed⟩ := (closed.within_iff member).mp within
    apply closed.mem_keys_of_chain member _ chain short keyed
    intro length record chain above
    exact showsSubs length record chain (above depth rfl)

/--
The navigation tree of a record of a built catalog shows nothing but the record and what
a walk down its subs gives out within the depth limit of the tree.  It shows all that
lies within some depth exactly when it shows the subs of every record that it cuts off
although a chain shorter than that depth leads to it; and if so, it shows whatever the
tree with that depth as its limit does.
-/
theorem navTree_within
    {listing : Listing}
    (built : build listing = .ok catalog)
    (member : root ∈ catalog.records)
    (locale : String)
    (limit : Nat) :
    (∀ key ∈ (catalog.navTree root locale limit).keys, catalog.Within root (some limit) key) ∧
      ∀ depth,
        (catalog.ShowsWithin root locale limit depth ↔
          catalog.ShowsCutSubs root locale limit depth) ∧
        (catalog.ShowsWithin root locale limit depth →
          (catalog.navTree root locale depth).keys ⊆ (catalog.navTree root locale limit).keys) := by
  have closed := closed_of_build built
  refine ⟨fun key => closed.within_of_mem_keys member, fun depth => ?_⟩
  refine ⟨closed.showsWithin_iff member, ?_⟩
  intro showsAll key shown
  exact showsAll key (closed.within_of_mem_keys member shown)

end Tree

/-- A room of an inn. -/
def room : Activity :=
  .stub "room" "1"

/-- An inn with a room. -/
def inn : Activity :=
  (Activity.stub "inn" "1").withSub room

/-- A village with an inn. -/
def village : Activity :=
  (Activity.stub "village" "1").withSub (.stub "inn" "1")

/-- A pass that leads to the village. -/
def pass : Activity :=
  (Activity.stub "pass" "1").withSub (.stub "village" "1")

/-- A detour over the pass. -/
def detour : Activity :=
  (Activity.stub "detour" "1").withSub (.stub "pass" "1")

/-- A journey by the detour first, although the village can be reached directly. -/
def journey : Activity :=
  ((Activity.stub "journey" "1").withSub (.stub "detour" "1")).withSub (.stub "village" "1")

/-- The listing of the journey. -/
def journeyListing : Listing :=
  .rooted [journey, detour, pass, village, inn, room]

/-- What the catalog of the journey holds. -/
def journeyEntries : List Entry :=
  [ ⟨⟨"journey", "1"⟩, journey, true⟩, ⟨⟨"detour", "1"⟩, detour, true⟩,
    ⟨⟨"pass", "1"⟩, pass, true⟩, ⟨⟨"village", "1"⟩, village, true⟩,
    ⟨⟨"inn", "1"⟩, inn, true⟩, ⟨⟨"room", "1"⟩, room, true⟩ ]

/-- The catalog of the journey. -/
def journeyCatalog : Catalog :=
  let found : Catalog := ⟨journeyEntries, 6, none, []⟩
  { found with root := some "journey", issues := found.findIssues }

theorem build_journeyListing : build journeyListing = .ok journeyCatalog :=
  build_eq_ok.mpr
    ⟨⟨journeyEntries, 6, none, []⟩, ⟨journeyEntries, 6, none, []⟩, rfl, rfl, rfl⟩

/-- Three levels of the journey: the village is cut off on the detour and expanded after it. -/
def shallowTree : NavNode :=
  { NavNode.leaf journey "en" with
    children :=
      [ { NavNode.leaf detour "en" with
          children :=
            [ { NavNode.leaf pass "en" with
                children := [{ NavNode.leaf village "en" with truncated := true }] } ] },
        { NavNode.leaf village "en" with
          children :=
            [ { NavNode.leaf inn "en" with
                children := [NavNode.leaf room "en"] } ] } ] }

/-- Four levels of the journey: the village is expanded on the detour, and its inn cut off. -/
def deepTree : NavNode :=
  { NavNode.leaf journey "en" with
    children :=
      [ { NavNode.leaf detour "en" with
          children :=
            [ { NavNode.leaf pass "en" with
                children :=
                  [ { NavNode.leaf village "en" with
                      children := [{ NavNode.leaf inn "en" with truncated := true }] } ] } ] },
        { NavNode.leaf village "en" with repeated := true } ] }

theorem navTree_shallow : journeyCatalog.navTree journey "en" 3 = shallowTree := by
  have grows :
      Grows journeyCatalog "en" 3 [] [] [journey] _ _ :=
    .expand rfl
      (.expand rfl
        (.expand rfl (.leaf rfl (.done _ _)) (.done _ _))
        (.expand rfl
          (.expand rfl (.leaf rfl (.done _ _)) (.done _ _))
          (.done _ _)))
      (.done _ _)
  exact (List.head_eq_of_cons_eq (navTree_of_grows grows)).symm

theorem navTree_deep : journeyCatalog.navTree journey "en" 4 = deepTree := by
  have grows :
      Grows journeyCatalog "en" 4 [] [] [journey] _ _ :=
    .expand rfl
      (.expand rfl
        (.expand rfl
          (.expand rfl (.leaf rfl (.done _ _)) (.done _ _))
          (.done _ _))
        (.leaf rfl (.done _ _)))
      (.done _ _)
  exact (List.head_eq_of_cons_eq (navTree_of_grows grows)).symm

theorem keys_shallow :
    (journeyCatalog.navTree journey "en" 3).keys =
        [⟨"journey", "1"⟩, ⟨"detour", "1"⟩, ⟨"pass", "1"⟩, ⟨"village", "1"⟩, ⟨"village", "1"⟩,
          ⟨"inn", "1"⟩, ⟨"room", "1"⟩] ∧
      (journeyCatalog.navTree journey "en" 3).cutKeys = [⟨"village", "1"⟩] := by
  rw [navTree_shallow]
  exact ⟨rfl, rfl⟩

theorem keys_deep :
    (journeyCatalog.navTree journey "en" 4).keys =
        [⟨"journey", "1"⟩, ⟨"detour", "1"⟩, ⟨"pass", "1"⟩, ⟨"village", "1"⟩, ⟨"inn", "1"⟩,
          ⟨"village", "1"⟩] ∧
      (journeyCatalog.navTree journey "en" 4).cutKeys = [⟨"inn", "1"⟩] := by
  rw [navTree_deep]
  exact ⟨rfl, rfl⟩

theorem room_hidden :
    (⟨"room", "1"⟩ : Key) ∉ (journeyCatalog.navTree journey "en" 4).keys := by
  rw [keys_deep.1]
  decide

/-- The inn is two links away, by way of the village. -/
theorem chain_inn : journeyCatalog.Chain .down journey 2 inn := by
  have toVillage : journeyCatalog.LinksTo .down journey village :=
    List.mem_cons_of_mem _ List.mem_cons_self
  have toInn : journeyCatalog.LinksTo .down village inn :=
    List.mem_cons_self
  exact .link (.link .start toVillage) toInn

theorem inn_linksTo_room : journeyCatalog.LinksTo .down inn room :=
  List.mem_cons_self

/--
The room of the inn is three links away from the journey.  The tree of three levels shows
it, and that of four does not: there the village is expanded on the detour.
-/
theorem navTree_misses_room :
    build journeyListing = .ok journeyCatalog ∧
      journey ∈ journeyCatalog.records ∧
      ¬(∀ key,
        key ∈ (journeyCatalog.navTree journey "en" 4).keys ↔
          journeyCatalog.Within journey (some 4) key) ∧
      ¬(journeyCatalog.navTree journey "en" 3).keys ⊆
        (journeyCatalog.navTree journey "en" 4).keys := by
  have member : journey ∈ journeyCatalog.records :=
    List.mem_cons_self
  have within : journeyCatalog.Within journey (some 4) ⟨"room", "1"⟩ := by
    apply ((closed_of_build build_journeyListing).within_iff member).mpr
    refine ⟨3, room, .link chain_inn inn_linksTo_room, ?_, rfl⟩
    rintro bound ⟨⟩
    decide
  refine ⟨build_journeyListing, member, ?_, ?_⟩
  · intro same
    exact room_hidden ((same _).mpr within)
  · intro subset
    apply room_hidden
    apply subset
    rw [keys_shallow.1]
    decide

/--
Three levels of the journey show all within three, for the village that they cut off is
expanded as well; four levels do not show all within four, for the inn is cut off.
-/
theorem navTree_within_journey :
    build journeyListing = .ok journeyCatalog ∧
      journey ∈ journeyCatalog.records ∧
      journeyCatalog.ShowsWithin journey "en" 3 3 ∧
      ¬journeyCatalog.ShowsWithin journey "en" 4 4 := by
  have member : journey ∈ journeyCatalog.records :=
    List.mem_cons_self
  have closed := closed_of_build build_journeyListing
  have shallow := (navTree_within build_journeyListing member "en" 3).2 3
  have deep := (navTree_within build_journeyListing member "en" 4).2 4
  refine ⟨build_journeyListing, member, shallow.1.mpr ?_, fun showsAll => ?_⟩
  · intro length record chain _ cut isCut keyed sub linked key subKeyed
    rw [keys_shallow.2, List.mem_singleton] at isCut
    have isVillage : record = village := by
      apply closed.eq_of_key?_eq (closed.mem_records_of_chain member chain)
      · exact .tail _ (.tail _ (.tail _ (.head _)))
      · rw [keyed, isCut]
        rfl
    rw [isVillage] at linked
    obtain rfl : sub = inn := List.mem_singleton.mp linked
    cases subKeyed
    rw [keys_shallow.1]
    decide
  · have isCut : ⟨"inn", "1"⟩ ∈ (journeyCatalog.navTree journey "en" 4).cutKeys := by
      rw [keys_deep.2]
      decide
    apply room_hidden
    exact deep.1.mp showsAll 2 inn chain_inn (by decide) _ isCut rfl room inn_linksTo_room _ rfl

end ActivityCatalog.Catalog
