import ActivityCatalog.Proofs.Catalog.Latest
import ActivityCatalog.Proofs.Directory.Answers
import ActivityCatalog.Proofs.Navigation.Extent

namespace ActivityCatalog

/-!
# What the nodes of a navigation tree are labelled with

A node is labelled with the text for the locale, else with the text for any language, else with
the first text of its record.  Only a record without texts is shown by its id.

A record of a catalog has an id that is not empty, but its texts may be empty: a node is blank
exactly if the text that is chosen for it is.
-/

namespace Label

/-- A text of a label is chosen for a locale. -/
inductive Chosen (label : Label) (locale : String) : String → Prop where
  | own
      {text : String} :
      label.get? locale = some text →
      Chosen label locale text
  | wildcard
      {text : String} :
      label.get? locale = none →
      label.get? anyLanguage = some text →
      Chosen label locale text
  | first
      {language text : String}
      {rest : List (String × String)} :
      label.get? locale = none →
      label.get? anyLanguage = none →
      label.texts = (language, text) :: rest →
      Chosen label locale text

variable
  {label : Label}
  {locale text : String}

theorem display?_eq :
    label.display? locale =
      (label.get? locale).or ((label.get? anyLanguage).or (label.texts.head?.map Prod.snd)) := by
  unfold display? localize?
  cases label.get? locale with
  | some own =>
      rfl
  | none =>
      cases label.get? anyLanguage with
      | some wildcard =>
          rfl
      | none =>
          rfl

/-- The text that is displayed is the chosen one. -/
theorem display?_eq_some : label.display? locale = some text ↔ label.Chosen locale text := by
  rw [display?_eq, Option.or_eq_some_iff, Option.or_eq_some_iff]
  constructor
  · rintro (found | ⟨missing, found | ⟨missingAny, isFirst⟩⟩)
    · exact .own found
    · exact .wildcard missing found
    · obtain ⟨⟨language, _⟩, leads, rfl⟩ := Option.map_eq_some_iff.mp isFirst
      obtain ⟨rest, texts⟩ := List.head?_eq_some_iff.mp leads
      exact .first missing missingAny texts
  · intro chosen
    cases chosen with
    | own found =>
        exact Or.inl found
    | wildcard missing found =>
        exact Or.inr ⟨missing, Or.inl found⟩
    | first missing missingAny texts =>
        exact Or.inr ⟨missing, Or.inr ⟨missingAny, by rw [texts]; rfl⟩⟩

/-- Nothing is displayed only of a label without texts. -/
theorem display?_eq_none : label.display? locale = none ↔ label.texts = [] := by
  rw [display?_eq, Option.or_eq_none_iff, Option.or_eq_none_iff, Option.map_eq_none_iff,
    List.head?_eq_none_iff]
  constructor
  · exact fun nothing => nothing.2.2
  · intro noTexts
    simp [get?, noTexts, Dictionary.get?]

end Label

/-- A text is shown for a record: one of its label or else, if it has none, its id. -/
inductive Activity.ShownAs (record : Activity) (locale : String) : String → Prop where
  | text
      {text : String} :
      record.label.Chosen locale text →
      ShownAs record locale text
  | id :
      record.label.texts = [] →
      ShownAs record locale record.idText

namespace NavNode

variable
  {record : Activity}
  {locale : String}

theorem label_bare (node : NavNode) : node.bare.label = node.label :=
  rfl

theorem label_leaf : record.ShownAs locale (leaf record locale).label := by
  cases displayed : record.label.display? locale with
  | some text =>
      rw [leaf, displayed]
      exact .text (Label.display?_eq_some.mp displayed)
  | none =>
      rw [leaf, displayed]
      exact .id (Label.display?_eq_none.mp displayed)

/-- Only an empty text makes a blank node of a record with an id. -/
theorem label_leaf_eq_empty
    (hasId : record.idText ≠ "") :
    (leaf record locale).label = "" ↔ record.label.Chosen locale "" := by
  rw [← Label.display?_eq_some]
  cases displayed : record.label.display? locale with
  | some text =>
      simp [leaf, displayed]
  | none =>
      simp [leaf, displayed, hasId]

end NavNode

namespace Presenter

/--
Every node of a navigation tree is labelled as its record is shown for the locale, and the id of
that record is not empty.  So a node is blank exactly if the text that is chosen for it is empty.
-/
theorem navTree_labels
    {listing : Listing}
    {catalog : Catalog}
    (built : Catalog.build listing = .ok catalog)
    {presenter : Presenter}
    {locale : Option String}
    {requested : Option Nat}
    {load : Load}
    {directory : Directory}
    {tree : NavNode}
    (current : (directory.current load).1 = .ok catalog)
    (answered : (presenter.navTree locale requested load directory).1 = .ok tree)
    {position : Position}
    (inTree : position ∈ tree.positions []) :
    ∃ record ∈ catalog.records,
      record.key? = some position.node.key ∧
        record.idText ≠ "" ∧
        record.ShownAs (locale.getD presenter.defaultLocale) position.node.label ∧
        (position.node.label = "" ↔
          record.label.Chosen (locale.getD presenter.defaultLocale) "") := by
  have closed := Catalog.closed_of_build built
  have answers := Directory.answersFrom_of_closed closed current
  obtain ⟨record, member, keyed, shown⟩ :=
    answers.shown presenter locale requested tree answered position inTree
  have hasId := closed.idText_ne_empty member
  rw [← NavNode.label_bare position.node, shown]
  exact ⟨record, member, keyed, hasId, NavNode.label_leaf, NavNode.label_leaf_eq_empty hasId⟩

/-- The parts of a voyage: a hotel, a walk and a day. -/
def voyageParts : List Activity :=
  [ { Activity.stub "hotel" "1" with label := .ofList [("*", "Hotel"), ("de", "Gasthof")] },
    { Activity.stub "walk" "1" with label := .ofList [("de", "Wanderung"), ("en", "Walk")] },
    Activity.stub "day" "1" ]

/-- A voyage with its parts. -/
def voyage : Activity :=
  { Activity.stub "voyage" "1" with
    label := .ofList [("de", "Reise"), ("fr", "Voyage")]
    subs := voyageParts }

/-- What the catalog of the voyage holds. -/
def voyageEntries : List Entry :=
  ⟨⟨"voyage", "1"⟩, voyage, true⟩ ::
    voyageParts.map fun part => ⟨⟨part.idText, "1"⟩, part, false⟩

/-- The catalog of the voyage. -/
def voyageCatalog : Catalog :=
  let found : Catalog := ⟨voyageEntries, 4, none, []⟩
  { found with root := some "voyage", issues := found.findIssues }

theorem build_voyage : Catalog.build (.rooted [voyage]) = .ok voyageCatalog :=
  Catalog.build_eq_ok.mpr
    ⟨⟨voyageEntries.take 1, 1, none, []⟩, ⟨voyageEntries, 4, none, []⟩, rfl, rfl, rfl⟩

/-- The tree of the voyage, in which its parts have no children. -/
def voyageTree (locale : String) : NavNode :=
  { NavNode.leaf voyage locale with
    children := voyageParts.map fun part => NavNode.leaf part locale }

theorem navTree_voyage (locale : String) :
    ((Presenter.of locale 8).navTree none none (fun _ => .ok (.rooted [voyage]))
        (.unloaded none)).1 = .ok (voyageTree locale) := by
  have opens :
      voyageCatalog.visit locale 8 voyage 0 [].contains [] =
        (.expand ⟨.leaf voyage locale, ⟨"voyage", "1"⟩, voyageParts⟩, [⟨"voyage", "1"⟩]) :=
    rfl
  have partsGrow :
      Grows voyageCatalog locale 8 [⟨"voyage", "1"⟩] [⟨"voyage", "1"⟩] voyageParts
        (voyageParts.map fun part => NavNode.leaf part locale) [⟨"voyage", "1"⟩] :=
    .leaf rfl (.leaf rfl (.leaf rfl (.done _ _)))
  have grows : Grows voyageCatalog locale 8 [] [] [voyage] _ [⟨"voyage", "1"⟩] :=
    .expand opens partsGrow (.done _ _)
  refine Directory.ask_eq_ok.mpr ⟨voyageCatalog, Directory.current_of_built build_voyage, ?_⟩
  refine map_eq_ok.mpr ⟨voyage, rfl, ?_⟩
  exact (List.head_eq_of_cons_eq (navTree_of_grows grows)).symm

theorem labels_voyageTree :
    ((voyageTree "fr").positions []).map (fun position => position.node.label) =
      ["Voyage", "Hotel", "Wanderung", "day"] := by
  decide +kernel

/--
In French the voyage is shown by its French text, the hotel by its text for any language, the
walk by the first of its texts, which is the German one, and the day by its id.
-/
theorem navTree_labels_french :
    Catalog.build (.rooted [voyage]) = .ok voyageCatalog ∧
      ((Presenter.of "fr" 8).navTree none none (fun _ => .ok (.rooted [voyage]))
          (.unloaded none)).1 = .ok (voyageTree "fr") ∧
      ((voyageTree "fr").positions []).map (fun position => position.node.label) =
        ["Voyage", "Hotel", "Wanderung", "day"] ∧
      ∀ position ∈ (voyageTree "fr").positions [],
        ∃ record ∈ voyageCatalog.records,
          record.key? = some position.node.key ∧
            record.ShownAs "fr" position.node.label ∧
            ¬record.label.Chosen "fr" "" := by
  refine ⟨build_voyage, navTree_voyage "fr", labels_voyageTree, ?_⟩
  intro position inTree
  obtain ⟨record, member, keyed, -, isShown, isBlank⟩ :=
    navTree_labels build_voyage (Directory.current_of_built build_voyage) (navTree_voyage "fr")
      inTree
  have notBlank : position.node.label ≠ "" := by
    have isLabel := List.mem_map_of_mem (f := fun position => position.node.label) inTree
    rw [labels_voyageTree] at isLabel
    intro isEmpty
    rw [isEmpty] at isLabel
    exact absurd isLabel (by decide)
  exact ⟨record, member, keyed, isShown, isBlank.not.mp notBlank⟩

/-- A hotel whose name is left empty in English. -/
def namelessHotel : Activity :=
  { Activity.stub "hotel" "1" with label := .ofList [("de", "Gasthof"), ("en", "")] }

/-- The catalog of the nameless hotel. -/
def namelessCatalog : Catalog :=
  let found : Catalog := ⟨[⟨⟨"hotel", "1"⟩, namelessHotel, true⟩], 1, none, []⟩
  { found with root := some "hotel", issues := found.findIssues }

theorem build_namelessHotel : Catalog.build (.rooted [namelessHotel]) = .ok namelessCatalog :=
  Catalog.build_eq_ok.mpr
    ⟨⟨namelessCatalog.entries, 1, none, []⟩, ⟨namelessCatalog.entries, 1, none, []⟩, rfl, rfl, rfl⟩

theorem navTree_namelessHotel
    (locale : String)
    (configured : Nat) :
    ((Presenter.of locale configured).navTree none none (fun _ => .ok (.rooted [namelessHotel]))
        (.unloaded none)).1 = .ok (NavNode.leaf namelessHotel locale) := by
  refine Directory.ask_eq_ok.mpr
    ⟨namelessCatalog, Directory.current_of_built build_namelessHotel, ?_⟩
  refine map_eq_ok.mpr ⟨namelessHotel, rfl, ?_⟩
  exact (List.head_eq_of_cons_eq (navTree_of_grows (.leaf rfl (.done _ _)))).symm

/-- In English the node of the hotel is blank. -/
theorem navTree_blank :
    ∃ tree,
      ((Presenter.of "en" 8).navTree none none (fun _ => .ok (.rooted [namelessHotel]))
          (.unloaded none)).1 = .ok tree ∧
        ∃ position ∈ tree.positions [],
          position.node.id = "hotel" ∧ position.node.label = "" :=
  ⟨_, navTree_namelessHotel "en" 8, _, NavNode.mem_positions_self _ [], by decide, by decide⟩

end Presenter

end ActivityCatalog
