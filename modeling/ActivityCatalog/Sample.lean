import ActivityCatalog.Listing

namespace ActivityCatalog.Sample

/-!
# The sample listing

Three activities that link to one another in both directions: a project, the
research inside it and a document inside that.
-/

/-- The id of the project. -/
def projectId : String :=
  "aldb.clientcorp.eu/activities/project-x"

/-- The id of the research. -/
def researchId : String :=
  "aldb.clientcorp.eu/activities/rnd"

/-- The id of the document. -/
def documentId : String :=
  "aldb.clientcorp.eu/activities/doc-3"

/-- The address of the role of those who lead. -/
def leadRole : String :=
  "aldb.org/roles/lead"

/-- The address of the role of those who write. -/
def authorRole : String :=
  "aldb.org/roles/author"

/-- The member of staff who takes part in everything. -/
def member : Participator :=
  .person
    { givenName := some "Sam"
      familyName := some "Example"
      email := none
      extensions := [("entityRef", .string "viwi.eu/entities/sam.example")] }

/-- The attributes of a project with a budget. -/
def projectAttributes (amount : Double) : Dictionary AttributeSet :=
  [ ("projo-attrs",
      { manifest := some ⟨some "http://projo.com/schemas/project"⟩
        attributes :=
          [ ("priorityClass", .string "normal"),
            ("totalBudget", .object
              [ ("amount", .number (.double amount)),
                ("currency", .string "EUR") ]) ] }) ]

/-- The attributes of a text. -/
def textAttributes : Dictionary AttributeSet :=
  [ ("text-attrs",
      { manifest := some ⟨some "aldb.org/attribute-manifests/text"⟩
        attributes := [("language", .string "en-gb")] }) ]

/-- The double 456000. -/
def projectBudget : Double :=
  ⟨false, 456000 <<< 34, -34⟩

/-- The double 123000. -/
def researchBudget : Double :=
  ⟨false, 123000 <<< 36, -36⟩

/-- The project, which is the main activity. -/
def project : Activity :=
  { (Activity.stub projectId "1").withLabel Label.anyLanguage "Project X" with
    period := some (.starting "2019-07-25")
    participations := [.ofRoles member [leadRole]]
    subs := [.stub researchId "1"]
    attributeSets := projectAttributes projectBudget }

/-- The research inside the project. -/
def research : Activity :=
  { (Activity.stub researchId "1").withLabel Label.anyLanguage "R&D" with
    period := some (.starting "2020-07-25")
    participations := [.ofRoles member [leadRole]]
    subs := [.stub documentId "1"]
    supers := [.stub projectId "1"]
    attributeSets := projectAttributes researchBudget }

/-- The document inside the research. -/
def document : Activity :=
  { (Activity.stub documentId "1").withLabel Label.anyLanguage "some document" with
    participations := [.ofRoles member [authorRole]]
    supers := [.stub researchId "1"]
    attributeSets := textAttributes
    blob := some (.inline "text/plain; charset=UTF-8" "This is contents!".toUTF8.toList) }

/-- The sample listing. -/
def listing : Listing :=
  ⟨some projectId, [project, research, document]⟩

/-- The budget of the project is the double nearest to 456000. -/
theorem projectBudget_eq : Double.ofNat? 456000 = some projectBudget := by
  decide +kernel

/-- The budget of the research is the double nearest to 123000. -/
theorem researchBudget_eq : Double.ofNat? 123000 = some researchBudget := by
  decide +kernel

end ActivityCatalog.Sample
