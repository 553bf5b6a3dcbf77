import ActivityCatalog.Proofs.Settings.Sections

namespace ActivityCatalog.Settings

/-!
# A partial description of settings

The defaults of settings are given twice: they lie below a description as a value, and every
section starts with them when it is read.  For a description without nulls either alone is
enough, errors included.  In the settings that are read of it a field is what the description
has for it, and the default of the field if it has nothing.
-/

open Json

/-- The sections with the names of their fields, in their order. -/
def layout : List (String × List String) :=
  [ ("server", ServerSettings.names),
    ("directory", DirectorySettings.names),
    ("presenter", PresenterSettings.names),
    ("logging", LoggingSettings.names) ]

/-- The part of a description for a field of a section. -/
def fieldPart? (part : String × List String) (field : String) (value : Value) : Option Value :=
  (value.part? (layout.map Prod.fst) part.1).bind (Value.part? part.2 field)

section Sections

variable
  {Section : Type}
  {reader : Reader Section}
  {default held : Section}
  {write : Section → Value}
  {names : List String}
  {part : Option Value}

/-- A section is what the part of a description for it reads as, or its default without one. -/
def ReadOf
    (reader : Reader Section)
    (default : Section)
    (held : Section) : Option Value → Prop
  | none => held = default
  | some value =>
      value.canonical = value ∧ value.NullFree ∧
        ∃ room, reader room (Document.ofValue value) = .ok held

/-- A field of a section is as the part for the section has it, or else as its default. -/
theorem ReadOf.part?_written
    (sectionReading : SectionReading reader default write names)
    (readOf : ReadOf reader default held part)
    {field : String}
    (isName : field ∈ names) :
    (write held).part? names field =
      (part.bind (Value.part? names field)).or ((write default).part? names field) := by
  cases part with
  | none =>
      obtain rfl : held = default := readOf
      exact Option.none_or.symm
  | some value =>
      obtain ⟨canonical, nullFree, room, wasRead⟩ := readOf
      exact sectionReading.written room value held canonical nullFree wasRead field isName

end Sections

/-- The section of a name is read of a part of a description. -/
def Filled (name : String) (part : Option Value) (settings : Settings) : Prop :=
  if "server" = name then
    ReadOf ServerSettings.reader .default settings.server part
  else if "directory" = name then
    ReadOf DirectorySettings.reader .default settings.directory part
  else if "presenter" = name then
    ReadOf PresenterSettings.reader .default settings.presenter part
  else if "logging" = name then
    ReadOf LoggingSettings.reader .default settings.logging part
  else
    True

/-- A section is supplied with its written default. -/
theorem suppliedField_of_section
    {Section : Type}
    {reader : Reader Section}
    {default : Section}
    {write : Section → Value}
    {names : List String}
    (sectionReading : SectionReading reader default write names)
    {name : String}
    {defaults : Dictionary Value}
    {store : Settings → Section → Settings}
    {get : Settings → Section}
    (isDefault : Dictionary.get? name defaults = some (write default).canonical)
    (get_store : ∀ settings held, get (store settings held) = held)
    (store_get : ∀ settings, store settings (get settings) = settings)
    (own : ∀ part settings, Filled name part settings = ReadOf reader default (get settings) part)
    (others : ∀ part settings held other, other ≠ name →
      Filled other part (store settings held) = Filled other part settings) :
    Reader.SuppliedField defaults Filled (.of name reader store) := by
  refine .of ?_ ?_ ?_ ?_
  · rw [isDefault]
    exact sectionReading.supplies
  · intro room value held before canonical nullFree wasRead
    rw [own, get_store]
    exact ⟨canonical, nullFree, room, wasRead⟩
  · intro before held other part different isFilled
    rw [others part before held other different]
    exact isFilled
  · intro room value settings found fits unfilled
    obtain rfl : (write default).canonical = value := Option.some.inj (isDefault.symm.trans found)
    have isHeld : get settings = default := (own none settings).mp unfilled
    exact ⟨default, sectionReading.defaults room fits, isHeld ▸ store_get settings⟩

/-- The settings are a record of the sections that is supplied with its written defaults. -/
theorem defaulted :
    ∃ fields, reader = Reader.record "struct AldbSettings" fields default ∧
      fields.map Json.Field.name = layout.map Prod.fst ∧
        ∃ defaults, default.toValue = .object defaults ∧
          Reader.Defaulted fields default defaults Filled := by
  have areDefaults : default.toValue = .object
      [ ("directory", DirectorySettings.default.written.canonical),
        ("logging", LoggingSettings.default.written.canonical),
        ("presenter", PresenterSettings.default.written.canonical),
        ("server", ServerSettings.default.written.canonical) ] := rfl
  refine ⟨_, rfl, rfl, _, areDefaults, by decide, ?_, ?_,
    List.forall_mem_cons.mpr ⟨?server, List.forall_mem_cons.mpr ⟨?directory,
      List.forall_mem_cons.mpr ⟨?presenter, List.forall_mem_singleton.mpr ?logging⟩⟩⟩⟩
  · simp only [List.map_cons, List.map_nil, List.forall_mem_cons, List.not_mem_nil, false_implies,
      implies_true, and_true]
    exact ⟨rfl, rfl, rfl, rfl⟩
  · refine (Value.canonical_object_eq_self.mp ?_).1
    rw [← areDefaults, toValue, Value.canonical_canonical]
  case server =>
    refine suppliedField_of_section ServerSettings.sectionReading rfl (fun _ _ => rfl)
      (fun _ => rfl) (fun _ _ => rfl) ?_
    intro part settings held other different
    simp only [Filled, different.symm, if_false]
  case directory =>
    refine suppliedField_of_section DirectorySettings.sectionReading rfl (fun _ _ => rfl)
      (fun _ => rfl) (fun _ _ => rfl) ?_
    intro part settings held other different
    simp only [Filled, different.symm, if_false]
  case presenter =>
    refine suppliedField_of_section PresenterSettings.sectionReading rfl (fun _ _ => rfl)
      (fun _ => rfl) (fun _ _ => rfl) ?_
    intro part settings held other different
    simp only [Filled, different.symm, if_false]
  case logging =>
    refine suppliedField_of_section LoggingSettings.sectionReading rfl (fun _ _ => rfl)
      (fun _ => rfl) (fun _ _ => rfl) ?_
    intro part settings held other different
    simp only [Filled, different.symm, if_false]

section Description

variable
  {description : Value}
  {settings : Settings}

theorem reader_overlay
    (canonical : description.canonical = description)
    (nullFree : description.NullFree) :
    Reader.ofValue reader (default.toValue.overlay description) =
      Reader.ofValue reader description := by
  obtain ⟨fields, isRecord, -, defaults, areDefaults, defaulted⟩ := defaulted
  rw [isRecord, areDefaults]
  exact defaulted.supplies _ canonical nullFree (Nat.le_refl _) (Nat.le_refl _)

/-- Each section of settings is what the part of a description for it reads as. -/
theorem filled_of_reader
    {room : Nat}
    (canonical : description.canonical = description)
    (nullFree : description.NullFree)
    (wasRead : reader room (Document.ofValue description) = .ok settings)
    {name : String}
    (isName : name ∈ layout.map Prod.fst) :
    Filled name (description.part? (layout.map Prod.fst) name) settings := by
  obtain ⟨fields, isRecord, areNames, _, -, defaulted⟩ := defaulted
  rw [isRecord] at wasRead
  rw [← areNames] at isName ⊢
  exact defaulted.fills.of_record canonical nullFree wasRead isName

/-- Each field of settings is as a description has it, or else as its default. -/
theorem fieldPart?_written
    {room : Nat}
    (canonical : description.canonical = description)
    (nullFree : description.NullFree)
    (wasRead : reader room (Document.ofValue description) = .ok settings)
    {part : String × List String}
    (isPart : part ∈ layout)
    {field : String}
    (isField : field ∈ part.2) :
    fieldPart? part field settings.written =
      (fieldPart? part field description).or (fieldPart? part field default.written) := by
  have isFilled := filled_of_reader canonical nullFree wasRead (List.mem_map_of_mem isPart)
  simp only [layout, List.mem_cons, List.not_mem_nil, or_false] at isPart
  rcases isPart with rfl | rfl | rfl | rfl
  · exact ReadOf.part?_written ServerSettings.sectionReading isFilled isField
  · exact ReadOf.part?_written DirectorySettings.sectionReading isFilled isField
  · exact ReadOf.part?_written PresenterSettings.sectionReading isFilled isField
  · exact ReadOf.part?_written LoggingSettings.sectionReading isFilled isField

/--
A description without nulls gives the same settings or the same error over the defaults and
alone, and the settings differ from the defaults in the fields that it has and in no others.
-/
theorem ofValue_partial
    (canonical : description.canonical = description)
    (nullFree : description.NullFree) :
    ofValue description = (Reader.ofValue reader description).mapError .malformed ∧
      ∀ settings, ofValue description = .ok settings →
        ∀ part ∈ layout, ∀ field ∈ part.2,
          fieldPart? part field settings.written =
            (fieldPart? part field description).or (fieldPart? part field default.written) := by
  have agrees : ofValue description = (Reader.ofValue reader description).mapError .malformed := by
    rw [ofValue, reader_overlay canonical nullFree]
  refine ⟨agrees, fun settings given part isPart field isField => ?_⟩
  cases wasRead : Reader.ofValue reader description with
  | error fault =>
      rw [agrees, wasRead] at given
      cases given
  | ok read =>
      rw [agrees, wasRead] at given
      cases given
      exact fieldPart?_written canonical nullFree wasRead isPart isField

/-- Source and path of an archive, JSON logging, and a server given as an array of its host. -/
def partialDescription : Value :=
  .object
    [ ("directory", .object [("path", .string "/data/a.db"), ("source", .string "sqlite")]),
      ("logging", .object
        [("json", .bool true), ("moduleLevels", .object [("store", .string "debug")])]),
      ("server", .array [.string "0.0.0.0"]),
      ("theme", .string "dark") ]

/-- The settings of the partial description: its fields and the defaults of all others. -/
def partialSettings : Settings where
  server := { ServerSettings.default with host := "0.0.0.0" }
  directory := { DirectorySettings.default with source := .sqlite, path := some "/data/a.db" }
  presenter := .default
  logging := { LoggingSettings.default with json := true, moduleLevels := [("store", "debug")] }

theorem ofValue_partial_archive :
    partialDescription.canonical = partialDescription ∧
      partialDescription.NullFree ∧
        Reader.ofValue reader partialDescription = .ok partialSettings ∧
          ofValue partialDescription = .ok partialSettings ∧
            ∀ part ∈ layout, ∀ field ∈ part.2,
              fieldPart? part field partialSettings.written =
                (fieldPart? part field partialDescription).or
                  (fieldPart? part field default.written) := by
  have canonical : partialDescription.canonical = partialDescription := rfl
  have nullFree : partialDescription.NullFree := by
    refine .object ?_
    simp only [List.forall_mem_cons, List.not_mem_nil, false_implies, implies_true, and_true]
    refine ⟨.object ?_, .object ?_, .array ?_, .string _⟩ <;>
      simp only [List.forall_mem_cons, List.not_mem_nil, false_implies, implies_true, and_true]
    · exact ⟨.string _, .string _⟩
    · exact ⟨.bool _, .object (List.forall_mem_singleton.mpr (.string _))⟩
    · exact .string _
  have wasRead : Reader.ofValue reader partialDescription = .ok partialSettings := rfl
  obtain ⟨agrees, fields⟩ := ofValue_partial canonical nullFree
  have given : ofValue partialDescription = .ok partialSettings := by
    rw [agrees, wasRead]
    rfl
  exact ⟨canonical, nullFree, wasRead, given, fields partialSettings given⟩

end Description

end ActivityCatalog.Settings
