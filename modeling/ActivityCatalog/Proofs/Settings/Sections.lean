import ActivityCatalog.Proofs.Json.Defaults
import ActivityCatalog.Settings.Layers

namespace ActivityCatalog

/-!
# Sections of settings

A section is read over its written defaults as it is read alone, for it starts with them.  What
is read of a field is written back as it stood in the value, and a field of which the value has
nothing is written as its default.
-/

open Json

/--
Whatever is read without nulls is told again as the value that it was read of, and what is told
alike is the same.
-/
structure Json.Reader.Faithful
    {Result : Type}
    (reader : Reader Result)
    (tell? : Result → Option Value) : Prop where
  injective : Function.Injective tell?
  told : ∀ room value result, value.canonical = value → value.NullFree →
    reader room (Document.ofValue value) = .ok result → tell? result = some value

theorem Json.Reader.faithful_text :
    Reader.Faithful Reader.text (fun text => some (.string text)) where
  injective := fun _ _ toldAlike => Value.string.inj (Option.some.inj toldAlike)
  told := fun _ _ _ _ _ wasRead => congrArg some (Reader.eq_string_of_text wasRead).symm

theorem Json.Reader.faithful_bool :
    Reader.Faithful Reader.bool (fun value => some (.bool value)) where
  injective := fun _ _ toldAlike => Value.bool.inj (Option.some.inj toldAlike)
  told := by
    intro room value result _ _ wasRead
    cases value with
    | bool held =>
        cases wasRead
        rfl
    | null | number | string | array | object =>
        cases wasRead

theorem Json.Reader.faithful_natural (name : String) (greatest : Nat) :
    Reader.Faithful (Reader.natural name greatest) (fun natural => some (.ofNat natural)) where
  injective := by
    intro natural other toldAlike
    exact Int.ofNat_inj.mp (Number.integer.inj (Value.number.inj (Option.some.inj toldAlike)))
  told := by
    intro room value natural _ _ wasRead
    cases value with
    | number held =>
        cases held with
        | integer held =>
            rw [Document.ofValue, Reader.natural] at wasRead
            split at wasRead
            · rename_i inRange
              cases wasRead
              rw [Value.ofNat, Value.ofInt, Int.toNat_of_nonneg inRange.1]
            · cases wasRead
        | double held =>
            cases wasRead
    | null | bool | string | array | object =>
        cases wasRead

/-- A text that may be absent is not told at all where it is. -/
theorem Json.Reader.faithful_optional_text :
    Reader.Faithful (Reader.optional Reader.text) (Option.map .string) where
  injective := Option.map_injective fun _ _ => Value.string.inj
  told := by
    intro room value result _ nullFree wasRead
    cases nullFree with
    | string text =>
        cases wasRead
        rfl
    | bool | number | array | object =>
        cases wasRead

/-- Members that are read into a dictionary of texts are texts. -/
theorem Json.Reader.exists_text_of_foldlM
    {room : Nat}
    {members : List (String × Value)}
    {texts : Dictionary String}
    (ran : (members.map fun member => (some member.1, Document.ofValue member.2)).foldlM
      (Reader.insertMember (Reader.text room)) [] = .ok texts) :
    ∀ member ∈ members, ∃ text, member.2 = .string text := by
  rw [List.foldlM_map] at ran
  refine foldlM_induction
    (motive := fun done _ => ∀ member ∈ done, ∃ text, member.2 = .string text) (by simp) ?_ ran
  intro done member held next areTexts stepped
  obtain ⟨_, -, stepped⟩ := bind_eq_ok.mp stepped
  obtain ⟨text, textRead, -⟩ := bind_eq_ok.mp stepped
  exact List.forall_mem_append.mpr
    ⟨areTexts, List.forall_mem_singleton.mpr ⟨text, eq_string_of_text textRead⟩⟩

/-- What reads as a dictionary of texts is an object of them. -/
theorem Json.Reader.faithful_texts :
    Reader.Faithful (Reader.dictionary Reader.text)
      (fun texts => some (.object (texts.map fun entry => (entry.1, .string entry.2)))) where
  injective := by
    intro texts others toldAlike
    refine List.map_injective_iff.mpr ?_ (Value.object.inj (Option.some.inj toldAlike))
    rintro ⟨name, text⟩ ⟨otherName, otherText⟩ sameMember
    cases sameMember
    rfl
  told := by
    intro room value texts canonical _ wasRead
    obtain ⟨inner, rfl, -⟩ := of_dictionary wasRead
    cases value with
    | object members =>
        rw [Document.ofValue_object, Reader.dictionary] at wasRead
        let content (member : String × Value) : String := member.2.text?.getD ""
        have areTexts : ∀ member ∈ members, member.2 = .string (content member) := by
          intro member isMember
          obtain ⟨text, isText⟩ := exists_text_of_foldlM wasRead member isMember
          simp only [content, isText, Value.text?, Option.getD_some]
        have sorted : Dictionary.Sorted (members.map fun member => (member.1, content member)) :=
          List.pairwise_map.mpr (Value.canonical_object_eq_self.mp canonical).1
        have stored : (members.map fun member => (some member.1, Document.ofValue member.2)).foldlM
            (insertMember (Reader.text inner)) [] =
              .ok (members.map fun member => (member.1, content member)) :=
          (foldlM_insertMember (fun member isMember => by rw [areTexts member isMember]; rfl)
            []).trans (congrArg Except.ok sorted.ofList_eq)
        obtain rfl := Except.ok.inj (wasRead.symm.trans stored)
        rw [List.map_map, Option.some.injEq, Value.object.injEq]
        refine (List.map_congr_left ?_).trans (List.map_id members)
        exact fun member isMember => Prod.ext rfl (areTexts member isMember).symm
    | null | bool | number | string | array =>
        cases wasRead

namespace SourceKind

theorem name_of_ofVariant
    {kind : SourceKind}
    {name : String}
    (known : ofVariant name = .ok kind) :
    kind.name = name := by
  unfold ofVariant ofName? at known
  split at known
  · rename_i found
    cases known
    simpa using List.find?_some found
  · cases known

theorem roomless_reader : Reader.Roomless reader := by
  intro room other
  funext document
  unfold reader
  split <;> rfl

/-- An object that names a kind has a null in it, so that only a text is left. -/
theorem faithful_reader :
    Reader.Faithful reader (fun kind => some (.string kind.name)) where
  injective := by
    intro kind other toldAlike
    cases kind <;> cases other <;>
      first
      | rfl
      | exact absurd (Value.string.inj (Option.some.inj toldAlike)) (by decide)
  told := by
    intro room value kind _ nullFree wasRead
    cases nullFree with
    | string name =>
        rw [name_of_ofVariant wasRead]
    | @object members each =>
        rw [Document.ofValue_object] at wasRead
        match members, each with
        | [(name, content)], each =>
            obtain ⟨_, -, contentRead⟩ := bind_eq_ok.mp wasRead
            have given := each _ List.mem_cons_self
            cases given <;> cases contentRead
        | [], _ =>
            cases wasRead
        | _ :: _ :: _, _ =>
            cases wasRead
    | bool | number | array =>
        cases wasRead

end SourceKind

/-- A field of a section is written as a part of a value, or else as its default is. -/
def WrittenAs
    {Section : Type}
    (write : Section → Value)
    (names : List String)
    (default : Section)
    (name : String)
    (part : Option Value)
    (held : Section) : Prop :=
  (write held).part? names name = part.or ((write default).part? names name)

/--
How a section is read: over its written defaults as alone, them as the default section, and each
field as it is written.
-/
structure SectionReading
    {Section : Type}
    (reader : Reader Section)
    (default : Section)
    (write : Section → Value)
    (names : List String) : Prop where
  supplies : Reader.Supplies reader (write default).canonical
  defaults : ∀ room, (write default).canonical.depth ≤ room →
    reader room (Document.ofValue (write default).canonical) = .ok default
  written : ∀ room value held, value.canonical = value → value.NullFree →
    reader room (Document.ofValue value) = .ok held →
      ∀ name ∈ names, WrittenAs write names default name (value.part? names name) held

section Fields

variable
  {Section Result : Type}
  {write : Section → Value}
  {names : List String}
  {default : Section}
  {defaults : Dictionary Value}

/-- A section whose fields are all supplied with their written defaults is read so. -/
theorem SectionReading.of_fields
    {description : String}
    {fields : List (Json.Field Section)}
    {reader : Reader Section}
    (isRecord : reader = Reader.record description fields default)
    (areNames : fields.map Json.Field.name = names)
    (areDefaults : (write default).canonical = .object defaults)
    (different : names.Nodup)
    (each : ∀ field ∈ fields,
      Reader.SuppliedField defaults (WrittenAs write names default) field) :
    SectionReading reader default write names := by
  subst isRecord areNames
  have sorted : Dictionary.Sorted defaults := by
    refine (Value.canonical_object_eq_self.mp ?_).1
    rw [← areDefaults, Value.canonical_canonical]
  have defaulted : Reader.Defaulted fields default defaults
      (WrittenAs write (fields.map Json.Field.name) default) :=
    ⟨different, fun _ _ => (Option.none_or).symm, sorted, each⟩
  constructor
  case supplies =>
    rw [areDefaults]
    exact defaulted.supplies description
  case defaults =>
    intro room fits
    rw [areDefaults] at fits ⊢
    exact defaulted.record_defaults description fits
  case written =>
    intro room value held canonical nullFree wasRead name isName
    exact defaulted.fills.of_record canonical nullFree wasRead isName

/--
A field of a section is supplied with its default if its reader is faithful to how it is
written, and storing it changes nothing else of what is written.
-/
theorem suppliedField_of_faithful
    {name : String}
    {reader : Reader Result}
    {store : Section → Result → Section}
    {get : Section → Result}
    {tell? : Result → Option Value}
    (supplies : Reader.Supplies reader ((Dictionary.get? name defaults).getD .null))
    (faithful : reader.Faithful tell?)
    (get_store : ∀ held result, get (store held result) = result)
    (store_get : ∀ held, store held (get held) = held)
    (own : ∀ held, (write held).part? names name = tell? (get held))
    (others : ∀ held result other, other ≠ name →
      (write (store held result)).part? names other = (write held).part? names other)
    (readsDefault : ∀ room value, Dictionary.get? name defaults = some value →
      value.depth ≤ room → reader room (Document.ofValue value) = .ok (get default)) :
    Reader.SuppliedField defaults (WrittenAs write names default) (.of name reader store) := by
  refine .of supplies ?_ ?_ ?_
  · intro room value result before canonical nullFree wasRead
    calc
      (write (store before result)).part? names name
        = tell? result := by
          rw [own, get_store]
      _ = (some value).or ((write default).part? names name) :=
          faithful.told room value result canonical nullFree wasRead
  · intro before result other part different isWritten
    exact (others before result other different).trans isWritten
  · intro room value held isDefault fits unfilled
    have isHeld : get default = get held := by
      refine faithful.injective ?_
      rw [← own, ← own]
      exact (unfilled.trans Option.none_or).symm
    exact ⟨get default, readsDefault room value isDefault fits, isHeld ▸ store_get held⟩

end Fields

namespace ServerSettings

/-- The names of the fields, in their order. -/
def names : List String :=
  ["host", "port"]

theorem part?_written (settings : ServerSettings) (name : String) :
    settings.written.part? names name =
      if "host" = name then some (.string settings.host)
      else if "port" = name then some (.ofNat settings.port)
      else none :=
  rfl

theorem sectionReading : SectionReading reader default written names := by
  have areDefaults : default.written.canonical =
      .object [("host", .string "127.0.0.1"), ("port", .ofNat 8080)] := rfl
  refine .of_fields rfl rfl areDefaults (by decide) (List.forall_mem_cons.mpr ⟨?host,
    List.forall_mem_singleton.mpr ?port⟩)
  case host =>
    refine suppliedField_of_faithful (.of_roomless Reader.roomless_text rfl)
      Reader.faithful_text (fun _ _ => rfl) (fun _ => rfl) (fun _ => rfl) ?_ ?_
    · intro held host other different
      simp only [part?_written, different.symm, if_false]
    · intro room value isDefault _
      cases isDefault
      rfl
  case port =>
    refine suppliedField_of_faithful (.of_roomless (Reader.roomless_natural _ _) rfl)
      (Reader.faithful_natural _ _) (fun _ _ => rfl) (fun _ => rfl) (fun _ => rfl) ?_ ?_
    · intro held port other different
      simp only [part?_written, different.symm, if_false]
    · intro room value isDefault _
      cases isDefault
      rfl

end ServerSettings

namespace DirectorySettings

/-- The names of the fields, in their order. -/
def names : List String :=
  ["source", "path", "rootActivity"]

theorem part?_written (settings : DirectorySettings) (name : String) :
    settings.written.part? names name =
      if "source" = name then some (.string settings.source.name)
      else if "path" = name then settings.path.map .string
      else if "rootActivity" = name then settings.rootActivity.map .string
      else none := by
  obtain ⟨source, path, rootActivity⟩ := settings
  by_cases isPath : "path" = name
  · subst isPath
    cases path <;> cases rootActivity <;> rfl
  · cases path <;> cases rootActivity <;>
      simp [written, textMember, optionalMember, Value.part?, Dictionary.get?, isPath]

theorem sectionReading : SectionReading reader default written names := by
  have areDefaults : default.written.canonical = .object [("source", .string "sample")] := rfl
  refine .of_fields rfl rfl areDefaults (by decide) (List.forall_mem_cons.mpr ⟨?source,
    List.forall_mem_cons.mpr ⟨?path, List.forall_mem_singleton.mpr ?rootActivity⟩⟩)
  case source =>
    refine suppliedField_of_faithful (.of_roomless SourceKind.roomless_reader rfl)
      SourceKind.faithful_reader (fun _ _ => rfl) (fun _ => rfl) (fun _ => rfl) ?_ ?_
    · intro held source other different
      simp only [part?_written, different.symm, if_false]
    · intro room value isDefault _
      cases isDefault
      rfl
  case path =>
    refine suppliedField_of_faithful (.of_roomless Reader.roomless_text.optional rfl)
      Reader.faithful_optional_text (fun _ _ => rfl) (fun _ => rfl)
      (fun held => part?_written held "path") ?_ ?_
    · intro held path other different
      simp only [part?_written, different.symm, if_false]
    · intro room value isDefault _
      cases isDefault
  case rootActivity =>
    refine suppliedField_of_faithful (.of_roomless Reader.roomless_text.optional rfl)
      Reader.faithful_optional_text (fun _ _ => rfl) (fun _ => rfl)
      (fun held => part?_written held "rootActivity") ?_ ?_
    · intro held rootActivity other different
      simp only [part?_written, different.symm, if_false]
    · intro room value isDefault _
      cases isDefault

end DirectorySettings

namespace PresenterSettings

/-- The names of the fields, in their order. -/
def names : List String :=
  ["defaultLocale", "maxDepth"]

theorem part?_written (settings : PresenterSettings) (name : String) :
    settings.written.part? names name =
      if "defaultLocale" = name then some (.string settings.defaultLocale)
      else if "maxDepth" = name then some (.ofNat settings.maxDepth)
      else none :=
  rfl

theorem sectionReading : SectionReading reader default written names := by
  have areDefaults : default.written.canonical =
      .object [("defaultLocale", .string "en"), ("maxDepth", .ofNat 8)] := rfl
  refine .of_fields rfl rfl areDefaults (by decide) (List.forall_mem_cons.mpr ⟨?defaultLocale,
    List.forall_mem_singleton.mpr ?maxDepth⟩)
  case defaultLocale =>
    refine suppliedField_of_faithful (.of_roomless Reader.roomless_text rfl)
      Reader.faithful_text (fun _ _ => rfl) (fun _ => rfl) (fun _ => rfl) ?_ ?_
    · intro held defaultLocale other different
      simp only [part?_written, different.symm, if_false]
    · intro room value isDefault _
      cases isDefault
      rfl
  case maxDepth =>
    refine suppliedField_of_faithful (.of_roomless (Reader.roomless_natural _ _) rfl)
      (Reader.faithful_natural _ _) (fun _ _ => rfl) (fun _ => rfl) (fun _ => rfl) ?_ ?_
    · intro held maxDepth other different
      simp only [part?_written, different.symm, if_false]
    · intro room value isDefault _
      cases isDefault
      rfl

end PresenterSettings

namespace LoggingSettings

/-- The names of the fields, in their order. -/
def names : List String :=
  ["level", "json", "moduleLevels"]

theorem part?_written (settings : LoggingSettings) (name : String) :
    settings.written.part? names name =
      if "level" = name then some (.string settings.level)
      else if "json" = name then some (.bool settings.json)
      else if "moduleLevels" = name then
        some (.object (settings.moduleLevels.map fun entry => (entry.1, .string entry.2)))
      else none :=
  rfl

theorem sectionReading : SectionReading reader default written names := by
  have areDefaults : default.written.canonical =
      .object [("json", .bool false), ("level", .string "info"), ("moduleLevels", .object [])] :=
    rfl
  refine .of_fields rfl rfl areDefaults (by decide) (List.forall_mem_cons.mpr ⟨?level,
    List.forall_mem_cons.mpr ⟨?json, List.forall_mem_singleton.mpr ?moduleLevels⟩⟩)
  case level =>
    refine suppliedField_of_faithful (.of_roomless Reader.roomless_text rfl)
      Reader.faithful_text (fun _ _ => rfl) (fun _ => rfl) (fun _ => rfl) ?_ ?_
    · intro held level other different
      simp only [part?_written, different.symm, if_false]
    · intro room value isDefault _
      cases isDefault
      rfl
  case json =>
    refine suppliedField_of_faithful (.of_roomless Reader.roomless_bool rfl)
      Reader.faithful_bool (fun _ _ => rfl) (fun _ => rfl) (fun _ => rfl) ?_ ?_
    · intro held json other different
      simp only [part?_written, different.symm, if_false]
    · intro room value isDefault _
      cases isDefault
      rfl
  case moduleLevels =>
    refine suppliedField_of_faithful (.dictionary Reader.roomless_text)
      Reader.faithful_texts (fun _ _ => rfl) (fun _ => rfl) (fun _ => rfl) ?_ ?_
    · intro held moduleLevels other different
      simp only [part?_written, different.symm, if_false]
    · intro room value isDefault fits
      cases isDefault
      obtain ⟨inner, rfl, -⟩ := Value.depth_object_le.mp fits
      rfl

end LoggingSettings

end ActivityCatalog
