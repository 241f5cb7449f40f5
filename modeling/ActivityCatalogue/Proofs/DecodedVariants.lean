import ActivityCatalogue.Codec.Comparison
import ActivityCatalogue.Codec.Property
import ActivityCatalogue.Codec.Settings
import ActivityCatalogue.Proofs.DeclarationCodec
import ActivityCatalogue.Proofs.JsonText

/-!
# Variants of records are read as what was written

The schemas of the records that are no declarations, and the statement for all
of them (`Json.variants_read_back`).

* Resolved properties have no defaults.
* A section of the settings has a default as a whole, and so has the list in it.
* A record of an event has one schema for each shape.  Its kind is a field like
  any other, written among the others and found wherever it stands; because it
  may come last, all members are kept until then, and this bounds what they hold.
-/

namespace ActivityCatalogue

open Json (Field recordVariation listVariation)

/-! ## Resolved properties -/

namespace Property

def schema : List Field :=
  [.exact "display_name" none, .exact "type_full_name" none, .exact "owning_class" none,
    .exact "resolved_for" none]

theorem variation_self (property : Property) :
    recordVariation schema property.toJson property.toJson :=
  Json.recordVariation_self (by simp [schema, Field.exact])

theorem ofJson?_of_variation (property : Property) (json : Json)
    (hvaries : recordVariation schema property.toJson json) : ofJson? json = some property := by
  obtain ⟨given, hgiven, hfields⟩ := Json.fields?_of_variation hvaries (by decide)
  simp only [schema, List.forall₂_cons] at hfields
  obtain ⟨hdisplay, htype, howner, hresolved, -⟩ := hfields
  rw [ofJson?, show fieldNames = schema.map Field.name from rfl, hgiven]
  simp only [Option.bind_eq_bind, Option.bind_some, Option.pure_def,
    hdisplay.required_exact Json.asText? rfl, htype.required_exact Json.asText? rfl,
    howner.required_exact Json.asText? rfl, hresolved.required_exact Json.asText? rfl]

end Property

/-! ## Settings -/

namespace Settings

/-- A section with one list, that need not be given if it is the built-in one. -/
def sectionSchema (name : String) (builtin : List String) : List Field :=
  [.exact name (some (.ofTexts builtin))]

/-- A section as it is written. -/
def sectionJson (name : String) (names : List String) : Json := .ofMembers [(name, .ofTexts names)]

/-- A section need not be given either if its list is the built-in one. -/
def sectionField (title name : String) (builtin : List String) : Field :=
  ⟨title, recordVariation (sectionSchema name builtin), some (sectionJson name builtin)⟩

def schema : List Field :=
  [sectionField "ClassRecord" "ActivityClasses" builtinActivityClasses,
    sectionField "TypeString" "Namespaces" builtinNamespaces]

theorem asTexts?_ofTexts (names : List String) :
    Json.asListOf? Json.asText? (.ofTexts names) = some names := by
  have htext : ∀ name json, Json.ofText name = json → json.asText? = some name := by
    rintro name _ rfl
    rfl
  exact Json.asListOf?_of_variation htext (Json.listVariation_self (fun _ => rfl) names)

theorem sectionVariation_self (name : String) (builtin names : List String) :
    recordVariation (sectionSchema name builtin) (sectionJson name names)
      (sectionJson name names) :=
  Json.recordVariation_self (by simp [sectionSchema, Field.exact])

theorem sectionOfJson?_of_variation (name : String) (builtin names : List String) (json : Json)
    (hvaries : recordVariation (sectionSchema name builtin) (sectionJson name names) json) :
    sectionOfJson? name builtin json = some names := by
  obtain ⟨given, hgiven, hfields⟩ := Json.fields?_of_variation hvaries (List.nodup_singleton name)
  simp only [sectionSchema, List.forall₂_cons] at hfields
  obtain ⟨hlist, -⟩ := hfields
  rw [sectionOfJson?, show [name] = (sectionSchema name builtin).map Field.name from rfl, hgiven]
  exact hlist.optional_exact _ (asTexts?_ofTexts builtin) (asTexts?_ofTexts names)

theorem optional_section {title name : String} {builtin names : List String} {given : Json.Fields}
    (hgives : (sectionField title name builtin).Gives (sectionJson name names)
      (given.lookup title)) :
    given.optional title (sectionOfJson? name builtin) builtin = some names := by
  have hbuiltin := sectionOfJson?_of_variation name builtin builtin _
    (sectionVariation_self name builtin builtin)
  exact Field.Gives.optional hgives rfl (sectionOfJson? name builtin) hbuiltin
    (sectionVariation_self name builtin names) (sectionOfJson?_of_variation name builtin names)

theorem variation_self (settings : Settings) :
    recordVariation schema settings.toJson settings.toJson := by
  have hclasses := sectionVariation_self "ActivityClasses" builtinActivityClasses
    settings.activityClasses
  have hnamespaces := sectionVariation_self "Namespaces" builtinNamespaces settings.namespaces
  exact Json.recordVariation_self (.cons ⟨rfl, hclasses⟩ (.cons ⟨rfl, hnamespaces⟩ .nil))

theorem ofJson?_of_variation (settings : Settings) (json : Json)
    (hvaries : recordVariation schema settings.toJson json) : ofJson? json = some settings := by
  obtain ⟨given, hgiven, hfields⟩ := Json.fields?_of_variation hvaries (by decide)
  simp only [schema, List.forall₂_cons] at hfields
  obtain ⟨hclasses, hnamespaces, -⟩ := hfields
  rw [ofJson?, show ["ClassRecord", "TypeString"] = schema.map Field.name from rfl, hgiven]
  simp only [Option.bind_eq_bind, Option.bind_some, Option.pure_def, optional_section hclasses,
    optional_section hnamespaces]

end Settings

/-! ## Records of events -/

namespace Comparison

namespace Record

def schema : Record → List Field
  | classOnlyIn .. =>
    [.exact "class_name" none, .exact "kind" none, .exact "package_name" none,
      .exact "property_count" none]
  | propertyMatch .. | propertyOnlyIn .. =>
    [.exact "class_name" none, .exact "kind" none, .exact "property_name" none,
      .exact "type_full_name" none]

/-- A number of properties is one of 64 bits. -/
def HasCount : Record → Prop
  | classOnlyIn _ _ _ propertyCount => propertyCount < 2 ^ 64
  | propertyMatch .. | propertyOnlyIn .. => True

theorem variation_self (record : Record) :
    recordVariation record.schema record.toJson record.toJson := by
  cases record with
  | classOnlyIn _ _ _ _ => exact Json.recordVariation_self (by simp [schema, Field.exact])
  | propertyMatch _ _ _ => exact Json.recordVariation_self (by simp [schema, Field.exact])
  | propertyOnlyIn _ _ _ _ => exact Json.recordVariation_self (by simp [schema, Field.exact])

theorem isKept_of_variation {record : Record} (hcount : record.HasCount) {json : Json}
    (hvaries : recordVariation record.schema record.toJson json) :
    json.isKept Json.maxKeptDepth = true := by
  have hdepth : Json.maxKeptDepth ≠ 0 := by decide
  cases record with
  | classOnlyIn side className packageName propertyCount =>
      refine Json.isKept_of_variation hvaries (by simp [schema, Field.exact]) ?_ hdepth
      have hnumber : Json.IsScalar (.natural propertyCount) := .natural hcount
      simp [hnumber, Json.IsScalar.text]
  | propertyMatch className propertyName typeFullName =>
      refine Json.isKept_of_variation hvaries (by simp [schema, Field.exact]) ?_ hdepth
      simp [Json.IsScalar.text]
  | propertyOnlyIn side className propertyName typeFullName =>
      refine Json.isKept_of_variation hvaries (by simp [schema, Field.exact]) ?_ hdepth
      simp [Json.IsScalar.text]

theorem classOnlyInOfJson?_of_variesMembers (side : Side) {className packageName : String}
    {propertyCount : Nat} (hcount : propertyCount < 2 ^ 64) {all : List (String × Json)}
    (hvaries : Json.VariesMembers
      [.exact "class_name" none, .exact "package_name" none, .exact "property_count" none]
      [("class_name", .ofText className), ("package_name", .ofText packageName),
        ("property_count", .natural propertyCount)] all) :
    classOnlyInOfJson? side (.ofMembers all) =
      some (classOnlyIn side className packageName propertyCount) := by
  obtain ⟨given, hgiven, hfields⟩ := Json.fields?_of_variesMembers hvaries (by decide)
  simp only [List.forall₂_cons] at hfields
  obtain ⟨hclass, hpackage, hnumber, -⟩ := hfields
  have hread : asCount? (.natural propertyCount) = some propertyCount := by
    have hcount : propertyCount < Nat.pow 2 64 := hcount
    rw [asCount?, Json.asNatural?, Option.filter_some, if_pos (decide_eq_true hcount)]
  have hgiven : (Json.ofMembers all).fields? ["class_name", "package_name", "property_count"] =
    some given := hgiven
  rw [classOnlyInOfJson?, hgiven]
  simp only [Option.bind_eq_bind, Option.bind_some, Option.pure_def,
    hclass.required_exact Json.asText? rfl, hpackage.required_exact Json.asText? rfl,
    hnumber.required_exact asCount? hread]

theorem propertyOfJson?_of_variesMembers (make : String → String → String → Record)
    {className propertyName typeFullName : String} {all : List (String × Json)}
    (hvaries : Json.VariesMembers
      [.exact "class_name" none, .exact "property_name" none, .exact "type_full_name" none]
      [("class_name", .ofText className), ("property_name", .ofText propertyName),
        ("type_full_name", .ofText typeFullName)] all) :
    propertyOfJson? make (.ofMembers all) = some (make className propertyName typeFullName) := by
  obtain ⟨given, hgiven, hfields⟩ := Json.fields?_of_variesMembers hvaries (by decide)
  simp only [List.forall₂_cons] at hfields
  obtain ⟨hclass, hproperty, htype, -⟩ := hfields
  have hgiven : (Json.ofMembers all).fields? ["class_name", "property_name", "type_full_name"] =
    some given := hgiven
  rw [propertyOfJson?, hgiven]
  simp only [Option.bind_eq_bind, Option.bind_some, Option.pure_def,
    hclass.required_exact Json.asText? rfl, hproperty.required_exact Json.asText? rfl,
    htype.required_exact Json.asText? rfl]

theorem ofJson?_of_variation (record : Record) (hcount : record.HasCount) (json : Json)
    (hvaries : recordVariation record.schema record.toJson json) : ofJson? json = some record := by
  have hkept := isKept_of_variation hcount hvaries
  cases record with
  | classOnlyIn side className packageName propertyCount =>
      obtain ⟨others, htagged, hothers⟩ := Json.tagged?_of_variation hvaries (by decide)
      have hread := classOnlyInOfJson?_of_variesMembers side hcount hothers
      rw [ofJson?, hkept, htagged]
      cases side with
      | first => exact hread
      | second => exact hread
  | propertyMatch className propertyName typeFullName =>
      obtain ⟨others, htagged, hothers⟩ := Json.tagged?_of_variation hvaries (by decide)
      have hread := propertyOfJson?_of_variesMembers propertyMatch hothers
      rw [ofJson?, hkept, htagged]
      exact hread
  | propertyOnlyIn side className propertyName typeFullName =>
      obtain ⟨others, htagged, hothers⟩ := Json.tagged?_of_variation hvaries (by decide)
      have hread := propertyOfJson?_of_variesMembers (propertyOnlyIn side) hothers
      rw [ofJson?, hkept, htagged]
      cases side with
      | first => exact hread
      | second => exact hread

end Record

end Comparison

/-! ## All records -/

namespace Json

/-- Every text of a variant is decoded to the value, and so is the text of the value itself. -/
def ReadsBack {α : Type} (decode : Json → Option α) (fields : List Field) (json : Json)
    (value : α) : Prop :=
  (∀ variant text, recordVariation fields json variant → read text = some variant →
    (read text).bind decode = some value) ∧
  (read json.pretty).bind decode = some value

theorem readsBack_of_variation {α : Type} {decode : Json → Option α} {fields : List Field}
    {json : Json} {value : α} (hself : recordVariation fields json json)
    (hdecode : ∀ variant, recordVariation fields json variant → decode variant = some value) :
    ReadsBack decode fields json value := by
  constructor
  · intro variant text hvariant htext
    rw [htext]
    exact hdecode variant hvariant
  · rw [read_pretty]
    exact hdecode json hself

/-- **Main statement.**  A record is read back from its serialization and from every variant of
it: with its members in any order, with unknown members that hold scalars, and without members
that hold their defaults, on every level of nesting.  The kind of a record of an event may stand
anywhere among its members. -/
theorem variants_read_back :
    (∀ property : DeclaredProperty, ReadsBack DeclaredProperty.ofJson? DeclaredProperty.schema
      property.toJson property) ∧
    (∀ declaration : ClassDeclaration, ReadsBack ClassDeclaration.ofJson? ClassDeclaration.schema
      declaration.toJson declaration) ∧
    (∀ module : ModuleDeclaration, ReadsBack ModuleDeclaration.ofJson? ModuleDeclaration.schema
      module.toJson module) ∧
    (∀ snapshot : Snapshot, ReadsBack Snapshot.ofJson? Snapshot.schema snapshot.toJson snapshot) ∧
    (∀ property : Property, ReadsBack Property.ofJson? Property.schema property.toJson property) ∧
    (∀ settings : Settings, ReadsBack Settings.ofJson? Settings.schema settings.toJson settings) ∧
    ∀ record : Comparison.Record, record.HasCount →
      ReadsBack Comparison.Record.ofJson? record.schema record.toJson record ∧
      ∀ members moved, record.toJson = ofMembers members → moved.Perm members →
        Comparison.Record.ofJson? (ofMembers moved) = some record := by
  refine ⟨fun property => ?_, fun declaration => ?_, fun module => ?_, fun snapshot => ?_,
    fun property => ?_, fun settings => ?_, fun record hcount => ⟨?_, ?_⟩⟩
  · exact readsBack_of_variation property.variation_self property.ofJson?_of_variation
  · exact readsBack_of_variation declaration.variation_self declaration.ofJson?_of_variation
  · exact readsBack_of_variation module.variation_self module.ofJson?_of_variation
  · exact readsBack_of_variation snapshot.variation_self snapshot.ofJson?_of_variation
  · exact readsBack_of_variation property.variation_self property.ofJson?_of_variation
  · exact readsBack_of_variation settings.variation_self settings.ofJson?_of_variation
  · exact readsBack_of_variation record.variation_self (record.ofJson?_of_variation hcount)
  · intro members moved hmembers hmoved
    have hself := record.variation_self
    rw [hmembers] at hself
    obtain ⟨all, hall, hsame⟩ := recordVariation_ofMembers hself
    obtain rfl := ofMembers_injective hsame
    refine record.ofJson?_of_variation hcount (ofMembers moved) ?_
    rw [hmembers]
    exact ⟨members, moved, rfl, hall.of_perm hmoved, rfl⟩

/-- A class that is given by its name and one property, the property without its flags and with a
note, and a record of an event with its kind last. -/
theorem variants_read_back_reordered :
    (read (ofMembers
      [("properties", list [ofMembers [("type_full_name", ofText "T"), ("note", null),
        ("name", ofText "P")]]), ("full_name", ofText "A")]).pretty).bind
          ClassDeclaration.ofJson? =
        some { fullName := "A", properties := [{ name := "P", typeFullName := "T" }] } ∧
      Comparison.Record.ofJson? (ofMembers [("class_name", ofText "A"),
        ("property_name", ofText "P"), ("type_full_name", ofText "T"),
          ("kind", ofText "property_match")]) = some (.propertyMatch "A" "P" "T") := by
  obtain ⟨-, hclass, -, -, -, -, hrecord⟩ := variants_read_back
  constructor
  · refine (hclass _).1 _ _ ?_ (read_pretty _)
    have hproperty : recordVariation DeclaredProperty.schema
        (DeclaredProperty.toJson { name := "P", typeFullName := "T" })
        (ofMembers [("type_full_name", ofText "T"), ("note", null), ("name", ofText "P")]) := by
      refine ⟨_, _, rfl, ⟨_, [("note", null)], .varied rfl (.varied rfl (.dropped rfl (.dropped rfl
        (.dropped rfl (.dropped rfl (.dropped rfl .nil)))))), ?_, ?_⟩, rfl⟩
      · exact List.forall_mem_singleton.mpr ⟨by decide, .null⟩
      · exact (List.perm_append_comm : ([_, _] ++ [_]).Perm ([_] ++ [_, _]))
    refine ⟨_, _, rfl, ⟨_, [], .varied rfl (.dropped rfl (.dropped rfl (.dropped rfl
      (.varied ⟨_, _, rfl, .cons hproperty .nil, rfl⟩ .nil)))), nofun, ?_⟩, rfl⟩
    exact List.Perm.swap _ _ _
  · refine (hrecord (.propertyMatch "A" "P" "T") trivial).2 _ _ rfl (.cons _ ?_)
    exact (List.perm_append_comm : ([_, _] ++ [_]).Perm ([_] ++ [_, _]))

end Json

end ActivityCatalogue
