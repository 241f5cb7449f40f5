import ActivityCatalogue.Proofs.RecordVariants
import ActivityCatalogue.Snapshot.Basic

/-!
# Declarations are read back from their records

Each kind of record has a schema: its fields as they are written, what may stand
for their values, and which of them need not be given.  The schemas are those
that the format documents.  That the reader agrees with them is proved field by
field; properties, classes, modules and snapshots follow one from the other, since
a list is read back if each of its items is.

A record as it is written is a variant of itself, so reading what was written is
a special case (`Snapshot.ofJson?_toJson`).
-/

namespace ActivityCatalogue

open Json (Field recordVariation listVariation)

namespace DeclaredProperty

def schema : List Field :=
  [.exact "name" none, .exact "type_full_name" none, .exact "is_static" (some (.bool false)),
    .exact "has_getter" (some (.bool true)), .exact "has_setter" (some (.bool true)),
    .exact "getter_is_public" (some (.bool true)),
    .exact "getter_is_virtual" (some (.bool false))]

theorem variation_self (property : DeclaredProperty) :
    recordVariation schema property.toJson property.toJson :=
  Json.recordVariation_self (by simp [schema, Field.exact])

theorem ofJson?_of_variation (property : DeclaredProperty) (json : Json)
    (hvaries : recordVariation schema property.toJson json) : ofJson? json = some property := by
  obtain ⟨given, hgiven, hfields⟩ := Json.fields?_of_variation hvaries (by decide)
  simp only [schema, List.forall₂_cons] at hfields
  obtain ⟨hname, htype, hstatic, hgetter, hsetter, hpublic, hvirtual, -⟩ := hfields
  rw [ofJson?, show fieldNames = schema.map Field.name from rfl, hgiven]
  simp only [Option.bind_eq_bind, Option.bind_some, Option.pure_def,
    hname.required_exact Json.asText? rfl, htype.required_exact Json.asText? rfl,
    hstatic.optional_exact Json.asBool? rfl rfl, hgetter.optional_exact Json.asBool? rfl rfl,
    hsetter.optional_exact Json.asBool? rfl rfl, hpublic.optional_exact Json.asBool? rfl rfl,
    hvirtual.optional_exact Json.asBool? rfl rfl]

end DeclaredProperty

namespace ClassDeclaration

def schema : List Field :=
  [.exact "full_name" none, .exact "is_public" (some (.bool false)),
    .exact "is_abstract" (some (.bool false)),
    .exact "base_type_full_name" (some (.ofText "")),
    ⟨"properties", listVariation (recordVariation DeclaredProperty.schema), some (.list [])⟩]

theorem variation_self (declaration : ClassDeclaration) :
    recordVariation schema declaration.toJson declaration.toJson := by
  have hproperties := Json.listVariation_self DeclaredProperty.variation_self
    declaration.properties
  exact Json.recordVariation_self (by simp [schema, Field.exact, hproperties])

theorem ofJson?_of_variation (declaration : ClassDeclaration) (json : Json)
    (hvaries : recordVariation schema declaration.toJson json) :
    ofJson? json = some declaration := by
  obtain ⟨given, hgiven, hfields⟩ := Json.fields?_of_variation hvaries (by decide)
  simp only [schema, List.forall₂_cons] at hfields
  obtain ⟨hname, hpublic, habstract, hbase, hproperties, -⟩ := hfields
  have hproperties := hproperties.optional_list DeclaredProperty.variation_self
    DeclaredProperty.ofJson?_of_variation
  rw [ofJson?, show fieldNames = schema.map Field.name from rfl, hgiven]
  simp only [Option.bind_eq_bind, Option.bind_some, Option.pure_def,
    hname.required_exact Json.asText? rfl, hpublic.optional_exact Json.asBool? rfl rfl,
    habstract.optional_exact Json.asBool? rfl rfl, hbase.optional_exact Json.asText? rfl rfl,
    hproperties]

end ClassDeclaration

namespace ModuleDeclaration

def schema : List Field :=
  [.exact "name" none,
    ⟨"classes", listVariation (recordVariation ClassDeclaration.schema), some (.list [])⟩]

theorem variation_self (module : ModuleDeclaration) :
    recordVariation schema module.toJson module.toJson := by
  have hclasses := Json.listVariation_self ClassDeclaration.variation_self module.classes
  exact Json.recordVariation_self (by simp [schema, Field.exact, hclasses])

theorem ofJson?_of_variation (module : ModuleDeclaration) (json : Json)
    (hvaries : recordVariation schema module.toJson json) : ofJson? json = some module := by
  obtain ⟨given, hgiven, hfields⟩ := Json.fields?_of_variation hvaries (by decide)
  simp only [schema, List.forall₂_cons] at hfields
  obtain ⟨hname, hclasses, -⟩ := hfields
  have hclasses := hclasses.optional_list ClassDeclaration.variation_self
    ClassDeclaration.ofJson?_of_variation
  rw [ofJson?, show fieldNames = schema.map Field.name from rfl, hgiven]
  simp only [Option.bind_eq_bind, Option.bind_some, Option.pure_def,
    hname.required_exact Json.asText? rfl, hclasses]

end ModuleDeclaration

namespace Snapshot

def schema : List Field :=
  [⟨"modules", listVariation (recordVariation ModuleDeclaration.schema), some (.list [])⟩]

theorem variation_self (snapshot : Snapshot) :
    recordVariation schema snapshot.toJson snapshot.toJson := by
  have hmodules := Json.listVariation_self ModuleDeclaration.variation_self snapshot.modules
  exact Json.recordVariation_self (by simp [schema, hmodules])

theorem ofJson?_of_variation (snapshot : Snapshot) (json : Json)
    (hvaries : recordVariation schema snapshot.toJson json) : ofJson? json = some snapshot := by
  obtain ⟨given, hgiven, hfields⟩ := Json.fields?_of_variation hvaries (by decide)
  simp only [schema, List.forall₂_cons] at hfields
  obtain ⟨hmodules, -⟩ := hfields
  have hmodules := hmodules.optional_list ModuleDeclaration.variation_self
    ModuleDeclaration.ofJson?_of_variation
  rw [ofJson?, show fieldNames = schema.map Field.name from rfl, hgiven]
  simp only [Option.bind_eq_bind, Option.bind_some, Option.pure_def, hmodules]

theorem ofJson?_toJson (snapshot : Snapshot) : ofJson? snapshot.toJson = some snapshot :=
  snapshot.ofJson?_of_variation snapshot.toJson snapshot.variation_self

end Snapshot

end ActivityCatalogue
