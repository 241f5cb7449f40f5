import ActivityCatalogue.Declaration
import ActivityCatalogue.Json.Record

/-!
# Declarations as JSON records

Every field is written.  When a record is read, only its names have to be
given: flags default as in `DeclaredProperty` and `ClassDeclaration`.
-/

namespace ActivityCatalogue

namespace DeclaredProperty

def fieldNames : List String :=
  ["name", "type_full_name", "is_static", "has_getter", "has_setter", "getter_is_public",
    "getter_is_virtual"]

def toJson (property : DeclaredProperty) : Json :=
  .ofMembers
    [("name", .ofText property.name),
      ("type_full_name", .ofText property.typeFullName),
      ("is_static", .bool property.isStatic),
      ("has_getter", .bool property.hasGetter),
      ("has_setter", .bool property.hasSetter),
      ("getter_is_public", .bool property.getterIsPublic),
      ("getter_is_virtual", .bool property.getterIsVirtual)]

def ofJson? (json : Json) : Option DeclaredProperty := do
  let fields ← json.fields? fieldNames
  return {
    name := ← fields.required "name" Json.asText?
    typeFullName := ← fields.required "type_full_name" Json.asText?
    isStatic := ← fields.optional "is_static" Json.asBool? false
    hasGetter := ← fields.optional "has_getter" Json.asBool? true
    hasSetter := ← fields.optional "has_setter" Json.asBool? true
    getterIsPublic := ← fields.optional "getter_is_public" Json.asBool? true
    getterIsVirtual := ← fields.optional "getter_is_virtual" Json.asBool? false }

end DeclaredProperty

namespace ClassDeclaration

def fieldNames : List String :=
  ["full_name", "is_public", "is_abstract", "base_type_full_name", "properties"]

def toJson (declaration : ClassDeclaration) : Json :=
  .ofMembers
    [("full_name", .ofText declaration.fullName),
      ("is_public", .bool declaration.isPublic),
      ("is_abstract", .bool declaration.isAbstract),
      ("base_type_full_name", .ofText declaration.baseTypeFullName),
      ("properties", .list (declaration.properties.map DeclaredProperty.toJson))]

def ofJson? (json : Json) : Option ClassDeclaration := do
  let fields ← json.fields? fieldNames
  return {
    fullName := ← fields.required "full_name" Json.asText?
    isPublic := ← fields.optional "is_public" Json.asBool? false
    isAbstract := ← fields.optional "is_abstract" Json.asBool? false
    baseTypeFullName := ← fields.optional "base_type_full_name" Json.asText? ""
    properties := ←
      fields.optional "properties" (Json.asListOf? DeclaredProperty.ofJson?) [] }

end ClassDeclaration

namespace ModuleDeclaration

def fieldNames : List String := ["name", "classes"]

def toJson (module : ModuleDeclaration) : Json :=
  .ofMembers
    [("name", .ofText module.name),
      ("classes", .list (module.classes.map ClassDeclaration.toJson))]

def ofJson? (json : Json) : Option ModuleDeclaration := do
  let fields ← json.fields? fieldNames
  return {
    name := ← fields.required "name" Json.asText?
    classes := ← fields.optional "classes" (Json.asListOf? ClassDeclaration.ofJson?) [] }

end ModuleDeclaration

end ActivityCatalogue
