import DirectoryService.Json.Record
import DirectoryService.Schema.Catalog

/-!
# Schema definitions as JSON
-/

namespace DirectoryService

namespace LdapSyntax

/-- The JSON value of a syntax. -/
def toJson (definition : LdapSyntax) : Json :=
  .object [("oid", .text definition.oid), ("description", .text definition.description)]

/-- The syntax of a JSON value. -/
def ofJson? (json : Json) : Option LdapSyntax := do
  match ← json.parts? ["oid", "description"] 2 with
  | [oid, description] =>
    return ⟨← Json.required Json.text? oid, ← Json.required Json.text? description⟩
  | _ => none

end LdapSyntax

namespace MatchingRule

/-- The JSON value of a matching rule. -/
def toJson (definition : MatchingRule) : Json :=
  .object
    [("oid", .text definition.oid), ("name", .text definition.name),
      ("aliases", .texts definition.aliases), ("syntax", .text definition.syntaxOid)]

/-- The matching rule of a JSON value. -/
def ofJson? (json : Json) : Option MatchingRule := do
  match ← json.parts? ["oid", "name", "aliases", "syntax"] 4 with
  | [oid, name, aliases, syntaxOid] =>
    let oid ← Json.required Json.text? oid
    let name ← Json.required Json.text? name
    let aliases ← Json.defaulted [] Json.texts? aliases
    let syntaxOid ← Json.required Json.text? syntaxOid
    return ⟨oid, name, aliases, syntaxOid⟩
  | _ => none

end MatchingRule

namespace AttributeFlags

/-- The JSON value of flags. -/
def toJson (flags : AttributeFlags) : Json := .integer flags.bits.toNat

/-- The flags of a JSON value. -/
def ofJson? : Json → Option AttributeFlags
  | .integer bits =>
    if 0 ≤ bits ∧ bits ≤ 255 then some ⟨UInt8.ofNat bits.toNat⟩ else Option.none
  | _ => Option.none

end AttributeFlags

namespace AttributeUsage

/-- The usage of a JSON value. -/
def ofJson? (json : Json) : Option AttributeUsage := do
  let name ← json.choice?
  [userApplications, directoryOperation, distributedOperation, dsaOperation].find?
    (·.keyword == name)

end AttributeUsage

namespace AttributeType

/-- The JSON value of an attribute type. -/
def toJson (definition : AttributeType) : Json :=
  .object
    [("oid", .text definition.oid), ("name", .text definition.name),
      ("aliases", .texts definition.aliases), ("superior", .optional definition.superior),
      ("syntax", .optional definition.syntaxOid), ("equality", .optional definition.equality),
      ("substring", .optional definition.substring),
      ("ordering", .optional definition.ordering), ("flags", definition.flags.toJson),
      ("usage", .text definition.usage.keyword)]

/-- The names of the parts of an attribute type. -/
def partNames : List String :=
  ["oid", "name", "aliases", "superior", "syntax", "equality", "substring", "ordering", "flags",
    "usage"]

/-- The attribute type of a JSON value. -/
def ofJson? (json : Json) : Option AttributeType := do
  match ← json.parts? partNames 8 with
  | [oid, name, aliases, superior, syntaxOid, equality, substring, ordering, flags, usage] =>
    let oid ← Json.required Json.text? oid
    let name ← Json.required Json.text? name
    let aliases ← Json.defaulted [] Json.texts? aliases
    let superior ← Json.optional? Json.text? superior
    let syntaxOid ← Json.optional? Json.text? syntaxOid
    let equality ← Json.optional? Json.text? equality
    let substring ← Json.optional? Json.text? substring
    let ordering ← Json.optional? Json.text? ordering
    let flags ← Json.defaulted AttributeFlags.none AttributeFlags.ofJson? flags
    let usage ← Json.defaulted .userApplications AttributeUsage.ofJson? usage
    return ⟨oid, name, aliases, superior, syntaxOid, equality, substring, ordering, flags, usage⟩
  | _ => none

end AttributeType

namespace ClassKind

/-- The word for a kind in a record. -/
def label : ClassKind → String
  | .structural => "structural"
  | .auxiliary => "auxiliary"
  | .abstractRoot => "abstract"

/-- The kind of a JSON value. -/
def ofJson? (json : Json) : Option ClassKind := do
  let name ← json.choice?
  [structural, auxiliary, abstractRoot].find? (·.label == name)

end ClassKind

namespace ObjectClass

/-- The JSON value of an object class. -/
def toJson (definition : ObjectClass) : Json :=
  .object
    [("oid", .text definition.oid), ("name", .text definition.name),
      ("aliases", .texts definition.aliases), ("superior", .optional definition.superior),
      ("kind", .text definition.kind.label), ("must", .texts definition.must),
      ("may", .texts definition.may)]

/-- The names of the parts of an object class. -/
def partNames : List String := ["oid", "name", "aliases", "superior", "kind", "must", "may"]

/-- The object class of a JSON value. -/
def ofJson? (json : Json) : Option ObjectClass := do
  match ← json.parts? partNames 5 with
  | [oid, name, aliases, superior, kind, must, may] =>
    let oid ← Json.required Json.text? oid
    let name ← Json.required Json.text? name
    let aliases ← Json.defaulted [] Json.texts? aliases
    let superior ← Json.optional? Json.text? superior
    let kind ← Json.required ClassKind.ofJson? kind
    let must ← Json.defaulted [] Json.texts? must
    let may ← Json.defaulted [] Json.texts? may
    return ⟨oid, name, aliases, superior, kind, must, may⟩
  | _ => none

end ObjectClass

namespace Catalog

/-- The JSON value of a schema. -/
def toJson (catalog : Catalog) : Json :=
  .object
    [("syntaxes", .list (catalog.syntaxes.map (·.toJson))),
      ("matching_rules", .list (catalog.matchingRules.map (·.toJson))),
      ("attribute_types", .list (catalog.attributeTypes.map (·.toJson))),
      ("object_classes", .list (catalog.objectClasses.map (·.toJson)))]

/-- The schema of a JSON value; it is not checked. -/
def ofJson? (json : Json) : Option Catalog := do
  match ← json.parts? ["syntaxes", "matching_rules", "attribute_types", "object_classes"] 4 with
  | [syntaxes, matchingRules, attributeTypes, objectClasses] =>
    let syntaxes ← Json.required (Json.list? LdapSyntax.ofJson?) syntaxes
    let matchingRules ← Json.required (Json.list? MatchingRule.ofJson?) matchingRules
    let attributeTypes ← Json.required (Json.list? AttributeType.ofJson?) attributeTypes
    let objectClasses ← Json.required (Json.list? ObjectClass.ofJson?) objectClasses
    return ⟨syntaxes, matchingRules, attributeTypes, objectClasses⟩
  | _ => none

end Catalog

end DirectoryService
