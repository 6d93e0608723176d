import DirectoryService.Entry.Basic
import DirectoryService.Json.Record

/-!
# Entries as JSON
-/

namespace DirectoryService

namespace Attributes

/-- The JSON value of attributes. -/
def toJson (attributes : Attributes) : Json :=
  .object (attributes.pairs.map fun pair => (pair.1, Json.texts pair.2))

/-- The attributes of an object; a later field replaces an earlier one of its name. -/
def ofJson? : Json → Option Attributes
  | .object fields =>
    let pairs := fields.mapM fun (name, values) => values.texts?.map (name, ·)
    pairs.map NameMap.ofList
  | _ => none

end Attributes

namespace Entry

/-- The names of the parts of an entry. -/
def partNames : List String :=
  ["dn", "parent", "rdn", "object_classes", "user_attributes", "operational_attributes"]

/-- The JSON value of an entry. -/
def toJson (entry : Entry) : Json :=
  .object
    [("dn", .text entry.dn), ("parent", .optional entry.parent), ("rdn", .text entry.rdn),
      ("object_classes", .texts entry.objectClasses),
      ("user_attributes", entry.userAttributes.toJson),
      ("operational_attributes", entry.operationalAttributes.toJson)]

/-- The entry of a JSON value. -/
def ofJson? (json : Json) : Option Entry := do
  match ← json.parts? partNames 6 with
  | [dn, parent, rdn, classes, user, operational] =>
    let dn ← Json.required Json.text? dn
    let parent ← Json.optional? Json.text? parent
    let rdn ← Json.required Json.text? rdn
    let classes ← Json.required Json.texts? classes
    let user ← Json.required Attributes.ofJson? user
    let operational ← Json.required Attributes.ofJson? operational
    return ⟨dn, parent, rdn, classes, user, operational⟩
  | _ => none

end Entry

end DirectoryService
