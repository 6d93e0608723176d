import DirectoryService.Schema.Catalog
import DirectoryService.Schema.Description

/-!
# Parts of a schema

A schema has four parts, one for each kind of definition.
-/

namespace DirectoryService.Catalog

/-- A part of a schema. -/
inductive Part where
  /-- The syntaxes. -/
  | syntaxes
  /-- The matching rules. -/
  | matchingRules
  /-- The attribute types. -/
  | attributeTypes
  /-- The object classes. -/
  | objectClasses
deriving DecidableEq

namespace Part

/-- All parts. -/
def all : List Part := [.syntaxes, .matchingRules, .attributeTypes, .objectClasses]

/-- The name of a part. -/
def name : Part → String
  | .syntaxes => "ldap-syntaxes"
  | .matchingRules => "matching-rules"
  | .attributeTypes => "attribute-types"
  | .objectClasses => "object-classes"

/-- The part of a name. -/
def ofName? (text : String) : Option Part := all.find? (·.name == text)

theorem ofName?_name (part : Part) : ofName? part.name = some part := by
  cases part <;> rfl

end Part

/-- The descriptions of a part of a schema. -/
def describe (catalog : Catalog) : Part → List String
  | .syntaxes => catalog.syntaxes.map LdapSyntax.describe
  | .matchingRules => catalog.matchingRules.map MatchingRule.describe
  | .attributeTypes => catalog.attributeTypes.map AttributeType.describe
  | .objectClasses => catalog.objectClasses.map ObjectClass.describe

end DirectoryService.Catalog
