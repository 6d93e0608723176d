import DirectoryService.Credential.Principal
import DirectoryService.Metrics

/-!
# Stores

What the service asks a store. Every question may fail, and a failure is never an answer. A store
whose calls are measured has each of them counted.
-/

namespace DirectoryService

/-- A store, as the service sees it. -/
structure Store where
  /-- The entries of a distinguished name. -/
  entriesByName : String → Except Error (List Entry)
  /-- The entries whose parent has a distinguished name. -/
  entriesByParent : String → Except Error (List Entry)
  /-- The entries whose distinguished name ends with a text. -/
  subtree : String → Except Error (List Entry)
  /-- The entries without parent. -/
  roots : Except Error (List Entry)
  /-- The principals of a user name. -/
  principals : String → Except Error (List Principal)
  /-- The stored syntaxes. -/
  syntaxes : Except Error (List LdapSyntax)
  /-- The stored matching rules. -/
  matchingRules : Except Error (List MatchingRule)
  /-- The stored attribute types. -/
  attributeTypes : Except Error (List AttributeType)
  /-- The stored object classes. -/
  objectClasses : Except Error (List ObjectClass)
  /-- Whether the store is in order. -/
  healthy : Except Error Bool
  /-- Whether calls are counted. -/
  measured : Bool

/-- Whether a call succeeded. -/
def succeeded {α : Type} : Except Error α → Bool
  | .ok _ => true
  | .error _ => false

namespace Store

/-- An answer of a store, with its sample if calls are counted. -/
def counted {α : Type} (store : Store) (call : StoreCall) (answer : Except Error α) :
    Counted (Except Error α) :=
  ⟨answer, if store.measured then [.storeCall call (succeeded answer)] else []⟩

end Store

/-- The schema that four stored sections make, each of which may have been read at another
moment. The first section that cannot be read is the one that is reported. -/
def Catalog.assemble (syntaxes : Except Error (List LdapSyntax))
    (matchingRules : Except Error (List MatchingRule))
    (attributeTypes : Except Error (List AttributeType))
    (objectClasses : Except Error (List ObjectClass)) : Except Error Catalog := do
  let catalog : Catalog :=
    ⟨← syntaxes, ← matchingRules, ← attributeTypes, ← objectClasses⟩
  catalog.checked.mapError .schema

/-- The schema that a store holds. -/
def Catalog.load (store : Store) : Except Error Catalog :=
  assemble store.syntaxes store.matchingRules store.attributeTypes store.objectClasses

end DirectoryService
