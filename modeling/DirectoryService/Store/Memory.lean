import DirectoryService.Entry.Seed
import DirectoryService.Schema.Standard
import DirectoryService.Store.Basic

/-!
# The store in memory

Entries and principals are kept by their names, next to the schema that new entries are checked
against. An entry is taken only below an entry that is there, so the entries always form a forest.
-/

namespace DirectoryService

/-- What is stored. -/
structure MemoryStore where
  /-- The entries by their distinguished names. -/
  entries : NameMap Entry
  /-- The principals by their user names. -/
  principals : NameMap Principal
  /-- The stored schema. -/
  catalog : Catalog
deriving DecidableEq

namespace MemoryStore

/-- A store without entries and principals. -/
def empty (catalog : Catalog) : MemoryStore := ⟨.empty, .empty, catalog⟩

/-- Checks that an entry fits into the store. -/
def admissible (store : MemoryStore) (entry : Entry) : Except Rejection Unit := do
  entry.validate
  if store.entries.contains entry.dn then throw (.entryExists entry.dn)
  if let some parent := entry.parent then
    if !store.entries.contains parent then throw (.parentMissing parent entry.dn)
  store.catalog.checkEntry entry

/-- The store with one more entry. -/
def insertEntry (store : MemoryStore) (entry : Entry) : Except Rejection MemoryStore := do
  store.admissible entry
  return { store with entries := store.entries.insert entry.dn entry }

/-- The store with one more principal. -/
def insertPrincipal (store : MemoryStore) (principal : Principal) :
    Except Rejection MemoryStore :=
  if store.principals.contains principal.username then
    .error (.principalExists principal.username)
  else .ok { store with principals := store.principals.insert principal.username principal }

/-- The store with another schema. -/
def loadSchema (store : MemoryStore) (catalog : Catalog) : MemoryStore := { store with catalog }

/-- The entries that satisfy a condition, in the order of their names. -/
def select (store : MemoryStore) (condition : Entry → Bool) : List Entry :=
  store.entries.values.filter condition

/-- The store as the service sees it. -/
def toStore (store : MemoryStore) : Store where
  entriesByName dn := .ok (store.entries.get? dn).toList
  entriesByParent parent := .ok (store.select fun entry => entry.parent == some parent)
  subtree base := .ok (store.select (·.inSubtreeOf base))
  roots := .ok (store.select Entry.isRoot)
  principals username := .ok (store.principals.get? username).toList
  syntaxes := .ok store.catalog.syntaxes
  matchingRules := .ok store.catalog.matchingRules
  attributeTypes := .ok store.catalog.attributeTypes
  objectClasses := .ok store.catalog.objectClasses
  healthy := .ok true
  measured := false

/-- A store with the standard schema, the example tree and the administrator. -/
def seeded (created : String) (administrator : Principal) : Except Rejection MemoryStore := do
  let store ← (Seed.entries created).foldlM insertEntry (empty .standard)
  store.insertPrincipal administrator

end MemoryStore

end DirectoryService
