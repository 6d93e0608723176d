import DirectoryService.Proofs.Json.Record
import DirectoryService.Proofs.Store.KeyValue.Range
import DirectoryService.Proofs.Store.KeyValue.Task
import DirectoryService.Proofs.Store.Selection

/-!
# Servers that hold what a store in memory holds

A server mirrors a store in memory if it has the same records under their keys and if its lists of
names are the names that they are meant to list. A mirror answers every question as the store does:
what it lists in no particular order is put into the order of the names.
-/

namespace DirectoryService.KeyValue

variable {α : Type}

/-- A kept record is read back. -/
theorem readRecord_render {write : α → Json} {read : Json → Option α}
    (faithful : Json.Faithful write read) (record : α) :
    readRecord read (write record).render = .ok record := by
  rw [readRecord, faithful.parse]

/-- Kept records are read back one after the other. -/
theorem mapM_readRecord {write : α → Json} {read : Json → Option α}
    (faithful : Json.Faithful write read) (records : List α) :
    (records.map fun record => (write record).render).mapM (readRecord read) = .ok records := by
  induction records with
  | nil => rfl
  | cons record records ih =>
    rw [List.map_cons, List.mapM_cons, readRecord_render faithful, ih]
    rfl

namespace Server

/-- A server holds a section of the schema; a section that was never kept is empty. -/
def Keeps (server : Server) (place : Place) (write : α → Json) (records : List α) : Prop :=
  server.database.get? place.key = some (.text (Json.render (.list (records.map write)))) ∨
    (server.database.get? place.key = none ∧ records = [])

/-- The names at a place are those of a condition. -/
def Lists (server : Server) (place : Place) (condition : String → Prop) : Prop :=
  ∃ members, server.database.set? place.key = .ok members ∧
    ∀ name, members.contains name = true ↔ condition name

section Frame

variable {server later : Server} {place : Place}

/-- A section at a place that is as it was is held as it was. -/
theorem Keeps.congr {write : α → Json} {records : List α}
    (keeps : server.Keeps place write records)
    (same : later.database.get? place.key = server.database.get? place.key) :
    later.Keeps place write records := by
  rw [Keeps, same]
  exact keeps

/-- A list at a place that is as it was is the list that it was. -/
theorem Lists.congr {condition : String → Prop} (lists : server.Lists place condition)
    (same : later.database.get? place.key = server.database.get? place.key) :
    later.Lists place condition := by
  rw [Lists, Database.set?, same]
  exact lists

end Frame

/-- A server that is reached has the entries of a store in memory under their keys. -/
structure HasEntries (server : Server) (memory : MemoryStore) : Prop where
  /-- The server carries commands out. -/
  reached : server.reachable = true
  /-- The entries are those of the store. -/
  entries : ∀ dn, server.database.get? (Place.entry dn).key =
    (memory.entries.get? dn).map fun entry => .text entry.toJson.render
  /-- All names are listed backwards. -/
  tree : ∃ members, server.database.ordered? Place.tree.key = .ok members ∧
    ∀ name, members.contains name = true ↔ memory.entries.contains (reversed name) = true
  /-- The entries of the store are where they belong. -/
  tidy : memory.IsTidy

/-- A server that is reached holds the sections of a schema. -/
structure HoldsCatalog (server : Server) (catalog : Catalog) : Prop where
  /-- The server carries commands out. -/
  reached : server.reachable = true
  /-- The syntaxes are kept. -/
  syntaxes : server.Keeps .syntaxes LdapSyntax.toJson catalog.syntaxes
  /-- The matching rules are kept. -/
  matchingRules : server.Keeps .matchingRules MatchingRule.toJson catalog.matchingRules
  /-- The attribute types are kept. -/
  attributeTypes : server.Keeps .attributeTypes AttributeType.toJson catalog.attributeTypes
  /-- The object classes are kept. -/
  objectClasses : server.Keeps .objectClasses ObjectClass.toJson catalog.objectClasses

/-- A server that is reached holds what a store in memory holds. -/
structure Mirrors (server : Server) (memory : MemoryStore) : Prop where
  /-- The server carries commands out. -/
  reached : server.reachable = true
  /-- The entries are those of the store. -/
  entries : ∀ dn, server.database.get? (Place.entry dn).key =
    (memory.entries.get? dn).map fun entry => .text entry.toJson.render
  /-- So are the principals. -/
  principals : ∀ username, server.database.get? (Place.principal username).key =
    (memory.principals.get? username).map fun principal => .text principal.toJson.render
  /-- The names below each parent, and those without one, are listed. -/
  listed : ∀ parent, server.Lists (.listing parent) fun dn =>
    ∃ entry, memory.entries.get? dn = some entry ∧ entry.parent = parent
  /-- All names are listed backwards. -/
  tree : ∃ members, server.database.ordered? Place.tree.key = .ok members ∧
    ∀ name, members.contains name = true ↔ memory.entries.contains (reversed name) = true
  /-- The syntaxes are kept. -/
  syntaxes : server.Keeps .syntaxes LdapSyntax.toJson memory.catalog.syntaxes
  /-- The matching rules are kept. -/
  matchingRules : server.Keeps .matchingRules MatchingRule.toJson memory.catalog.matchingRules
  /-- The attribute types are kept. -/
  attributeTypes : server.Keeps .attributeTypes AttributeType.toJson memory.catalog.attributeTypes
  /-- The object classes are kept. -/
  objectClasses : server.Keeps .objectClasses ObjectClass.toJson memory.catalog.objectClasses
  /-- The schema passes every check. -/
  checked : memory.catalog.checked = .ok memory.catalog
  /-- The entries of the store are where they belong. -/
  tidy : memory.IsTidy

section Questions

variable {server : Server}

/-- The record under a key is found. -/
theorem perform_fetch (reached : server.reachable = true) {write : α → Json}
    {read : Json → Option α} (faithful : Json.Faithful write read) {key : String}
    {record : Option α}
    (kept : server.database.get? key = record.map fun record => .text (write record).render) :
    server.perform (fetch read key) = (.ok record.toList, server) := by
  have hget : server.perform (Task.get key) =
      (.ok (record.map fun record => (write record).render), server) := by
    rw [perform_get reached, Database.text?, kept]
    cases record <;> rfl
  rw [fetch, perform_bind_ok hget]
  cases record with
  | none => rfl
  | some record =>
    simp only [Option.map_some, readRecord_render faithful]
    rfl

/-- A section of the schema is found. -/
theorem perform_fetchSection (reached : server.reachable = true) {write : α → Json}
    {read : Json → Option α} (faithful : Json.Faithful write read) {place : Place}
    {records : List α} (kept : server.Keeps place write records) :
    server.perform (fetchSection read place.key) = (.ok records, server) := by
  rcases kept with kept | ⟨absent, rfl⟩
  · have hget : server.perform (Task.get place.key) =
        (.ok (some (Json.render (.list (records.map write)))), server) := by
      rw [perform_get reached, Database.text?, kept]
      rfl
    rw [fetchSection, perform_bind_ok hget]
    exact congrArg (·, server) (readRecord_render faithful.list records)
  · have hget : server.perform (Task.get place.key) = (.ok none, server) := by
      rw [perform_get reached, Database.text?, absent]
      rfl
    rw [fetchSection, perform_bind_ok hget]
    rfl

end Questions

namespace HasEntries

variable {server : Server} {memory : MemoryStore}

/-- There is something at the key of a name exactly if there is an entry of the name. -/
theorem contains_entryKey (holds : server.HasEntries memory) (dn : String) :
    server.database.contains (entryKey dn) = memory.entries.contains dn := by
  have hget : server.database.get? (entryKey dn) = _ := holds.entries dn
  rw [NameMap.contains, hget, Option.isSome_map, NameMap.contains]

/-- The entries of names are found and put in order; names without an entry are passed over. -/
theorem perform_fetchEntries (holds : server.HasEntries memory) (names : List String) :
    server.perform (fetchEntries names) =
      (.ok ((names.filterMap memory.entries.get?).mergeSort
        fun left right => Order.atMost left.dn right.dn), server) := by
  rw [fetchEntries]
  split
  · rename_i empty
    rw [List.isEmpty_iff.1 empty, List.filterMap_nil, List.mergeSort_nil]
    rfl
  · have htext (dn : String) : (server.database.text? (entryKey dn)).toOption.getD none =
        (memory.entries.get? dn).map fun entry => entry.toJson.render := by
      rw [Database.text?, show server.database.get? (entryKey dn) = _ from holds.entries dn]
      cases memory.entries.get? dn <;> rfl
    have hget : server.perform (Task.getAll (names.map entryKey)) =
        (.ok (names.map fun dn => (memory.entries.get? dn).map fun entry => entry.toJson.render),
          server) := by
      rw [perform_getAll holds.reached, List.map_map]
      simp only [Function.comp_def, htext]
    have hfound : (names.map fun dn =>
        (memory.entries.get? dn).map fun entry => entry.toJson.render).filterMap id =
          (names.filterMap memory.entries.get?).map fun entry => entry.toJson.render := by
      rw [List.filterMap_map, List.map_filterMap]
      rfl
    rw [perform_bind_ok hget, hfound, mapM_readRecord Entry.faithful]
    rfl

/-- What is found under names that are listed once each is what the store selects. -/
theorem query_fetchEntries (holds : server.HasEntries memory) {names : List String}
    {condition : Entry → Bool} (once : names.Nodup)
    (listed : ∀ dn, dn ∈ names ↔
      ∃ entry, memory.entries.get? dn = some entry ∧ condition entry = true) :
    server.query (fetchEntries names) = .ok (memory.select condition) := by
  rw [query, holds.perform_fetchEntries, holds.tidy.mergeSort_eq_select once listed]

/-- The entries of a name are those of the store. -/
theorem entriesByName_eq (holds : server.HasEntries memory) (dn : String) :
    server.toStore.entriesByName dn = memory.toStore.entriesByName dn :=
  congrArg Prod.fst (perform_fetch holds.reached Entry.faithful (holds.entries dn))

/-- The entries of a subtree are those of the store. -/
theorem subtree_eq (holds : server.HasEntries memory) (base : String) :
    server.toStore.subtree base = memory.toStore.subtree base := by
  obtain ⟨members, hordered, hmembers⟩ := holds.tree
  have hnames : server.perform (Task.range treeKey (startRange (reversed base)).1
      (startRange (reversed base)).2) = (.ok (members.keys.filter fun member =>
        (startRange (reversed base)).1.startsAt member &&
          (startRange (reversed base)).2.endsAt member), server) := by
    rw [perform_range holds.reached, show server.database.ordered? treeKey = _ from hordered]
    rfl
  have hinjective : Function.Injective reversed := fun left right same => by
    rw [← reversed_reversed left, same, reversed_reversed]
  change server.query (KeyValue.subtree base) = .ok (memory.select (·.inSubtreeOf base))
  rw [KeyValue.subtree, query]
  rw [perform_bind_ok hnames]
  refine holds.query_fetchEntries
    ((members.keys_nodup.filter _).map hinjective) fun dn => ?_
  have hcontains : memory.entries.contains dn = true ↔
      ∃ entry, memory.entries.get? dn = some entry := NameMap.contains_iff
  simp only [List.mem_map, List.mem_filter, NameMap.mem_keys_iff, hmembers, inRange_startRange_iff,
    inSubtreeOf_iff]
  constructor
  · rintro ⟨name, ⟨there, starts⟩, rfl⟩
    obtain ⟨entry, found⟩ := NameMap.contains_iff.1 there
    refine ⟨entry, found, ?_⟩
    rw [holds.tidy.named _ entry found, reversed_reversed]
    exact starts
  · rintro ⟨entry, found, starts⟩
    rw [holds.tidy.named dn entry found] at starts
    refine ⟨reversed dn, ⟨?_, starts⟩, reversed_reversed dn⟩
    rw [reversed_reversed]
    exact hcontains.2 ⟨entry, found⟩

end HasEntries

namespace Mirrors

variable {server : Server} {memory : MemoryStore}

/-- A mirror has the entries of its store. -/
theorem hasEntries (mirrors : server.Mirrors memory) : server.HasEntries memory :=
  ⟨mirrors.reached, mirrors.entries, mirrors.tree, mirrors.tidy⟩

/-- The sections of the schema make the schema again. -/
theorem assemble_eq (mirrors : server.Mirrors memory) :
    Catalog.assemble (.ok memory.catalog.syntaxes) (.ok memory.catalog.matchingRules)
      (.ok memory.catalog.attributeTypes) (.ok memory.catalog.objectClasses) =
        .ok memory.catalog := by
  have hchecked : (Catalog.mk memory.catalog.syntaxes memory.catalog.matchingRules
      memory.catalog.attributeTypes memory.catalog.objectClasses).checked = .ok memory.catalog :=
    mirrors.checked
  simp only [Catalog.assemble, bind, Except.bind, hchecked]
  rfl

/-- The kept schema is found. -/
theorem perform_loadCatalog (mirrors : server.Mirrors memory) :
    server.perform loadCatalog = (.ok memory.catalog, server) := by
  have hsyntaxes : server.perform (fetchSection LdapSyntax.ofJson? syntaxesKey) = _ :=
    perform_fetchSection mirrors.reached LdapSyntax.faithful mirrors.syntaxes
  have hrules : server.perform (fetchSection MatchingRule.ofJson? matchingRulesKey) = _ :=
    perform_fetchSection mirrors.reached MatchingRule.faithful mirrors.matchingRules
  have htypes : server.perform (fetchSection AttributeType.ofJson? attributeTypesKey) = _ :=
    perform_fetchSection mirrors.reached AttributeType.faithful mirrors.attributeTypes
  have hclasses : server.perform (fetchSection ObjectClass.ofJson? objectClassesKey) = _ :=
    perform_fetchSection mirrors.reached ObjectClass.faithful mirrors.objectClasses
  rw [loadCatalog, perform_bind_ok hsyntaxes, perform_bind_ok hrules, perform_bind_ok htypes,
    perform_bind_ok hclasses, perform_liftM, mirrors.assemble_eq]

/-- The names below a parent, or those without one, are listed in some order, and every order of
them leads to the entries that the store selects. -/
theorem query_listing (mirrors : server.Mirrors memory) (parent : Option String) :
    ∃ listed, server.perform (Task.members (Place.listing parent).key) = (.ok listed, server) ∧
      ∀ names, names.Perm listed → server.query (fetchEntries names) =
        .ok (memory.select fun entry => entry.parent == parent) := by
  obtain ⟨members, hset, hmembers⟩ := mirrors.listed parent
  refine ⟨members.keys, ?_, fun names perm => ?_⟩
  · rw [perform_members mirrors.reached, hset]
    rfl
  · refine mirrors.hasEntries.query_fetchEntries (perm.nodup_iff.2 members.keys_nodup) fun dn => ?_
    rw [perm.mem_iff, NameMap.mem_keys_iff, hmembers]
    simp only [beq_iff_eq]

/-- The entries below a name are those of the store. -/
theorem entriesByParent_eq (mirrors : server.Mirrors memory) (parent : String) :
    server.toStore.entriesByParent parent = memory.toStore.entriesByParent parent := by
  obtain ⟨listed, hlisted, hfound⟩ := mirrors.query_listing (some parent)
  have hmembers : server.perform (Task.members (childrenKey parent)) = _ := hlisted
  change server.query (KeyValue.entriesByParent parent) = _
  rw [KeyValue.entriesByParent, query, perform_bind_ok hmembers]
  exact hfound listed (.refl listed)

/-- The entries without parent are those of the store. -/
theorem roots_eq (mirrors : server.Mirrors memory) :
    server.toStore.roots = memory.toStore.roots := by
  obtain ⟨listed, hlisted, hfound⟩ := mirrors.query_listing none
  have hmembers : server.perform (Task.members rootsKey) = _ := hlisted
  have hroot : Entry.isRoot = fun entry => entry.parent == none := by
    funext entry
    rw [Entry.isRoot]
    cases entry.parent <;> rfl
  change server.query KeyValue.roots = .ok (memory.select Entry.isRoot)
  rw [KeyValue.roots, query, perform_bind_ok hmembers, hroot]
  exact hfound listed (.refl listed)

/-- The principals of a user name are those of the store. -/
theorem principals_eq (mirrors : server.Mirrors memory) (username : String) :
    server.toStore.principals username = memory.toStore.principals username :=
  congrArg Prod.fst (perform_fetch mirrors.reached Principal.faithful (mirrors.principals username))

end Mirrors

end Server

end DirectoryService.KeyValue
