import DirectoryService.Proofs.Store.KeyValue.Entries
import DirectoryService.Proofs.Store.Reload

/-!
# Reading the schema of a server again

However a server is filled, it holds a schema, which is replaced as a whole by one command but read
by four. So a reload comes to a mix of the schemas that were held, on a server as well as in memory,
and the mix need not be one of them.
-/

namespace DirectoryService.KeyValue

/-- A place of the schema. -/
def Place.OfCatalog : Place → Prop
  | .syntaxes => True
  | .matchingRules => True
  | .attributeTypes => True
  | .objectClasses => True
  | _ => False

/-- A place of the schema is no place of the entries. -/
theorem Place.OfCatalog.not_ofEntries {place : Place} (ofCatalog : place.OfCatalog) :
    ¬ place.OfEntries := by
  intro ofEntries
  cases place with
  | entry | listing | tree => exact ofCatalog
  | principal | syntaxes | matchingRules | attributeTypes | objectClasses => exact ofEntries

namespace Server

variable {server later : Server} {catalog : Catalog}

namespace HoldsCatalog

/-- A server that holds nothing holds the empty schema. -/
theorem empty : Server.empty.HoldsCatalog .empty :=
  ⟨rfl, .inr ⟨rfl, rfl⟩, .inr ⟨rfl, rfl⟩, .inr ⟨rfl, rfl⟩, .inr ⟨rfl, rfl⟩⟩

/-- What is changed at other places does not concern the schema. -/
theorem congr (holds : server.HoldsCatalog catalog) (reached : later.reachable = true)
    (same : ∀ place : Place, place.OfCatalog →
      later.database.get? place.key = server.database.get? place.key) :
    later.HoldsCatalog catalog where
  reached := reached
  syntaxes := holds.syntaxes.congr (same .syntaxes trivial)
  matchingRules := holds.matchingRules.congr (same .matchingRules trivial)
  attributeTypes := holds.attributeTypes.congr (same .attributeTypes trivial)
  objectClasses := holds.objectClasses.congr (same .objectClasses trivial)

/-- The sections that are held are read. -/
theorem read_eq (holds : server.HoldsCatalog catalog) (kind : Schema.Kind) (sections : Catalog) :
    kind.read server.toStore sections = .ok (kind.copy catalog sections) := by
  cases kind with
  | ldapSyntax =>
    have hread : server.toStore.syntaxes = .ok catalog.syntaxes := congrArg Prod.fst
      (perform_fetchSection holds.reached LdapSyntax.faithful holds.syntaxes)
    rw [Schema.Kind.read, hread]
    rfl
  | matchingRule =>
    have hread : server.toStore.matchingRules = .ok catalog.matchingRules := congrArg Prod.fst
      (perform_fetchSection holds.reached MatchingRule.faithful holds.matchingRules)
    rw [Schema.Kind.read, hread]
    rfl
  | attributeType =>
    have hread : server.toStore.attributeTypes = .ok catalog.attributeTypes := congrArg Prod.fst
      (perform_fetchSection holds.reached AttributeType.faithful holds.attributeTypes)
    rw [Schema.Kind.read, hread]
    rfl
  | objectClass =>
    have hread : server.toStore.objectClasses = .ok catalog.objectClasses := congrArg Prod.fst
      (perform_fetchSection holds.reached ObjectClass.faithful holds.objectClasses)
    rw [Schema.Kind.read, hread]
    rfl

end HoldsCatalog

/-- A server, in which the schema is replaced as a whole. -/
def backing : Backing Server where
  view := toStore
  replace server catalog := (server.perform (storeCatalog catalog)).2
  Holds := HoldsCatalog
  read_eq holds := holds.read_eq
  holds_replace holds next := by
    rw [Mirrors.perform_storeCatalog holds.reached next]
    exact Mirrors.holdsCatalog_withCatalog holds.reached next

/-- To keep an entry changes no place but those of the entries. -/
theorem Keeping.get?_eq {start before after : Server} {entry : Entry}
    (keeping : Keeping start entry before after) (place : Place) (other : ¬ place.OfEntries) :
    after.reachable = before.reachable ∧
      after.database.get? place.key = before.database.get? place.key := by
  have hne (spared : Place) (ofEntries : spared.OfEntries) : spared.key ≠ place.key := by
    intro same
    rw [Place.key_inj.1 same] at ofEntries
    exact other ofEntries
  have kept := keeping.kept
  unfold answer at kept
  split at kept
  · simp only [Database.execute] at kept
    split at kept
    · rename_i accepted
      cases kept
      refine ⟨rfl, Database.get?_commit accepted fun write member => ?_⟩
      simp only [entryWrites, List.mem_cons, List.not_mem_nil, or_false] at member
      rcases member with rfl | rfl | rfl
      · exact hne (.entry entry.dn) trivial
      · exact hne (.listing entry.parent) trivial
      · exact hne .tree trivial
    · cases kept
  · cases kept

/-- Whatever call is made to a server, it holds a schema afterwards if it did before. -/
theorem isKept_holdsCatalog : IsKept fun server => ∃ catalog, server.HoldsCatalog catalog where
  entry entry server held := by
    obtain ⟨catalog, holds⟩ := held
    refine ⟨?_, fun _ _ => trivial⟩
    rcases perform_insertEntry_cases server entry with same | keeping
    · rw [same]
      exact ⟨catalog, holds⟩
    · have hsame (place : Place) (ofCatalog : place.OfCatalog) :=
        keeping.get?_eq place ofCatalog.not_ofEntries
      exact ⟨catalog, holds.congr ((hsame .syntaxes trivial).1.trans holds.reached)
        fun place ofCatalog => (hsame place ofCatalog).2⟩
  principal principal server held := by
    obtain ⟨catalog, holds⟩ := held
    refine ⟨?_, fun _ _ => trivial⟩
    obtain ⟨reached, same⟩ := Mirrors.perform_insertPrincipal_frame holds.reached principal
    refine ⟨catalog, holds.congr reached fun place ofCatalog => same place ?_⟩
    rintro rfl
    exact ofCatalog
  schema catalog server held := by
    obtain ⟨before, holds⟩ := held
    exact ⟨⟨catalog, backing.holds_replace holds catalog⟩, fun _ _ => trivial⟩

/-- However a server is filled, it holds a schema. -/
theorem exists_holdsCatalog_afterCalls (calls : List Call) :
    ∃ catalog, (Server.empty.afterCalls calls).HoldsCatalog catalog :=
  isKept_holdsCatalog.afterCalls ⟨_, HoldsCatalog.empty⟩ calls

end Server

/-- A reload that ends well while the schema is replaced any number of times installs a mix: each
section is that of a schema which was held at some moment, and no section is that of an earlier
moment than the section before it. Every such mix that passes the checks can come out, in memory and
on every server that was filled somehow. What is installed was held as a whole if no replacement
comes between the four reads. A reload that does not end well leaves what was served. -/
theorem reload_mixes (memory : MemoryStore) (calls : List Server.Call) :
    MemoryStore.backing.Mixes memory memory.catalog ∧
    ∃ held, (Server.empty.afterCalls calls).HoldsCatalog held ∧
      Server.backing.Mixes (Server.empty.afterCalls calls) held := by
  refine ⟨Backing.Holds.mixes rfl, ?_⟩
  obtain ⟨held, holds⟩ := Server.exists_holdsCatalog_afterCalls calls
  exact ⟨held, holds, Backing.Holds.mixes holds⟩

/-- Between the first read of a reload and the second one, the schema is replaced. The reload
installs a schema with the section of one of the two and the other sections of the other one, which
was never held. -/
theorem reload_installs_unheld :
    let first : Catalog := ⟨[⟨"0", "first"⟩], [], [], []⟩
    let second : Catalog := ⟨[], [⟨"1", "second", [], "0"⟩], [], []⟩
    let mixed : Catalog := ⟨first.syntaxes, second.matchingRules, [], []⟩
    let events := [.step, .replace second, .step, .step, .step, .step]
    let memory := MemoryStore.backing.run (Backing.start (.empty first) .empty) events
    let server := Server.backing.run
      (Backing.start (Server.empty.afterCalls [.change (.schema first)]) .empty) events
    first.checked = .ok first ∧ second.checked = .ok second ∧
      mixed ∉ first :: ReloadEvent.replacements events ∧
      memory.served = mixed ∧ server.served = mixed := by
  decide +kernel

end DirectoryService.KeyValue
