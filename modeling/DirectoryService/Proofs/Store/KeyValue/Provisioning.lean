import DirectoryService.Proofs.Store.KeyValue.Mirror

/-!
# Provisioning a server

The calls that fill a store in memory can be made to a server as well. A server that mirrors a store
accepts the same calls, though it makes its checks in another order, and mirrors the store again
afterwards.
-/

namespace DirectoryService

namespace MemoryStore

/-- A schema that is put into a store passes every check. -/
def Change.IsChecked : Change → Prop
  | .entry _ => True
  | .principal _ => True
  | .schema catalog => catalog.checked = .ok catalog

/-- What a call comes to, without the store that it leaves. -/
def verdict (store : MemoryStore) (change : Change) : Except Error Unit :=
  ((store.attempt change).map fun _ => ()).mapError .rejected

end MemoryStore

namespace KeyValue

/-- Two calls are both accepted, or both rejected because of their input. -/
inductive SameVerdict : Except Error Unit → Except Error Unit → Prop where
  /-- Both are accepted. -/
  | accepted : SameVerdict (.ok ()) (.ok ())
  /-- Both are rejected. -/
  | rejected {left right : Error} (left_input : left.kind = .invalidInput)
    (right_input : right.kind = .invalidInput) : SameVerdict (.error left) (.error right)

namespace Server

/-- A server that holds nothing. -/
def empty : Server := ⟨.empty, true⟩

/-- What a call comes to, and the server after it. -/
def attempt (server : Server) : MemoryStore.Change → Except Error Unit × Server
  | .entry entry => server.perform (insertEntry entry)
  | .principal principal => server.perform (insertPrincipal principal)
  | .schema catalog => server.perform (storeCatalog catalog)

/-- The server after calls one after the other. -/
def provision (server : Server) (changes : List MemoryStore.Change) : Server :=
  changes.foldl (fun server change => (server.attempt change).2) server

namespace Mirrors

variable {server : Server} {memory : MemoryStore}

/-- A server that holds nothing mirrors a store that holds nothing. -/
theorem empty : Server.empty.Mirrors (.empty .empty) where
  reached := rfl
  entries _ := rfl
  principals _ := rfl
  listed _ := ⟨.empty, rfl, fun _ => iff_of_false nofun fun ⟨_, found, _⟩ => nomatch found⟩
  tree := ⟨.empty, rfl, fun _ => Iff.rfl⟩
  syntaxes := .inr ⟨rfl, rfl⟩
  matchingRules := .inr ⟨rfl, rfl⟩
  attributeTypes := .inr ⟨rfl, rfl⟩
  objectClasses := .inr ⟨rfl, rfl⟩
  checked := rfl
  tidy := .empty .empty

section Entries

variable {entry : Entry}

/-- A mirror has the entries of the store. -/
theorem contains_entryKey (mirrors : server.Mirrors memory) (dn : String) :
    server.database.contains (entryKey dn) = memory.entries.contains dn :=
  mirrors.hasEntries.contains_entryKey dn

/-- A mirror finds the list that the name of an entry belongs to. -/
theorem perform_listingKey (mirrors : server.Mirrors memory)
    (parented : ∀ parent, entry.parent = some parent → memory.entries.contains parent = true) :
    server.perform (listingKey entry) = (.ok (Place.listing entry.parent).key, server) := by
  rw [listingKey]
  cases below : entry.parent with
  | none => rfl
  | some parent =>
    have hholds := perform_holds mirrors.reached (entryKey parent)
    rw [mirrors.contains_entryKey, parented parent below] at hholds
    simp only
    rw [perform_bind_ok hholds]
    rfl

/-- An entry whose parent is not there is rejected. -/
theorem perform_listingKey_orphan (mirrors : server.Mirrors memory) {parent : String}
    (below : entry.parent = some parent) (absent : memory.entries.contains parent = false) :
    server.perform (listingKey entry) =
      (.error (.rejected (.parentMissing parent entry.dn)), server) := by
  have hholds := perform_holds mirrors.reached (entryKey parent)
  rw [mirrors.contains_entryKey, absent] at hholds
  rw [listingKey, below]
  simp only
  rw [perform_bind_ok hholds]
  rfl

/-- An entry that the store accepts passes every check of a mirror. -/
theorem perform_insertEntry_accepted (mirrors : server.Mirrors memory)
    (accepts : memory.Accepts entry) :
    server.perform (insertEntry entry) =
      server.perform (Task.commit (entryWrites entry (Place.listing entry.parent).key)) := by
  have hvalid : server.perform (liftM (entry.validate.mapError Error.rejected)) =
      (.ok (), server) := by
    rw [entry.validate_eq_ok_iff.2 accepts.proper]
    rfl
  have hfits : server.perform (liftM ((memory.catalog.checkEntry entry).mapError Error.rejected)) =
      (.ok (), server) := by
    rw [accepts.fits]
    rfl
  have hholds := perform_holds mirrors.reached (entryKey entry.dn)
  rw [mirrors.contains_entryKey, NameMap.contains, accepts.fresh] at hholds
  rw [insertEntry, perform_bind_ok hvalid, perform_bind_ok mirrors.perform_loadCatalog,
    perform_bind_ok hfits, perform_bind_ok hholds]
  exact perform_bind_ok (mirrors.perform_listingKey accepts.parented)

/-- An entry that the store does not accept is rejected by a mirror, which stays as it is. -/
theorem perform_insertEntry_rejected (mirrors : server.Mirrors memory)
    (refused : ¬ memory.Accepts entry) :
    ∃ cause, server.perform (insertEntry entry) = (.error (.rejected cause), server) := by
  rw [insertEntry]
  cases valid : entry.validate with
  | error cause => exact ⟨cause, rfl⟩
  | ok =>
    have hvalid : server.perform (liftM (Except.mapError Error.rejected (Except.ok ()))) =
        (.ok (), server) := rfl
    rw [perform_bind_ok hvalid, perform_bind_ok mirrors.perform_loadCatalog]
    cases fits : memory.catalog.checkEntry entry with
    | error cause => exact ⟨cause, rfl⟩
    | ok =>
      rw [perform_bind_ok hvalid]
      have hholds := perform_holds mirrors.reached (entryKey entry.dn)
      rw [mirrors.contains_entryKey] at hholds
      rw [perform_bind_ok hholds]
      cases there : memory.entries.contains entry.dn with
      | true => exact ⟨_, rfl⟩
      | false =>
        have fresh : memory.entries.get? entry.dn = none :=
          Option.isNone_iff_eq_none.1 (Option.isSome_eq_false_iff.1 there)
        -- What is left to be refused for is a parent that is not there.
        have horphan : ∃ parent, entry.parent = some parent ∧
            memory.entries.contains parent = false := by
          by_contra parented
          refine refused ⟨entry.validate_eq_ok_iff.1 valid, fresh, fun parent below => ?_, fits⟩
          by_contra absent
          exact parented ⟨parent, below, Bool.eq_false_iff.2 absent⟩
        obtain ⟨parent, below, absent⟩ := horphan
        exact ⟨_, perform_bind_error (mirrors.perform_listingKey_orphan below absent)⟩

/-- The database with an entry, whose name is added to the names of its list and to all names. -/
def withEntry (database : Database) (entry : Entry) (members names : Members) : Database :=
  ((database.insert (Place.entry entry.dn).key (.text entry.toJson.render)).insert
    (Place.listing entry.parent).key (.set (members.insert entry.dn ()))).insert
      Place.tree.key (.ordered (names.insert (reversed entry.dn) ()))

/-- An entry takes no places but its own, that of its list, and that of all names. -/
theorem get?_withEntry (database : Database) (members names : Members) {place : Place}
    (hentry : place ≠ .entry entry.dn) (hlisting : place ≠ .listing entry.parent)
    (htree : place ≠ .tree) :
    NameMap.get? (withEntry database entry members names) place.key =
      database.get? place.key := by
  rw [withEntry, Database.get?_insert_ne _ htree, Database.get?_insert_ne _ hlisting,
    Database.get?_insert_ne _ hentry]

/-- The changes that keep an entry are made. -/
theorem commit_entryWrites {database : Database} {members names : Members}
    (hset : database.set? (Place.listing entry.parent).key = .ok members)
    (hordered : database.ordered? Place.tree.key = .ok names) :
    database.commit (entryWrites entry (Place.listing entry.parent).key) =
      .ok (withEntry database entry members names) := by
  have hput (text : String) : database.write (.put (Place.entry entry.dn).key text) =
      .ok (database.insert (Place.entry entry.dn).key (.text text)) := rfl
  -- The list and the tree are at other places than what is changed before them.
  have hne : Place.listing entry.parent ≠ .entry entry.dn := nofun
  have hfirst : Place.tree ≠ .entry entry.dn := nofun
  have hsecond : Place.tree ≠ .listing entry.parent := nofun
  have hadd (content : Content) := Database.write_addMember
    ((Database.set?_insert_ne content hne).trans hset) entry.dn
  have hlast (content set : Content) := Database.write_addOrdered
    ((Database.ordered?_insert_ne set hsecond).trans
      ((Database.ordered?_insert_ne content hfirst).trans hordered)) (reversed entry.dn)
  change List.foldlM Database.write database [.put (Place.entry entry.dn).key _,
    .addMember (Place.listing entry.parent).key entry.dn,
    .addOrdered Place.tree.key (reversed entry.dn)] = _
  simp only [List.foldlM_cons, List.foldlM_nil, bind, Except.bind, hput, hadd, hlast]
  rfl

/-- A server that has the entries of a store and keeps a proper entry, below one that is there or
nowhere, has the entries of the store with that entry, whether it is a new one or takes the place of
another. -/
theorem hasEntries_withEntry (holds : server.HasEntries memory) (proper : entry.Proper)
    (parented : ∀ parent, entry.parent = some parent → memory.entries.contains parent = true)
    (members : Members) {names : Members}
    (hnames : ∀ name, names.contains name = true ↔
      memory.entries.contains (reversed name) = true) :
    HasEntries { server with database := withEntry server.database entry members names }
      { memory with entries := memory.entries.insert entry.dn entry } where
  reached := holds.reached
  entries dn := by
    have hold := holds.entries dn
    simp only [withEntry, NameMap.get?_insert, Place.key_inj, reduceCtorEq, if_false,
      Place.entry.injEq]
    split
    · rfl
    · exact hold
  tree := by
    refine ⟨names.insert (reversed entry.dn) (), ?_, fun name => ?_⟩
    · rw [withEntry, Database.ordered?, Database.get?_insert_self]
    · have hsame : name = reversed entry.dn ↔ reversed name = entry.dn := by
        constructor
        · rintro rfl
          exact reversed_reversed _
        · rintro same
          rw [← same, reversed_reversed]
      simp only [NameMap.contains_insert, Bool.or_eq_true, decide_eq_true_eq, hnames, hsame]
  tidy := holds.tidy.put proper parented (memory.entries.get?_insert entry.dn entry)

/-- A mirror in which an accepted entry is kept mirrors the store with the entry. -/
theorem withEntry_mirrors (mirrors : server.Mirrors memory) (accepts : memory.Accepts entry)
    {members names : Members}
    (hmembers : ∀ name, members.contains name = true ↔
      ∃ other, memory.entries.get? name = some other ∧ other.parent = entry.parent)
    (hnames : ∀ name, names.contains name = true ↔
      memory.entries.contains (reversed name) = true) :
    Mirrors { server with database := withEntry server.database entry members names }
      { memory with entries := memory.entries.insert entry.dn entry } := by
  have holds := hasEntries_withEntry mirrors.hasEntries accepts.proper accepts.parented members
    hnames
  exact {
    reached := mirrors.reached
    entries := holds.entries
    principals := fun username =>
      Eq.trans (get?_withEntry _ _ _ nofun nofun nofun) (mirrors.principals username)
    listed := fun parent => by
      by_cases same : parent = entry.parent
      · subst same
        refine ⟨members.insert entry.dn (), ?_, fun name => ?_⟩
        · rw [withEntry, Database.set?_insert_ne _ (by simp), Database.set?,
            Database.get?_insert_self]
        · simp only [NameMap.contains_insert, Bool.or_eq_true, decide_eq_true_eq, hmembers,
            NameMap.get?_insert]
          by_cases here : name = entry.dn <;> simp [here]
      · have hne : Place.listing parent ≠ .listing entry.parent := fun h => same (by cases h; rfl)
        have hsame := get?_withEntry server.database members names (by simp) hne (by simp)
        obtain ⟨others, hothers, hlists⟩ := mirrors.listed parent
        refine ⟨others, ?_, fun name => ?_⟩
        · rw [Database.set?, hsame]
          exact hothers
        · simp only [hlists, NameMap.get?_insert]
          by_cases here : name = entry.dn
          · subst here
            simp [accepts.fresh, Ne.symm same]
          · simp [here]
    tree := holds.tree
    syntaxes := mirrors.syntaxes.congr (get?_withEntry _ _ _ nofun nofun nofun)
    matchingRules := mirrors.matchingRules.congr (get?_withEntry _ _ _ nofun nofun nofun)
    attributeTypes := mirrors.attributeTypes.congr (get?_withEntry _ _ _ nofun nofun nofun)
    objectClasses := mirrors.objectClasses.congr (get?_withEntry _ _ _ nofun nofun nofun)
    checked := mirrors.checked
    tidy := holds.tidy }

/-- An entry is kept by a mirror exactly if the store keeps it. -/
theorem attempt_entry (mirrors : server.Mirrors memory) (entry : Entry) :
    SameVerdict (memory.verdict (.entry entry)) (server.attempt (.entry entry)).1 ∧
      (server.attempt (.entry entry)).2.Mirrors (memory.after (.entry entry)) := by
  by_cases accepts : memory.Accepts entry
  · have hstore : memory.attempt (.entry entry) = .ok _ :=
      MemoryStore.insertEntry_eq_ok_iff.2 ⟨accepts, rfl⟩
    obtain ⟨members, hset, hmembers⟩ := mirrors.listed entry.parent
    obtain ⟨names, hordered, hnames⟩ := mirrors.tree
    have hdone : server.attempt (.entry entry) = _ :=
      (mirrors.perform_insertEntry_accepted accepts).trans
        (perform_commit mirrors.reached (commit_entryWrites hset hordered))
    rw [MemoryStore.verdict, MemoryStore.after, hstore, hdone]
    exact ⟨.accepted, mirrors.withEntry_mirrors accepts hmembers hnames⟩
  · obtain ⟨cause, hdone⟩ := mirrors.perform_insertEntry_rejected accepts
    have hdone : server.attempt (.entry entry) = _ := hdone
    cases hstore : memory.attempt (.entry entry) with
    | ok next => exact absurd (MemoryStore.insertEntry_eq_ok_iff.1 hstore).1 accepts
    | error other =>
      rw [MemoryStore.verdict, MemoryStore.after, hstore, hdone]
      exact ⟨.rejected rfl rfl, mirrors⟩

end Entries

/-- The database with a principal. -/
def withPrincipal (database : Database) (principal : Principal) : Database :=
  database.insert (Place.principal principal.username).key (.text principal.toJson.render)

/-- A principal takes no place but its own. -/
theorem get?_withPrincipal (database : Database) {principal : Principal} {place : Place}
    (ne : place ≠ .principal principal.username) :
    NameMap.get? (withPrincipal database principal) place.key = database.get? place.key :=
  Database.get?_insert_ne _ ne

/-- To keep a principal changes no place but its own. -/
theorem perform_insertPrincipal_frame (reached : server.reachable = true)
    (principal : Principal) :
    (server.perform (insertPrincipal principal)).2.reachable = true ∧
      ∀ place : Place, place ≠ .principal principal.username →
        (server.perform (insertPrincipal principal)).2.database.get? place.key =
          server.database.get? place.key := by
  unfold insertPrincipal
  cases taken : server.database.contains (principalKey principal.username) with
  | true =>
    rw [perform_bind_ok (perform_putNew_taken reached taken _)]
    exact ⟨reached, fun _ _ => rfl⟩
  | false =>
    rw [perform_bind_ok (perform_putNew_free reached taken _)]
    exact ⟨reached, fun _ ne => get?_withPrincipal server.database ne⟩

/-- A mirror in which a principal is kept mirrors the store with the principal. -/
theorem withPrincipal_mirrors (mirrors : server.Mirrors memory) (principal : Principal) :
    Mirrors { server with database := withPrincipal server.database principal }
      { memory with principals := memory.principals.insert principal.username principal } where
  reached := mirrors.reached
  entries dn := Eq.trans (get?_withPrincipal _ nofun) (mirrors.entries dn)
  principals username := by
    have hold := mirrors.principals username
    simp only [withPrincipal, NameMap.get?_insert, Place.key_inj, Place.principal.injEq]
    split
    · rfl
    · exact hold
  listed parent := (mirrors.listed parent).congr (get?_withPrincipal _ nofun)
  tree := by
    obtain ⟨names, hordered, hnames⟩ := mirrors.tree
    refine ⟨names, ?_, hnames⟩
    rw [Database.ordered?, get?_withPrincipal _ (by simp)]
    exact hordered
  syntaxes := mirrors.syntaxes.congr (get?_withPrincipal _ nofun)
  matchingRules := mirrors.matchingRules.congr (get?_withPrincipal _ nofun)
  attributeTypes := mirrors.attributeTypes.congr (get?_withPrincipal _ nofun)
  objectClasses := mirrors.objectClasses.congr (get?_withPrincipal _ nofun)
  checked := mirrors.checked
  tidy := ⟨mirrors.tidy.named, mirrors.tidy.proper, mirrors.tidy.parented⟩

/-- A mirror has the principals of the store. -/
theorem contains_principalKey (mirrors : server.Mirrors memory) (username : String) :
    server.database.contains (principalKey username) = memory.principals.contains username := by
  have hget : server.database.get? (principalKey username) = _ := mirrors.principals username
  rw [NameMap.contains, hget, Option.isSome_map, NameMap.contains]

/-- A principal is kept by a mirror exactly if the store keeps it. -/
theorem attempt_principal (mirrors : server.Mirrors memory) (principal : Principal) :
    SameVerdict (memory.verdict (.principal principal)) (server.attempt (.principal principal)).1 ∧
      (server.attempt (.principal principal)).2.Mirrors (memory.after (.principal principal)) := by
  have hcontains := mirrors.contains_principalKey principal.username
  rw [attempt, insertPrincipal, MemoryStore.verdict, MemoryStore.after, MemoryStore.attempt,
    MemoryStore.insertPrincipal]
  cases taken : memory.principals.contains principal.username with
  | true =>
    rw [taken] at hcontains
    rw [perform_bind_ok (perform_putNew_taken mirrors.reached hcontains _)]
    exact ⟨.rejected rfl rfl, mirrors⟩
  | false =>
    rw [taken] at hcontains
    rw [perform_bind_ok (perform_putNew_free mirrors.reached hcontains _)]
    exact ⟨.accepted, mirrors.withPrincipal_mirrors principal⟩

/-- The database with a schema. -/
def withCatalog (database : Database) (catalog : Catalog) : Database :=
  (((database.insert Place.syntaxes.key
    (.text (Json.render (.list (catalog.syntaxes.map (·.toJson)))))).insert
    Place.matchingRules.key
    (.text (Json.render (.list (catalog.matchingRules.map (·.toJson)))))).insert
    Place.attributeTypes.key
    (.text (Json.render (.list (catalog.attributeTypes.map (·.toJson)))))).insert
    Place.objectClasses.key
    (.text (Json.render (.list (catalog.objectClasses.map (·.toJson)))))

/-- A schema takes no place but those of its sections. -/
theorem get?_withCatalog (database : Database) (catalog : Catalog) {place : Place}
    (hsyntaxes : place ≠ .syntaxes) (hrules : place ≠ .matchingRules)
    (htypes : place ≠ .attributeTypes) (hclasses : place ≠ .objectClasses) :
    NameMap.get? (withCatalog database catalog) place.key = database.get? place.key := by
  rw [withCatalog, Database.get?_insert_ne _ hclasses, Database.get?_insert_ne _ htypes,
    Database.get?_insert_ne _ hrules, Database.get?_insert_ne _ hsyntaxes]

/-- A server that is reached holds the schema that is kept. -/
theorem holdsCatalog_withCatalog (reached : server.reachable = true) (catalog : Catalog) :
    HoldsCatalog { server with database := withCatalog server.database catalog } catalog where
  reached := reached
  syntaxes := by
    refine .inl ?_
    rw [withCatalog, Database.get?_insert_ne _ (by simp), Database.get?_insert_ne _ (by simp),
      Database.get?_insert_ne _ (by simp), Database.get?_insert_self]
  matchingRules := by
    refine .inl ?_
    rw [withCatalog, Database.get?_insert_ne _ (by simp), Database.get?_insert_ne _ (by simp),
      Database.get?_insert_self]
  attributeTypes := by
    refine .inl ?_
    rw [withCatalog, Database.get?_insert_ne _ (by simp), Database.get?_insert_self]
  objectClasses := .inl (Database.get?_insert_self _ _ _)

/-- A mirror in which a checked schema is kept mirrors the store with the schema. -/
theorem withCatalog_mirrors (mirrors : server.Mirrors memory) {catalog : Catalog}
    (checked : catalog.checked = .ok catalog) :
    Mirrors { server with database := withCatalog server.database catalog }
      { memory with catalog } := by
  have holds := holdsCatalog_withCatalog mirrors.reached catalog
  exact {
    reached := mirrors.reached
    entries := fun dn =>
      Eq.trans (get?_withCatalog _ _ nofun nofun nofun nofun) (mirrors.entries dn)
    principals := fun username =>
      Eq.trans (get?_withCatalog _ _ nofun nofun nofun nofun) (mirrors.principals username)
    listed := fun parent =>
      (mirrors.listed parent).congr (get?_withCatalog _ _ nofun nofun nofun nofun)
    tree := by
      obtain ⟨names, hordered, hnames⟩ := mirrors.tree
      refine ⟨names, ?_, hnames⟩
      rw [Database.ordered?, get?_withCatalog _ _ (by simp) (by simp) (by simp) (by simp)]
      exact hordered
    syntaxes := holds.syntaxes
    matchingRules := holds.matchingRules
    attributeTypes := holds.attributeTypes
    objectClasses := holds.objectClasses
    checked := checked
    tidy := ⟨mirrors.tidy.named, mirrors.tidy.proper, mirrors.tidy.parented⟩ }

/-- To keep a schema always succeeds on a server that is reached. -/
theorem perform_storeCatalog (reached : server.reachable = true) (catalog : Catalog) :
    server.perform (storeCatalog catalog) =
      (.ok (), { server with database := withCatalog server.database catalog }) := by
  have hcommit : server.database.commit (catalogWrites catalog) =
      .ok (withCatalog server.database catalog) := rfl
  exact perform_commit reached hcommit

/-- A schema that passes every check is kept by a mirror and by the store. -/
theorem attempt_schema (mirrors : server.Mirrors memory) {catalog : Catalog}
    (checked : catalog.checked = .ok catalog) :
    SameVerdict (memory.verdict (.schema catalog)) (server.attempt (.schema catalog)).1 ∧
      (server.attempt (.schema catalog)).2.Mirrors (memory.after (.schema catalog)) := by
  have hdone : server.attempt (.schema catalog) = _ :=
    perform_storeCatalog mirrors.reached catalog
  rw [hdone]
  exact ⟨.accepted, mirrors.withCatalog_mirrors checked⟩

/-- A mirror and its store accept the same calls, and stay mirror and store. -/
theorem attempt_mirrors (mirrors : server.Mirrors memory) {change : MemoryStore.Change}
    (checked : change.IsChecked) :
    SameVerdict (memory.verdict change) (server.attempt change).1 ∧
      (server.attempt change).2.Mirrors (memory.after change) := by
  cases change with
  | entry entry => exact mirrors.attempt_entry entry
  | principal principal => exact mirrors.attempt_principal principal
  | schema catalog => exact mirrors.attempt_schema checked

/-- However both are filled, a server mirrors the store that is filled by the same calls. -/
theorem provision_mirrors (mirrors : server.Mirrors memory) {changes : List MemoryStore.Change}
    (checked : ∀ change ∈ changes, change.IsChecked) :
    (server.provision changes).Mirrors (memory.provision changes) := by
  induction changes generalizing server memory with
  | nil => exact mirrors
  | cons change changes ih =>
    obtain ⟨first, rest⟩ := List.forall_mem_cons.1 checked
    exact ih (mirrors.attempt_mirrors first).2 rest

end Mirrors

end Server

end KeyValue

end DirectoryService
