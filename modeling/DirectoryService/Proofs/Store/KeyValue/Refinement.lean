import DirectoryService.Proofs.Session.Stores
import DirectoryService.Proofs.Store.KeyValue.Provisioning

/-!
# The database in place of the memory

A directory in a database cannot be told from one in memory. Whatever calls filled both, each call
was accepted by both or by none, every question has the same answer, and a session writes the same
octets. The answers do not depend on the order in which the database lists the members of a set.
-/

namespace DirectoryService.KeyValue

namespace Server

/-- No list of a server names an entry that is not there. -/
structure NamesEntries (server : Server) : Prop where
  /-- What is listed below a parent, or without one, is there. -/
  listed : ∀ parent, ∃ names, server.query (Task.members (Place.listing parent).key) = .ok names ∧
    ∀ dn ∈ names, server.query (Task.holds (entryKey dn)) = .ok true
  /-- What is listed backwards is there. -/
  tree : ∃ names, server.query (Task.range treeKey .lowest .highest) = .ok names ∧
    ∀ name ∈ names, server.query (Task.holds (entryKey (reversed name))) = .ok true

/-- A server that can take the place of a store in memory. -/
structure Refines (server : Server) (memory : MemoryStore) : Prop where
  /-- Every question has the same answer. -/
  agrees : server.toStore.Agrees memory.toStore
  /-- No list names an entry that is not there. -/
  complete : server.NamesEntries
  /-- The entries of a list do not depend on the order in which their names are listed. -/
  orderless : ∀ parent listed names,
    server.query (Task.members (Place.listing parent).key) = .ok listed → names.Perm listed →
      server.query (fetchEntries names) = server.query (fetchEntries listed)
  /-- The same schema is loaded. -/
  catalog : Catalog.load server.toStore = Catalog.load memory.toStore
  /-- On every stream a session writes the same messages and ends in the same way. -/
  sessions : ∀ catalog limit stop octets,
    (Session.serve ⟨.standard, ⟨server.toStore, catalog⟩, limit⟩ stop octets).Alike
      (Session.serve ⟨.standard, ⟨memory.toStore, catalog⟩, limit⟩ stop octets)
  /-- So it writes the same octets. -/
  output : ∀ catalog limit stop octets,
    (Session.serve ⟨.standard, ⟨server.toStore, catalog⟩, limit⟩ stop octets).output =
      (Session.serve ⟨.standard, ⟨memory.toStore, catalog⟩, limit⟩ stop octets).output

namespace Mirrors

variable {server : Server} {memory : MemoryStore}

/-- A mirror answers every question as its store does. -/
theorem agrees (mirrors : server.Mirrors memory) : server.toStore.Agrees memory.toStore where
  entriesByName := mirrors.hasEntries.entriesByName_eq
  entriesByParent := mirrors.entriesByParent_eq
  subtree := mirrors.hasEntries.subtree_eq
  roots := mirrors.roots_eq
  principals := mirrors.principals_eq
  syntaxes := congrArg Prod.fst
    (perform_fetchSection mirrors.reached LdapSyntax.faithful mirrors.syntaxes)
  matchingRules := congrArg Prod.fst
    (perform_fetchSection mirrors.reached MatchingRule.faithful mirrors.matchingRules)
  attributeTypes := congrArg Prod.fst
    (perform_fetchSection mirrors.reached AttributeType.faithful mirrors.attributeTypes)
  objectClasses := congrArg Prod.fst
    (perform_fetchSection mirrors.reached ObjectClass.faithful mirrors.objectClasses)
  healthy := by
    have hping : Program.run answer healthy server = (true, server) := by
      rw [healthy, Program.run, answer, if_pos mirrors.reached]
      rfl
    change Except.ok (Program.run answer healthy server).1 = _
    rw [hping]
    rfl

/-- The lists of a mirror name entries that are there. -/
theorem namesEntries (mirrors : server.Mirrors memory) : server.NamesEntries := by
  have hholds (dn : String) (there : memory.entries.contains dn = true) :
      server.query (Task.holds (entryKey dn)) = .ok true := by
    rw [query, perform_holds mirrors.reached, mirrors.contains_entryKey, there]
  constructor
  · intro parent
    obtain ⟨members, hset, hmembers⟩ := mirrors.listed parent
    refine ⟨members.keys, ?_, fun dn member => hholds dn ?_⟩
    · rw [query, perform_members mirrors.reached, hset]
      rfl
    · obtain ⟨entry, found, -⟩ := (hmembers dn).1 (NameMap.mem_keys_iff.1 member)
      exact NameMap.contains_iff.2 ⟨entry, found⟩
  · obtain ⟨names, hordered, hnames⟩ := mirrors.tree
    refine ⟨names.keys, ?_, fun name member => hholds _ ((hnames name).1
      (NameMap.mem_keys_iff.1 member))⟩
    rw [query, perform_range mirrors.reached,
      show server.database.ordered? treeKey = _ from hordered]
    exact congrArg Except.ok (List.filter_eq_self.2 fun _ _ => rfl)

/-- The order in which a mirror lists names does not change what is found under them. -/
theorem orderless (mirrors : server.Mirrors memory) {parent : Option String}
    {listed names : List String}
    (hlisted : server.query (Task.members (Place.listing parent).key) = .ok listed)
    (perm : names.Perm listed) :
    server.query (fetchEntries names) = server.query (fetchEntries listed) := by
  obtain ⟨others, hothers, hfound⟩ := mirrors.query_listing parent
  rw [query, hothers] at hlisted
  obtain rfl := Except.ok.inj hlisted
  rw [hfound names perm, hfound others (.refl others)]

/-- A mirror can take the place of its store. -/
theorem refines (mirrors : server.Mirrors memory) : server.Refines memory where
  agrees := mirrors.agrees
  complete := mirrors.namesEntries
  orderless _ _ _ hlisted perm := mirrors.orderless hlisted perm
  catalog := mirrors.agrees.load_eq
  sessions catalog limit stop octets :=
    (Session.mimics_of_agrees mirrors.agrees catalog limit).serve_alike stop octets
  output catalog limit stop octets :=
    ((Session.mimics_of_agrees mirrors.agrees catalog limit).serve_alike stop octets).output

end Mirrors

/-- A directory in a database that was filled by some calls takes the place of one in memory that
was filled by the same calls: each of them was accepted by both, or rejected by both because of its
input. -/
theorem provision_refines (changes : List MemoryStore.Change)
    (checked : ∀ change ∈ changes, change.IsChecked) :
    (∀ earlier change later, changes = earlier ++ change :: later →
      SameVerdict (((MemoryStore.empty .empty).provision earlier).verdict change)
        ((empty.provision earlier).attempt change).1) ∧
    (empty.provision changes).Refines ((MemoryStore.empty .empty).provision changes) := by
  refine ⟨fun earlier change later same => ?_, (Mirrors.empty.provision_mirrors checked).refines⟩
  subst same
  have hearlier : ∀ change ∈ earlier, change.IsChecked :=
    fun change member => checked change (List.mem_append_left _ member)
  have hchange : change.IsChecked :=
    checked change (List.mem_append_right _ List.mem_cons_self)
  exact ((Mirrors.empty.provision_mirrors hearlier).attempt_mirrors hchange).1

/-- A root is kept by both and found by the end of its name; an entry of a parent that is not there
is rejected by both. -/
theorem provision_refines_orphan :
    let top : ObjectClass := ⟨"2.5.6.0", "top", [], none, .abstractRoot, [], []⟩
    let domain : ObjectClass := ⟨"2.5.6.1", "domain", [], none, .structural, [], []⟩
    let catalog : Catalog := ⟨[], [], [], [top, domain]⟩
    let root := (Entry.bare "dc=org" none).declaring "domain"
    let orphan := (Entry.bare "cn=x" (some "dc=net")).declaring "domain"
    let kept : List MemoryStore.Change := [.schema catalog, .entry root]
    (∀ change ∈ kept ++ [.entry orphan], change.IsChecked) ∧
    SameVerdict (((MemoryStore.empty .empty).provision kept).verdict (.entry orphan))
      ((empty.provision kept).attempt (.entry orphan)).1 ∧
    ((MemoryStore.empty .empty).provision kept).verdict (.entry orphan) =
      .error (.rejected (.parentMissing "dc=net" "cn=x,dc=net")) ∧
    (empty.provision (kept ++ [.entry orphan])).toStore.subtree "org" = .ok [root] := by
  intro top domain catalog root orphan kept
  have hcatalog : catalog.checked = .ok catalog := by decide +kernel
  have checked : ∀ change ∈ kept ++ [.entry orphan], change.IsChecked := by
    simp only [kept, List.cons_append, List.nil_append, List.forall_mem_cons, List.not_mem_nil,
      false_implies, implies_true, and_true]
    exact ⟨hcatalog, trivial, trivial⟩
  obtain ⟨verdicts, refines⟩ := provision_refines (kept ++ [.entry orphan]) checked
  refine ⟨checked, verdicts kept (.entry orphan) [] rfl, by decide +kernel, ?_⟩
  rw [refines.agrees.subtree]
  decide +kernel

end Server

end DirectoryService.KeyValue
