import DirectoryService.Proofs.Store.Forest

/-!
# Provisioning with the example tree

The standard schema passes its own checks, and a store that has it and no entries yet takes every
entry of the example tree, one after the other: each entry is valid, fits the schema and comes after
its parent. The time at which the tree is created has no part in this.
-/

namespace DirectoryService

/-- The standard schema passes every check of a schema. -/
theorem Catalog.checked_standard : Catalog.standard.checked = .ok .standard := by
  have hsyntaxes : checkUnique .ldapSyntax [] (standard.syntaxes.map (·.oid)) = .ok () := by
    decide +kernel
  have hrules : checkUnique .matchingRule [] (standard.matchingRules.map (·.oid)) = .ok () := by
    decide +kernel
  have htypes : checkUnique .attributeType [] (standard.attributeTypes.map (·.oid)) = .ok () := by
    decide +kernel
  have hclasses : checkUnique .objectClass [] (standard.objectClasses.map (·.oid)) = .ok () := by
    decide +kernel
  have hsuperiors : standard.attributeTypes.forM (checkSuperior standard) = .ok () := by
    decide +kernel
  have hchains : (standard.objectClasses.forM fun definition => do
      let _ ← standard.superiorChain definition.name) = .ok () := by
    decide +kernel
  rw [checked, hsyntaxes, hrules, htypes, hclasses, hsuperiors, hchains]
  rfl

namespace Entry

/-- An entry stays proper when values of an attribute of the server are added. -/
theorem Proper.addingOperational {entry : Entry} (proper : entry.Proper) {name : String}
    (plain : Ascii.same name objectClassAttribute = false) (values : List String) :
    (entry.addingOperational name values).Proper where
  rdn_ne := proper.rdn_ne
  dn_eq := proper.dn_eq
  not_top := proper.not_top
  not_classes other there := by
    by_cases same : other = name
    · subst same
      exact plain
    · refine proper.not_classes other (there.imp_right fun operational => ?_)
      rw [NameMap.contains, Entry.addingOperational, Attributes.extend, NameMap.get?_alter,
        if_neg same] at operational
      exact operational

/-- The names of entries are new, and the entries come after their parents. -/
def parentsFirst (names : List String) : List Entry → Bool
  | [] => true
  | entry :: rest => !names.contains entry.dn && entry.parent.all names.contains &&
      parentsFirst (entry.dn :: names) rest

end Entry

namespace MemoryStore

/-- A store has an entry without parent. -/
def HasRoot (store : MemoryStore) : Prop :=
  ∃ dn root, store.entries.get? dn = some root ∧ root.parent = none

/-- A store that has all that another one has, and the same principals. -/
structure Precedes (store later : MemoryStore) : Prop where
  /-- Entries stay as they are. -/
  entries : ∀ dn entry, store.entries.get? dn = some entry → later.entries.get? dn = some entry
  /-- The principals are the same. -/
  principals : later.principals = store.principals

namespace Precedes

variable {store next later : MemoryStore} {entry : Entry}

/-- A store has all that it has. -/
theorem refl (store : MemoryStore) : store.Precedes store := ⟨fun _ _ there => there, rfl⟩

/-- What stays until one moment and from then on stays. -/
theorem trans (first : store.Precedes next) (second : next.Precedes later) :
    store.Precedes later where
  entries dn entry there := second.entries dn entry (first.entries dn entry there)
  principals := second.principals.trans first.principals

/-- A root stays. -/
theorem hasRoot (precedes : store.Precedes later) (rooted : store.HasRoot) : later.HasRoot := by
  obtain ⟨dn, root, found, top⟩ := rooted
  exact ⟨dn, root, precedes.entries dn root found, top⟩

/-- An entry that is accepted is added to what is there. -/
theorem of_accepts (accepts : store.Accepts entry) :
    store.Precedes { store with entries := store.entries.insert entry.dn entry } where
  entries dn other there := by
    have hne : dn ≠ entry.dn := by
      rintro rfl
      exact nomatch there.symm.trans accepts.fresh
    rw [NameMap.get?_insert, if_neg hne]
    exact there
  principals := rfl

end Precedes

/-- The first of several entries is accepted, and the others are accepted after it. -/
theorem accepts_of_foldlM_cons {entry : Entry} {entries : List Entry} {store final : MemoryStore}
    (accepted : (entry :: entries).foldlM insertEntry store = .ok final) :
    store.Accepts entry ∧ entries.foldlM insertEntry
      { store with entries := store.entries.insert entry.dn entry } = .ok final := by
  rw [List.foldlM_cons] at accepted
  cases hfirst : store.insertEntry entry with
  | error cause =>
    rw [hfirst] at accepted
    cases accepted
  | ok next =>
    rw [hfirst] at accepted
    obtain ⟨accepts, rfl⟩ := insertEntry_eq_ok_iff.1 hfirst
    exact ⟨accepts, accepted⟩

/-- Entries that are accepted one after the other are all there in the end. -/
theorem get?_of_foldlM {entries : List Entry} {store final : MemoryStore}
    (accepted : entries.foldlM insertEntry store = .ok final) :
    store.Precedes final ∧ final.catalog = store.catalog ∧
      ∀ entry ∈ entries, final.entries.get? entry.dn = some entry := by
  induction entries generalizing store with
  | nil =>
    cases accepted
    exact ⟨.refl final, rfl, nofun⟩
  | cons entry entries ih =>
    obtain ⟨accepts, further⟩ := accepts_of_foldlM_cons accepted
    obtain ⟨precedes, same, there⟩ := ih further
    refine ⟨(Precedes.of_accepts accepts).trans precedes, same, List.forall_mem_cons.2 ⟨?_, there⟩⟩
    refine precedes.entries entry.dn entry ?_
    rw [NameMap.get?_insert, if_pos rfl]

end MemoryStore

namespace Seed

/-- The entries of the example tree without the time at which they are created. -/
def tree : List Entry :=
  [((Entry.bare base none).declaring "domain").adding "dc" ["example"],
    (((Entry.bare "cn=Users" base).declaring "groupOfNames").adding "cn" ["Users"]).adding "member"
      (people.map fun name => "cn=" ++ name ++ "," ++ group)] ++ people.map person

/-- The time is an attribute of the server. -/
def stamp (created : String) (entry : Entry) : Entry :=
  entry.addingOperational "createTimestamp" [created]

/-- The entries of the example tree are those of the bare tree with their time. -/
theorem entries_eq (created : String) : entries created = tree.map (stamp created) := rfl

/-- The entries of the tree are valid. -/
theorem proper_of_mem_tree {entry : Entry} (member : entry ∈ tree) : entry.Proper := by
  have hvalid : ∀ entry ∈ tree, entry.validate = .ok () := by decide +kernel
  exact entry.validate_eq_ok_iff.1 (hvalid entry member)

/-- The entries of the tree fit the standard schema. -/
theorem checkEntry_of_mem_tree {entry : Entry} (member : entry ∈ tree) :
    Catalog.standard.checkEntry entry = .ok () := by
  have hfits : ∀ entry ∈ tree, Catalog.standard.checkEntry entry = .ok () := by decide +kernel
  exact hfits entry member

/-- Entries that are valid, fit the standard schema and come after their parents are accepted one
after the other, whatever their time. -/
theorem exists_foldlM_stamp (created : String) {rest : List Entry} {names : List String}
    (proper : ∀ entry ∈ rest, entry.Proper)
    (fits : ∀ entry ∈ rest, Catalog.standard.checkEntry entry = .ok ())
    (first : Entry.parentsFirst names rest = true) {store : MemoryStore}
    (standard : store.catalog = .standard)
    (there : ∀ name, store.entries.contains name = names.contains name) :
    ∃ final, (rest.map (stamp created)).foldlM MemoryStore.insertEntry store = .ok final := by
  induction rest generalizing names store with
  | nil => exact ⟨store, rfl⟩
  | cons entry rest ih =>
    simp only [Entry.parentsFirst, Bool.and_eq_true, Bool.not_eq_true'] at first
    obtain ⟨⟨new, below⟩, further⟩ := first
    obtain ⟨hproper, properRest⟩ := List.forall_mem_cons.1 proper
    obtain ⟨hfits, fitsRest⟩ := List.forall_mem_cons.1 fits
    have accepts : store.Accepts (stamp created entry) := by
      refine ⟨hproper.addingOperational (by decide) [created], ?_, fun parent named => ?_, ?_⟩
      · rw [← there] at new
        exact Option.isNone_iff_eq_none.1 (Option.isSome_eq_false_iff.1 new)
      · have hparent : entry.parent = some parent := named
        rw [hparent] at below
        rw [there]
        exact below
      · rw [standard]
        exact hfits
    have hinserted : store.insertEntry (stamp created entry) = .ok _ :=
      MemoryStore.insertEntry_eq_ok_iff.2 ⟨accepts, rfl⟩
    rw [List.map_cons, List.foldlM_cons, hinserted]
    refine ih properRest fitsRest further standard fun name => ?_
    rw [NameMap.contains_insert, there, List.contains_cons]
    rfl

/-- A store that has the standard schema and no entries takes the example tree. -/
theorem exists_foldlM_entries (created : String) :
    ∃ final, (entries created).foldlM MemoryStore.insertEntry (.empty .standard) = .ok final := by
  have first : Entry.parentsFirst [] tree = true := by decide +kernel
  rw [entries_eq]
  exact exists_foldlM_stamp created (fun _ => proper_of_mem_tree) (fun _ => checkEntry_of_mem_tree)
    first rfl fun _ => rfl

end Seed

end DirectoryService
