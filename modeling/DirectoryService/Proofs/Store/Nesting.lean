import DirectoryService.Proofs.Store.Selection
import DirectoryService.Request.Search

/-!
# Scopes nest along the tree

The entries of one level are told by their parents, those of a subtree by the ends of their names.
The two agree because the name of an entry ends with that of its parent: what is found in a scope of
a base is found in its subtree, and the subtree of an entry is a part of the subtree of every entry
above it. Whatever a base is, it need not be the name of an entry.
-/

namespace DirectoryService

/-- An entry is in the subtree of a text exactly if its name ends with the text. -/
theorem Entry.inSubtreeOf_iff_suffix {entry : Entry} {base : String} :
    entry.inSubtreeOf base = true ↔ base.toList <:+ entry.dn.toList :=
  List.isSuffixOf_iff_suffix

/-- A name below a parent ends with the name of the parent. -/
theorem Entry.suffix_distinguishedName (rdn parent : String) :
    parent.toList <:+ (distinguishedName rdn (some parent)).toList := by
  rw [distinguishedName, String.toList_append]
  exact List.suffix_append _ _

namespace Store

/-- What a store answers to a search of a scope. -/
def within (store : Store) (base : String) : SearchScope → Except Error (List Entry)
  | .base => store.entriesByName base
  | .oneLevel => store.entriesByParent base
  | .subtree => store.subtree base

/-- An entry is found by its name. -/
def Holds (store : Store) (entry : Entry) : Prop :=
  ∃ found, store.entriesByName entry.dn = .ok found ∧ entry ∈ found

/-- An entry is found by the name of the parent of another one. -/
def Above (store : Store) (entry upper : Entry) : Prop :=
  ∃ parent found, entry.parent = some parent ∧ store.entriesByName parent = .ok found ∧
    upper ∈ found

/-- A store finds the entries of a tidy store in memory by their names and in their subtrees, and
finds below a parent no others, though it may miss some. -/
structure Finds (store : Store) (memory : MemoryStore) : Prop where
  /-- The entries of a name are those of the store in memory. -/
  byName : ∀ dn, store.entriesByName dn = .ok (memory.entries.get? dn).toList
  /-- What is found below a parent is stored under a name that ends with the one of the parent. -/
  byParent : ∀ parent, ∃ found, store.entriesByParent parent = .ok found ∧
    ∀ entry ∈ found, memory.entries.get? entry.dn = some entry ∧
      ∃ rdn, entry.dn = Entry.distinguishedName rdn (some parent)
  /-- The entries of a subtree are those of the store in memory. -/
  subtree : ∀ base, store.subtree base = .ok (memory.select (·.inSubtreeOf base))
  /-- The entries of the store in memory are where they belong. -/
  tidy : memory.IsTidy

namespace Finds

variable {store : Store} {memory : MemoryStore} {entry upper : Entry}

/-- An entry is held exactly if it is stored under its name. -/
theorem holds_iff (finds : store.Finds memory) :
    store.Holds entry ↔ memory.entries.get? entry.dn = some entry := by
  simp only [Holds, finds.byName, Except.ok.injEq, exists_eq_left', Option.mem_toList]

/-- What is found in a scope is stored, under a name that ends with the base. -/
theorem exists_within (finds : store.Finds memory) (base : String) (scope : SearchScope) :
    ∃ found, store.within base scope = .ok found ∧ ∀ entry ∈ found,
      memory.entries.get? entry.dn = some entry ∧ base.toList <:+ entry.dn.toList := by
  cases scope with
  | base =>
    refine ⟨_, finds.byName base, fun entry member => ?_⟩
    have stored : memory.entries.get? base = some entry := Option.mem_toList.1 member
    obtain rfl := finds.tidy.named base entry stored
    exact ⟨stored, List.suffix_rfl⟩
  | oneLevel =>
    obtain ⟨found, hfound, below⟩ := finds.byParent base
    refine ⟨found, hfound, fun entry member => ?_⟩
    obtain ⟨stored, rdn, hdn⟩ := below entry member
    refine ⟨stored, ?_⟩
    rw [hdn]
    exact Entry.suffix_distinguishedName rdn base
  | subtree =>
    refine ⟨_, finds.subtree base, fun entry member => ?_⟩
    obtain ⟨stored, ends⟩ := finds.tidy.mem_select_iff.1 member
    exact ⟨stored, Entry.inSubtreeOf_iff_suffix.1 ends⟩

end Finds

end Store

namespace MemoryStore

variable {memory : MemoryStore}

/-- A tidy store in memory finds its entries. -/
theorem IsTidy.finds (tidy : memory.IsTidy) : memory.toStore.Finds memory where
  byName _ := rfl
  byParent parent := by
    refine ⟨_, rfl, fun entry member => ?_⟩
    obtain ⟨stored, below⟩ := tidy.mem_select_iff.1 member
    refine ⟨stored, entry.rdn, ?_⟩
    rw [← beq_iff_eq.1 below]
    exact (tidy.proper entry.dn entry stored).dn_eq
  subtree _ := rfl
  tidy := tidy

end MemoryStore

end DirectoryService
