import DirectoryService.Proofs.Store.KeyValue.Entries
import DirectoryService.Proofs.Store.Nesting

/-!
# Scopes nest on a server

A server that carries entries finds them by their names and in their subtrees, and finds below a
parent only names that end with the one of the parent. So its scopes nest as those of a store in
memory do, and they do so at every moment while entries are kept at the same time.
-/

namespace DirectoryService.KeyValue

/-- A server finds the entries that it carries. -/
theorem Server.Carries.finds {server : Server} {memory : MemoryStore}
    (carries : server.Carries memory) : server.toStore.Finds memory where
  byName := carries.entriesByName_eq
  byParent parent := by
    obtain ⟨members, hset⟩ := carries.readable (some parent)
    have hmembers : server.perform (Task.members (childrenKey parent)) =
        (.ok members.keys, server) := by
      rw [perform_members carries.reached,
        show server.database.set? (childrenKey parent) = _ from hset]
      rfl
    have hfound : server.toStore.entriesByParent parent =
        .ok ((members.keys.filterMap memory.entries.get?).mergeSort
          fun left right => Order.atMost left.dn right.dn) := by
      change server.query (entriesByParent parent) = _
      rw [entriesByParent, query, perform_bind_ok hmembers, carries.perform_fetchEntries]
    refine ⟨_, hfound, fun entry member => ?_⟩
    obtain ⟨dn, listed, found⟩ := List.mem_filterMap.1 (List.mem_mergeSort.1 member)
    obtain ⟨-, ends⟩ :=
      carries.placed (some parent) dn ⟨members, hset, NameMap.mem_keys_iff.1 listed⟩
    obtain rfl := carries.tidy.named dn entry found
    exact ⟨found, ends⟩
  subtree := carries.subtree_eq
  tidy := carries.tidy

end DirectoryService.KeyValue
