import DirectoryService.Proofs.Store.Forest
import Mathlib.Data.List.Nodup

/-!
# What a store in memory selects

A store in memory lists entries in the order of their names. The same list comes from any list of
their names, each once: looking the names up and sorting what is found gives the selected entries.
-/

namespace DirectoryService.MemoryStore

variable {store : MemoryStore}

/-- Stored entries come in the order of their names. -/
theorem IsTidy.select_ordered (tidy : store.IsTidy) (condition : Entry → Bool) :
    (store.select condition).Pairwise fun left right => Order.before left.dn right.dn = true := by
  refine List.Pairwise.filter _ (List.pairwise_map.2 ?_)
  refine store.entries.ordered.imp_of_mem fun {left right} hleft hright before => ?_
  rw [tidy.named left.1 left.2 (NameMap.mem_pairs_iff.1 hleft),
    tidy.named right.1 right.2 (NameMap.mem_pairs_iff.1 hright)]
  exact before

/-- The selected entries are the stored ones that satisfy the condition. -/
theorem IsTidy.mem_select_iff (tidy : store.IsTidy) {condition : Entry → Bool} {entry : Entry} :
    entry ∈ store.select condition ↔
      store.entries.get? entry.dn = some entry ∧ condition entry = true := by
  rw [select, List.mem_filter, NameMap.mem_values_iff]
  refine and_congr_left fun _ => ⟨fun there => ?_, fun found => ⟨entry.dn, found⟩⟩
  obtain ⟨dn, found⟩ := there
  rw [tidy.named dn entry found]
  exact found

/-- The entries of names that satisfy a condition are those that a store selects, once they are put
in order. -/
theorem IsTidy.mergeSort_eq_select (tidy : store.IsTidy) {names : List String}
    {condition : Entry → Bool} (once : names.Nodup)
    (listed : ∀ dn, dn ∈ names ↔
      ∃ entry, store.entries.get? dn = some entry ∧ condition entry = true) :
    (names.filterMap store.entries.get?).mergeSort
      (fun left right => Order.atMost left.dn right.dn) = store.select condition := by
  have hordered := tidy.select_ordered condition
  have hmem (entry : Entry) : entry ∈ names.filterMap store.entries.get? ↔
      entry ∈ store.select condition := by
    rw [List.mem_filterMap, select, List.mem_filter, NameMap.mem_values_iff]
    constructor
    · rintro ⟨dn, member, found⟩
      obtain ⟨other, there, satisfied⟩ := (listed dn).1 member
      rw [found] at there
      cases there
      exact ⟨⟨dn, found⟩, satisfied⟩
    · rintro ⟨⟨dn, found⟩, satisfied⟩
      exact ⟨dn, (listed dn).2 ⟨entry, found, satisfied⟩, found⟩
  have hnodup : (names.filterMap store.entries.get?).Nodup := by
    refine once.filterMap fun left right entry hleft hright => ?_
    rw [← tidy.named left entry hleft, ← tidy.named right entry hright]
  have hselected : (store.select condition).Nodup :=
    hordered.imp fun before same => Order.ne_of_before before (congrArg Entry.dn same)
  have hperm := (List.perm_ext_iff_of_nodup hnodup hselected).2 hmem
  have htrans (first second third : Entry) (h : Order.atMost first.dn second.dn = true)
      (k : Order.atMost second.dn third.dn = true) : Order.atMost first.dn third.dn = true :=
    Order.atMost_trans h k
  have hsorted := List.pairwise_mergeSort htrans
    (fun left right : Entry => Order.atMost_total left.dn right.dn)
    (names.filterMap store.entries.get?)
  have hlisted : (store.select condition).Pairwise
      fun left right => Order.atMost left.dn right.dn = true := by
    refine hordered.imp fun before => ?_
    rw [Order.atMost, Bool.not_eq_true', Bool.eq_false_iff]
    exact Order.not_before_of_before before
  -- Entries of the same name are the same, since both are stored.
  have hsame (left right : Entry) (hleft : left ∈ (names.filterMap store.entries.get?).mergeSort
      fun left right => Order.atMost left.dn right.dn) (hright : right ∈ store.select condition)
      (h : Order.atMost left.dn right.dn = true) (back : Order.atMost right.dn left.dn = true) :
      left = right := by
    have hdn := Order.eq_of_atMost h back
    obtain ⟨dn, -, found⟩ := List.mem_filterMap.1 (List.mem_mergeSort.1 hleft)
    obtain ⟨other, there⟩ := NameMap.mem_values_iff.1 (List.mem_filter.1 hright).1
    rw [← tidy.named dn left found, hdn, tidy.named other right there, there] at found
    exact (Option.some.inj found).symm
  exact List.Perm.eq_of_pairwise hsame hsorted hlisted ((List.mergeSort_perm _ _).trans hperm)

end DirectoryService.MemoryStore
