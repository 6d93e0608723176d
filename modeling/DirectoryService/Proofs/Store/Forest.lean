import DirectoryService.Proofs.Store.Provisioning
import Mathlib.Data.List.Induction
import Mathlib.Logic.Relation

/-!
# The forest of entries

However a store in memory is filled, its entries form a forest: every parent is there, and the way
up from an entry ends at a root. Nothing checks for cycles; there are none because the name of an
entry is longer than the name of its parent.
-/

namespace DirectoryService.MemoryStore

/-- The entry right above another one. -/
def Above (store : MemoryStore) (entry upper : Entry) : Prop :=
  ∃ parent, entry.parent = some parent ∧ store.entries.get? parent = some upper

/-- Stored entries are where they belong. -/
structure IsTidy (store : MemoryStore) : Prop where
  /-- An entry is stored under its own name. -/
  named : ∀ dn entry, store.entries.get? dn = some entry → entry.dn = dn
  /-- An entry satisfies everything that it has to satisfy on its own. -/
  proper : ∀ dn entry, store.entries.get? dn = some entry → entry.Proper
  /-- The parent of an entry is stored. -/
  parented : ∀ dn entry parent, store.entries.get? dn = some entry → entry.parent = some parent →
    store.entries.contains parent = true

/-- Stored entries are where they belong, and their parents lead up to roots. -/
structure IsForest (store : MemoryStore) : Prop extends IsTidy store where
  /-- The way up from an entry ends at a root. -/
  rooted : ∀ dn entry, store.entries.get? dn = some entry →
    ∃ root, Relation.ReflTransGen store.Above entry root ∧ root.parent = none
  /-- No way up leads back to where it started. -/
  acyclic : ∀ dn entry, store.entries.get? dn = some entry →
    ¬ Relation.TransGen store.Above entry entry

namespace IsTidy

variable {store : MemoryStore}

/-- A store without entries is tidy. -/
theorem empty (catalog : Catalog) : (MemoryStore.empty catalog).IsTidy where
  named := nofun
  proper := nofun
  parented := nofun

/-- A proper entry is put at its name, below an entry that is there or nowhere. Whether there was
another entry of its name does not matter. -/
theorem put (tidy : store.IsTidy) {next : MemoryStore} {added : Entry} (proper : added.Proper)
    (parented : ∀ parent, added.parent = some parent → store.entries.contains parent = true)
    (entries : ∀ name, next.entries.get? name =
      if name = added.dn then some added else store.entries.get? name) : next.IsTidy := by
  have hcontains (name : String) (there : store.entries.contains name = true) :
      next.entries.contains name = true := by
    obtain ⟨value, found⟩ := NameMap.contains_iff.1 there
    rw [NameMap.contains, entries]
    split
    · rfl
    · rw [found]
      rfl
  refine ⟨fun dn entry found => ?_, fun dn entry found => ?_,
    fun dn entry parent found below => ?_⟩
  · rw [entries] at found
    split at found
    · rename_i same
      cases found
      exact same.symm
    · exact tidy.named dn entry found
  · rw [entries] at found
    split at found
    · cases found
      exact proper
    · exact tidy.proper dn entry found
  · rw [entries] at found
    split at found
    · cases found
      exact hcontains parent (parented parent below)
    · exact hcontains parent (tidy.parented dn entry parent found below)

/-- A step keeps a store tidy. -/
theorem step (tidy : store.IsTidy) {change : Change} {next : MemoryStore}
    (step : Step store change next) : next.IsTidy := by
  cases step with
  | rejected refused => exact tidy
  | entry taken accepts entries principals catalog =>
    exact tidy.put accepts.proper accepts.parented entries
  | principal taken fresh principals entries catalog =>
    exact ⟨entries ▸ tidy.named, entries ▸ tidy.proper, entries ▸ tidy.parented⟩
  | schema taken entries principals replaced =>
    exact ⟨entries ▸ tidy.named, entries ▸ tidy.proper, entries ▸ tidy.parented⟩

/-- However a store is filled, it is tidy. -/
theorem provision (catalog : Catalog) (changes : List Change) :
    ((MemoryStore.empty catalog).provision changes).IsTidy :=
  provision_induction (.empty catalog) (fun tidy step => tidy.step step) changes

/-- The name of an entry is longer than that of the entry above it. -/
theorem length_lt_of_above (tidy : store.IsTidy) {dn : String} {entry upper : Entry}
    (found : store.entries.get? dn = some entry) (above : store.Above entry upper) :
    upper.dn.length < entry.dn.length := by
  obtain ⟨parent, below, there⟩ := above
  have hd := (tidy.proper dn entry found).dn_eq
  simp only [below] at hd
  rw [tidy.named parent upper there, hd, String.length_append, String.length_append]
  have hc : ",".length = 1 := rfl
  omega

/-- The same holds along a whole way up. -/
theorem length_lt_of_transGen (tidy : store.IsTidy) {dn : String} {entry upper : Entry}
    (found : store.entries.get? dn = some entry) (way : Relation.TransGen store.Above entry upper) :
    upper.dn.length < entry.dn.length := by
  induction way using Relation.TransGen.head_induction_on generalizing dn with
  | single above => exact tidy.length_lt_of_above found above
  | head above way ih =>
    have hl := tidy.length_lt_of_above found above
    obtain ⟨parent, below, there⟩ := above
    exact Nat.lt_trans (ih there) hl

/-- Tidy entries form a forest. -/
theorem isForest (tidy : store.IsTidy) : store.IsForest where
  toIsTidy := tidy
  acyclic := fun dn entry found way =>
    Nat.lt_irrefl _ (tidy.length_lt_of_transGen found way)
  rooted := by
    -- The name of the entry above is shorter, so its way up is shorter too.
    intro dn entry found
    induction hn : entry.dn.length using Nat.strongRecOn generalizing dn entry with
    | ind size ih =>
      cases hp : entry.parent with
      | none => exact ⟨entry, .refl, hp⟩
      | some parent =>
        obtain ⟨upper, there⟩ := NameMap.contains_iff.1 (tidy.parented dn entry parent found hp)
        have above : store.Above entry upper := ⟨parent, hp, there⟩
        have hl := tidy.length_lt_of_above found above
        obtain ⟨root, way, last⟩ := ih _ (hn ▸ hl) parent upper there rfl
        exact ⟨root, .head above way, last⟩

end IsTidy

/-- A stored entry was accepted at some moment of the history that filled the store. -/
theorem exists_accepts_of_stored (catalog : Catalog) (changes : List Change) {dn : String}
    {entry : Entry} (found : ((empty catalog).provision changes).entries.get? dn = some entry) :
    ∃ earlier later, changes = earlier ++ .entry entry :: later ∧
      ((empty catalog).provision earlier).Accepts entry := by
  induction changes using List.reverseRecOn generalizing dn with
  | nil => cases found
  | append_singleton changes last ih =>
    -- Either the entry was there before the last call, or the last call put it there.
    have before (there : ((empty catalog).provision changes).entries.get? dn = some entry) :
        ∃ earlier later, changes ++ [last] = earlier ++ .entry entry :: later ∧
          ((empty catalog).provision earlier).Accepts entry := by
      obtain ⟨earlier, later, rfl, accepts⟩ := ih there
      exact ⟨earlier, later ++ [last], by simp only [List.append_assoc, List.cons_append], accepts⟩
    have step := step_after ((empty catalog).provision changes) last
    rw [provision_append_singleton] at found
    generalize ((empty catalog).provision changes).after last = next at step found
    cases step with
    | rejected refused => exact before found
    | @entry added _ taken accepts entries principals same =>
      rw [entries] at found
      split at found
      · cases found
        exact ⟨changes, [], rfl, accepts⟩
      · exact before found
    | principal taken fresh principals entries same => exact before (entries ▸ found)
    | schema taken entries principals replaced => exact before (entries ▸ found)

/-- However a store was filled, its entries form a forest; every one of them was accepted by the
store as it stood when it was put there, and fitted the schema of that moment. A call that is
rejected changes nothing, and one that is accepted changes the one name that it is about. -/
theorem provision_isForest (catalog : Catalog) (changes : List Change) :
    let store := (empty catalog).provision changes
    store.IsForest ∧
    (∀ dn entry, store.entries.get? dn = some entry →
      ∃ earlier later, changes = earlier ++ .entry entry :: later ∧
        let then_ := (empty catalog).provision earlier
        then_.Accepts entry ∧ then_.catalog.checkEntry entry = .ok ()) ∧
    ∀ change, Step store change (store.after change) := by
  intro store
  have tidy : store.IsTidy := .provision catalog changes
  refine ⟨tidy.isForest, fun dn entry found => ?_, step_after store⟩
  obtain ⟨earlier, later, he, accepts⟩ := exists_accepts_of_stored catalog changes found
  exact ⟨earlier, later, he, accepts, accepts.fits⟩

end DirectoryService.MemoryStore
