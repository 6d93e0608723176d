import DirectoryService.Proofs.NameMap
import DirectoryService.Proofs.Steps
import DirectoryService.Store.Memory

/-!
# Provisioning a store in memory

A store is filled by calls, each of which is accepted or rejected. One step lemma says everything
that a call can do; what a whole history of calls keeps follows from it by induction.
-/

namespace DirectoryService

namespace Entry

/-- An entry that satisfies everything that it has to satisfy on its own. -/
structure Proper (entry : Entry) : Prop where
  /-- There is a relative name. -/
  rdn_ne : entry.rdn ≠ ""
  /-- The name is the relative name, followed by the name of the parent if there is one. -/
  dn_eq : entry.dn = match entry.parent with
    | none => entry.rdn
    | some parent => entry.rdn ++ "," ++ parent
  /-- No declared class is `top`, in any case. -/
  not_top : ∀ className ∈ entry.objectClasses, Ascii.same className topClass = false
  /-- No attribute is the one that lists the classes, in any case. -/
  not_classes : ∀ name, entry.userAttributes.contains name = true ∨
    entry.operationalAttributes.contains name = true → Ascii.same name objectClassAttribute = false

/-- An entry is valid exactly if it is proper. -/
theorem validate_eq_ok_iff (entry : Entry) : entry.validate = .ok () ↔ entry.Proper := by
  have hclasses : entry.objectClasses.any (Ascii.same · topClass) = false ↔
      ∀ className ∈ entry.objectClasses, Ascii.same className topClass = false := by
    simp only [List.any_eq_false, Bool.not_eq_true]
  have hnames : (entry.userAttributes.keys ++ entry.operationalAttributes.keys).any
      (Ascii.same · objectClassAttribute) = false ↔
      ∀ name, entry.userAttributes.contains name = true ∨
        entry.operationalAttributes.contains name = true →
          Ascii.same name objectClassAttribute = false := by
    simp only [List.any_eq_false, Bool.not_eq_true, List.mem_append, NameMap.mem_keys_iff]
  have hempty : entry.rdn.isEmpty = false ↔ entry.rdn ≠ "" := by
    rw [← Bool.not_eq_true, String.isEmpty_iff]
  simp only [validate]
  constructor
  · intro h
    split at h
    · cases h
    · rename_i he
      split at h
      · cases h
      · rename_i hd
        split at h
        · cases h
        · rename_i hc
          split at h
          · cases h
          · rename_i hn
            refine ⟨hempty.1 (Bool.not_eq_true _ ▸ he), ?_, hclasses.1 (Bool.not_eq_true _ ▸ hc),
              hnames.1 (Bool.not_eq_true _ ▸ hn)⟩
            exact Decidable.not_not.1 hd
  · intro proper
    have hd : ¬ entry.dn ≠ distinguishedName entry.rdn entry.parent := fun h => h proper.dn_eq
    rw [hempty.2 proper.rdn_ne, hclasses.2 proper.not_top, hnames.2 proper.not_classes, if_neg hd]
    rfl

end Entry

namespace MemoryStore

/-- A call that changes a store. -/
inductive Change where
  /-- An entry is to be kept. -/
  | entry (entry : Entry)
  /-- A principal is to be kept. -/
  | principal (principal : Principal)
  /-- The schema is replaced. -/
  | schema (catalog : Catalog)

/-- What a call comes to: another store, or a rejection. -/
def attempt (store : MemoryStore) : Change → Except Rejection MemoryStore
  | .entry entry => store.insertEntry entry
  | .principal principal => store.insertPrincipal principal
  | .schema catalog => .ok (store.loadSchema catalog)

/-- The store after a call, which is the store before it if the call was rejected. -/
def after (store : MemoryStore) (change : Change) : MemoryStore :=
  match store.attempt change with
  | .ok next => next
  | .error _ => store

/-- The store after calls one after the other. -/
def provision (store : MemoryStore) (changes : List Change) : MemoryStore :=
  changes.foldl after store

/-- An entry that a store accepts. -/
structure Accepts (store : MemoryStore) (entry : Entry) : Prop where
  /-- The entry is valid on its own. -/
  proper : entry.Proper
  /-- There is no entry of its name. -/
  fresh : store.entries.get? entry.dn = none
  /-- Its parent is there. -/
  parented : ∀ parent, entry.parent = some parent → store.entries.contains parent = true
  /-- It fits the schema. -/
  fits : store.catalog.checkEntry entry = .ok ()

/-- A store admits exactly the entries that it accepts. -/
theorem admissible_eq_ok_iff {store : MemoryStore} {entry : Entry} :
    store.admissible entry = .ok () ↔ store.Accepts entry := by
  have hfresh : store.entries.contains entry.dn = false ↔ store.entries.get? entry.dn = none :=
    Option.isSome_eq_false_iff.trans Option.isNone_iff_eq_none
  simp only [admissible, bind, Except.bind, throw, throwThe, MonadExceptOf.throw]
  constructor
  · intro h
    split at h
    · cases h
    · rename_i valid
      have proper := entry.validate_eq_ok_iff.1 valid
      split at h
      · cases h
      · rename_i absent
        have fresh := hfresh.1 (Bool.not_eq_true _ ▸ absent)
        split at h
        · rename_i parent below
          split at h
          · cases h
          · rename_i there
            refine ⟨proper, fresh, fun other same => ?_, h⟩
            rw [below] at same
            cases same
            simpa using there
        · rename_i root
          exact ⟨proper, fresh, fun parent same => absurd same (root parent), h⟩
  · rintro ⟨proper, fresh, parented, fits⟩
    rw [entry.validate_eq_ok_iff.2 proper]
    simp only [hfresh.2 fresh, Bool.false_eq_true, if_false]
    split
    · rename_i parent below
      simp only [parented parent below, Bool.not_true, Bool.false_eq_true, if_false]
      exact fits
    · exact fits

/-- An entry is kept exactly if it is accepted, and nothing but its place changes. -/
theorem insertEntry_eq_ok_iff {store next : MemoryStore} {entry : Entry} :
    store.insertEntry entry = .ok next ↔ store.Accepts entry ∧
      next = { store with entries := store.entries.insert entry.dn entry } := by
  rw [insertEntry, Steps.andThen_eq_ok_iff, admissible_eq_ok_iff]
  refine and_congr_right fun _ => ?_
  constructor
  · intro h
    exact (Except.ok.inj h).symm
  · intro h
    exact congrArg Except.ok h.symm

/-- A principal is kept exactly if there is none of its name, and nothing but its place changes. -/
theorem insertPrincipal_eq_ok_iff {store next : MemoryStore} {principal : Principal} :
    store.insertPrincipal principal = .ok next ↔
      store.principals.get? principal.username = none ∧
      next = { store with principals := store.principals.insert principal.username principal } := by
  have hfresh : store.principals.contains principal.username = true ↔
      ¬ store.principals.get? principal.username = none := by
    rw [NameMap.contains, Option.isSome_iff_ne_none]
  rw [insertPrincipal]
  by_cases fresh : store.principals.get? principal.username = none
  · rw [if_neg fun h => hfresh.1 h fresh]
    simp only [Except.ok.injEq, fresh, true_and]
    exact eq_comm
  · rw [if_pos (hfresh.2 fresh)]
    simp only [reduceCtorEq, fresh, false_and]

/-- What one call does. -/
inductive Step (store : MemoryStore) : Change → MemoryStore → Prop where
  /-- A rejected call changes nothing. -/
  | rejected {change cause} (refused : store.attempt change = .error cause) :
    Step store change store
  /-- An entry that is accepted is put at its name. -/
  | entry {entry next} (taken : store.attempt (.entry entry) = .ok next)
      (accepts : store.Accepts entry)
      (entries : ∀ name, next.entries.get? name =
        if name = entry.dn then some entry else store.entries.get? name)
      (principals : next.principals = store.principals) (catalog : next.catalog = store.catalog) :
      Step store (.entry entry) next
  /-- A principal of a new name is put at it. -/
  | principal {principal next} (taken : store.attempt (.principal principal) = .ok next)
      (fresh : store.principals.get? principal.username = none)
      (principals : ∀ name, next.principals.get? name =
        if name = principal.username then some principal else store.principals.get? name)
      (entries : next.entries = store.entries) (catalog : next.catalog = store.catalog) :
      Step store (.principal principal) next
  /-- A schema takes the place of the one before, whatever is stored. -/
  | schema {catalog next} (taken : store.attempt (.schema catalog) = .ok next)
      (entries : next.entries = store.entries) (principals : next.principals = store.principals)
      (replaced : next.catalog = catalog) : Step store (.schema catalog) next

/-- Every call is one of the steps. -/
theorem step_after (store : MemoryStore) (change : Change) :
    Step store change (store.after change) := by
  rw [after]
  cases h : store.attempt change with
  | error cause => exact .rejected h
  | ok next =>
    cases change with
    | entry entry =>
      obtain ⟨accepts, rfl⟩ := insertEntry_eq_ok_iff.1 h
      exact .entry h accepts (store.entries.get?_insert entry.dn entry) rfl rfl
    | principal principal =>
      obtain ⟨fresh, rfl⟩ := insertPrincipal_eq_ok_iff.1 h
      exact .principal h fresh (store.principals.get?_insert principal.username principal) rfl rfl
    | schema catalog =>
      cases h
      exact .schema rfl rfl rfl rfl

/-- What holds of a store and is kept by every step holds after every history. -/
theorem provision_induction {Invariant : MemoryStore → Prop} {store : MemoryStore}
    (start : Invariant store)
    (kept : ∀ {store change next}, Invariant store → Step store change next → Invariant next)
    (changes : List Change) : Invariant (store.provision changes) := by
  induction changes generalizing store with
  | nil => exact start
  | cons change changes ih => exact ih (kept start (step_after store change))

/-- The last call of a history comes after all others. -/
theorem provision_append_singleton (store : MemoryStore) (changes : List Change) (last : Change) :
    store.provision (changes ++ [last]) = (store.provision changes).after last := by
  rw [provision, List.foldl_append, List.foldl_cons, List.foldl_nil]
  rfl

end MemoryStore

end DirectoryService
