import DirectoryService.Proofs.Service.Bind
import DirectoryService.Proofs.Store.Provisioning

/-!
# Principals stay

A principal that is kept in memory stays as it is, whatever is provisioned after it: an entry, a
schema or a principal of another name does not touch it, and another principal of the same name is
rejected.
-/

namespace DirectoryService

/-- A store whose only principal of a name is opened by a password lets its user in. -/
theorem Bind.authenticate_eq_success {store : Store} {username : String} {password : List UInt8}
    {principal : Principal} (found : store.principals username = .ok [principal])
    (opens : principal.IsOpenedBy password) :
    (authenticate store username password).value = .ok .success := by
  have hvalue : (authenticate store username password).value =
      (store.principals username).bind fun principals => compare principals password := rfl
  rw [hvalue, found, Except.bind, compare, Principal.verify_eq_ok_true_iff.2 opens]

namespace MemoryStore

/-- A step leaves a principal that is there as it is. -/
theorem Step.get?_principals {store next : MemoryStore} {change : Change} {username : String}
    {principal : Principal} (step : Step store change next)
    (there : store.principals.get? username = some principal) :
    next.principals.get? username = some principal := by
  cases step with
  | rejected refused => exact there
  | entry taken accepts entries principals catalog => rw [principals, there]
  | @principal added _ taken fresh principals entries catalog =>
    have hne : username ≠ added.username := by
      intro same
      rw [← same, there] at fresh
      cases fresh
    rw [principals, if_neg hne, there]
  | schema taken entries principals replaced => rw [principals, there]

/-- A history leaves a principal that is there as it is. -/
theorem get?_principals_provision {store : MemoryStore} {username : String} {principal : Principal}
    (there : store.principals.get? username = some principal) (changes : List Change) :
    (store.provision changes).principals.get? username = some principal := by
  let Kept (store : MemoryStore) : Prop := store.principals.get? username = some principal
  have start : Kept store := there
  exact provision_induction start (fun kept step => step.get?_principals kept) changes

/-- A principal that was accepted is found after every further history. -/
theorem principals_provision {store next : MemoryStore} {principal : Principal}
    (accepted : store.insertPrincipal principal = .ok next) (changes : List Change) :
    (next.provision changes).toStore.principals principal.username = .ok [principal] := by
  obtain ⟨fresh, rfl⟩ := insertPrincipal_eq_ok_iff.1 accepted
  have hstart : NameMap.get? (store.principals.insert principal.username principal)
      principal.username = some principal := by
    rw [NameMap.get?_insert, if_pos rfl]
  change Except.ok (NameMap.get? _ _).toList = _
  rw [get?_principals_provision hstart changes]
  rfl

end MemoryStore

end DirectoryService
