import DirectoryService.Credential.Principal
import DirectoryService.Proofs.Credential.Derivation
import DirectoryService.Proofs.Text.Base64

/-!
# Which passwords are accepted

A password is accepted if the key that is derived from it, under the salt that is stored, is the key
that is stored. The password for which a key was stored is always accepted. It need not be the only
one: the code from which the key is derived fills a short password up with zeros, so a password and
the same password with zeros behind it are accepted in each other's place.
-/

namespace DirectoryService

namespace Password

/-- What is stored of a password is the text of the key that is derived from it. -/
theorem hash_eq (password salt : List UInt8) :
    hash password salt = Base64.encode (Derivation.derivedKey password salt 4096 32) :=
  congrArg Base64.encode (Derivation.deriveKey_eq_derivedKey password salt 4096 32)

/-- Two passwords are stored as the same text if and only if the same key is derived from them. -/
theorem hash_eq_iff {first second salt : List UInt8} : hash first salt = hash second salt ↔
    Derivation.derivedKey first salt 4096 32 = Derivation.derivedKey second salt 4096 32 := by
  rw [hash_eq, hash_eq, Base64.encode_inj]

/-- Under a salt that is stored as it should be, passwords are compared by what is stored of them. -/
theorem verify_encode (password salt : List UInt8) (storedHash : String) :
    verify password storedHash (Base64.encode salt) = .ok (hash password salt == storedHash) := by
  have hsalt : Base64.decode saltRules (Utf8.encode (Base64.encode salt)) = .ok salt :=
    (Base64.decode_eq_ok_iff rfl).2 rfl
  rw [verify, hsalt]

/-- A password is compared if the stored salt is the text of some salt. -/
theorem verify_eq_ok_iff {password : List UInt8} {storedHash storedSalt : String} {answer : Bool} :
    verify password storedHash storedSalt = .ok answer ↔
      ∃ salt, storedSalt = Base64.encode salt ∧ (hash password salt == storedHash) = answer := by
  constructor
  · intro h
    cases hs : Base64.decode saltRules (Utf8.encode storedSalt) with
    | error cause =>
      rw [verify, hs] at h
      cases h
    | ok salt =>
      rw [verify, hs] at h
      exact ⟨salt, (Base64.decode_eq_ok_iff rfl).1 hs, Except.ok.inj h⟩
  · intro h
    obtain ⟨salt, stored, compared⟩ := h
    rw [stored, verify_encode, compared]

/-- The password for which a text was stored is accepted. -/
theorem verify_hash (password salt : List UInt8) :
    verify password (hash password salt) (Base64.encode salt) = .ok true := by
  rw [verify_encode, beq_self_eq_true]

/-- A password comes into its derived key through its block only. -/
theorem verify_hash_of_blockKey_eq {password other : List UInt8}
    (same : Derivation.blockKey other = Derivation.blockKey password) (salt : List UInt8) :
    verify other (hash password salt) (Base64.encode salt) = .ok true := by
  have hkey : hash other salt = hash password salt :=
    congrArg Base64.encode (Derivation.deriveKey_congr same salt iterations keyLength)
  rw [← hkey]
  exact verify_hash other salt

/-- A password is accepted exactly if the same key is derived from it as from the one for which the
key was stored. Two passwords that fit into a block are accepted in each other's place, whatever the
salt is, if they have the same octets, where zeros stand for those that are missing. -/
theorem verify_hash_up_to_zeros (salt password other : List UInt8) :
    verify other (hash password salt) (Base64.encode salt) =
      .ok (decide (Derivation.derivedKey other salt 4096 32 =
        Derivation.derivedKey password salt 4096 32)) ∧
    (other.length ≤ 64 → password.length ≤ 64 →
      (∀ place, other.getD place 0 = password.getD place 0) →
        verify other (hash password salt) (Base64.encode salt) = .ok true) := by
  refine ⟨?_, fun other_short short same => ?_⟩
  · have hcompared : (hash other salt == hash password salt) =
        decide (Derivation.derivedKey other salt 4096 32 =
          Derivation.derivedKey password salt 4096 32) := by
      rw [Bool.eq_iff_iff, beq_iff_eq, decide_eq_true_iff, hash_eq_iff]
    rw [verify_encode, hcompared]
  · have hblock := (Derivation.blockKey_eq_iff other_short short).2 same
    exact verify_hash_of_blockKey_eq hblock salt

/-- A zero octet is accepted where nothing was the password. -/
theorem verify_zero_for_nothing :
    (∀ place, List.getD [0] place 0 = List.getD ([] : List UInt8) place 0) ∧
      verify [0] (hash [] []) (Base64.encode []) = .ok true := by
  have same (place : Nat) : List.getD [0] place 0 = List.getD ([] : List UInt8) place 0 := by
    cases place with
    | zero => rfl
    | succ place => rfl
  have hshort : [(0 : UInt8)].length ≤ 64 := by decide
  have hnothing : ([] : List UInt8).length ≤ 64 := by decide
  exact ⟨same, (verify_hash_up_to_zeros [] [] [0]).2 hshort hnothing same⟩

/-- Not every other password of up to 24 octets is turned away. -/
theorem not_only_password_verifies :
    ¬ ∀ salt password other : List UInt8, password.length ≤ 24 → other.length ≤ 24 →
      password ≠ other → verify other (hash password salt) (Base64.encode salt) = .ok false := by
  intro only
  have hrefused := only [] [] [0] (by decide) (by decide) (by decide)
  have hblock : Derivation.blockKey [0] = Derivation.blockKey [] := by decide
  rw [verify_hash_of_blockKey_eq hblock] at hrefused
  cases hrefused

end Password

namespace Principal

/-- A password opens a principal if the stored salt is the text of a salt and the stored text is
that of the key that is derived from the password under this salt. -/
def IsOpenedBy (principal : Principal) (password : List UInt8) : Prop :=
  ∃ salt, principal.passwordSalt = Base64.encode salt ∧
    principal.passwordHash = Base64.encode (Derivation.derivedKey password salt 4096 32)

/-- The stored salt is the text of a salt. -/
def IsReadable (principal : Principal) : Prop :=
  ∃ salt, principal.passwordSalt = Base64.encode salt

/-- A principal accepts the passwords that open it. -/
theorem verify_eq_ok_true_iff {principal : Principal} {password : List UInt8} :
    principal.verify password = .ok true ↔ principal.IsOpenedBy password := by
  rw [verify, Password.verify_eq_ok_iff, IsOpenedBy]
  simp only [beq_iff_eq, Password.hash_eq]
  exact exists_congr fun salt => and_congr_right fun stored => eq_comm

/-- A principal that was made with a password is opened by it. -/
theorem isOpenedBy_withPassword (username : String) (password salt : List UInt8)
    (created : Timestamp) : (withPassword username password salt created).IsOpenedBy password :=
  ⟨salt, rfl, Password.hash_eq password salt⟩

end Principal

end DirectoryService
