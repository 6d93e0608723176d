import DirectoryService.Credential.Derivation
import DirectoryService.Text.Base64
import DirectoryService.Text.Utf8

/-!
# Stored passwords

Of a password only a derived key is stored, as base 64, next to the salt that it was derived with. A
salt that is not base 64 is a fault of the record and not a wrong password.
-/

namespace DirectoryService.Password

/-- The number of links in the chain of a derived key. -/
def iterations : Nat := 4096

/-- The number of octets of a derived key. -/
def keyLength : Nat := 32

/-- The number of octets of a fresh salt. -/
def saltLength : Nat := 16

/-- Padding is required, and the length is the last thing to be looked at. -/
def saltRules : Base64.Rules := ⟨true, false⟩

/-- Why a password could not be compared. -/
inductive Fault where
  /-- The stored salt is not base 64. -/
  | badSalt (cause : Base64.Fault)
  /-- A fault in the words of whoever reports it. -/
  | reported (text : String)
deriving DecidableEq

/-- The wording of a fault of base 64. -/
def saltMessage : Base64.Fault → String
  | .invalidSymbol octet offset => s!"Invalid symbol {octet}, offset {offset}."
  | .invalidLastSymbol octet offset => s!"Invalid last symbol {octet}, offset {offset}."
  | .invalidLength length => s!"Invalid input length: {length}"
  | .invalidPadding => "Invalid padding"

/-- The wording of a fault. -/
def Fault.message : Fault → String
  | .badSalt cause => "stored salt is not valid base64: " ++ saltMessage cause
  | .reported text => text

/-- The text that is stored of a password under a salt. -/
def hash (password salt : List UInt8) : String :=
  Base64.encode (Derivation.deriveKey password salt iterations keyLength)

/-- Whether a password is the one that hash and salt were stored of. -/
def verify (password : List UInt8) (storedHash storedSalt : String) : Except Fault Bool :=
  match Base64.decode saltRules (Utf8.encode storedSalt) with
  | .error cause => .error (.badSalt cause)
  | .ok salt => .ok (hash password salt == storedHash)

end DirectoryService.Password
