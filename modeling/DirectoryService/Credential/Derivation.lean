import DirectoryService.Credential.Sha1

/-!
# Keys from passwords

HMAC of RFC 2104 and PBKDF2 of RFC 8018, both over SHA-1. A derived key is a sequence of blocks;
each is the sum of a chain in which every link is the code of the link before.
-/

namespace DirectoryService.Derivation

/-- The number of octets of a block of the digest. -/
def blockSize : Nat := 64

/-- A key that fills a block: a longer one is replaced by its digest, then zeros are added. -/
def blockKey (key : List UInt8) : List UInt8 :=
  let short := if blockSize < key.length then Sha1.digest key else key
  short ++ List.replicate (blockSize - short.length) 0

/-- A key prepared for codes: the states after its inner and its outer block. -/
structure Prepared where
  /-- The state before a message. -/
  inner : Sha1.State
  /-- The state before the digest of a message. -/
  outer : Sha1.State

/-- Prepares a key. -/
def prepare (key : List UInt8) : Prepared :=
  let block := blockKey key
  ⟨Sha1.compress Sha1.start (block.map (· ^^^ 0x36)),
    Sha1.compress Sha1.start (block.map (· ^^^ 0x5C))⟩

/-- The code of a message under a prepared key. -/
def codeWith (key : Prepared) (message : List UInt8) : List UInt8 :=
  Sha1.finish key.outer blockSize (Sha1.finish key.inner blockSize message)

/-- The code of a message under a key. -/
def code (key message : List UInt8) : List UInt8 := codeWith (prepare key) message

/-- The sum of a chain after `count` more links, given its sum and its last link. -/
def chain (key : Prepared) : (count : Nat) → (sum link : List UInt8) → List UInt8
  | 0, sum, _ => sum
  | count + 1, sum, link =>
    let next := codeWith key link
    chain key count (List.zipWith (· ^^^ ·) sum next) next

/-- The block of an index, the sum of a chain of `iterations` links. -/
def block (key : Prepared) (salt : List UInt8) (iterations index : Nat) : List UInt8 :=
  let first := codeWith key (salt ++ Sha1.octets (UInt32.ofNat index))
  chain key (iterations - 1) first first

/-- The key of `length` octets that is derived from a password and a salt. -/
def deriveKey (password salt : List UInt8) (iterations length : Nat) : List UInt8 :=
  let key := prepare password
  ((List.range ((length + 19) / 20)).flatMap fun index =>
    block key salt iterations (index + 1)).take length

end DirectoryService.Derivation
