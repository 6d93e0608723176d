import DirectoryService.Credential.Derivation
import Mathlib.Data.List.GetD

/-!
# Codes and keys by their formulas

A code is a digest over a digest, each behind the block of the key combined with a constant, and a
derived key is the sum of a chain of codes. The functions that compute them prepare the key once and
keep a running sum; here they are shown to compute the formulas. A key comes into them through its
block only, so keys with the same block have the same codes.
-/

namespace DirectoryService

namespace Sha1

/-- A digest has twenty octets. -/
theorem length_digest (message : List UInt8) : (digest message).length = 20 := by
  simp only [digest, finish, State.digest, octets, List.length_append, List.length_cons,
    List.length_nil]

/-- The first block of a message can be absorbed beforehand. -/
theorem finish_compress {block : List UInt8} (whole : block.length = 64) (message : List UInt8) :
    finish (compress start block) 64 message = digest (block ++ message) := by
  have hlong : ¬ (block ++ message ++ padding (0 + (block ++ message).length)).length < 64 := by
    rw [List.length_append, List.length_append]
    omega
  have hsize : 0 + (block ++ message).length = 64 + message.length := by
    rw [List.length_append]
    omega
  unfold digest finish
  rw [absorb.eq_def start, if_neg hlong, hsize, List.append_assoc]
  rw [List.take_left' whole, List.drop_left' whole]

end Sha1

namespace Derivation

/-- The block of a key fills a block of the digest. -/
theorem length_blockKey (key : List UInt8) : (blockKey key).length = 64 := by
  have hd := Sha1.length_digest key
  unfold blockKey blockSize
  simp only
  split
  · rw [List.length_append, List.length_replicate]
    omega
  · rw [List.length_append, List.length_replicate]
    omega

/-- The code of a message under a key, by its formula. -/
def keyedDigest (key message : List UInt8) : List UInt8 :=
  Sha1.digest ((blockKey key).map (· ^^^ 0x5C) ++
    Sha1.digest ((blockKey key).map (· ^^^ 0x36) ++ message))

/-- A code is what its formula says. -/
theorem code_eq_keyedDigest (key message : List UInt8) :
    code key message = keyedDigest key message := by
  have hinner : ((blockKey key).map (· ^^^ 0x36)).length = 64 := by
    rw [List.length_map, length_blockKey]
  have houter : ((blockKey key).map (· ^^^ 0x5C)).length = 64 := by
    rw [List.length_map, length_blockKey]
  unfold code codeWith prepare blockSize keyedDigest
  rw [Sha1.finish_compress hinner, Sha1.finish_compress houter]

/-- The links of the chain of a block: each is the code of the one before. -/
def link (password salt : List UInt8) (index : Nat) : Nat → List UInt8
  | 0 => keyedDigest password (salt ++ Sha1.octets (UInt32.ofNat index))
  | place + 1 => keyedDigest password (link password salt index place)

/-- The sum of the links of a chain up to a place. -/
def linkSum (password salt : List UInt8) (index : Nat) : Nat → List UInt8
  | 0 => link password salt index 0
  | place + 1 =>
    List.zipWith (· ^^^ ·) (linkSum password salt index place)
      (link password salt index (place + 1))

/-- The key of `length` octets that is derived from a password and a salt, by its formula. -/
def derivedKey (password salt : List UInt8) (iterations length : Nat) : List UInt8 :=
  ((List.range ((length + 19) / 20)).flatMap fun index =>
    linkSum password salt (index + 1) (iterations - 1)).take length

/-- A running sum goes on to the sum of the links. -/
theorem chain_linkSum (password salt : List UInt8) (index count place : Nat) :
    chain (prepare password) count (linkSum password salt index place)
      (link password salt index place) = linkSum password salt index (place + count) := by
  induction count generalizing place with
  | zero => rfl
  | succ count ih =>
    have hnext : codeWith (prepare password) (link password salt index place) =
        link password salt index (place + 1) := code_eq_keyedDigest password _
    have hplace : place + (count + 1) = place + 1 + count := by omega
    rw [chain, hnext, hplace, ← ih (place + 1)]
    rfl

/-- A derived key is what its formula says. -/
theorem deriveKey_eq_derivedKey (password salt : List UInt8) (iterations length : Nat) :
    deriveKey password salt iterations length = derivedKey password salt iterations length := by
  have hblock (index : Nat) : block (prepare password) salt iterations index =
      linkSum password salt index (iterations - 1) := by
    have hfirst : codeWith (prepare password) (salt ++ Sha1.octets (UInt32.ofNat index)) =
        link password salt index 0 := code_eq_keyedDigest password _
    have hsum := chain_linkSum password salt index (iterations - 1) 0
    rw [Nat.zero_add] at hsum
    unfold block
    rw [hfirst]
    exact hsum
  unfold deriveKey derivedKey
  simp only [hblock]

/-- A key that is not longer than a block is filled up with zeros. -/
theorem blockKey_of_length_le {key : List UInt8} (short : key.length ≤ 64) :
    blockKey key = key ++ List.replicate (64 - key.length) 0 := by
  have hlong : ¬ blockSize < key.length := Nat.not_lt.2 short
  unfold blockKey
  simp only [if_neg hlong]
  rfl

/-- Short keys have the same block exactly if they have the same octets, where zeros stand for those
that are missing. -/
theorem blockKey_eq_iff {first second : List UInt8} (first_short : first.length ≤ 64)
    (second_short : second.length ≤ 64) :
    blockKey first = blockKey second ↔ ∀ place, first.getD place 0 = second.getD place 0 := by
  have hplace {key : List UInt8} (short : key.length ≤ 64) (place : Nat) :
      (blockKey key).getD place 0 = key.getD place 0 := by
    rw [blockKey_of_length_le short]
    by_cases inside : place < key.length
    · rw [List.getD_append _ _ _ _ inside]
    · rw [List.getD_append_right _ _ _ _ (by omega), List.getD_eq_default key 0 (by omega)]
      rw [List.getD_eq_getElem?_getD, List.getElem?_replicate]
      split <;> rfl
  constructor
  · intro same place
    rw [← hplace first_short, same, hplace second_short]
  · intro same
    have hlength : (blockKey first).length = (blockKey second).length := by
      rw [length_blockKey, length_blockKey]
    refine List.ext_getElem hlength fun place hfirst hsecond => ?_
    have hsame := same place
    rw [← hplace first_short, ← hplace second_short] at hsame
    rw [List.getD_eq_getElem _ _ hfirst, List.getD_eq_getElem _ _ hsecond] at hsame
    exact hsame

/-- Passwords with the same block have the same derived keys. -/
theorem deriveKey_congr {first second : List UInt8} (same : blockKey first = blockKey second)
    (salt : List UInt8) (iterations length : Nat) :
    deriveKey first salt iterations length = deriveKey second salt iterations length := by
  have hprepared : prepare first = prepare second := by
    unfold prepare
    rw [same]
  unfold deriveKey
  rw [hprepared]

end Derivation

end DirectoryService
