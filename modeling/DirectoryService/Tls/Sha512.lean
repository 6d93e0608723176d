/-!
# SHA-512

The digest of FIPS 180 with words of 64 bits: a message is padded to whole blocks of 128 octets,
and each block changes a state of eight words in eighty rounds. The constants are the first bits
behind the point of roots of the first primes.
-/

namespace DirectoryService.Sha512

/-- The largest number whose power is not above `value`, found from its `count` lowest bits on. -/
def rootFrom (degree value : Nat) : (count : Nat) → (root : Nat) → Nat
  | 0, root => root
  | count + 1, root =>
    let next := root + (1 <<< count)
    rootFrom degree value count (if next ^ degree ≤ value then next else root)

/-- The first 64 bits behind the point of a root of a number below 512. -/
def rootBits (degree value : Nat) : UInt64 :=
  UInt64.ofNat (rootFrom degree (value <<< (64 * degree)) 72 0)

/-- The first eighty primes. -/
def primes : List Nat :=
  (List.range 410).filter fun n => 2 ≤ n && (List.range n).all fun m => m < 2 || n % m != 0

/-- The words that the rounds add. -/
def constants : Array UInt64 := (primes.map (rootBits 3)).toArray

/-- The eight words before the first block. -/
def start : Array UInt64 := ((primes.take 8).map (rootBits 2)).toArray

/-- A word with its bits moved down in a circle. -/
def rotate (word count : UInt64) : UInt64 := (word >>> count) ||| (word <<< (64 - count))

/-- The word that octets stand for, the highest first. -/
def word (octets : List UInt8) : UInt64 :=
  octets.foldl (fun value octet => (value <<< 8) ||| octet.toUInt64) 0

/-- The octets of a word. -/
def octets (word : UInt64) : List UInt8 :=
  [56, 48, 40, 32, 24, 16, 8, 0].map fun (shift : UInt64) => (word >>> shift).toUInt8

/-- The first `count` words of octets. -/
def words : (count : Nat) → List UInt8 → List UInt64
  | 0, _ => []
  | count + 1, octets => word (octets.take 8) :: words count (octets.drop 8)

/-- A schedule with `count` more words, each made of four earlier ones. -/
def extend : (count : Nat) → Array UInt64 → Array UInt64
  | 0, schedule => schedule
  | count + 1, schedule =>
    let back (distance : Nat) := schedule.getD (schedule.size - distance) 0
    let early := back 15
    let late := back 2
    extend count (schedule.push (back 16 + back 7 +
      (rotate early 1 ^^^ rotate early 8 ^^^ (early >>> 7)) +
      (rotate late 19 ^^^ rotate late 61 ^^^ (late >>> 6))))

/-- The words after the round of an index. -/
def round (schedule : Array UInt64) (state : Array UInt64) (index : Nat) : Array UInt64 :=
  let entry (place : Nat) := state.getD place 0
  let a := entry 0
  let e := entry 4
  let first := entry 7 + (rotate e 14 ^^^ rotate e 18 ^^^ rotate e 41) +
    ((e &&& entry 5) ^^^ (~~~e &&& entry 6)) + constants.getD index 0 + schedule.getD index 0
  let second := (rotate a 28 ^^^ rotate a 34 ^^^ rotate a 39) +
    ((a &&& entry 1) ^^^ (a &&& entry 2) ^^^ (entry 1 &&& entry 2))
  #[first + second, a, entry 1, entry 2, entry 3 + first, e, entry 5, entry 6]

/-- The words after a block of 128 octets. -/
def compress (state : Array UInt64) (block : List UInt8) : Array UInt64 :=
  let schedule := extend 64 (words 16 block).toArray
  Array.zipWith (· + ·) state ((List.range 80).foldl (round schedule) state)

/-- The words after octets, as many whole blocks as there are. -/
def absorb (state : Array UInt64) (message : List UInt8) : Array UInt64 :=
  if message.length < 128 then state
  else absorb (compress state (message.take 128)) (message.drop 128)
termination_by message.length
decreasing_by simp; omega

/-- What is added to a message of `length` octets: a one bit, zero bits up to sixteen octets short
of a block, and the number of bits in as many octets. -/
def padding (length : Nat) : List UInt8 :=
  0x80 :: List.replicate ((239 - length % 128) % 128 + 8) 0 ++ octets (UInt64.ofNat (8 * length))

/-- The digest of a message. -/
def digest (message : List UInt8) : List UInt8 :=
  (absorb start (message ++ padding message.length)).toList.flatMap octets

end DirectoryService.Sha512
