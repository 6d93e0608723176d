/-!
# SHA-1

The digest of FIPS 180: a message is padded to whole blocks of 64 octets, and each block changes a
state of five words in eighty rounds.
-/

namespace DirectoryService.Sha1

/-- The five words that a message changes. -/
structure State where
  /-- The first word. -/
  a : UInt32
  /-- The second word. -/
  b : UInt32
  /-- The third word. -/
  c : UInt32
  /-- The fourth word. -/
  d : UInt32
  /-- The fifth word. -/
  e : UInt32

/-- The state before the first block. -/
def start : State := ⟨0x67452301, 0xEFCDAB89, 0x98BADCFE, 0x10325476, 0xC3D2E1F0⟩

/-- A word with its bits moved up in a circle. -/
def rotate (word : UInt32) (count : UInt32) : UInt32 :=
  (word <<< count) ||| (word >>> (32 - count))

/-- The words of octets, four octets each. -/
def words : List UInt8 → List UInt32
  | a :: b :: c :: d :: rest =>
    ((a.toUInt32 <<< 24) ||| (b.toUInt32 <<< 16) ||| (c.toUInt32 <<< 8) ||| d.toUInt32) ::
      words rest
  | _ => []

/-- The octets of a word. -/
def octets (word : UInt32) : List UInt8 :=
  [(word >>> 24).toUInt8, (word >>> 16).toUInt8, (word >>> 8).toUInt8, word.toUInt8]

/-- A schedule with `count` more words, each made of four earlier ones. -/
def extend : (count : Nat) → Array UInt32 → Array UInt32
  | 0, schedule => schedule
  | count + 1, schedule =>
    let size := schedule.size
    extend count (schedule.push (rotate
      (schedule.getD (size - 3) 0 ^^^ schedule.getD (size - 8) 0 ^^^
        schedule.getD (size - 14) 0 ^^^ schedule.getD (size - 16) 0) 1))

/-- The state after the round of an index with its word of the schedule. -/
def round (state : State) (index : Nat) (word : UInt32) : State :=
  let mixed :=
    if index < 20 then ((state.b &&& state.c) ||| (~~~state.b &&& state.d)) + 0x5A827999
    else if index < 40 then (state.b ^^^ state.c ^^^ state.d) + 0x6ED9EBA1
    else if index < 60 then
      ((state.b &&& state.c) ||| (state.b &&& state.d) ||| (state.c &&& state.d)) + 0x8F1BBCDC
    else (state.b ^^^ state.c ^^^ state.d) + 0xCA62C1D6
  ⟨rotate state.a 5 + mixed + state.e + word, state.a, rotate state.b 30, state.c, state.d⟩

/-- The state after `count` more rounds, the last of which is the round of index 79. -/
def rounds (schedule : Array UInt32) : (count : Nat) → State → State
  | 0, state => state
  | count + 1, state =>
    let index := 79 - count
    rounds schedule count (round state index (schedule.getD index 0))

/-- The state after a block of 64 octets. -/
def compress (state : State) (block : List UInt8) : State :=
  let last := rounds (extend 64 (words block).toArray) 80 state
  ⟨state.a + last.a, state.b + last.b, state.c + last.c, state.d + last.d, state.e + last.e⟩

/-- The state after octets, as many whole blocks as there are. -/
def absorb (state : State) (message : List UInt8) : State :=
  if message.length < 64 then state
  else absorb (compress state (message.take 64)) (message.drop 64)
termination_by message.length
decreasing_by simp; omega

/-- What is added to a message of `length` octets: a one bit, zero bits up to eight octets short of
a block, and the number of bits. -/
def padding (length : Nat) : List UInt8 :=
  let zeros := (119 - length % 64) % 64
  let bits := 8 * length
  0x80 :: List.replicate zeros 0 ++
    [56, 48, 40, 32, 24, 16, 8, 0].map fun (shift : Nat) => UInt8.ofNat (bits >>> shift)

/-- The octets of a state. -/
def State.digest (state : State) : List UInt8 :=
  octets state.a ++ octets state.b ++ octets state.c ++ octets state.d ++ octets state.e

/-- The digest of a message of which the blocks that led to `state`, `before` octets, are absorbed
already. -/
def finish (state : State) (before : Nat) (message : List UInt8) : List UInt8 :=
  (absorb state (message ++ padding (before + message.length))).digest

/-- The digest of a message. -/
def digest (message : List UInt8) : List UInt8 := finish start 0 message

end DirectoryService.Sha1
