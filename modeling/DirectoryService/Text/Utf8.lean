/-!
# UTF-8 text

Octets are split into pieces: characters, and runs that are no part of any character. A run is as
long as the octets that could still have begun a character, so every octet belongs to exactly one
piece, and octets are text exactly when all their pieces are characters.
-/

namespace DirectoryService.Utf8

/-- No code point comes after the last one. -/
theorem val_toNat_lt (c : Char) : c.val.toNat < 1114112 := by
  have hvalid : c.val.toNat < 55296 ∨ 57343 < c.val.toNat ∧ c.val.toNat < 1114112 := c.valid
  omega

/-- The octets of a character sequence. -/
def encodeChars (chars : List Char) : List UInt8 := chars.flatMap String.utf8EncodeChar

/-- The octets of a text. -/
def encode (text : String) : List UInt8 := encodeChars text.toList

/-- A part of an octet sequence. -/
inductive Piece where
  /-- One well-formed character. -/
  | char (value : Char)
  /-- Octets that begin no character. -/
  | junk (octets : List UInt8)
  /-- The beginning of a character on which the input ends. -/
  | cut (octets : List UInt8)

/-- The number of octets of a character that starts with this octet, zero if none does. -/
def width (first : UInt8) : Nat :=
  if first < 0x80 then 1
  else if first < 0xC2 then 0
  else if first < 0xE0 then 2
  else if first < 0xF0 then 3
  else if first < 0xF5 then 4
  else 0

/-- Whether an octet may stand second after `first`: overlong forms, surrogates and numbers beyond
the last code point are excluded here. -/
def isSecond (first octet : UInt8) : Bool :=
  if first = 0xE0 then 0xA0 ≤ octet && octet ≤ 0xBF
  else if first = 0xED then 0x80 ≤ octet && octet ≤ 0x9F
  else if first = 0xF0 then 0x90 ≤ octet && octet ≤ 0xBF
  else if first = 0xF4 then 0x80 ≤ octet && octet ≤ 0x8F
  else 0x80 ≤ octet && octet ≤ 0xBF

/-- Whether an octet may stand third or fourth. -/
def isLater (octet : UInt8) : Bool := 0x80 ≤ octet && octet ≤ 0xBF

/-- The octets after `first` that can belong to the same character. -/
def tail (first : UInt8) (rest : List UInt8) : List UInt8 :=
  match rest with
  | [] => []
  | second :: more =>
    if 2 ≤ width first && isSecond first second then
      second :: (more.take (width first - 2)).takeWhile isLater
    else []

/-- The code point of a character of `width first` octets. -/
def codePoint (first : UInt8) (tail : List UInt8) : Nat :=
  let lead := match width first with
    | 1 => first.toNat
    | 2 => first.toNat % 32
    | 3 => first.toNat % 16
    | _ => first.toNat % 8
  tail.foldl (fun sum octet => 64 * sum + octet.toNat % 64) lead

/-- The piece that starts with `first` and goes on with `tail first rest`. -/
def piece (first : UInt8) (rest : List UInt8) : Piece :=
  let more := tail first rest
  if more.length + 1 = width first then .char (Char.ofNat (codePoint first more))
  else if 2 ≤ width first && more.length == rest.length then .cut (first :: more)
  else .junk (first :: more)

/-- All pieces of an octet sequence, in order. -/
def pieces : List UInt8 → List Piece
  | [] => []
  | first :: rest => piece first rest :: pieces (rest.drop (tail first rest).length)
termination_by octets => octets.length
decreasing_by rw [List.length_drop, List.length_cons]; omega

/-- Why octets are not text. -/
inductive Fault where
  /-- At `index` stand `length` octets that begin no character. -/
  | invalid (index length : Nat)
  /-- The octets end inside the character that starts at `index`. -/
  | incomplete (index : Nat)
deriving DecidableEq

/-- The wording of a fault. -/
def Fault.message : Fault → String
  | .invalid index length => s!"invalid utf-8 sequence of {length} bytes from index {index}"
  | .incomplete index => s!"incomplete utf-8 byte sequence from index {index}"

/-- The characters of pieces that start at `index`, or the first fault among them. -/
def charsOf (index : Nat) : List Piece → Except Fault (List Char)
  | [] => .ok []
  | .char c :: more => (c :: ·) <$> charsOf (index + c.utf8Size) more
  | .junk octets :: _ => .error (.invalid index octets.length)
  | .cut _ :: _ => .error (.incomplete index)

/-- The text that octets stand for. -/
def decode (octets : List UInt8) : Except Fault String :=
  String.ofList <$> charsOf 0 (pieces octets)

end DirectoryService.Utf8
