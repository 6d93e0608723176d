/-!
# Base 64

The standard alphabet of RFC 4648. Reading is strict: bits that no octet uses must be zero, and a
symbol outside the alphabet is reported with its place. Two details are left to the reader's rules:
whether padding may be missing, and which of two faults is reported first.
-/

namespace DirectoryService.Base64

/-- The symbol of a number below 64. -/
def symbol (value : Nat) : Char :=
  if value < 26 then Char.ofNat (65 + value)
  else if value < 52 then Char.ofNat (71 + value)
  else if value < 62 then Char.ofNat (value - 4)
  else if value = 62 then '+'
  else '/'

/-- The number of a symbol, given as an octet. -/
def value? (octet : UInt8) : Option Nat :=
  let code := octet.toNat
  if 65 ≤ code ∧ code ≤ 90 then some (code - 65)
  else if 97 ≤ code ∧ code ≤ 122 then some (code - 71)
  else if 48 ≤ code ∧ code ≤ 57 then some (code + 4)
  else if code = 43 then some 62
  else if code = 47 then some 63
  else none

/-- The octet of the padding character `=`. -/
def pad : UInt8 := 61

/-- The symbols for a sequence of octets, three octets to four symbols, padded to whole groups. -/
def encodeChars : List UInt8 → List Char
  | [] => []
  | [a] =>
    let sum := a.toNat * 16
    [symbol (sum / 64), symbol (sum % 64), '=', '=']
  | [a, b] =>
    let sum := (a.toNat * 256 + b.toNat) * 4
    [symbol (sum / 4096), symbol (sum / 64 % 64), symbol (sum % 64), '=']
  | a :: b :: c :: rest =>
    let sum := (a.toNat * 256 + b.toNat) * 256 + c.toNat
    symbol (sum / 262144) :: symbol (sum / 4096 % 64) :: symbol (sum / 64 % 64) ::
      symbol (sum % 64) :: encodeChars rest

/-- Octets as base-64 text. -/
def encode (octets : List UInt8) : String := String.ofList (encodeChars octets)

/-- Why a text is not base 64. -/
inductive Fault where
  /-- An octet outside the alphabet, or padding where a symbol belongs. -/
  | invalidSymbol (octet : UInt8) (offset : Nat)
  /-- The last symbol carries bits that belong to no octet. -/
  | invalidLastSymbol (octet : UInt8) (offset : Nat)
  /-- The last group holds one symbol only. -/
  | invalidLength (length : Nat)
  /-- The padding does not fill the last group. -/
  | invalidPadding
deriving DecidableEq

/-- What a reader of base 64 leaves open. -/
structure Rules where
  /-- The last group has to be filled with padding. -/
  paddingRequired : Bool
  /-- A last group of one symbol is reported before any foreign symbol. -/
  lengthFirst : Bool

/-- The place of the first octet outside the alphabet, counted from `offset`. -/
def firstForeign? (offset : Nat) : List UInt8 → Option Fault
  | [] => none
  | octet :: rest =>
    if (value? octet).isSome then firstForeign? (offset + 1) rest
    else some (.invalidSymbol octet offset)

/-- The octets that whole groups of six-bit numbers hold; a rest of two or three numbers gives one
or two octets. -/
def gather : List Nat → List UInt8
  | a :: b :: c :: d :: rest =>
    let sum := ((a * 64 + b) * 64 + c) * 64 + d
    UInt8.ofNat (sum / 65536) :: UInt8.ofNat (sum / 256) :: UInt8.ofNat sum :: gather rest
  | [a, b, c] =>
    let sum := ((a * 64 + b) * 64 + c) / 4
    [UInt8.ofNat (sum / 256), UInt8.ofNat sum]
  | [a, b] => [UInt8.ofNat ((a * 64 + b) / 16)]
  | _ => []

/-- The symbols of the last group, which starts at `offset`, without its padding. -/
def lastSymbols (offset : Nat) (group : List UInt8) : Except Fault (List UInt8) :=
  let symbols := group.takeWhile (· ≠ pad)
  match firstForeign? offset symbols with
  | some fault => .error fault
  | none =>
    let padding := group.drop symbols.length
    if padding.isEmpty then .ok symbols
    else if symbols.length < 2 || padding.any (· ≠ pad) then
      .error (.invalidSymbol pad (offset + symbols.length))
    else .ok symbols

/-- The bits of the last number of a group that belong to no octet. -/
def unusedBits (symbols : List UInt8) : Nat :=
  let last := (symbols.getLast?.bind value?).getD 0
  match symbols.length with
  | 2 => last % 16
  | 3 => last % 4
  | _ => 0

/-- The octets of a last group, given without its padding. -/
def closeGroup (offset : Nat) (symbols : List UInt8) : Except Fault Unit :=
  if unusedBits symbols = 0 then .ok ()
  else .error (.invalidLastSymbol (symbols.getLast?.getD 0) (offset + symbols.length - 1))

/-- The octets that base-64 text stands for. -/
def decode (rules : Rules) (text : List UInt8) : Except Fault (List UInt8) := do
  let size := text.length
  let rest := if size % 4 = 0 then min size 4 else size % 4
  let whole := text.take (size - rest)
  let group := text.drop (size - rest)
  if rest = 1 then
    let last := group.headD 0
    if last ≠ pad ∧ (value? last).isNone then throw (.invalidSymbol last (size - 1))
    if rules.lengthFirst then throw (.invalidLength size)
  if let some fault := firstForeign? 0 whole then throw fault
  if rest = 1 then
    if group.headD 0 = pad then throw (.invalidSymbol pad (size - 1))
    throw (.invalidLength size)
  let symbols ← lastSymbols (size - rest) group
  if rules.paddingRequired && rest % 4 ≠ 0 then throw .invalidPadding
  closeGroup (size - rest) symbols
  return gather ((whole ++ symbols).filterMap value?)

end DirectoryService.Base64
