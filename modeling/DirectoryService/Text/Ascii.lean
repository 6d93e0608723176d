/-!
# ASCII letters and hexadecimal digits

Names in a directory are compared without regard to the case of `A` to `Z`. Every other character,
letters of other alphabets included, is equal only to itself.
-/

namespace DirectoryService.Ascii

/-- The characters of a text with `A` to `Z` in lower case. -/
def fold (text : String) : List Char := text.toList.map Char.toLower

/-- A text with `A` to `Z` in lower case. -/
def lowercase (text : String) : String := String.ofList (fold text)

/-- Equality that ignores the case of `A` to `Z`. -/
def same (left right : String) : Bool := fold left == fold right

theorem same_iff {left right : String} : same left right = true ↔ fold left = fold right := by
  simp [same]

theorem same_refl (text : String) : same text text = true := by simp [same]

/-- The lower-case hexadecimal digit of a number below sixteen. -/
def hexDigit (value : Nat) : Char :=
  if value < 10 then Char.ofNat (48 + value) else Char.ofNat (87 + value)

/-- The two lower-case hexadecimal digits of an octet. -/
def hexPair (octet : UInt8) : List Char :=
  [hexDigit (octet.toNat / 16), hexDigit (octet.toNat % 16)]

/-- Octets as lower-case hexadecimal text. -/
def hex (octets : List UInt8) : String := String.ofList (octets.flatMap hexPair)

/-- The number that a hexadecimal digit of either case stands for. -/
def hexValue? (digit : Char) : Option Nat :=
  if '0' ≤ digit ∧ digit ≤ '9' then some (digit.toNat - 48)
  else if 'a' ≤ digit ∧ digit ≤ 'f' then some (digit.toNat - 87)
  else if 'A' ≤ digit ∧ digit ≤ 'F' then some (digit.toNat - 55)
  else none

/-- A digit below sixteen is read back. -/
theorem hexValue?_hexDigit : ∀ value < 16, hexValue? (hexDigit value) = some value := by decide

/-- The octets that pairs of hexadecimal digits stand for. -/
def unhex? : List Char → Option (List UInt8)
  | [] => some []
  | high :: low :: rest => do
    let h ← hexValue? high
    let l ← hexValue? low
    (UInt8.ofNat (16 * h + l) :: ·) <$> unhex? rest
  | [_] => none

/-- Whether a run of characters occurs somewhere in a text. -/
def occurs (part : List Char) : List Char → Bool
  | [] => part.isEmpty
  | c :: rest => part.isPrefixOf (c :: rest) || occurs part rest

end DirectoryService.Ascii
