import DirectoryService.Json.Basic
import DirectoryService.Text.Ascii

/-!
# Writing JSON

The compact form: no blanks, and in a text only the quote, the backslash and the control characters
below the space are escaped.
-/

namespace DirectoryService.Json

/-- The written form of one character of a text. -/
def escape (c : Char) : List Char :=
  if c = '"' then ['\\', '"']
  else if c = '\\' then ['\\', '\\']
  else if c = '\n' then ['\\', 'n']
  else if c = '\r' then ['\\', 'r']
  else if c = '\t' then ['\\', 't']
  else if c.toNat = 8 then ['\\', 'b']
  else if c.toNat = 12 then ['\\', 'f']
  else if c.toNat < 32 then ['\\', 'u', '0', '0'] ++ Ascii.hexPair (UInt8.ofNat c.toNat)
  else [c]

/-- The written form of a text. -/
def quoted (text : String) : List Char := '"' :: text.toList.flatMap escape ++ ['"']

/-- The decimal digits of an integer, after a minus sign if it is negative. -/
def integerChars (value : Int) : List Char :=
  if value < 0 then '-' :: Nat.toDigits 10 value.natAbs else Nat.toDigits 10 value.natAbs

mutual

/-- The characters of a value. -/
def chars : Json → List Char
  | .null => "null".toList
  | .bool true => "true".toList
  | .bool false => "false".toList
  | .integer value => integerChars value
  | .decimal literal => literal.toList
  | .text value => quoted value
  | .list items => '[' :: itemChars items ++ [']']
  | .object fields => '{' :: fieldChars fields ++ ['}']

/-- The characters of list items, between commas. -/
def itemChars : List Json → List Char
  | [] => []
  | [item] => chars item
  | item :: next :: rest => chars item ++ ',' :: itemChars (next :: rest)

/-- The characters of fields, between commas. -/
def fieldChars : List (String × Json) → List Char
  | [] => []
  | [(name, value)] => quoted name ++ ':' :: chars value
  | (name, value) :: next :: rest =>
    quoted name ++ ':' :: (chars value ++ ',' :: fieldChars (next :: rest))

end

/-- The text of a value. -/
def render (value : Json) : String := String.ofList (chars value)

end DirectoryService.Json
