import DirectoryService.Text.Ascii
import DirectoryService.Text.Glyphless

/-!
# Quoted text

A text between double quotes, with every character that would not be seen, and the quote and the
backslash themselves, written as an escape. A quoted text therefore always stays on one line.
-/

namespace DirectoryService.Quoted

/-- Lower-case hexadecimal digits of a number, without leading zeros. -/
def hexDigits (value : Nat) : List Char := Nat.toDigits 16 value

/-- The written form of one character. -/
def escape (c : Char) : List Char :=
  if c = '"' then ['\\', '"']
  else if c = '\\' then ['\\', '\\']
  else if c = '\t' then ['\\', 't']
  else if c = '\n' then ['\\', 'n']
  else if c = '\r' then ['\\', 'r']
  else if c = '\x00' then ['\\', '0']
  else if Glyphless.isGlyphless c then ['\\', 'u', '{'] ++ hexDigits c.toNat ++ ['}']
  else [c]

/-- The characters of a quoted text. -/
def quoteChars (chars : List Char) : List Char := '"' :: chars.flatMap escape ++ ['"']

/-- A text between double quotes. -/
def quote (text : String) : String := String.ofList (quoteChars text.toList)

end DirectoryService.Quoted
