import DirectoryService.Filter.Basic
import DirectoryService.Text.Ascii
import DirectoryService.Text.Utf8

/-!
# Filters as text

The string form of RFC 4515. In an assertion value the characters that have a meaning in the form,
the null character, and every octet that is no part of a character are written as a backslash and
two hexadecimal digits. Attribute descriptions and rule names are written as they are.
-/

namespace DirectoryService.Filter

/-- Whether a character has a meaning of its own in the string form. -/
def isMeta (c : Char) : Bool := c = '*' || c = '(' || c = ')' || c = '\\' || c = '\x00'

/-- An octet as a backslash and two hexadecimal digits. -/
def escapeOctet (octet : UInt8) : List Char := '\\' :: Ascii.hexPair octet

/-- A piece of an assertion value in the string form. -/
def escapePiece : Utf8.Piece → List Char
  | .char c => if isMeta c then escapeOctet (UInt8.ofNat c.toNat) else [c]
  | .junk octets => octets.flatMap escapeOctet
  | .cut octets => octets.flatMap escapeOctet

/-- An assertion value in the string form. -/
def escapeValue (value : List UInt8) : List Char := (Utf8.pieces value).flatMap escapePiece

/-- The sign of a relation. -/
def relationSign : Relation → List Char
  | .equal => ['=']
  | .atLeast => ['>', '=']
  | .atMost => ['<', '=']
  | .approximate => ['~', '=']

/-- The parts of a value, with an asterisk wherever anything may stand. -/
def substringChars (parts : Substrings) : List Char :=
  (parts.initial.map escapeValue).getD [] ++
    '*' :: parts.inner.flatMap (fun part => escapeValue part ++ ['*']) ++
    (parts.final.map escapeValue).getD []

/-- A comparison by a rule. -/
def extensibleChars (assertion : ExtensibleMatch) : List Char :=
  (assertion.name.map String.toList).getD [] ++
    (if assertion.nameParts then ":dn".toList else []) ++
    (assertion.rule.map fun rule => ':' :: rule.toList).getD [] ++
    ":=".toList ++ escapeValue assertion.value

mutual

/-- The characters of a filter. -/
def chars : Filter → List Char
  | .conjunction parts => '(' :: '&' :: charsAll parts ++ [')']
  | .disjunction parts => '(' :: '|' :: charsAll parts ++ [')']
  | .negation inner => '(' :: '!' :: chars inner ++ [')']
  | .comparison relation name value =>
    '(' :: name.toList ++ relationSign relation ++ escapeValue value ++ [')']
  | .substrings name parts =>
    '(' :: name.toList ++ '=' :: substringChars parts ++ [')']
  | .presence name => '(' :: name.toList ++ ['=', '*', ')']
  | .extensible assertion => '(' :: extensibleChars assertion ++ [')']

/-- The characters of filters one after the other. -/
def charsAll : List Filter → List Char
  | [] => []
  | filter :: rest => chars filter ++ charsAll rest

end

/-- The text of a filter. -/
def render (filter : Filter) : String := String.ofList (chars filter)

end DirectoryService.Filter
