import DirectoryService.Json.Basic
import DirectoryService.Text.Ascii

/-!
# Reading JSON

The grammar of RFC 8259: blanks may stand around every value and mark, a text may use every escape,
and nothing may follow the value.
-/

namespace DirectoryService.Json

/-- A blank of JSON. -/
def isBlank (c : Char) : Bool := c = ' ' || c = '\n' || c = '\r' || c = '\t'

/-- The characters after leading blanks. -/
def skipBlanks (chars : List Char) : List Char := chars.dropWhile isBlank

/-- The number of four hexadecimal digits, and the characters after them. -/
def hexQuad? : List Char → Option (Nat × List Char)
  | a :: b :: c :: d :: rest => do
    let a ← Ascii.hexValue? a
    let b ← Ascii.hexValue? b
    let c ← Ascii.hexValue? c
    let d ← Ascii.hexValue? d
    some (((a * 16 + b) * 16 + c) * 16 + d, rest)
  | _ => none

/-- The character of a short escape. -/
def shortEscape? (c : Char) : Option Char :=
  if c = '"' || c = '\\' || c = '/' then some c
  else if c = 'b' then some (Char.ofNat 8)
  else if c = 'f' then some (Char.ofNat 12)
  else if c = 'n' then some '\n'
  else if c = 'r' then some '\r'
  else if c = 't' then some '\t'
  else none

/-- The character of a numbered escape, which may take two numbers, and the characters after it. -/
def numberedEscape? (chars : List Char) : Option (Char × List Char) := do
  let (high, rest) ← hexQuad? chars
  if high < 0xD800 ∨ 0xDFFF < high then return (Char.ofNat high, rest)
  if 0xDC00 ≤ high then none
  match rest with
  | '\\' :: 'u' :: rest =>
    let (low, rest) ← hexQuad? rest
    if low < 0xDC00 ∨ 0xDFFF < low then none
    return (Char.ofNat (0x10000 + (high - 0xD800) * 0x400 + (low - 0xDC00)), rest)
  | _ => none

/-- The characters of a text up to its closing quote, and the characters after that. At most `fuel`
characters are read. -/
def textTail? : (fuel : Nat) → List Char → Option (List Char × List Char)
  | 0, _ => none
  | _ + 1, [] => none
  | _ + 1, '"' :: rest => some ([], rest)
  | fuel + 1, '\\' :: 'u' :: rest => do
    let (c, rest) ← numberedEscape? rest
    let (content, rest) ← textTail? fuel rest
    some (c :: content, rest)
  | fuel + 1, '\\' :: c :: rest => do
    let c ← shortEscape? c
    let (content, rest) ← textTail? fuel rest
    some (c :: content, rest)
  | fuel + 1, c :: rest =>
    if c.toNat < 32 || c = '\\' then none
    else do
      let (content, rest) ← textTail? fuel rest
      some (c :: content, rest)

/-- Whether a character can belong to a number. -/
def isNumeral (c : Char) : Bool := c.isDigit || c = '-' || c = '+' || c = '.' || c = 'e' || c = 'E'

/-- The number of decimal digits, if there is at least one and no leading zero too many. -/
def natural? (digits : List Char) : Option Nat :=
  if digits.isEmpty || !digits.all Char.isDigit then none
  else if digits.length ≠ 1 && digits.head? == some '0' then none
  else some (digits.foldl (fun sum digit => 10 * sum + (digit.toNat - 48)) 0)

/-- Whether characters are a fraction, an exponent, or both. -/
def isTail (chars : List Char) : Bool :=
  let digits (chars : List Char) : Bool := !chars.isEmpty && chars.all Char.isDigit
  let unsigned (chars : List Char) : List Char :=
    match chars with
    | '+' :: rest => rest
    | '-' :: rest => rest
    | rest => rest
  let isExponent (chars : List Char) : Bool :=
    match chars with
    | 'e' :: rest => digits (unsigned rest)
    | 'E' :: rest => digits (unsigned rest)
    | rest => rest.isEmpty
  match chars with
  | '.' :: rest =>
    !(rest.takeWhile Char.isDigit).isEmpty && isExponent (rest.dropWhile Char.isDigit)
  | rest => isExponent rest

/-- The value of a numeral. -/
def number? (numeral : List Char) : Option Json := do
  let (negative, body) := match numeral with
    | '-' :: rest => (true, rest)
    | rest => (false, rest)
  let value ← natural? (body.takeWhile Char.isDigit)
  let tail := body.dropWhile Char.isDigit
  if tail.isEmpty then
    return .integer (if negative then -value else value)
  if isTail tail then return .decimal (String.ofList numeral)
  none

/-- The characters after `word`, if they start with it. -/
def after? (word : String) (chars : List Char) : Option (List Char) :=
  if word.toList.isPrefixOf chars then some (chars.drop word.length) else none

mutual

/-- A value, and the characters after it. Values nest and items follow each other at most `fuel`
times. -/
def value? : (fuel : Nat) → List Char → Option (Json × List Char)
  | 0, _ => none
  | fuel + 1, chars =>
    match skipBlanks chars with
    | '"' :: rest => do
      let (content, rest) ← textTail? (rest.length + 1) rest
      some (.text (String.ofList content), rest)
    | '[' :: rest =>
      match skipBlanks rest with
      | ']' :: rest => some (.list [], rest)
      | rest => do
        let (items, rest) ← items? fuel rest
        some (.list items, rest)
    | '{' :: rest =>
      match skipBlanks rest with
      | '}' :: rest => some (.object [], rest)
      | rest => do
        let (fields, rest) ← fields? fuel rest
        some (.object fields, rest)
    | 'n' :: rest => (after? "ull" rest).map (.null, ·)
    | 't' :: rest => (after? "rue" rest).map (.bool true, ·)
    | 'f' :: rest => (after? "alse" rest).map (.bool false, ·)
    | rest => do
      let value ← number? (rest.takeWhile isNumeral)
      some (value, rest.dropWhile isNumeral)

/-- The items of a list up to its closing bracket. -/
def items? : (fuel : Nat) → List Char → Option (List Json × List Char)
  | 0, _ => none
  | fuel + 1, chars => do
    let (item, rest) ← value? fuel chars
    match skipBlanks rest with
    | ',' :: rest =>
      let (items, rest) ← items? fuel rest
      some (item :: items, rest)
    | ']' :: rest => some ([item], rest)
    | _ => none

/-- The fields of an object up to its closing brace. -/
def fields? : (fuel : Nat) → List Char → Option (List (String × Json) × List Char)
  | 0, _ => none
  | fuel + 1, chars => do
    let '"' :: rest := skipBlanks chars | none
    let (name, rest) ← textTail? (rest.length + 1) rest
    let ':' :: rest := skipBlanks rest | none
    let (value, rest) ← value? fuel rest
    let field := (String.ofList name, value)
    match skipBlanks rest with
    | ',' :: rest =>
      let (fields, rest) ← fields? fuel rest
      some (field :: fields, rest)
    | '}' :: rest => some ([field], rest)
    | _ => none

end

/-- The value that a whole text is the written form of. -/
def parse? (text : String) : Option Json := do
  let chars := text.toList
  let (value, rest) ← value? (chars.length + 1) chars
  if (skipBlanks rest).isEmpty then some value else none

end DirectoryService.Json
