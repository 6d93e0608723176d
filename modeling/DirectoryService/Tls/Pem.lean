import DirectoryService.Text.Base64
import DirectoryService.Text.Quoted
import DirectoryService.Text.Utf8

/-!
# Textual encoding of keys and certificates

Octets stand in base 64 between a line that opens a block and one that closes it; both name what
the block holds. Text outside of blocks means nothing.
-/

namespace DirectoryService.Pem

/-- A block. -/
structure Block where
  /-- What the block holds. -/
  label : List UInt8
  /-- The octets in the block. -/
  contents : List UInt8

/-- Why a text has no blocks. -/
inductive Fault where
  /-- A line opens a block, but does not end in five dashes. -/
  | badOpening (line : List UInt8)
  /-- The text ends inside a block. -/
  | unclosed (label : List UInt8)
  /-- The octets of a block are not base 64. -/
  | contents (cause : Base64.Fault)
deriving DecidableEq

/-- How the octets of a block are read: padding may be missing. -/
def rules : Base64.Rules := ⟨false, true⟩

/-- The octets with which an opening line starts. -/
def opening : List UInt8 := Utf8.encode "-----BEGIN "

/-- The octets with which the line starts that closes a block. -/
def closing (label : List UInt8) : List UInt8 :=
  Utf8.encode "-----END " ++ label ++ Utf8.encode "-----"

/-- The text of octets, with a replacement character for each run that is no part of a character. -/
def readable (octets : List UInt8) : String :=
  String.ofList ((Utf8.pieces octets).map fun
    | .char c => c
    | _ => Char.ofNat 0xFFFD)

/-- The wording of a fault in the octets of a block. -/
def contentsMessage : Base64.Fault → String
  | .invalidSymbol octet offset => s!"Invalid byte {octet}, offset {offset}."
  | .invalidLastSymbol octet offset => s!"Invalid last symbol {octet}, offset {offset}."
  | .invalidLength _ => "Encoded text cannot have a 6-bit remainder."
  | .invalidPadding => "Invalid padding"

/-- The wording of a fault. -/
def Fault.message : Fault → String
  | .badOpening line => "illegal section start: " ++ Quoted.quote (readable line)
  | .unclosed label => "section end " ++ Quoted.quote (readable (closing label)) ++ " missing"
  | .contents cause => contentsMessage cause

/-- Whether an octet ends a line. -/
def endsLine (octet : UInt8) : Bool := octet == 10 || octet == 13

/-- Whether an octet means nothing at the end of a line. -/
def isTrailing (octet : UInt8) : Bool := endsLine octet || octet == 32

/-- The lines of a text, each with the octet that ends it. -/
def lines : List UInt8 → List (List UInt8)
  | [] => []
  | octet :: rest =>
    match endsLine octet, lines rest with
    | true, more => [octet] :: more
    | false, [] => [[octet]]
    | false, line :: more => (octet :: line) :: more

/-- The label of an opening line, given backwards: behind it stand five dashes, between which and
behind which nothing else than trailing octets stands. -/
def labelBefore (dashes : Nat) (backwards : List UInt8) : Option (List UInt8) :=
  match dashes, backwards with
  | 0, octet :: rest =>
    let more := (octet :: rest).dropWhile isTrailing
    if more.head? = some 45 then none
    else some ((octet :: rest).reverse.drop opening.length)
  | 0, [] => some []
  | dashes + 1, octet :: rest =>
    if octet = 45 then labelBefore dashes rest
    else if isTrailing octet then labelBefore (dashes + 1) rest
    else none
  | _ + 1, [] => none
termination_by backwards

/-- The label of an opening line. -/
def label? (line : List UInt8) : Option (List UInt8) := labelBefore 5 line.reverse

/-- A line without its trailing octets. -/
def trimmed (line : List UInt8) : List UInt8 := (line.reverse.dropWhile isTrailing).reverse

/-- The blocks of lines. `inside` is the label of the block that is open before the first of them,
and `body` holds what has been read of it. -/
def blocksFrom (inside : Option (List UInt8)) (body : List UInt8) :
    List (List UInt8) → Except Fault (List Block)
  | [] =>
    match inside with
    | none => .ok []
    | some label => .error (.unclosed label)
  | line :: rest =>
    if opening.isPrefixOf line then
      match label? line with
      | none => .error (.badOpening line)
      | some label => blocksFrom (some label) body rest
    else
      match inside with
      | none => blocksFrom none [] rest
      | some label =>
        if (closing label).isPrefixOf line then
          match Base64.decode rules body with
          | .error cause => .error (.contents cause)
          | .ok contents => (⟨label, contents⟩ :: ·) <$> blocksFrom none [] rest
        else blocksFrom inside (body ++ trimmed line) rest

/-- The blocks of a text. -/
def blocks (text : List UInt8) : Except Fault (List Block) := blocksFrom none [] (lines text)

/-- The contents of the blocks with a label. -/
def labelled (label : String) (blocks : List Block) : List (List UInt8) :=
  (blocks.filter (·.label == Utf8.encode label)).map (·.contents)

end DirectoryService.Pem
