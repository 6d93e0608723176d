import DirectoryService.Ber.Value
import DirectoryService.Filter.Basic
import DirectoryService.Filter.Printer

/-!
# Filters in packets

A filter is a packet of the context class whose tag number tells its kind. Reading checks class and
tag numbers but not the forms: a primitive packet counts as one without children, a constructed one
as one without octets.
-/

namespace DirectoryService.Filter

/-- Why a packet is no filter. -/
inductive Fault where
  /-- The packet is not of the context class. -/
  | wrongClass (found : Ber.TagClass)
  /-- A negation has no inner filter. -/
  | emptyNegation
  /-- A comparison lacks its attribute or its value. -/
  | incompleteComparison
  /-- An attribute description or rule name is not text. -/
  | notText (cause : Ber.ValueFault)
  /-- A substring filter lacks its attribute. -/
  | noAttribute
  /-- A substring filter lacks its list of parts. -/
  | noParts
  /-- The list of parts is empty. -/
  | emptyParts
  /-- A part is of an unknown kind or stands where its kind may not stand. -/
  | misplacedPart (tag position : Nat)
  /-- An extensible match has an element of an unknown kind. -/
  | unknownElement (tag : Nat)
  /-- An extensible match lacks its value. -/
  | noValue
  /-- There is no filter of this tag number. -/
  | unknownChoice (tag : Nat)
deriving DecidableEq

/-- The wording of a fault. -/
def Fault.message : Fault → String
  | .wrongClass found => s!"filter component has class {found.name}, expected context-specific"
  | .emptyNegation => "empty not filter"
  | .incompleteComparison => "attribute value assertion needs two elements"
  | .notText cause => "filter attribute: " ++ (Ber.Fault.unexpectedValue cause).message
  | .noAttribute => "substring filter without attribute"
  | .noParts => "substring filter without substrings"
  | .emptyParts => "substring filter is empty"
  | .misplacedPart tag position => s!"substring choice {tag} out of place at position {position}"
  | .unknownElement tag => s!"unknown extensible match element {tag}"
  | .noValue => "extensible match without value"
  | .unknownChoice tag => s!"unknown filter choice {tag}"

/-- The text of a packet. -/
def readText (packet : Ber.Packet) : Except Fault String := packet.toText.mapError .notText

/-- A comparison, whose children are the attribute and the value. -/
def readComparison (relation : Relation) : List Ber.Packet → Except Fault Filter
  | name :: value :: _ =>
    (fun name => .comparison relation name value.value) <$> readText name
  | _ => .error .incompleteComparison

/-- The parts after the first `position` ones: an initial part may only come first, a final part
only last. -/
def readSubstrings (position : Nat) : List Ber.Packet → Except Fault Substrings
  | [] => .ok ⟨none, [], none⟩
  | part :: rest =>
    match part.tag.toNat with
    | 0 =>
      if position = 0 then
        (fun parts => { parts with initial := some part.value }) <$> readSubstrings 1 rest
      else .error (.misplacedPart 0 position)
    | 1 =>
      (fun parts => { parts with inner := part.value :: parts.inner }) <$>
        readSubstrings (position + 1) rest
    | 2 =>
      if rest.isEmpty then .ok ⟨none, [], some part.value⟩
      else .error (.misplacedPart 2 position)
    | tag => .error (.misplacedPart tag position)

/-- A substring filter, whose children are the attribute and the list of parts. -/
def readSubstringFilter : List Ber.Packet → Except Fault Filter
  | [] => .error .noAttribute
  | [_] => .error .noParts
  | name :: parts :: _ => do
    let name ← readText name
    let substrings ← readSubstrings 0 parts.children
    if parts.children.isEmpty then throw .emptyParts
    return .substrings name substrings

/-- The elements of an extensible match read so far. -/
structure ExtensibleElements where
  /-- The rule. -/
  rule : Option String := none
  /-- The attribute. -/
  name : Option String := none
  /-- The value. -/
  value : Option (List UInt8) := none
  /-- Whether the parts of the entry's name are compared too. -/
  nameParts : Bool := false

/-- Adds one element; a later one of a kind replaces an earlier one. -/
def addElement (elements : ExtensibleElements) (part : Ber.Packet) :
    Except Fault ExtensibleElements :=
  match part.tag.toNat with
  | 1 => (fun rule => { elements with rule := some rule }) <$> readText part
  | 2 => (fun name => { elements with name := some name }) <$> readText part
  | 3 => .ok { elements with value := some part.value }
  | 4 => .ok { elements with nameParts := part.value.headD 0 != 0 }
  | tag => .error (.unknownElement tag)

/-- An extensible match, whose children are its elements in any order. -/
def readExtensible (parts : List Ber.Packet) : Except Fault Filter := do
  let elements ← parts.foldlM addElement {}
  match elements.value with
  | none => throw .noValue
  | some value =>
    return .extensible ⟨elements.rule, elements.name, value, elements.nameParts⟩

/-- A filter without inner filters, of the given tag number. -/
def readSimple (tag : Nat) (packet : Ber.Packet) : Except Fault Filter :=
  match tag with
  | 3 => readComparison .equal packet.children
  | 4 => readSubstringFilter packet.children
  | 5 => readComparison .atLeast packet.children
  | 6 => readComparison .atMost packet.children
  | 7 => .presence <$> readText packet
  | 8 => readComparison .approximate packet.children
  | 9 => readExtensible packet.children
  | tag => .error (.unknownChoice tag)

mutual

/-- The filter that a packet stands for. -/
def ofPacket : Ber.Packet → Except Fault Filter
  | .primitive tagClass tag value description =>
    if tagClass ≠ .context then .error (.wrongClass tagClass)
    else match tag.toNat with
      | 0 => .ok (.conjunction [])
      | 1 => .ok (.disjunction [])
      | 2 => .error .emptyNegation
      | number => readSimple number (.primitive tagClass tag value description)
  | .constructed tagClass tag children description =>
    if tagClass ≠ .context then .error (.wrongClass tagClass)
    else match tag.toNat with
      | 0 => .conjunction <$> ofPackets children
      | 1 => .disjunction <$> ofPackets children
      | 2 => .negation <$> ofFirst children
      | number => readSimple number (.constructed tagClass tag children description)

/-- The filters that packets stand for. -/
def ofPackets : List Ber.Packet → Except Fault (List Filter)
  | [] => .ok []
  | packet :: rest => do
    let filter ← ofPacket packet
    let filters ← ofPackets rest
    return filter :: filters

/-- The filter that the first packet stands for; the others do not matter. -/
def ofFirst : List Ber.Packet → Except Fault Filter
  | [] => .error .emptyNegation
  | packet :: _ => ofPacket packet

end

/-- The text of the filter that a packet stands for. -/
def describe (packet : Ber.Packet) : Except Fault String := render <$> ofPacket packet

end DirectoryService.Filter
