import DirectoryService.Filter.Reader
import DirectoryService.Proofs.Ber.Value

/-!
# Filters as packets

The packet that a filter is transmitted as, by the definitions of RFC 4511: the tag number tells the
kind, and components that are left out have no packet. A filter of the kind that clients send is read
back from its packet.
-/

namespace DirectoryService

/-- Whether a character can stand in an attribute description or in the name of a rule: letters,
digits, the hyphen, the full stop and the semicolon. Everything beyond ASCII counts as a letter. -/
def isDescriptionChar (c : Char) : Bool :=
  c.isAlphanum || c == '-' || c == '.' || c == ';' || 128 ≤ c.toNat

/-- A text that can be an attribute description or the name of a rule. -/
structure IsDescription (name : String) : Prop where
  /-- There is something. -/
  nonempty : name ≠ ""
  /-- Every character can stand there. -/
  all : ∀ c ∈ name.toList, isDescriptionChar c = true

/-- Components of which the first and the last one are not empty, if they are there. Nothing is asked
of those in between. -/
structure Substrings.Proper (parts : Substrings) : Prop where
  /-- There is a component. -/
  nonempty : parts.initial ≠ none ∨ parts.inner ≠ [] ∨ parts.final ≠ none
  /-- The first one is not empty. -/
  initial : parts.initial ≠ some []
  /-- The last one is not empty. -/
  final : parts.final ≠ some []

/-- An extensible match with good names, in which the rule is not the mark of the entry's name. -/
structure ExtensibleMatch.Proper (assertion : ExtensibleMatch) : Prop where
  /-- The rule. -/
  rule : ∀ rule, assertion.rule = some rule → IsDescription rule ∧ rule ≠ "dn"
  /-- The attribute. -/
  name : ∀ name, assertion.name = some name → IsDescription name

namespace Filter

/-- A filter of the kind that clients send. Assertion values are any octets. -/
inductive Proper : Filter → Prop where
  /-- Any number of filters that all have to hold. -/
  | conjunction {parts} (all : ∀ part ∈ parts, Proper part) : Proper (.conjunction parts)
  /-- Any number of filters of which one has to hold. -/
  | disjunction {parts} (all : ∀ part ∈ parts, Proper part) : Proper (.disjunction parts)
  /-- A filter that must not hold. -/
  | negation {inner} (within : Proper inner) : Proper (.negation inner)
  /-- A comparison. -/
  | comparison {relation name value} (described : IsDescription name) :
    Proper (.comparison relation name value)
  /-- A comparison with parts of a value. -/
  | substrings {name parts} (described : IsDescription name) (proper : parts.Proper) :
    Proper (.substrings name parts)
  /-- A test for presence. -/
  | presence {name} (described : IsDescription name) : Proper (.presence name)
  /-- A comparison by a rule. -/
  | extensible {assertion : ExtensibleMatch} (proper : assertion.Proper) :
    Proper (.extensible assertion)

/-- The tag number of a comparison. -/
def comparisonTag : Relation → UInt32
  | .equal => 3
  | .atLeast => 5
  | .atMost => 6
  | .approximate => 8

/-- A component of a filter that holds octets. -/
def component (tag : UInt32) (value : List UInt8) : Ber.Packet := .primitive .context tag value ""

/-- The components of a substring filter. -/
def substringPackets (parts : Substrings) : List Ber.Packet :=
  (parts.initial.map (component 0)).toList ++
    (parts.inner.map (component 1) ++ (parts.final.map (component 2)).toList)

/-- The components of an extensible match. The truth value is only there if it is true. -/
def extensiblePackets (assertion : ExtensibleMatch) : List Ber.Packet :=
  (assertion.rule.map fun rule => component 1 (Utf8.encode rule)).toList ++
    (assertion.name.map fun name => component 2 (Utf8.encode name)).toList ++
    component 3 assertion.value :: if assertion.nameParts then [component 4 [0xFF]] else []

mutual

/-- The packet of a filter. -/
def toPacket : Filter → Ber.Packet
  | .conjunction parts => .constructed .context 0 (toPackets parts) ""
  | .disjunction parts => .constructed .context 1 (toPackets parts) ""
  | .negation inner => .constructed .context 2 [toPacket inner] ""
  | .comparison relation name value =>
    .constructed .context (comparisonTag relation) [.text name "", .octets value ""] ""
  | .substrings name parts =>
    .constructed .context 4
      [.text name "", .constructed .universal Ber.sequenceTag (substringPackets parts) ""] ""
  | .presence name => component 7 (Utf8.encode name)
  | .extensible assertion => .constructed .context 9 (extensiblePackets assertion) ""

/-- The packets of filters. -/
def toPackets : List Filter → List Ber.Packet
  | [] => []
  | filter :: rest => toPacket filter :: toPackets rest

end

/-- A text is read from its packet. -/
theorem readText_primitive (tagClass : Ber.TagClass) (tag : UInt32) (text description : String) :
    readText (.primitive tagClass tag (Utf8.encode text) description) = .ok text := by
  rw [readText, Ber.Packet.toText_primitive]
  rfl

/-- A comparison is read from its components. -/
theorem readComparison_packets (relation : Relation) (name : String) (value : List UInt8) :
    readComparison relation [.text name "", .octets value ""] =
      .ok (.comparison relation name value) := by
  have hname : readText (.text name "") = .ok name := readText_primitive _ _ name ""
  rw [readComparison, hname]
  rfl

/-- The components that may stand anywhere are read, and the last one. -/
theorem readSubstrings_inner (position : Nat) (inner : List (List UInt8))
    (final : Option (List UInt8)) :
    readSubstrings position (inner.map (component 1) ++ (final.map (component 2)).toList) =
      .ok ⟨none, inner, final⟩ := by
  induction inner generalizing position with
  | nil => cases final <;> rfl
  | cons part inner ih =>
    have htag : (component 1 part).tag.toNat = 1 := rfl
    rw [List.map_cons, List.cons_append, readSubstrings, htag]
    simp only [ih]
    rfl

/-- The components of a substring filter are read. -/
theorem readSubstrings_packets (parts : Substrings) :
    readSubstrings 0 (substringPackets parts) = .ok parts := by
  obtain ⟨initial, inner, final⟩ := parts
  cases initial with
  | none => exact readSubstrings_inner 0 inner final
  | some octets =>
    have htag : (component 0 octets).tag.toNat = 0 := rfl
    simp only [substringPackets, Option.map_some, Option.toList_some, List.singleton_append,
      readSubstrings, htag, readSubstrings_inner, if_true]
    rfl

/-- A substring filter with a component has a packet for it. -/
theorem substringPackets_ne_nil {parts : Substrings} (proper : parts.Proper) :
    substringPackets parts ≠ [] := by
  obtain ⟨initial, inner, final⟩ := parts
  intro h
  simp only [substringPackets, List.append_eq_nil_iff, Option.toList_eq_nil_iff,
    Option.map_eq_none_iff, List.map_eq_nil_iff] at h
  rcases proper.nonempty with hn | hn | hn
  · exact hn h.1
  · exact hn h.2.1
  · exact hn h.2.2

/-- A substring filter is read from its packets. -/
theorem readSubstringFilter_packets (name : String) {parts : Substrings}
    (proper : parts.Proper) :
    readSubstringFilter [.text name "",
      .constructed .universal Ber.sequenceTag (substringPackets parts) ""] =
        .ok (.substrings name parts) := by
  have hname : readText (.text name "") = .ok name := readText_primitive _ _ name ""
  have hparts : (substringPackets parts).isEmpty = false := by
    rw [← Bool.not_eq_true, List.isEmpty_iff]
    exact substringPackets_ne_nil proper
  simp only [readSubstringFilter, Ber.Packet.children, hname, readSubstrings_packets, hparts]
  rfl

/-- The components of an extensible match are read one after the other. -/
theorem foldlM_addElement_packets (assertion : ExtensibleMatch) :
    (extensiblePackets assertion).foldlM addElement {} =
      .ok ⟨assertion.rule, assertion.name, some assertion.value, assertion.nameParts⟩ := by
  have hrule (before : ExtensibleElements) (rule : String) :
      addElement before (component 1 (Utf8.encode rule)) =
        .ok { before with rule := some rule } := by
    simp only [addElement, component, readText_primitive]
    rfl
  have hname (before : ExtensibleElements) (name : String) :
      addElement before (component 2 (Utf8.encode name)) =
        .ok { before with name := some name } := by
    simp only [addElement, component, readText_primitive]
    rfl
  have hvalue (before : ExtensibleElements) (value : List UInt8) :
      addElement before (component 3 value) = .ok { before with value := some value } := rfl
  have hparts (before : ExtensibleElements) :
      addElement before (component 4 [0xFF]) = .ok { before with nameParts := true } := rfl
  have hbind (before : ExtensibleElements) {α : Type}
      (further : ExtensibleElements → Except Fault α) :
      ((.ok before : Except Fault ExtensibleElements) >>= further) = further before := rfl
  obtain ⟨rule, name, value, nameParts⟩ := assertion
  cases rule <;> cases name <;> cases nameParts <;>
    simp only [extensiblePackets, Option.map_none, Option.map_some, Option.toList_none,
      Option.toList_some, List.nil_append, List.cons_append, List.foldlM_cons, List.foldlM_nil,
      hrule, hname, hvalue, hparts, hbind, Bool.false_eq_true, if_false, if_true] <;> rfl

/-- An extensible match is read from its components. -/
theorem readExtensible_packets (assertion : ExtensibleMatch) :
    readExtensible (extensiblePackets assertion) = .ok (.extensible assertion) := by
  rw [readExtensible, foldlM_addElement_packets]
  rfl

/-- Filters are read from their packets if each of them is. -/
theorem ofPackets_toPackets {parts : List Filter}
    (all : ∀ part ∈ parts, ofPacket part.toPacket = .ok part) :
    ofPackets (toPackets parts) = .ok parts := by
  induction parts with
  | nil => rfl
  | cons part parts ih =>
    rw [List.forall_mem_cons] at all
    rw [toPackets, ofPackets, all.1, ih all.2]
    rfl

/-- A filter is read from its packet. -/
theorem ofPacket_toPacket {filter : Filter} (proper : filter.Proper) :
    ofPacket filter.toPacket = .ok filter := by
  induction proper with
  | @conjunction parts all ih =>
    rw [toPacket, ofPacket]
    simp only [ofPackets_toPackets ih]
    rfl
  | disjunction all ih =>
    rw [toPacket, ofPacket]
    simp only [ofPackets_toPackets ih]
    rfl
  | negation within ih =>
    rw [toPacket, ofPacket]
    simp only [ofFirst, ih]
    rfl
  | @comparison relation name value described =>
    rw [toPacket, ofPacket]
    cases relation <;> exact readComparison_packets _ name value
  | substrings described proper =>
    rw [toPacket, ofPacket]
    exact readSubstringFilter_packets _ proper
  | @presence name described =>
    have hname : readText (component 7 (Utf8.encode name)) = .ok name :=
      readText_primitive _ _ name ""
    have hread : ofPacket (component 7 (Utf8.encode name)) =
        .presence <$> readText (component 7 (Utf8.encode name)) := rfl
    rw [toPacket, hread, hname]
    rfl
  | extensible proper =>
    rw [toPacket, ofPacket]
    exact readExtensible_packets _

end Filter

end DirectoryService
