import DirectoryService.Proofs.Filter.Escape
import DirectoryService.Proofs.Text.Fault

/-!
# Assertion values round by round

An assertion value is written in rounds. Each of them writes the text with which the octets that are
left begin, then the octets of the fault that ends it, and leaves what follows to the next round. No
octet is lost or written twice where rounds meet: together they write the string form, from which the
value is read back.
-/

namespace DirectoryService.Filter

/-- The characters that a round writes. -/
def roundChars (octets : List UInt8) : List Char :=
  (Utf8.leadingText octets).1.toList.flatMap (fun c => escapePiece (.char c)) ++
    (Utf8.leadingText octets).2.flatMap escapeOctet

/-- The number of octets that a round takes. -/
def roundLength (octets : List UInt8) : Nat :=
  (Utf8.encode (Utf8.leadingText octets).1).length + (Utf8.leadingText octets).2.length

/-- A round writes the first pieces, and leaves the other ones to those behind it. -/
theorem exists_round (octets : List UInt8) : ∃ front back,
    Utf8.pieces octets = front ++ back ∧ front.flatMap escapePiece = roundChars octets ∧
      (front.flatMap Utf8.Piece.octets).length = roundLength octets ∧ (front = [] → octets = []) := by
  obtain ⟨ends, back, hpieces, hends⟩ := Utf8.pieces_eq_leadingText octets
  refine ⟨(Utf8.leadingText octets).1.toList.map .char ++ ends, back, ?_, ?_, ?_, ?_⟩
  · rw [List.append_assoc, hpieces]
  · rw [List.flatMap_append, List.flatMap_map, roundChars]
    rcases hends with ⟨rfl, -, hbroken⟩ | rfl | rfl
    · rw [hbroken, List.flatMap_nil, List.flatMap_nil]
    · rw [List.flatMap_singleton, escapePiece]
    · rw [List.flatMap_singleton, escapePiece]
  · rw [List.flatMap_append, Utf8.flatMap_octets_map_char, List.length_append, roundLength, Utf8.encode]
    rcases hends with ⟨rfl, -, hbroken⟩ | rfl | rfl
    · rw [hbroken, List.flatMap_nil]
    · rw [List.flatMap_singleton, Utf8.Piece.octets]
    · rw [List.flatMap_singleton, Utf8.Piece.octets]
  · intro h
    rw [List.append_eq_nil_iff] at h
    rcases hends with ⟨hnil, hback, -⟩ | hsome | hsome
    · rw [h.1, hnil, hback] at hpieces
      rw [← Utf8.flatMap_octets_pieces octets, hpieces]
      rfl
    · rw [h.2] at hsome
      cases hsome
    · rw [h.2] at hsome
      cases hsome

/-- A round writes what the string form begins with, and the rest of it is the string form of what
is left. -/
theorem escapeValue_eq_round (octets : List UInt8) :
    escapeValue octets = roundChars octets ++ escapeValue (octets.drop (roundLength octets)) := by
  obtain ⟨front, back, hpieces, hchars, hlength, -⟩ := exists_round octets
  rw [escapeValue, escapeValue, ← hlength, Utf8.pieces_drop hpieces, hpieces, List.flatMap_append,
    hchars]

/-- A round takes at least one octet if there is any. -/
theorem roundLength_pos {octets : List UInt8} (some : octets ≠ []) : 0 < roundLength octets := by
  obtain ⟨front, back, hpieces, -, hlength, hsome⟩ := exists_round octets
  cases front with
  | nil => exact absurd (hsome rfl) some
  | cons first front =>
    have hmember : first ∈ Utf8.pieces octets := by
      rw [hpieces]
      exact List.mem_append_left _ List.mem_cons_self
    rw [← hlength, List.flatMap_cons, List.length_append]
    exact Nat.add_pos_left (List.length_pos_iff.2 (Utf8.octets_ne_nil_of_mem hmember)) _

/-- Writes octets behind what is written already, round by round. -/
def escapeRounds : List UInt8 → List Char → List Char
  | [], written => written
  | first :: rest, written =>
    escapeRounds ((first :: rest).drop (roundLength (first :: rest)))
      (written ++ roundChars (first :: rest))
termination_by octets => octets.length
decreasing_by
  have hpositive := roundLength_pos (List.cons_ne_nil first rest)
  rw [List.length_drop, List.length_cons]
  omega

/-- All rounds together write the string form. -/
theorem escapeRounds_eq (octets : List UInt8) (written : List Char) :
    escapeRounds octets written = written ++ escapeValue octets := by
  induction octets, written using escapeRounds.induct with
  | case1 written => rw [escapeRounds, escapeValue_eq_nil_iff.2 rfl, List.append_nil]
  | case2 written first rest ih =>
    rw [escapeRounds, ih, List.append_assoc, ← escapeValue_eq_round]

/-- Every backslash of a text stands in front of the two digits of an octet. -/
def EscapesOctets (text : List Char) : Prop :=
  ∀ before after, text = before ++ '\\' :: after → ∃ octet rest, after = Ascii.hexPair octet ++ rest

namespace EscapesOctets

variable {first second : List Char}

theorem of_not_mem (absent : '\\' ∉ first) : EscapesOctets first := by
  intro before after split
  rw [split] at absent
  exact absurd (List.mem_append_right before List.mem_cons_self) absent

/-- Texts one after the other have no other backslashes than each of them. -/
theorem append (left : EscapesOctets first) (right : EscapesOctets second) :
    EscapesOctets (first ++ second) := by
  intro before after split
  rcases List.append_eq_append_iff.1 split with ⟨more, -, hsecond⟩ | ⟨more, hfirst, hafter⟩
  · exact right more after hsecond
  · cases more with
    | nil => exact right [] after hafter.symm
    | cons c more =>
      rw [List.cons_append, List.cons.injEq] at hafter
      obtain ⟨rfl, rfl⟩ := hafter
      obtain ⟨octet, rest, rfl⟩ := left before more hfirst
      exact ⟨octet, rest ++ second, List.append_assoc ..⟩

theorem flatMap {Item : Type} {write : Item → List Char} (each : ∀ item, EscapesOctets (write item))
    (items : List Item) : EscapesOctets (items.flatMap write) := by
  induction items with
  | nil => exact of_not_mem List.not_mem_nil
  | cons item items ih =>
    rw [List.flatMap_cons]
    exact (each item).append ih

end EscapesOctets

/-- The backslash of an escaped octet is its first character. -/
theorem escapesOctets_escapeOctet (octet : UInt8) : EscapesOctets (escapeOctet octet) := by
  intro before after split
  cases before with
  | nil =>
    rw [escapeOctet, List.nil_append, List.cons.injEq] at split
    exact ⟨octet, [], by rw [List.append_nil, split.2]⟩
  | cons c before =>
    rw [escapeOctet, List.cons_append, List.cons.injEq] at split
    have hmember : '\\' ∈ Ascii.hexPair octet := by
      rw [split.2]
      exact List.mem_append_right before List.mem_cons_self
    cases isMeta_of_mem_hexPair hmember

/-- A backslash of an assertion value's string form starts an escaped octet. -/
theorem escapesOctets_escapeValue (value : List UInt8) : EscapesOctets (escapeValue value) := by
  refine .flatMap (fun piece => ?_) (Utf8.pieces value)
  cases piece with
  | char c =>
    rw [escapePiece]
    split
    · exact escapesOctets_escapeOctet _
    · rename_i plain
      refine .of_not_mem fun member => plain ?_
      rw [← List.mem_singleton.1 member]
      rfl
  | junk octets => exact .flatMap escapesOctets_escapeOctet octets
  | cut octets => exact .flatMap escapesOctets_escapeOctet octets

/-- Every assertion value is written in full, round by round, behind what is written already. Its
string form has no character with a meaning of its own but backslashes, each of which starts an
escaped octet, and the value is read back from it, so no other value is written alike. -/
theorem escapeValue_invertible (value : List UInt8) :
    (∀ written, escapeRounds value written = written ++ escapeValue value) ∧
      ('*' ∉ escapeValue value ∧ '(' ∉ escapeValue value ∧ ')' ∉ escapeValue value ∧
        '\x00' ∉ escapeValue value) ∧
      EscapesOctets (escapeValue value) ∧ unescape? (escapeValue value) = some value ∧
      ∀ other, escapeValue other = escapeValue value → other = value := by
  refine ⟨escapeRounds_eq value, ?_, escapesOctets_escapeValue value, unescape?_escapeValue value,
    fun other same => ?_⟩
  · exact ⟨not_mem_escapeValue (by decide) (by decide), not_mem_escapeValue (by decide) (by decide),
      not_mem_escapeValue (by decide) (by decide), not_mem_escapeValue (by decide) (by decide)⟩
  · have hread := unescape?_escapeValue other
    rw [same, unescape?_escapeValue] at hread
    exact (Option.some.inj hread).symm

end DirectoryService.Filter
