import DirectoryService.Filter.Printer
import DirectoryService.Proofs.Text.Utf8

/-!
# Assertion values read back

The string form of an assertion value stands for octets: two digits behind a backslash are one octet,
and every other character is the octets of its UTF-8 form. A value is read back from its string form,
in which nothing but a backslash has a meaning of its own.
-/

namespace DirectoryService.Filter

/-- The octets that the string form of an assertion value stands for. -/
def unescape? : List Char → Option (List UInt8)
  | [] => some []
  | '\\' :: high :: low :: rest =>
    (Ascii.hexValue? high).bind fun h => (Ascii.hexValue? low).bind fun l =>
      (unescape? rest).map fun octets => UInt8.ofNat (16 * h + l) :: octets
  | c :: rest =>
    if c = '\\' then none else (unescape? rest).map fun octets => String.utf8EncodeChar c ++ octets

/-- An escaped octet is read back. -/
theorem unescape?_escapeOctet_append (octet : UInt8) (rest : List Char) :
    unescape? (escapeOctet octet ++ rest) = (unescape? rest).map fun octets => octet :: octets := by
  have hoctet := octet.toNat_lt
  have hhigh := Ascii.hexValue?_hexDigit (octet.toNat / 16) (by omega)
  have hlow := Ascii.hexValue?_hexDigit (octet.toNat % 16) (by omega)
  have hsum : 16 * (octet.toNat / 16) + octet.toNat % 16 = octet.toNat := by omega
  simp only [escapeOctet, Ascii.hexPair, List.cons_append, List.nil_append, unescape?, hhigh, hlow,
    Option.bind_some, hsum, UInt8.ofNat_toNat]

/-- Escaped octets are read back. -/
theorem unescape?_flatMap_escapeOctet_append (octets : List UInt8) (rest : List Char) :
    unescape? (octets.flatMap escapeOctet ++ rest) =
      (unescape? rest).map fun more => octets ++ more := by
  induction octets with
  | nil => simp only [List.flatMap_nil, List.nil_append, Option.map_id_fun', id_eq]
  | cons octet octets ih =>
    rw [List.flatMap_cons, List.append_assoc, unescape?_escapeOctet_append, ih, Option.map_map]
    rfl

/-- A character other than the backslash stands for itself. -/
theorem unescape?_cons {c : Char} (plain : c ≠ '\\') (rest : List Char) :
    unescape? (c :: rest) =
      (unescape? rest).map fun octets => String.utf8EncodeChar c ++ octets := by
  rw [unescape?, if_neg plain]
  intro high low more same
  exact absurd same plain

/-- A character that has a meaning of its own is one octet. -/
theorem utf8EncodeChar_of_isMeta {c : Char} (special : isMeta c = true) :
    String.utf8EncodeChar c = [UInt8.ofNat c.toNat] := by
  simp only [isMeta, Bool.or_eq_true, decide_eq_true_eq] at special
  rcases special with (((rfl | rfl) | rfl) | rfl) | rfl
  all_goals decide

/-- A piece of an assertion value is read back. -/
theorem unescape?_escapePiece_append (piece : Utf8.Piece) (rest : List Char) :
    unescape? (escapePiece piece ++ rest) =
      (unescape? rest).map fun octets => piece.octets ++ octets := by
  cases piece with
  | char c =>
    rw [escapePiece, Utf8.Piece.octets]
    by_cases special : isMeta c = true
    · rw [if_pos special, unescape?_escapeOctet_append, utf8EncodeChar_of_isMeta special]
      rfl
    · have plain : c ≠ '\\' := by
        rintro rfl
        exact special rfl
      rw [if_neg special, List.singleton_append, unescape?_cons plain]
  | junk octets => exact unescape?_flatMap_escapeOctet_append octets rest
  | cut octets => exact unescape?_flatMap_escapeOctet_append octets rest

/-- An assertion value is read back from its string form. -/
theorem unescape?_escapeValue (value : List UInt8) : unescape? (escapeValue value) = some value := by
  have hpieces (pieces : List Utf8.Piece) :
      unescape? (pieces.flatMap escapePiece) = some (pieces.flatMap Utf8.Piece.octets) := by
    induction pieces with
    | nil => rfl
    | cons piece pieces ih =>
      rw [List.flatMap_cons, unescape?_escapePiece_append, ih, List.flatMap_cons, Option.map_some]
  rw [escapeValue, hpieces, Utf8.flatMap_octets_pieces]

/-- No digit of an octet has a meaning of its own. -/
theorem isMeta_of_mem_hexPair {octet : UInt8} {c : Char} (member : c ∈ Ascii.hexPair octet) :
    isMeta c = false := by
  have hdigit : ∀ value < 16, isMeta (Ascii.hexDigit value) = false := by decide
  have hoctet := octet.toNat_lt
  simp only [Ascii.hexPair, List.mem_cons, List.not_mem_nil, or_false] at member
  rcases member with rfl | rfl
  · exact hdigit _ (by omega)
  · exact hdigit _ (by omega)

/-- Only the backslash keeps a meaning of its own in an escaped octet. -/
theorem isMeta_of_mem_escapeOctet {octet : UInt8} {c : Char} (member : c ∈ escapeOctet octet) :
    c = '\\' ∨ isMeta c = false := by
  rw [escapeOctet, List.mem_cons] at member
  exact member.imp_right isMeta_of_mem_hexPair

/-- Only the backslash keeps a meaning of its own in the string form of an assertion value. -/
theorem isMeta_of_mem_escapeValue {value : List UInt8} {c : Char}
    (member : c ∈ escapeValue value) : c = '\\' ∨ isMeta c = false := by
  obtain ⟨piece, _, hpiece⟩ := List.mem_flatMap.1 member
  have hoctets (octets : List UInt8) (inside : c ∈ octets.flatMap escapeOctet) :
      c = '\\' ∨ isMeta c = false := by
    obtain ⟨octet, _, hoctet⟩ := List.mem_flatMap.1 inside
    exact isMeta_of_mem_escapeOctet hoctet
  cases piece with
  | char other =>
    rw [escapePiece] at hpiece
    split at hpiece
    · exact isMeta_of_mem_escapeOctet hpiece
    · rename_i plain
      rw [List.mem_singleton.1 hpiece]
      exact .inr (Bool.not_eq_true _ ▸ plain)
  | junk octets => exact hoctets octets hpiece
  | cut octets => exact hoctets octets hpiece

/-- No asterisk and no closing parenthesis comes from an assertion value. -/
theorem not_mem_escapeValue {value : List UInt8} {c : Char} (special : isMeta c = true)
    (other : c ≠ '\\') : c ∉ escapeValue value := by
  intro member
  rcases isMeta_of_mem_escapeValue member with h | h
  · exact other h
  · rw [special] at h
    cases h

/-- A value that is not empty has a string form that is not empty. -/
theorem escapeValue_eq_nil_iff {value : List UInt8} : escapeValue value = [] ↔ value = [] := by
  constructor
  · intro h
    have hread := unescape?_escapeValue value
    rw [h] at hread
    exact (Option.some.inj hread).symm
  · intro h
    rw [h]
    simp only [escapeValue, Utf8.pieces, List.flatMap_nil]

end DirectoryService.Filter
