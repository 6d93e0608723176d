import DirectoryService.Store.KeyValue.Directory

/-!
# The range of a subtree

Names are listed backwards, so the names of a subtree are those that start with its name read
backwards, and the order of octets puts them next to each other. The range ends with an octet that
occurs in no text: no member of the subtree comes after it, and nothing else comes before it.
-/

namespace DirectoryService

namespace Utf8

/-- The octet 255 occurs in no text. -/
theorem lt_of_mem_encodeChars {chars : List Char} {octet : UInt8}
    (member : octet ∈ encodeChars chars) : octet.toNat < 255 := by
  obtain ⟨c, -, member⟩ := List.mem_flatMap.1 member
  have hsize := val_toNat_lt c
  simp only [String.utf8EncodeChar] at member
  split at member
  · simp only [List.mem_singleton] at member
    subst member
    simp only [UInt8.toNat_ofNat']
    omega
  · split at member
    · simp only [List.mem_cons, List.not_mem_nil, or_false] at member
      rcases member with rfl | rfl <;> simp only [UInt8.toNat_ofNat'] <;> omega
    · split at member
      · simp only [List.mem_cons, List.not_mem_nil, or_false] at member
        rcases member with rfl | rfl | rfl <;> simp only [UInt8.toNat_ofNat'] <;> omega
      · simp only [List.mem_cons, List.not_mem_nil, or_false] at member
        rcases member with rfl | rfl | rfl | rfl <;> simp only [UInt8.toNat_ofNat'] <;> omega

/-- A character is told by the octets that start with it. -/
theorem eq_of_utf8EncodeChar_append {first second : Char} {left right : List UInt8}
    (same : String.utf8EncodeChar first ++ left = String.utf8EncodeChar second ++ right) :
    first = second := by
  have hfirst := @ByteArray.utf8DecodeChar?_utf8EncodeChar_append left.toByteArray first
  have hsecond := @ByteArray.utf8DecodeChar?_utf8EncodeChar_append right.toByteArray second
  rw [← List.toByteArray_append, same, List.toByteArray_append, hsecond] at hfirst
  exact (Option.some.inj hfirst).symm

/-- A text starts with another exactly if its octets start with those of the other. -/
theorem isPrefix_encodeChars_iff {start chars : List Char} :
    encodeChars start <+: encodeChars chars ↔ start <+: chars := by
  constructor
  · intro h
    induction start generalizing chars with
    | nil => exact List.nil_prefix
    | cons first start ih =>
      obtain ⟨more, same⟩ := h
      rw [encodeChars, List.flatMap_cons, List.append_assoc] at same
      cases chars with
      | nil =>
        have hne := @String.utf8EncodeChar_ne_nil first
        exact absurd (List.append_eq_nil_iff.1 same).1 hne
      | cons c chars =>
        rw [encodeChars, List.flatMap_cons] at same
        obtain rfl := eq_of_utf8EncodeChar_append same
        have htail := List.append_cancel_left same
        rw [List.cons_prefix_cons]
        exact ⟨rfl, ih ⟨more, htail⟩⟩
  · rintro ⟨more, rfl⟩
    rw [encodeChars, encodeChars, List.flatMap_append]
    exact List.prefix_append _ _

end Utf8

namespace Order

/-- Octets stand between some octets and the same octets before the greatest one exactly if they
start with them. -/
theorem between_iff {start octets : List UInt8} (texts : ∀ octet ∈ octets, octet.toNat < 255) :
    (precedes UInt8.toNat octets start = false ∧
      precedes UInt8.toNat (start ++ [0xFF]) octets = false) ↔ start <+: octets := by
  induction start generalizing octets with
  | nil =>
    refine iff_of_true ⟨by cases octets <;> rfl, ?_⟩ List.nil_prefix
    cases octets with
    | nil => rfl
    | cons octet octets =>
      have hl := texts octet List.mem_cons_self
      have hless : ¬ (0xFF : UInt8).toNat < octet.toNat := by
        rw [show (0xFF : UInt8).toNat = 255 from rfl]
        omega
      have hne : ((0xFF : UInt8).toNat == octet.toNat) = false := by
        rw [beq_eq_false_iff_ne, show (0xFF : UInt8).toNat = 255 from rfl]
        omega
      rw [List.nil_append, precedes, hne, decide_eq_false hless]
      rfl
  | cons first start ih =>
    cases octets with
    | nil => simp [precedes]
    | cons octet octets =>
      have tail : ∀ octet ∈ octets, octet.toNat < 255 :=
        fun octet member => texts octet (List.mem_cons_of_mem _ member)
      rw [List.cons_prefix_cons, ← ih tail, List.cons_append, ← UInt8.toNat_inj]
      simp only [precedes, Bool.or_eq_false_iff, Bool.and_eq_false_iff, decide_eq_false_iff_not,
        beq_eq_false_iff_ne, Nat.not_lt]
      constructor
      · rintro ⟨⟨hle, hlow⟩, hge, hhigh⟩
        have same : first.toNat = octet.toNat := Nat.le_antisymm hle hge
        exact ⟨same, hlow.resolve_left fun h => h same.symm, hhigh.resolve_left fun h => h same⟩
      · rintro ⟨same, hlow, hhigh⟩
        exact ⟨⟨Nat.le_of_eq same, Or.inr hlow⟩, Nat.le_of_eq same.symm, Or.inr hhigh⟩

end Order

namespace KeyValue

/-- Reading backwards twice gives the text again. -/
@[simp] theorem reversed_reversed (text : String) : reversed (reversed text) = text := by
  rw [reversed, reversed, String.toList_ofList, List.reverse_reverse, String.ofList_toList]

/-- The range of a text has exactly the members that start with it. -/
theorem inRange_startRange_iff (start member : String) :
    ((startRange start).1.startsAt member && (startRange start).2.endsAt member) = true ↔
      start.toList <+: member.toList := by
  rw [startRange]
  split
  · rename_i empty
    rw [String.isEmpty_iff.1 empty]
    exact iff_of_true rfl List.nil_prefix
  · simp only [Bound.startsAt, Bound.endsAt, Bool.and_eq_true, Bool.not_eq_true']
    exact (Order.between_iff fun _ inText => Utf8.lt_of_mem_encodeChars inText).trans
      Utf8.isPrefix_encodeChars_iff

/-- A name ends with a text exactly if it starts with the text when both are read backwards. -/
theorem inSubtreeOf_iff (entry : Entry) (base : String) :
    entry.inSubtreeOf base = true ↔ (reversed base).toList <+: (reversed entry.dn).toList := by
  rw [Entry.inSubtreeOf, List.isSuffixOf_iff_suffix, reversed, reversed, String.toList_ofList,
    String.toList_ofList, List.reverse_prefix]

end KeyValue

end DirectoryService
