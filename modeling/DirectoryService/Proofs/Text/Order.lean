import DirectoryService.Proofs.NameMap
import DirectoryService.Text.Utf8

/-!
# The order of texts and of their octets

Texts are in the order of their octets: of two characters the one with the smaller code point has
the smaller octet at the first place at which their octets differ. So a list in the order of the
texts is a list in the order of the octets.
-/

namespace DirectoryService.Order

variable {α : Type} {key : α → Nat}

/-- What two sequences start with has no part in their order. -/
theorem precedes_append_append (common left right : List α) :
    precedes key (common ++ left) (common ++ right) = precedes key left right := by
  induction common with
  | nil => rfl
  | cons item common ih =>
    rw [List.cons_append, List.cons_append, precedes, ih, beq_self_eq_true, Bool.true_and,
      decide_eq_false (Nat.lt_irrefl _), Bool.false_or]

/-- The octets of a character come before those of one with a greater code point. -/
theorem precedes_utf8EncodeChar {c d : Char} (less : c.toNat < d.toNat) (left right : List UInt8) :
    precedes UInt8.toNat (String.utf8EncodeChar c ++ left) (String.utf8EncodeChar d ++ right) =
      true := by
  have hless : c.val.toNat < d.val.toNat := less
  have hlast := Utf8.val_toNat_lt d
  unfold String.utf8EncodeChar
  simp only
  -- One case for each two numbers of octets: the greater code point never has fewer of them.
  repeat' split
  all_goals
    simp only [List.cons_append, precedes_cons, UInt8.toNat_ofNat']
    simp (disch := omega) only [Nat.mod_eq_of_lt]
    omega

/-- Sequences of characters are in the order of their octets. -/
theorem precedes_encodeChars (left right : List Char) :
    precedes UInt8.toNat (Utf8.encodeChars left) (Utf8.encodeChars right) =
      precedes Char.toNat left right := by
  induction left generalizing right with
  | nil =>
    cases right with
    | nil => rfl
    | cons d right =>
      have hne : Utf8.encodeChars (d :: right) ≠ [] := by
        rw [Utf8.encodeChars, List.flatMap_cons]
        exact List.append_ne_nil_of_left_ne_nil String.utf8EncodeChar_ne_nil _
      obtain ⟨octet, octets, same⟩ := List.exists_cons_of_ne_nil hne
      rw [same]
      rfl
  | cons c left ih =>
    cases right with
    | nil =>
      rw [precedes, Utf8.encodeChars, Utf8.encodeChars, List.flatMap_nil, precedes]
    | cons d right =>
      rw [Utf8.encodeChars, Utf8.encodeChars, List.flatMap_cons, List.flatMap_cons, precedes]
      by_cases less : c.toNat < d.toNat
      · rw [precedes_utf8EncodeChar less, decide_eq_true less, Bool.true_or]
      · rw [decide_eq_false less, Bool.false_or]
        by_cases same : c = d
        · subst same
          rw [precedes_append_append, beq_self_eq_true, Bool.true_and]
          exact ih right
        · have hne : ¬ c.toNat = d.toNat := fun equal => same (Char.toNat_inj.1 equal)
          have hgreater : d.toNat < c.toNat := by omega
          rw [beq_eq_false_iff_ne.2 hne, Bool.false_and, Bool.eq_false_iff]
          intro back
          have hforward := precedes_utf8EncodeChar hgreater
            (right.flatMap String.utf8EncodeChar) (left.flatMap String.utf8EncodeChar)
          have hboth := precedes_trans hforward back
          rw [not_precedes_self] at hboth
          cases hboth

/-- A text comes before another in the order of their octets. -/
def OctetsBefore (left right : String) : Prop :=
  precedes UInt8.toNat (Utf8.encode left) (Utf8.encode right) = true

/-- Texts are in the order of their octets. -/
theorem octetsBefore_iff {left right : String} :
    OctetsBefore left right ↔ before left right = true := by
  rw [OctetsBefore, Utf8.encode, Utf8.encode, precedes_encodeChars]
  rfl

end DirectoryService.Order
