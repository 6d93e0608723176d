import DirectoryService.Proofs.Store.KeyValue.Range
import DirectoryService.Proofs.Text.Utf8

/-!
# Names that end with a base

The octet that a character starts with is never one that goes on with a character, so the octets of a
text cannot begin inside a character of another. Hence a name ends with a base exactly if its octets
end with those of the base, and exactly if it stands, read backwards, in the range of the base read
backwards.
-/

namespace DirectoryService

namespace Utf8

/-- The octets of a character go on after the first one, and the first one goes on with nothing. -/
theorem exists_utf8EncodeChar_eq_cons (c : Char) : ∃ first others,
    String.utf8EncodeChar c = first :: others ∧ isLater first = false ∧
      ∀ octet ∈ others, isLater octet = true := by
  have hsize := val_toNat_lt c
  have first_iff (octet : UInt8) :
      isLater octet = false ↔ ¬ (128 ≤ octet.toNat ∧ octet.toNat ≤ 191) := by
    rw [← isLater_iff, Bool.not_eq_true]
  unfold String.utf8EncodeChar
  simp only
  -- One case for each number of octets.
  repeat' split
  all_goals
    refine ⟨_, _, rfl, ?_, ?_⟩
    · rw [first_iff, UInt8.toNat_ofNat']
      omega
    · simp only [List.forall_mem_cons, List.not_mem_nil, false_implies, implies_true, and_true,
        isLater_iff, UInt8.toNat_ofNat']
      try omega

/-- What the octets of a text begin with does not go on with a character. -/
theorem isLater_of_encodeChars_eq_cons {chars : List Char} {octet : UInt8} {octets : List UInt8}
    (same : encodeChars chars = octet :: octets) : isLater octet = false := by
  cases chars with
  | nil => cases same
  | cons c chars =>
    obtain ⟨first, others, hc, hfirst, -⟩ := exists_utf8EncodeChar_eq_cons c
    rw [encodeChars, List.flatMap_cons, hc, List.cons_append] at same
    rw [← (List.cons.inj same).1]
    exact hfirst

/-- A text ends with another exactly if its octets end with those of the other. -/
theorem isSuffix_encodeChars_iff {last chars : List Char} :
    encodeChars last <:+ encodeChars chars ↔ last <:+ chars := by
  constructor
  · rintro ⟨front, same⟩
    induction chars generalizing front with
    | nil =>
      have hnil : encodeChars last <+: encodeChars [] :=
        List.prefix_nil.2 (List.append_eq_nil_iff.1 same).2
      obtain rfl := List.prefix_nil.1 (isPrefix_encodeChars_iff.1 hnil)
      exact List.suffix_refl []
    | cons c chars ih =>
      obtain ⟨first, others, hc, -, hothers⟩ := exists_utf8EncodeChar_eq_cons c
      have hwhole : encodeChars (c :: chars) = (first :: others) ++ encodeChars chars := by
        rw [encodeChars, List.flatMap_cons, hc]
        rfl
      cases front with
      | nil =>
        have hfront : last <+: c :: chars :=
          isPrefix_encodeChars_iff.1 ⟨[], by rw [List.append_nil]; exact same⟩
        have hback : c :: chars <+: last :=
          isPrefix_encodeChars_iff.1 ⟨[], by rw [List.append_nil]; exact same.symm⟩
        obtain rfl := hfront.eq_of_length_le hback.length_le
        exact List.suffix_refl _
      | cons octet front =>
        rw [hwhole, List.cons_append, List.cons_append] at same
        obtain ⟨-, hrest⟩ := List.cons.inj same
        -- The other text begins behind the character, since it cannot begin inside of it.
        rcases List.append_eq_append_iff.1 hrest with ⟨inside, hinside, hlast⟩ | ⟨more, -, hmore⟩
        · cases inside with
          | nil => exact (ih [] hlast).trans (List.suffix_cons c chars)
          | cons later inside =>
            have hlater : isLater later = true := by
              refine hothers later ?_
              rw [hinside]
              exact List.mem_append_right front List.mem_cons_self
            rw [isLater_of_encodeChars_eq_cons hlast] at hlater
            cases hlater
        · exact (ih more hmore.symm).trans (List.suffix_cons c chars)
  · rintro ⟨front, rfl⟩
    rw [encodeChars, encodeChars, List.flatMap_append]
    exact List.suffix_append _ _

end Utf8

namespace KeyValue

/-- Different texts are different when they are read backwards. -/
theorem reversed_inj {left right : String} : reversed left = reversed right ↔ left = right := by
  refine ⟨fun same => ?_, congrArg reversed⟩
  rw [← reversed_reversed left, same, reversed_reversed]

/-- A text starts with another exactly if it ends with it when both are read backwards. -/
theorem isPrefix_reversed_iff {name base : String} :
    (reversed base).toList <+: (reversed name).toList ↔ base.toList <:+ name.toList := by
  rw [reversed, reversed, String.toList_ofList, String.toList_ofList, List.reverse_prefix]

/-- Read backwards, a name stands between the two ends of the range of a base read backwards exactly
if its octets end with those of the base, which is to say that it ends with the base. No two names
are the same member, and a name that is read backwards twice is read as it is. -/
theorem inRange_reversed_iff (name base : String) :
    (((startRange (reversed base)).1.startsAt (reversed name) = true ∧
        (startRange (reversed base)).2.endsAt (reversed name) = true) ↔
      Utf8.encode base <:+ Utf8.encode name) ∧
    (Utf8.encode base <:+ Utf8.encode name ↔ base.toList <:+ name.toList) ∧
    reversed (reversed name) = name ∧
    (reversed name = reversed base ↔ name = base) := by
  have hends : Utf8.encode base <:+ Utf8.encode name ↔ base.toList <:+ name.toList :=
    Utf8.isSuffix_encodeChars_iff
  refine ⟨?_, hends, reversed_reversed name, reversed_inj⟩
  rw [← Bool.and_eq_true, inRange_startRange_iff, isPrefix_reversed_iff, hends]

end KeyValue

end DirectoryService
