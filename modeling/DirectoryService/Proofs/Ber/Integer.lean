import DirectoryService.Proofs.Ber.Value
import DirectoryService.Proofs.Ber.Shortest

/-!
# Integers in two's complement

Octets stand for an integer in two's complement. The octets with which an integer is written are the
shortest of all that stand for it and the only ones of their length, and how many there are tells
between which powers of 256 the integer lies.
-/

namespace DirectoryService.Ber.Integer

variable {octets : List UInt8} {value : Int}

/-- One octet stands for a number around zero. -/
theorem twosComplement_singleton (octet : UInt8) :
    twosComplement [octet] = octet.toNat - if 128 ≤ octet.toNat then 256 else 0 := by
  rw [twosComplement, octetsNumber]
  simp

/-- One more octet shifts the number by eight bits and is added to it. -/
theorem twosComplement_concat (some : octets ≠ []) (last : UInt8) :
    twosComplement (octets ++ [last]) = 256 * twosComplement octets + last.toNat := by
  have hhead : (octets ++ [last]).headD 0 = octets.headD 0 := by
    cases octets with
    | nil => exact absurd rfl some
    | cons first octets => rfl
  rw [← signed_eq_twosComplement, ← signed_eq_twosComplement, signed, hhead, List.foldl_append,
    List.foldl_cons, List.foldl_nil, signed]

/-- An integer that one octet holds is written with it. -/
theorem encode_of_small (small : -128 ≤ value ∧ value < 128) : encode value = [lowOctet value] := by
  rw [encode, if_pos small]

/-- Any other integer is written with its low octet behind what is left of it. -/
theorem encode_of_large (large : ¬(-128 ≤ value ∧ value < 128)) :
    encode value = encode (value / 256) ++ [lowOctet value] := by
  rw [encode, if_neg large]

/-- The low octet is what is left when an integer is divided by 256. -/
theorem toNat_lowOctet (value : Int) : ((lowOctet value).toNat : Int) = value % 256 := by
  rw [lowOctet, UInt8.toNat_ofNat']
  omega

/-- The low octet of what was shifted by eight bits is what was added. -/
theorem lowOctet_add (before : Int) (last : UInt8) : lowOctet (256 * before + last.toNat) = last := by
  have hlast := last.toNat_lt
  rw [← UInt8.toNat_inj, ← Int.natCast_inj, toNat_lowOctet]
  omega

/-- An integer is written with at least one octet. -/
theorem encode_ne_nil (value : Int) : encode value ≠ [] := by
  by_cases small : -128 ≤ value ∧ value < 128
  · rw [encode_of_small small]
    exact List.cons_ne_nil _ _
  · rw [encode_of_large small]
    exact List.append_ne_nil_of_right_ne_nil _ (List.cons_ne_nil _ _)

/-- The octets with which an integer is written stand for it. -/
theorem twosComplement_encode (value : Int) : twosComplement (encode value) = value := by
  induction value using encode.induct with
  | case1 value small =>
    have hlow := toNat_lowOctet value
    rw [encode_of_small small, twosComplement_singleton]
    split <;> omega
  | case2 value large ih =>
    have hlow := toNat_lowOctet value
    rw [encode_of_large large, twosComplement_concat (encode_ne_nil _), ih]
    omega

/-- A number that one octet stands for is written with this octet. -/
theorem encode_twosComplement_singleton (octet : UInt8) : encode (twosComplement [octet]) = [octet] := by
  have hoctet := octet.toNat_lt
  have hvalue := twosComplement_singleton octet
  have hsmall : -128 ≤ twosComplement [octet] ∧ twosComplement [octet] < 128 := by
    rw [hvalue]
    split <;> omega
  have hlow : lowOctet (twosComplement [octet]) = octet := by
    rw [← UInt8.toNat_inj, ← Int.natCast_inj, toNat_lowOctet, hvalue]
    split <;> omega
  rw [encode_of_small hsmall, hlow]

/-- An integer is written in the shortest of all forms that stand for it. -/
theorem shortens_encode (some : octets ≠ []) : Shortens (encode (twosComplement octets)) octets := by
  induction octets using List.reverseRecOn with
  | nil => exact absurd rfl some
  | append_singleton octets last ih =>
    by_cases alone : octets = []
    · rw [alone, List.nil_append, encode_twosComplement_singleton]
      exact .refl [last]
    · rw [twosComplement_concat alone]
      by_cases small : -128 ≤ 256 * twosComplement octets + (last.toNat : Int) ∧
          256 * twosComplement octets + (last.toNat : Int) < 128
      · rw [encode_of_small small]
        refine .of_lt ?_
        rw [List.length_append, List.length_singleton, List.length_singleton]
        exact Nat.lt_add_of_pos_left (List.length_pos_iff.2 alone)
      · have hlast := last.toNat_lt
        have hbefore : (256 * twosComplement octets + (last.toNat : Int)) / 256 =
            twosComplement octets := by omega
        rw [encode_of_large small, hbefore, lowOctet_add]
        exact (ih alone).append (.refl [last])

/-- Octets are the shortest that stand for an integer. -/
structure IsShortest (value : Int) (octets : List UInt8) : Prop where
  /-- There are some. -/
  ne_nil : octets ≠ []
  /-- They stand for the integer. -/
  twosComplement_eq : twosComplement octets = value
  /-- No fewer octets stand for it. -/
  length_le : ∀ other, other ≠ [] → twosComplement other = value → octets.length ≤ other.length

/-- The shortest octets that stand for an integer are those with which it is written. -/
theorem isShortest_iff : IsShortest value octets ↔ octets = encode value := by
  constructor
  · intro shortest
    have hencode := shortens_encode shortest.ne_nil
    rw [shortest.twosComplement_eq] at hencode
    have hle := shortest.length_le (encode value) (encode_ne_nil value) (twosComplement_encode value)
    exact (hencode.eq_of_length_eq (Nat.le_antisymm hencode.length_le hle)).symm
  · rintro rfl
    refine ⟨encode_ne_nil value, twosComplement_encode value, fun other some same => ?_⟩
    rw [← same]
    exact (shortens_encode some).length_le

/-- Every octet more that an integer may take makes the bounds 256 times as wide. -/
theorem length_encode_le_iff {count : Nat} : (encode value).length ≤ count + 1 ↔
    -(128 * 256 ^ count) ≤ value ∧ value < 128 * 256 ^ count := by
  induction count generalizing value with
  | zero =>
    by_cases small : -128 ≤ value ∧ value < 128
    · rw [encode_of_small small]
      simpa using small
    · have hmore := List.length_pos_iff.2 (encode_ne_nil (value / 256))
      rw [encode_of_large small, List.length_append, List.length_singleton]
      omega
  | succ count ih =>
    have hpower : (0 : Int) < 256 ^ count := by positivity
    rw [pow_succ]
    by_cases small : -128 ≤ value ∧ value < 128
    · rw [encode_of_small small, List.length_singleton]
      generalize (256 : Int) ^ count = power at *
      omega
    · rw [encode_of_large small, List.length_append, List.length_singleton,
        Nat.add_le_add_iff_right, ih]
      generalize (256 : Int) ^ count = power at *
      omega

/-- The number of octets bounds the number that they stand for. -/
theorem twosComplement_bounds {count : Nat} (some : octets ≠ []) (few : octets.length ≤ count + 1) :
    -(128 * 256 ^ count) ≤ twosComplement octets ∧ twosComplement octets < 128 * 256 ^ count :=
  length_encode_le_iff.1 (Nat.le_trans (shortens_encode some).length_le few)

end DirectoryService.Ber.Integer
