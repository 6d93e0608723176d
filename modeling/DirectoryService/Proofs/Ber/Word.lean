import DirectoryService.Proofs.Ber.Integer

/-!
# Integers as words

Integers are words of 64 bits. They are read by shifting octets into a word that starts with nothing
but the sign, and written as the octets of a word without those in front that only repeat the sign of
the next one. The number of the word is the one that the octets stand for in two's complement, and no
shorter octets stand for it.
-/

namespace DirectoryService.Ber.Integer

variable {octets : List UInt8}

/-- The leading bit of an octet tells whether it counts negative. -/
theorem and_signBit_ne_zero_iff (octet : UInt8) : octet &&& 0x80 ≠ 0 ↔ 128 ≤ octet.toNat := by
  have hbit : ∀ number < 256, number &&& 128 ≠ 0 ↔ 128 ≤ number := by decide +kernel
  have hand : (octet &&& 0x80).toNat = octet.toNat &&& 128 := UInt8.toNat_and octet 0x80
  rw [Ne, ← UInt8.toNat_inj, hand]
  exact hbit octet.toNat octet.toNat_lt

/-- The word into which octets are shifted, on top of the sign of the first one. -/
def shiftIn (octets : List UInt8) : Int64 :=
  octets.foldl (fun word octet => word <<< 8 ||| octet.toUInt64.toInt64)
    (if octets.headD 0 &&& 0x80 ≠ 0 then -1 else 0)

/-- Reads a word of 64 bits. -/
def readWord (octets : List UInt8) : Except ValueFault Int64 :=
  if octets.length = 0 ∨ 8 < octets.length then .error (.integerWidth octets.length)
  else .ok (shiftIn octets)

/-- A word that was shifted has no bit where an octet has one. -/
theorem shiftLeft_and_octet (word : BitVec 64) (octet : UInt8) :
    word <<< 8 &&& octet.toBitVec.setWidth 64 = 0#64 := by
  refine BitVec.eq_of_getLsbD_eq fun place _ => ?_
  rw [BitVec.getLsbD_and, BitVec.getLsbD_shiftLeft, BitVec.getLsbD_setWidth, BitVec.getLsbD_zero]
  by_cases low : place < 8
  · simp only [low, decide_true, Bool.not_true, Bool.and_false, Bool.false_and]
  · rw [BitVec.getLsbD_of_ge octet.toBitVec place (Nat.le_of_not_lt low), Bool.and_false,
      Bool.and_false]

/-- Shifting in an octet is arithmetic modulo the number of words. -/
theorem ofInt_shiftLeft_or (number : Int) (octet : UInt8) :
    Int64.ofInt number <<< 8 ||| octet.toUInt64.toInt64 =
      Int64.ofInt (256 * number + octet.toNat) := by
  have hshift : (Int64.ofInt number <<< 8).toBitVec = BitVec.ofInt 64 number <<< 8 :=
    Int64.toBitVec_shiftLeft (Int64.ofInt number) 8
  have hword : octet.toUInt64.toInt64.toBitVec = octet.toBitVec.setWidth 64 := rfl
  have htimes : BitVec.ofInt 64 number <<< 8 = BitVec.ofInt 64 (256 * number) := by
    rw [BitVec.shiftLeft_eq_mul_twoPow, BitVec.ofInt_mul, BitVec.mul_comm]
    rfl
  have hoctet : octet.toBitVec.setWidth 64 = BitVec.ofInt 64 octet.toNat := by
    rw [BitVec.ofInt_natCast]
    exact (BitVec.ofNat_toNat 64 octet.toBitVec).symm
  rw [← Int64.toBitVec_inj, Int64.toBitVec_or, hshift, hword,
    ← BitVec.add_eq_or_of_and_eq_zero _ _ (shiftLeft_and_octet _ octet), htimes, hoctet,
    ← BitVec.ofInt_add, Int64.toBitVec_ofInt]

/-- Shifting in octets one after the other is arithmetic modulo the number of words. -/
theorem foldl_shiftLeft_or (number : Int) (octets : List UInt8) :
    octets.foldl (fun (word : Int64) (octet : UInt8) => word <<< 8 ||| octet.toUInt64.toInt64)
        (Int64.ofInt number) =
      Int64.ofInt (octets.foldl (fun (sum : Int) (octet : UInt8) => 256 * sum + octet.toNat)
        number) := by
  induction octets generalizing number with
  | nil => rfl
  | cons octet octets ih => rw [List.foldl_cons, List.foldl_cons, ofInt_shiftLeft_or, ih]

/-- The word holds the number that is read octet by octet, modulo the number of words. -/
theorem shiftIn_eq_ofInt (octets : List UInt8) : shiftIn octets = Int64.ofInt (signed octets) := by
  have hbound : (0x80 : UInt8).toNat = 128 := rfl
  rw [shiftIn, signed, ← foldl_shiftLeft_or]
  simp only [and_signBit_ne_zero_iff, UInt8.le_iff_toNat_le, hbound]
  split <;> rfl

/-- Reading shifts words, and the number is the one of the word. -/
theorem decode_eq_readWord (octets : List UInt8) :
    decode octets = (readWord octets).map Int64.toInt := by
  rw [decode, readWord]
  split
  · rfl
  · rename_i width
    have hsome : octets ≠ [] := by
      rintro rfl
      exact width (.inl rfl)
    have hbounds := twosComplement_bounds hsome (by omega : octets.length ≤ 7 + 1)
    rw [Except.map, shiftIn_eq_ofInt, signed_eq_twosComplement,
      Int64.toInt_ofInt_of_le (by omega) (by omega)]

/-- The lowest octets of a word, most significant first. -/
def wordOctets : (count : Nat) → Int64 → List UInt8
  | 0, _ => []
  | count + 1, word => wordOctets count (word >>> 8) ++ [word.toUInt64.toUInt8]

/-- A word is shifted to the right by dividing. -/
theorem toInt_shiftRight (word : Int64) : (word >>> 8).toInt = word.toInt / 256 := by
  have hshift : (word >>> 8).toBitVec = word.toBitVec.sshiftRight 8 :=
    Int64.toBitVec_shiftRight word 8
  rw [← Int64.toInt_toBitVec, hshift, BitVec.toInt_sshiftRight, Int64.toInt_toBitVec,
    Int.shiftRight_eq_div_pow]
  rfl

/-- The lowest octet of a word is the one of its number. -/
theorem toUInt8_eq_lowOctet (word : Int64) : word.toUInt64.toUInt8 = lowOctet word.toInt := by
  have hnumber : word.toInt = if 2 * word.toBitVec.toNat < 2 ^ 64 then (word.toBitVec.toNat : Int)
      else (word.toBitVec.toNat : Int) - (2 ^ 64 : Nat) :=
    BitVec.toInt_eq_toNat_cond word.toBitVec
  have hoctet : word.toUInt64.toUInt8.toNat = word.toBitVec.toNat % 256 :=
    UInt64.toNat_toUInt8 word.toUInt64
  rw [← UInt8.toNat_inj, ← Int.natCast_inj, toNat_lowOctet, hnumber, hoctet]
  split <;> omega

/-- Octets of a word stand for its number if they are enough. -/
theorem twosComplement_wordOctets {count : Nat} {word : Int64}
    (low : -(128 * 256 ^ count) ≤ word.toInt) (high : word.toInt < 128 * 256 ^ count) :
    twosComplement (wordOctets (count + 1) word) = word.toInt := by
  induction count generalizing word with
  | zero =>
    have hoctet := toNat_lowOctet word.toInt
    rw [wordOctets, wordOctets, List.nil_append, toUInt8_eq_lowOctet, twosComplement_singleton]
    split <;> omega
  | succ count ih =>
    have hoctet := toNat_lowOctet word.toInt
    have hshift := toInt_shiftRight word
    have hbefore : twosComplement (wordOctets (count + 1) (word >>> 8)) = (word >>> 8).toInt := by
      rw [pow_succ] at low high
      generalize (256 : Int) ^ count = power at *
      exact ih (by omega) (by omega)
    have hsome : wordOctets (count + 1) (word >>> 8) ≠ [] := by
      rw [wordOctets]
      exact List.append_ne_nil_of_right_ne_nil _ (List.cons_ne_nil _ _)
    rw [wordOctets, twosComplement_concat hsome, hbefore, hshift, toUInt8_eq_lowOctet]
    omega

/-- Whether an octet only repeats the sign of the next one. -/
def RepeatsSign (first second : UInt8) : Prop :=
  first = 0x00 ∧ second &&& 0x80 = 0 ∨ first = 0xFF ∧ second &&& 0x80 ≠ 0

instance (first second : UInt8) : Decidable (RepeatsSign first second) :=
  inferInstanceAs (Decidable (_ ∨ _))

/-- How much an octet in front adds to what octets stand for. -/
theorem twosComplement_cons_cons (first second : UInt8) (rest : List UInt8) :
    twosComplement (first :: second :: rest) = twosComplement (second :: rest) +
      256 ^ (second :: rest).length *
        (twosComplement [first] + if 128 ≤ second.toNat then 1 else 0) := by
  have hnumber : (octetsNumber (first :: second :: rest) : Int) =
      256 ^ (second :: rest).length * first.toNat + octetsNumber (second :: rest) := by
    have hfold := foldl_octets (first :: second :: rest) 0
    rw [List.foldl_cons, foldl_octets, mul_zero, mul_zero, zero_add, zero_add] at hfold
    exact hfold.symm
  have hlength : (first :: second :: rest).length = (second :: rest).length + 1 := rfl
  rw [twosComplement, twosComplement, twosComplement_singleton, hnumber, hlength, pow_succ,
    List.headD_cons, List.headD_cons]
  generalize (second :: rest).length = count
  split <;> split <;> ring

/-- An octet adds nothing exactly if it only repeats the sign of the next one. -/
theorem repeatsSign_iff (first second : UInt8) : RepeatsSign first second ↔
    twosComplement [first] + (if 128 ≤ second.toNat then 1 else 0) = 0 := by
  have hzero : first = 0x00 ↔ first.toNat = 0 := UInt8.toNat_inj.symm
  have hones : first = 0xFF ↔ first.toNat = 255 := UInt8.toNat_inj.symm
  have hplain : second &&& 0x80 = 0 ↔ ¬128 ≤ second.toNat := by
    rw [← and_signBit_ne_zero_iff, not_not]
  have hfirst := first.toNat_lt
  rw [RepeatsSign, and_signBit_ne_zero_iff, hplain, hzero, hones, twosComplement_singleton]
  split <;> split <;> omega

/-- Octets without those in front that only repeat a sign. -/
def stripSign : List UInt8 → List UInt8
  | first :: second :: rest =>
    if RepeatsSign first second then stripSign (second :: rest) else first :: second :: rest
  | octets => octets

/-- Octets of which the first one does more than repeat a sign are how their number is written. -/
theorem encode_of_not_repeatsSign {first second : UInt8} {rest : List UInt8}
    (needed : ¬RepeatsSign first second) :
    encode (twosComplement (first :: second :: rest)) = first :: second :: rest := by
  have hshort := shortens_encode (List.cons_ne_nil first (second :: rest))
  refine hshort.eq_of_length_eq (Nat.le_antisymm hshort.length_le ?_)
  refine Nat.le_of_not_lt fun fewer => ?_
  -- What fewer octets stand for lies within bounds that the first one leads out of.
  generalize hvalue : twosComplement (first :: second :: rest) = value at fewer
  rw [twosComplement_cons_cons] at hvalue
  rw [repeatsSign_iff] at needed
  generalize twosComplement [first] + (if 128 ≤ second.toNat then 1 else 0) = factor at *
  have hvalueBounds := length_encode_le_iff.1 (Nat.le_of_lt_succ fewer)
  have hrestBounds := twosComplement_bounds (List.cons_ne_nil second rest) (Nat.le_refl _)
  rw [List.length_cons, pow_succ] at hvalue
  generalize (256 : Int) ^ rest.length = power at *
  rcases Int.lt_or_gt_of_ne needed with below | above
  · have hleast : power * 256 * factor ≤ power * 256 * -1 :=
      Int.mul_le_mul_of_nonneg_left (by omega) (by omega)
    omega
  · have hmost : power * 256 * 1 ≤ power * 256 * factor :=
      Int.mul_le_mul_of_nonneg_left (by omega) (by omega)
    omega

/-- Octets without repeated signs are how their number is written. -/
theorem stripSign_eq_encode (some : octets ≠ []) :
    stripSign octets = encode (twosComplement octets) := by
  induction octets using stripSign.induct with
  | case1 first second rest repeats ih =>
    have hvalue := twosComplement_cons_cons first second rest
    rw [(repeatsSign_iff first second).1 repeats, mul_zero, add_zero] at hvalue
    rw [stripSign, if_pos repeats, ih (List.cons_ne_nil second rest), hvalue]
  | case2 first second rest needed =>
    rw [stripSign, if_neg needed, encode_of_not_repeatsSign needed]
  | case3 octets short =>
    match octets with
    | [] => exact absurd rfl some
    | [octet] => rw [encode_twosComplement_singleton, stripSign.eq_def]
    | first :: second :: rest => exact (short first second rest rfl).elim

/-- Writes a word of 64 bits. -/
def writeWord (word : Int64) : List UInt8 := stripSign (wordOctets 8 word)

/-- Writing strips the octets of a word. -/
theorem encode_eq_writeWord (word : Int64) : encode word.toInt = writeWord word := by
  have hlow := word.le_toInt
  have hhigh := word.toInt_lt
  have hsome : wordOctets 8 word ≠ [] :=
    List.append_ne_nil_of_right_ne_nil _ (List.cons_ne_nil _ _)
  have hnumber : twosComplement (wordOctets 8 word) = word.toInt :=
    twosComplement_wordOctets (by omega) (by omega)
  rw [writeWord, stripSign_eq_encode hsome, hnumber]

example : writeWord (-129) = [0xFF, 0x7F] := by decide

/-- One to eight octets are read as the number that they stand for in two's complement, any other
octets are refused, and shifting them into a word gives the same. Every number of a word is written
as its stripped octets. These are read back, and whatever else is read as this number is longer. -/
theorem decode_twosComplement_encode_shortest :
    (∀ octets, decode octets = if 1 ≤ octets.length ∧ octets.length ≤ 8
      then .ok (twosComplement octets) else .error (.integerWidth octets.length)) ∧
    (∀ octets, decode octets = (readWord octets).map Int64.toInt) ∧
    ∀ word : Int64, encode word.toInt = writeWord word ∧
      decode (encode word.toInt) = .ok word.toInt ∧
      ∀ octets, decode octets = .ok word.toInt → Shortens (encode word.toInt) octets := by
  refine ⟨fun octets => ?_, decode_eq_readWord, fun word => ⟨encode_eq_writeWord word, ?_, ?_⟩⟩
  · split
    · rename_i width
      exact decode_eq_ok_iff.2 ⟨width, rfl⟩
    · rename_i width
      rw [decode, if_pos (by omega)]
  · have hlow := word.le_toInt
    have hhigh := word.toInt_lt
    have hfew : (encode word.toInt).length ≤ 7 + 1 :=
      length_encode_le_iff.2 ⟨by omega, by omega⟩
    exact decode_eq_ok_iff.2 ⟨⟨List.length_pos_iff.2 (encode_ne_nil _), hfew⟩,
      twosComplement_encode _⟩
  · intro octets read
    obtain ⟨⟨some, -⟩, hnumber⟩ := decode_eq_ok_iff.1 read
    rw [← hnumber]
    exact shortens_encode (List.length_pos_iff.1 some)

end DirectoryService.Ber.Integer
