import DirectoryService.Proofs.Ber.Grammar
import Mathlib.Data.Nat.Digits.Lemmas

/-!
# Shortest encodings

A packet can be written in many ways: numbers may start with zeros, and small ones may be written as
if they were large. The encoding is the shortest of them and the only one of its length. Each part
of it is a short form of the same part of any other way, and what holds of the parts one after the
other holds of the whole.
-/

namespace DirectoryService.Ber

/-- Octets are no longer than others, and as long as they are only if they are the same. -/
structure Shortens (short long : List UInt8) : Prop where
  /-- They are no longer. -/
  length_le : short.length ≤ long.length
  /-- They are the same if they are as long. -/
  eq_of_length_eq : short.length = long.length → short = long

namespace Shortens

variable {short long other further : List UInt8}

theorem refl (octets : List UInt8) : Shortens octets octets := ⟨Nat.le_refl _, fun _ => rfl⟩

/-- Fewer octets shorten more, whatever they are. -/
theorem of_lt (fewer : short.length < long.length) : Shortens short long :=
  ⟨Nat.le_of_lt fewer, fun same => absurd same (Nat.ne_of_lt fewer)⟩

/-- Parts that are shortened one by one are shortened together: no part makes up for another. -/
theorem append (first : Shortens short long) (second : Shortens other further) :
    Shortens (short ++ other) (long ++ further) := by
  have hfirst := first.length_le
  have hsecond := second.length_le
  constructor
  · rw [List.length_append, List.length_append]
    omega
  · intro same
    rw [List.length_append, List.length_append] at same
    have hshort : short = long := first.eq_of_length_eq (by omega)
    have hother : other = further := second.eq_of_length_eq (by omega)
    rw [hshort, hother]

/-- A count in front of octets is shortened with them. -/
theorem cons {count total : UInt8} (behind : Shortens short long)
    (counts : short = long → count = total) : Shortens (count :: short) (total :: long) := by
  have hlength := behind.length_le
  constructor
  · rw [List.length_cons, List.length_cons]
    omega
  · intro same
    rw [List.length_cons, List.length_cons] at same
    have hshort : short = long := behind.eq_of_length_eq (by omega)
    rw [counts hshort, hshort]

end Shortens

/-- A number that is written digit by digit, without zeros in front, shortens everything that stands
for it. -/
theorem shortens_digits {base : Nat} {write : Nat → List UInt8} (digit : UInt8 → Nat)
    (octet : Nat → UInt8) (large : 1 < base)
    (writes : ∀ number, write number =
      if number = 0 then [] else write (number / base) ++ [octet (number % base)])
    {octets : List UInt8} (digits : ∀ one ∈ octets, digit one < base ∧ octet (digit one) = one) :
    Shortens (write (Nat.ofDigits base (octets.map digit).reverse)) octets := by
  induction octets using List.reverseRecOn with
  | nil =>
    rw [writes]
    exact .refl []
  | append_singleton octets last ih =>
    obtain ⟨small, same⟩ := digits last (List.mem_append_right _ (List.mem_singleton_self last))
    have hbefore := ih fun one member => digits one (List.mem_append_left _ member)
    rw [List.map_append, List.reverse_append, List.map_singleton, List.reverse_singleton,
      List.singleton_append, Nat.ofDigits_cons]
    generalize Nat.ofDigits base (octets.map digit).reverse = before at hbefore
    have hdiv : (digit last + base * before) / base = before := by
      rw [Nat.add_mul_div_left _ _ (by omega), Nat.div_eq_of_lt small, Nat.zero_add]
    have hmod : (digit last + base * before) % base = digit last := by
      rw [Nat.add_mul_mod_self_left, Nat.mod_eq_of_lt small]
    rw [writes]
    split
    · refine .of_lt ?_
      rw [List.length_append, List.length_singleton]
      exact Nat.succ_pos _
    · rw [hdiv, hmod, same]
      exact hbefore.append (.refl [last])

/-- Octets of a number shorten all octets that stand for it. -/
theorem shortens_bigEndian (octets : List UInt8) :
    Shortens (bigEndian (octetsNumber octets)) octets := by
  refine shortens_digits UInt8.toNat UInt8.ofNat (by decide) ?_ fun one _ => ?_
  · intro number
    rw [bigEndian]
  · exact ⟨one.toNat_lt, UInt8.ofNat_toNat⟩

/-- All groups but the last are marked. -/
theorem IsGroups.exists_last {groups : List UInt8} (marks : IsGroups groups) :
    ∃ front last, groups = front ++ [last] ∧ (∀ octet ∈ front, 0x80 ≤ octet) ∧ last < 0x80 := by
  induction marks with
  | @last octet unmarked => exact ⟨[], octet, rfl, List.forall_mem_nil _, unmarked⟩
  | @more octet groups marked later ih =>
    obtain ⟨front, last, rfl, hfront, hlast⟩ := ih
    exact ⟨octet :: front, last, rfl, List.forall_mem_cons.2 ⟨marked, hfront⟩, hlast⟩

/-- Groups of a number shorten all groups that stand for it. -/
theorem shortens_encodeTagNumber {groups : List UInt8} (marks : IsGroups groups) :
    Shortens (encodeTagNumber (groupsNumber groups)) groups := by
  have hm : (0x80 : UInt8).toNat = 128 := rfl
  obtain ⟨front, last, rfl, hfront, hlast⟩ := marks.exists_last
  have hsmall : last.toNat < 128 := UInt8.lt_iff_toNat_lt.1 hlast
  have hnumber : groupsNumber (front ++ [last]) = last.toNat + 128 * groupsNumber front := by
    rw [groupsNumber, List.map_append, List.reverse_append, List.map_singleton,
      List.reverse_singleton, List.singleton_append, Nat.ofDigits_cons, Nat.mod_eq_of_lt hsmall]
    rfl
  have hdiv : (last.toNat + 128 * groupsNumber front) / 128 = groupsNumber front := by omega
  have hmod : (last.toNat + 128 * groupsNumber front) % 128 = last.toNat := by omega
  rw [hnumber, encodeTagNumber, hdiv, hmod, UInt8.ofNat_toNat]
  refine .append ?_ (.refl [last])
  refine shortens_digits _ (fun value => UInt8.ofNat (128 + value)) (by decide) ?_ ?_
  · intro number
    rw [leadingGroups]
  · intro one member
    have hmarked := UInt8.le_iff_toNat_le.1 (hfront one member)
    have hlt := one.toNat_lt
    have hvalue : 128 + one.toNat % 128 = one.toNat := by omega
    refine ⟨Nat.mod_lt _ (by decide), ?_⟩
    rw [hvalue, UInt8.ofNat_toNat]

/-- A leading octet that is written is the one with the same class, form and low bits. -/
theorem leading_eq {tagClass : TagClass} {constructed : Bool} {leading low : UInt8}
    (small : low < 32) (parts : leading.toNat = leadingBits tagClass constructed + low.toNat) :
    tagClass.bits + (if constructed then 0x20 else 0x00) + low = leading := by
  rw [← UInt8.toNat_inj, toNat_leading tagClass constructed small, parts]
  rfl

/-- Identifier octets that are written shorten all that name the same. -/
theorem shortens_encodeIdentifier {tagClass : TagClass} {constructed : Bool} {tag : UInt32}
    {octets : List UInt8} (names : IsIdentifier tagClass constructed octets tag.toNat) :
    Shortens (encodeIdentifier tagClass constructed tag) octets := by
  have hm : (31 : UInt32).toNat = 31 := rfl
  rw [encodeIdentifier]
  generalize hnumber : tag.toNat = number at names
  cases names with
  | @low leading _ small parts =>
    have htag : tag < 31 := by rw [UInt32.lt_iff_toNat_lt, hm, hnumber]; exact small
    have hlow : tag.toUInt8.toNat = number := by rw [UInt32.toNat_toUInt8, hnumber]; omega
    have hfits : tag.toUInt8 < 32 := by
      rw [UInt8.lt_iff_toNat_lt, hlow]
      exact Nat.lt_succ_of_lt small
    rw [if_pos htag, leading_eq hfits (hlow ▸ parts)]
    exact .refl [leading]
  | @high leading groups parts marks =>
    by_cases htag : tag < 31
    · rw [if_pos htag]
      refine .of_lt ?_
      rw [List.length_singleton, List.length_cons]
      exact Nat.succ_lt_succ marks.length_pos
    · rw [if_neg htag, leading_eq (by decide) parts]
      exact (shortens_encodeTagNumber marks).cons fun _ => rfl

/-- The octets of a length are written in the shortest form. -/
theorem shortens_encodeLength {octets : List UInt8} {length : Nat}
    (measures : IsLength octets length) : Shortens (encodeLength length) octets := by
  cases measures with
  | @short first small =>
    have hsmall : first.toNat < 128 := UInt8.lt_iff_toNat_lt.1 small
    rw [encodeLength, if_pos hsmall, UInt8.ofNat_toNat]
    exact .refl [first]
  | @long first octets counted positive few =>
    rw [encodeLength]
    split
    · refine .of_lt ?_
      rw [List.length_singleton, List.length_cons]
      omega
    · refine (shortens_bigEndian octets).cons fun same => ?_
      rw [same, ← counted, UInt8.ofNat_toNat]

/-- A larger number does not take fewer octets. -/
theorem length_bigEndian_le {number larger : Nat} (le : number ≤ larger) :
    (bigEndian number).length ≤ (bigEndian larger).length := by
  induction number using Nat.strongRecOn generalizing larger with
  | ind number ih =>
    rw [bigEndian]
    split
    · exact Nat.zero_le _
    · have habove := ih (number / 256) (by omega) (Nat.div_le_div_right le : _ ≤ larger / 256)
      rw [bigEndian.eq_def larger, if_neg (by omega), List.length_append, List.length_append]
      exact Nat.succ_le_succ habove

/-- A larger length does not take fewer octets. -/
theorem length_encodeLength_le {length larger : Nat} (le : length ≤ larger) :
    (encodeLength length).length ≤ (encodeLength larger).length := by
  have hoctets := length_bigEndian_le le
  rw [encodeLength, encodeLength]
  split <;> split <;> simp only [List.length_cons, List.length_nil] <;> omega

/-- A length has at most 32 bits. -/
theorem IsLength.lt {octets : List UInt8} {length : Nat} (measures : IsLength octets length) :
    length < 0x100000000 := by
  cases measures with
  | @short first small =>
    have hlt := first.toNat_lt
    omega
  | @long first octets counted positive few =>
    have hbound : octetsNumber octets < 256 ^ octets.length := by
      have hdigits : ∀ digit ∈ (octets.map UInt8.toNat).reverse, digit < 256 := by
        intro digit member
        obtain ⟨octet, _, rfl⟩ := List.mem_map.1 (List.mem_reverse.1 member)
        exact octet.toNat_lt
      have hlt := Nat.ofDigits_lt_base_pow_length (by decide) hdigits
      rwa [List.length_reverse, List.length_map] at hlt
    have hpow : 256 ^ octets.length ≤ 256 ^ 4 := Nat.pow_le_pow_right (by decide) few
    omega

/-- Header and contents that are shortened are shortened together, although the header tells another
length as soon as the contents are shorter. -/
theorem Shortens.packet {tagClass : TagClass} {constructed : Bool} {tag : UInt32}
    {identifier length contents short : List UInt8}
    (names : IsIdentifier tagClass constructed identifier tag.toNat)
    (measures : IsLength length contents.length) (shortens : Shortens short contents) :
    Shortens (encodeIdentifier tagClass constructed tag ++ encodeLength short.length ++ short)
      (identifier ++ length ++ contents) := by
  have hidentifier := shortens_encodeIdentifier names
  have hlength := shortens_encodeLength measures
  by_cases same : short = contents
  · rw [same]
    exact (hidentifier.append hlength).append (.refl contents)
  · have hfewer := Nat.lt_of_le_of_ne shortens.length_le (mt shortens.eq_of_length_eq same)
    have hless := length_encodeLength_le shortens.length_le
    have hnames := hidentifier.length_le
    have hmeasures := hlength.length_le
    refine .of_lt ?_
    simp only [List.length_append]
    omega

/-- A header that is written is one of the grammar. -/
theorem isHeader_encodeHeader (header : Header) (fits : header.length < 0x100000000) :
    IsHeader (encodeHeader header) header := by
  have hread := readHeader_encodeHeader header [] fits
  obtain ⟨front, same, hfront⟩ := readHeader_eq_ok_iff.1 hread
  rw [List.append_nil, List.append_nil] at same
  rwa [same]

-- The induction is on how the packet and its parts were derived: the encoding is derived in the
-- same way, from the encodings of the parts.
mutual

/-- The encoding of a packet that was derived is derived as well, and it is the shortest one. -/
theorem Derives.encode {depth : Nat} {octets : List UInt8} {packet : Packet} :
    Derives depth octets packet →
      Derives depth packet.encode packet ∧ Shortens packet.encode octets
  | @Derives.primitive _ identifier length value tagClass tag shallow names measures => by
    obtain ⟨first, second, same, hnames, hmeasures⟩ :=
      isHeader_encodeHeader ⟨tagClass, false, tag, value.length⟩ measures.lt
    have hencode : (Packet.primitive tagClass tag value "").encode = first ++ second ++ value := by
      rw [Packet.encode_eq, ← same]
      rfl
    refine ⟨?_, ?_⟩
    · rw [hencode]
      exact .primitive shallow hnames hmeasures
    · rw [Packet.encode]
      exact .packet names measures (.refl value)
  | @Derives.constructed _ identifier length contents tagClass tag children shallow names measures
      holds => by
    obtain ⟨hholds, hshortens⟩ := holds.encodeAll
    have hfits : (Packet.encodeAll children).length < 0x100000000 :=
      Nat.lt_of_le_of_lt hshortens.length_le measures.lt
    obtain ⟨first, second, same, hnames, hmeasures⟩ :=
      isHeader_encodeHeader ⟨tagClass, true, tag, _⟩ hfits
    have hencode : (Packet.constructed tagClass tag children "").encode =
        first ++ second ++ Packet.encodeAll children := by
      rw [Packet.encode_eq, ← same]
      rfl
    refine ⟨?_, ?_⟩
    · rw [hencode]
      exact .constructed shallow hnames hmeasures hholds
    · rw [Packet.encode]
      exact .packet names measures hshortens

/-- The same holds of packets one after the other. -/
theorem DerivesAll.encodeAll {depth : Nat} {octets : List UInt8} {packets : List Packet} :
    DerivesAll depth octets packets →
      DerivesAll depth (Packet.encodeAll packets) packets ∧
        Shortens (Packet.encodeAll packets) octets
  | .nil => ⟨.nil, .refl []⟩
  | .cons first later => by
    obtain ⟨hfirst, hshort⟩ := first.encode
    obtain ⟨hlater, hshorter⟩ := later.encodeAll
    rw [Packet.encodeAll]
    exact ⟨.cons hfirst hlater, hshort.append hshorter⟩

end

/-- What octets are written as after they were read. -/
def recode (octets : List UInt8) : Except PacketFault (List UInt8) :=
  (Packet.decode octets).map Packet.encode

/-- No octets that decode to a packet are fewer than these. -/
def IsShortest (octets : List UInt8) (packet : Packet) : Prop :=
  Packet.decode octets = .ok packet ∧
    ∀ other, Packet.decode other = .ok packet → octets.length ≤ other.length

/-- The encoding of a packet that was decoded decodes to it again. It is not longer than what was
decoded, and as long only if it is the same; so reading and writing once more changes nothing, and
no other octets that decode to the packet are as few. -/
theorem encode_shortest {octets : List UInt8} {packet : Packet}
    (decodes : Packet.decode octets = .ok packet) :
    Packet.decode packet.encode = .ok packet ∧
    packet.encode.length ≤ octets.length ∧
    (packet.encode.length = octets.length ↔ packet.encode = octets) ∧
    (recode octets = .ok packet.encode ∧ recode packet.encode = .ok packet.encode) ∧
    ∀ other, IsShortest other packet ↔ other = packet.encode := by
  have hshortens (other : List UInt8) (again : Packet.decode other = .ok packet) :
      Shortens packet.encode other := (decode_eq_ok_iff_derives.1 again).encode.2
  have hencode : Packet.decode packet.encode = .ok packet :=
    decode_eq_ok_iff_derives.2 (decode_eq_ok_iff_derives.1 decodes).encode.1
  refine ⟨hencode, (hshortens octets decodes).length_le,
    ⟨(hshortens octets decodes).eq_of_length_eq, congrArg List.length⟩, ⟨?_, ?_⟩, fun other => ?_⟩
  · rw [recode, decodes]
    rfl
  · rw [recode, hencode]
    rfl
  · constructor
    · rintro ⟨again, least⟩
      have hle := (hshortens other again).length_le
      have hge := least packet.encode hencode
      exact ((hshortens other again).eq_of_length_eq (by omega)).symm
    · rintro rfl
      exact ⟨hencode, fun other again => (hshortens other again).length_le⟩

/-- A small tag number after a zero group, with a length of four octets, around a tag number that
needs no group and a length that needs no count. -/
theorem encode_shortest_padded :
    let packet : Packet := .constructed .application 3 [.primitive .context 5 [] ""] ""
    let octets : List UInt8 :=
      [0x7F, 0x80, 0x03, 0x84, 0x00, 0x00, 0x00, 0x04, 0x9F, 0x05, 0x81, 0x00]
    Packet.decode octets = .ok packet ∧ packet.encode = [0x63, 0x02, 0x85, 0x00] ∧
      Packet.decode packet.encode = .ok packet ∧ ¬ IsShortest octets packet := by
  intro packet octets
  have hdecode : Packet.decode octets = .ok packet := by cbv
  have hencode : packet.encode = [0x63, 0x02, 0x85, 0x00] := by decide +kernel
  obtain ⟨hagain, -, -, -, honly⟩ := encode_shortest hdecode
  refine ⟨hdecode, hencode, hagain, fun shortest => ?_⟩
  have hsame := (honly octets).1 shortest
  rw [hencode] at hsame
  exact absurd hsame (by decide)

end DirectoryService.Ber
