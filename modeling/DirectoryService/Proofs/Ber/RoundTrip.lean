import DirectoryService.Ber.Decoding
import DirectoryService.Ber.Encoding

/-!
# Decoding what was encoded

Identifier, length and contents are read back one after the other, each in front of arbitrary
octets, and a packet is read back by induction on its tree. Nothing but the descriptions is lost,
and nothing but the depth of the tree can keep a packet from being read: the bounds on tag numbers
and lengths are wide enough for everything that the encoding writes.
-/

namespace DirectoryService.Ber

/-- A group of seven bits keeps its value under the mark of a successor. -/
theorem toNat_marked (number : Nat) :
    (UInt8.ofNat (128 + number % 128)).toNat = 128 + number % 128 := by
  rw [UInt8.toNat_ofNat']
  omega

/-- A marked group is not the last one. -/
theorem not_marked_lt (number : Nat) : ¬ UInt8.ofNat (128 + number % 128) < 0x80 := by
  have hm : (0x80 : UInt8).toNat = 128 := rfl
  rw [UInt8.lt_iff_toNat_lt, toNat_marked, hm]
  omega

/-- The groups of a number below the bound are read as that number: the bound is compared with what
the groups before gave, so the last group of the greatest number passes too. -/
theorem readTagNumber_leadingGroups {number : Nat} (rest : List UInt8)
    (fits : number < 0x100000000) :
    readTagNumber 0 (leadingGroups number ++ rest) = readTagNumber number rest := by
  induction number using Nat.strongRecOn generalizing rest with
  | ind number ih =>
    by_cases hz : number = 0
    · rw [hz, leadingGroups, if_pos rfl, List.nil_append]
    · have hg : ¬ 0x100000000 ≤ number / 128 * 128 := by omega
      have hv : number / 128 * 128 + (128 + number % 128) % 128 = number := by omega
      rw [leadingGroups, if_neg hz, List.append_assoc, ih (number / 128) (by omega) _ (by omega),
        List.singleton_append, readTagNumber]
      simp only [if_neg hg, if_neg (not_marked_lt number), toNat_marked, hv]

/-- A tag number of at most 32 bits is read back in front of anything. -/
theorem readTagNumber_encodeTagNumber {number : Nat} (rest : List UInt8)
    (fits : number < 0x100000000) :
    readTagNumber 0 (encodeTagNumber number ++ rest) = .ok (number, rest) := by
  have hd : (UInt8.ofNat (number % 128)).toNat = number % 128 := by
    rw [UInt8.toNat_ofNat']
    omega
  have hl : UInt8.ofNat (number % 128) < 0x80 := by
    rw [UInt8.lt_iff_toNat_lt, hd]
    exact Nat.mod_lt _ (by decide)
  have hg : ¬ 0x100000000 ≤ number / 128 * 128 := by omega
  have hv : number / 128 * 128 + number % 128 % 128 = number := by omega
  rw [encodeTagNumber, List.append_assoc, readTagNumber_leadingGroups _ (by omega),
    List.singleton_append, readTagNumber]
  simp only [if_neg hg, if_pos hl, hd, hv]

/-- One more octet at the end shifts the number by eight bits. -/
theorem unsigned_append (octets : List UInt8) (last : UInt8) :
    unsigned (octets ++ [last]) = 256 * unsigned octets + last.toNat := by
  simp only [unsigned, List.foldl_append, List.foldl_cons, List.foldl_nil]

/-- The octets of a number stand for it. -/
theorem unsigned_bigEndian (number : Nat) : unsigned (bigEndian number) = number := by
  induction number using Nat.strongRecOn with
  | ind number ih =>
    by_cases hz : number = 0
    · rw [hz, bigEndian, if_pos rfl]
      rfl
    · rw [bigEndian, if_neg hz, unsigned_append, ih (number / 256) (by omega), UInt8.toNat_ofNat']
      omega

/-- A number takes at most one octet more than its 256th part. -/
theorem length_bigEndian_le_succ {number width : Nat}
    (above : (bigEndian (number / 256)).length ≤ width) :
    (bigEndian number).length ≤ width + 1 := by
  rw [bigEndian]
  split
  · exact Nat.zero_le _
  · rw [List.length_append, List.length_singleton]
    exact Nat.succ_le_succ above

/-- Four octets are enough for 32 bits. -/
theorem length_bigEndian_le_four {number : Nat} (fits : number < 0x100000000) :
    (bigEndian number).length ≤ 4 := by
  have hz : number / 256 / 256 / 256 / 256 = 0 := by omega
  have h0 : (bigEndian (number / 256 / 256 / 256 / 256)).length ≤ 0 := by
    rw [hz, bigEndian, if_pos rfl]
    exact Nat.le_refl 0
  exact length_bigEndian_le_succ (length_bigEndian_le_succ
    (length_bigEndian_le_succ (length_bigEndian_le_succ h0)))

/-- A positive number takes an octet. -/
theorem length_bigEndian_pos {number : Nat} (positive : 0 < number) :
    0 < (bigEndian number).length := by
  rw [bigEndian, if_neg (by omega), List.length_append, List.length_singleton]
  exact Nat.succ_pos _

/-- The count in front of the octets of a long length. -/
theorem toNat_count {count : Nat} (small : count ≤ 4) :
    (UInt8.ofNat (128 + count)).toNat = 128 + count := by
  rw [UInt8.toNat_ofNat']
  omega

/-- A length of at most 32 bits is read back in front of anything. -/
theorem readLength_encodeLength {length : Nat} (rest : List UInt8)
    (fits : length < 0x100000000) :
    readLength (encodeLength length ++ rest) = .ok (length, rest) := by
  have hm : (0x80 : UInt8).toNat = 128 := rfl
  by_cases hs : length < 128
  · have hv : (UInt8.ofNat length).toNat = length := by
      rw [UInt8.toNat_ofNat']
      omega
    have hl : UInt8.ofNat length < 0x80 := by rw [UInt8.lt_iff_toNat_lt, hv, hm]; exact hs
    rw [encodeLength, if_pos hs, List.singleton_append, readLength]
    simp only [if_pos hl, hv]
  · have hw := length_bigEndian_le_four fits
    have hp : 0 < (bigEndian length).length := length_bigEndian_pos (by omega)
    have hl : ¬ UInt8.ofNat (128 + (bigEndian length).length) < 0x80 := by
      rw [UInt8.lt_iff_toNat_lt, toNat_count hw, hm]
      omega
    have hc : 128 + (bigEndian length).length - 128 = (bigEndian length).length := by omega
    rw [encodeLength, if_neg hs, List.cons_append, readLength]
    simp only [if_neg hl, toNat_count hw, hc, List.take_left', List.drop_left', Nat.lt_irrefl,
      if_neg (Nat.ne_of_gt hp), if_neg (Nat.not_lt.2 hw), if_false, unsigned_bigEndian]

/-- The parts of a leading identifier octet do not overlap. -/
theorem toNat_leading (tagClass : TagClass) (constructed : Bool) {low : UInt8} (small : low < 32) :
    (tagClass.bits + (if constructed then 0x20 else 0x00) + low).toNat =
      tagClass.bits.toNat + (if constructed then 32 else 0) + low.toNat := by
  have hl : low.toNat < 32 := UInt8.lt_iff_toNat_lt.1 small
  cases tagClass <;> cases constructed <;>
    simp only [TagClass.bits, UInt8.toNat_add, UInt8.reduceToNat, if_true, if_false,
      Bool.false_eq_true] <;> omega

/-- The class is in the top two bits. -/
theorem ofOctet_leading (tagClass : TagClass) (constructed : Bool) {low : UInt8}
    (small : low < 32) :
    TagClass.ofOctet (tagClass.bits + (if constructed then 0x20 else 0x00) + low) = tagClass := by
  have hl : low.toNat < 32 := UInt8.lt_iff_toNat_lt.1 small
  simp only [TagClass.ofOctet, UInt8.lt_iff_toNat_lt, toNat_leading tagClass constructed small]
  cases tagClass <;> cases constructed <;>
    simp only [TagClass.bits, UInt8.reduceToNat, if_true, if_false, Bool.false_eq_true] <;> grind

/-- The form is in the bit below the class. -/
theorem form_leading (tagClass : TagClass) (constructed : Bool) {low : UInt8} (small : low < 32) :
    ((tagClass.bits + (if constructed then 0x20 else 0x00) + low) / 32 % 2 == 1) =
      constructed := by
  have hl : low.toNat < 32 := UInt8.lt_iff_toNat_lt.1 small
  rw [Bool.eq_iff_iff, beq_iff_eq, ← UInt8.toNat_inj, UInt8.toNat_mod, UInt8.toNat_div,
    toNat_leading tagClass constructed small]
  cases tagClass <;> cases constructed <;> simp [TagClass.bits] <;> omega

/-- The low five bits are those of the tag number, or all ones. -/
theorem low_leading (tagClass : TagClass) (constructed : Bool) {low : UInt8} (small : low < 32) :
    (tagClass.bits + (if constructed then 0x20 else 0x00) + low) % 32 = low := by
  have hl : low.toNat < 32 := UInt8.lt_iff_toNat_lt.1 small
  rw [← UInt8.toNat_inj, UInt8.toNat_mod, toNat_leading tagClass constructed small]
  cases tagClass <;> cases constructed <;> simp [TagClass.bits] <;> omega

/-- A number takes at most one group more than its 128th part. -/
theorem length_leadingGroups_le_succ {number width : Nat}
    (above : (leadingGroups (number / 128)).length ≤ width) :
    (leadingGroups number).length ≤ width + 1 := by
  rw [leadingGroups]
  split
  · exact Nat.zero_le _
  · rw [List.length_append, List.length_singleton]
    exact Nat.succ_le_succ above

/-- Five groups are enough for 32 bits. -/
theorem length_encodeTagNumber_le_five {number : Nat} (fits : number < 0x100000000) :
    (encodeTagNumber number).length ≤ 5 := by
  have hz : number / 128 / 128 / 128 / 128 / 128 = 0 := by omega
  have h0 : (leadingGroups (number / 128 / 128 / 128 / 128 / 128)).length ≤ 0 := by
    rw [hz, leadingGroups, if_pos rfl]
    exact Nat.le_refl 0
  rw [encodeTagNumber, List.length_append, List.length_singleton]
  exact Nat.succ_le_succ (length_leadingGroups_le_succ (length_leadingGroups_le_succ
    (length_leadingGroups_le_succ (length_leadingGroups_le_succ h0))))

/-- The identifier octets tell class, form and tag number, and are at most six. -/
theorem encodeIdentifier_cons (tagClass : TagClass) (constructed : Bool) (tag : UInt32) :
    ∃ leading more, encodeIdentifier tagClass constructed tag = leading :: more ∧
      more.length ≤ 5 ∧ TagClass.ofOctet leading = tagClass ∧
      (leading / 32 % 2 == 1) = constructed ∧
      ∀ rest, readTag leading (more ++ rest) = .ok (tag.toNat, rest) := by
  rw [encodeIdentifier]
  by_cases ht : tag < 31
  · have hn : tag.toNat < 31 := UInt32.lt_iff_toNat_lt.1 ht
    have hv : tag.toUInt8.toNat = tag.toNat := by rw [UInt32.toNat_toUInt8]; omega
    have hs : tag.toUInt8 < 32 := by rw [UInt8.lt_iff_toNat_lt, hv]; exact Nat.lt_succ_of_lt hn
    have hne : ¬ tag.toUInt8 = 31 := by
      rw [← UInt8.toNat_inj, hv]
      exact Nat.ne_of_lt hn
    rw [if_pos ht]
    refine ⟨_, [], rfl, Nat.zero_le 5, ofOctet_leading _ _ hs, form_leading _ _ hs, fun rest => ?_⟩
    rw [readTag, low_leading _ _ hs, if_neg hne, hv, List.nil_append]
  · have hs : (0x1F : UInt8) < 32 := by decide
    rw [if_neg ht]
    refine ⟨_, encodeTagNumber tag.toNat, rfl, length_encodeTagNumber_le_five tag.toNat_lt,
      ofOctet_leading _ _ hs, form_leading _ _ hs, fun rest => ?_⟩
    rw [readTag, low_leading _ _ hs, if_pos rfl]
    exact readTagNumber_encodeTagNumber rest tag.toNat_lt

/-- The octets in front of contents of a length. -/
def encodeHeader (header : Header) : List UInt8 :=
  encodeIdentifier header.tagClass header.constructed header.tag ++ encodeLength header.length

/-- A header is read back in front of anything. -/
theorem readHeader_encodeHeader (header : Header) (rest : List UInt8)
    (fits : header.length < 0x100000000) :
    readHeader (encodeHeader header ++ rest) = .ok (header, rest) := by
  obtain ⟨leading, more, he, _, hc, hf, ht⟩ :=
    encodeIdentifier_cons header.tagClass header.constructed header.tag
  rw [encodeHeader, he, List.append_assoc, List.cons_append]
  simp only [readHeader, ht, bind, Except.bind, readLength_encodeLength rest fits, hc, hf,
    UInt32.ofNat_toNat, pure, Except.pure]

namespace Packet

/-- What the header of a packet says. -/
def header (packet : Packet) : Header :=
  ⟨packet.tagClass, packet.isConstructed, packet.tag, packet.contents.length⟩

/-- The octets of a packet are its header and its contents. -/
theorem encode_eq (packet : Packet) :
    packet.encode = encodeHeader packet.header ++ packet.contents := by
  cases packet with
  | primitive => rw [encode]; rfl
  | constructed => rw [encode]; rfl

/-- Every packet takes an octet. -/
theorem length_encode_pos (packet : Packet) : 0 < packet.encode.length := by
  obtain ⟨leading, more, he, _⟩ :=
    encodeIdentifier_cons packet.tagClass packet.isConstructed packet.tag
  rw [encode_eq, encodeHeader, header, he]
  exact Nat.succ_pos _

/-- The contents are shorter than the packet. -/
theorem length_contents_le (packet : Packet) : packet.contents.length ≤ packet.encode.length := by
  rw [encode_eq, List.length_append]
  exact Nat.le_add_left _ _

/-- What is written for two lists of packets is written one after the other. -/
theorem encodeAll_append (first second : List Packet) :
    encodeAll (first ++ second) = encodeAll first ++ encodeAll second := by
  induction first with
  | nil => rfl
  | cons packet first ih =>
    rw [List.cons_append, encodeAll, encodeAll, ih, List.append_assoc]

end Packet

/-- The parts of a packet are found again in front of anything. -/
theorem readParts_encode (packet : Packet) (rest : List UInt8)
    (small : packet.contents.length < 0x100000000) :
    readParts (packet.encode ++ rest) = .ok (packet.header, packet.contents, rest) := by
  have hh := readHeader_encodeHeader packet.header (packet.contents ++ rest) small
  have hl : packet.header.length = packet.contents.length := rfl
  rw [Packet.encode_eq, List.append_assoc]
  simp only [readParts, hh, bind, Except.bind, hl, List.take_left', List.drop_left',
    Nat.lt_irrefl, if_false, pure, Except.pure]

/-- While octets are left, one more item is read. -/
theorem readAll_succ {one : List UInt8 → Except PacketFault (Packet × List UInt8)} {fuel : Nat}
    {octets : List UInt8} (left : 0 < octets.length) :
    readAll one (fuel + 1) octets =
      (one octets).bind fun item => (readAll one fuel item.2).map (item.1 :: ·) := by
  cases octets with
  | nil => exact absurd left (Nat.lt_irrefl 0)
  | cons octet rest =>
    rw [readAll]
    simp only [bind, Except.bind]
    cases one (octet :: rest) with
    | error fault => rfl
    | ok item => cases readAll one fuel item.2 <;> rfl

-- The induction is on the tree and on the list of its parts together; `levels` and `rest` stay free
-- because a part has one level less than the packet that holds it and its neighbours behind it.
mutual

/-- A packet is read back in front of anything, unless its tree has too many levels. -/
theorem readPacket_encode : ∀ (packet : Packet) (levels : Nat) (rest : List UInt8),
    packet.contents.length < 0x100000000 →
    readPacket levels (packet.encode ++ rest) =
      if packet.depth < levels then .ok (packet.undescribed, rest) else .error .tooDeep
  | packet, 0, rest, _ => by rw [readPacket, if_neg (Nat.not_lt_zero _)]
  | .primitive tagClass tag value description, levels + 1, rest, small => by
    rw [readPacket, readParts_encode _ _ small]
    rfl
  | .constructed tagClass tag children description, levels + 1, rest, small => by
    have hc := readAll_encodeAll children levels (Packet.encodeAll children).length small
      (Nat.le_refl _)
    rw [readPacket, readParts_encode _ _ small]
    simp only [bind, Except.bind, Packet.header, Packet.isConstructed, if_true, Packet.contents,
      hc, Packet.depth, Nat.lt_succ_iff]
    by_cases hd : Packet.depthAll children ≤ levels
    · rw [if_pos hd, if_pos hd]
      rfl
    · rw [if_neg hd, if_neg hd]

/-- Packets are read back one after the other, unless the tree of one has too many levels. -/
theorem readAll_encodeAll : ∀ (packets : List Packet) (levels fuel : Nat),
    (Packet.encodeAll packets).length < 0x100000000 →
    (Packet.encodeAll packets).length ≤ fuel →
    readAll (readPacket levels) fuel (Packet.encodeAll packets) =
      if Packet.depthAll packets ≤ levels then .ok (Packet.undescribedAll packets)
      else .error .tooDeep
  | [], levels, fuel, _, _ => by
    rw [Packet.encodeAll, readAll, Packet.depthAll, if_pos (Nat.zero_le _)]
    rfl
  | packet :: packets, levels, fuel, small, enough => by
    have hp := packet.length_encode_pos
    have hc := packet.length_contents_le
    rw [Packet.encodeAll, List.length_append] at small enough
    obtain ⟨fuel, rfl⟩ : ∃ less, fuel = less + 1 := ⟨fuel - 1, by omega⟩
    have hone := readPacket_encode packet levels (Packet.encodeAll packets) (by omega)
    have hall := readAll_encodeAll packets levels fuel (by omega) (by omega)
    rw [Packet.encodeAll, readAll_succ (by rw [List.length_append]; omega), hone]
    rw [Packet.depthAll]
    by_cases hd : packet.depth < levels
    · rw [if_pos hd]
      simp only [Except.bind, hall]
      by_cases hr : Packet.depthAll packets ≤ levels
      · rw [if_pos hr, if_pos (Nat.max_le.2 ⟨hd, hr⟩)]
        rfl
      · rw [if_neg hr, if_neg fun h => hr (Nat.max_le.1 h).2]
        rfl
    · rw [if_neg hd, if_neg fun h => hd (Nat.max_le.1 h).1]
      rfl

end

/-- A packet whose tree has few enough levels is decoded from its encoding. -/
theorem decode_encode_of_depth_le {packet : Packet} (small : packet.contents.length < 0x100000000)
    (shallow : packet.depth ≤ depthLimit) :
    Packet.decode packet.encode = .ok packet.undescribed := by
  have hp := readPacket_encode packet (depthLimit + 1) [] small
  rw [List.append_nil, if_pos (Nat.lt_succ_of_le shallow)] at hp
  rw [Packet.decode, hp]
  rfl

/-- Decoding undoes encoding for every tree whose contents are shorter than 32 bits can say, up to
the descriptions: the packet is read back if no part of it stands deeper than the limit, and is
refused for its depth otherwise. The contents of a packet hold those of all packets below it, so
the bound on the outermost ones is a bound on all. -/
theorem decode_encode_by_depth (packet : Packet) (small : packet.contents.length < 0x100000000) :
    Packet.decode packet.encode =
      if packet.depth ≤ depthLimit then .ok packet.undescribed else .error .tooDeep := by
  by_cases hd : packet.depth ≤ depthLimit
  · rw [if_pos hd]
    exact decode_encode_of_depth_le small hd
  · have hp := readPacket_encode packet (depthLimit + 1) [] small
    rw [List.append_nil, if_neg fun h => hd (Nat.le_of_lt_succ h)] at hp
    rw [if_neg hd, Packet.decode, hp]
    rfl

/-- The greatest tag number, a tag number with one group and an empty constructed packet. -/
theorem decode_encode_greatest_tag :
    let packet : Packet := .constructed .application 0xFFFFFFFF
      [.primitive .context 31 [0x80, 0xFF] "value", .constructed .privateUse 30 [] "nothing"]
      "outermost"
    packet.contents.length < 0x100000000 ∧
      Packet.decode packet.encode = .ok packet.undescribed := by
  intro packet
  have hs : packet.contents.length < 0x100000000 := by
    simp [packet, Packet.contents, Packet.encodeAll, Packet.encode, encodeIdentifier, encodeLength,
      encodeTagNumber, leadingGroups]
  exact ⟨hs, (decode_encode_by_depth packet hs).trans (if_pos (by decide))⟩

end DirectoryService.Ber
