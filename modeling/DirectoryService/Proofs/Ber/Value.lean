import DirectoryService.Ber.Value
import DirectoryService.Proofs.Ber.Grammar
import DirectoryService.Proofs.Text.Utf8

/-!
# Values that packets hold

A primitive packet of a universal type holds a text as its octets, a number in two's complement, or
a truth value as one octet. A value is read off a packet exactly if the packet holds it.
-/

namespace DirectoryService.Ber

namespace Integer

/-- The number that octets stand for in two's complement: the first bit counts negative. -/
def twosComplement (octets : List UInt8) : Int :=
  octetsNumber octets - if 128 ≤ (octets.headD 0).toNat then 256 ^ octets.length else 0

/-- What was there before octets are added is shifted by them. -/
theorem foldl_octets (octets : List UInt8) (before : Int) :
    octets.foldl (fun (sum : Int) (octet : UInt8) => 256 * sum + octet.toNat) before =
      256 ^ octets.length * before + octetsNumber octets := by
  induction octets using List.reverseRecOn with
  | nil =>
    rw [List.foldl_nil, List.length_nil, octetsNumber]
    simp
  | append_singleton octets last ih =>
    have hnumber : octetsNumber (octets ++ [last]) = 256 * octetsNumber octets + last.toNat := by
      rw [← unsigned_eq_octetsNumber, unsigned_append, unsigned_eq_octetsNumber]
    rw [List.foldl_append, List.foldl_cons, List.foldl_nil, ih, hnumber, List.length_append,
      List.length_singleton, pow_succ]
    push_cast
    ring

/-- Octets are read in two's complement. -/
theorem signed_eq_twosComplement (octets : List UInt8) : signed octets = twosComplement octets := by
  have hbound : (0x80 : UInt8).toNat = 128 := rfl
  rw [signed, foldl_octets, twosComplement]
  simp only [UInt8.le_iff_toNat_le, hbound]
  split <;> ring

/-- Octets are read as a number exactly if there are one to eight of them and they stand for it. -/
theorem decode_eq_ok_iff {octets : List UInt8} {number : Int} : decode octets = .ok number ↔
    (1 ≤ octets.length ∧ octets.length ≤ 8) ∧ twosComplement octets = number := by
  rw [decode, signed_eq_twosComplement]
  split
  · rename_i width
    exact iff_of_false nofun fun held => by omega
  · rename_i width
    rw [Except.ok.injEq]
    exact ⟨fun same => ⟨by omega, same⟩, fun held => held.2⟩

end Integer

namespace Packet

/-- A packet is an octet string that holds a text. -/
def HoldsText (packet : Packet) (text : String) : Prop :=
  ∃ description, packet = .primitive .universal octetStringTag (Utf8.encode text) description

/-- A packet of a tag number holds a number in one to eight octets. -/
def HoldsNumber (packet : Packet) (tag : UInt32) (number : Int) : Prop :=
  ∃ octets description, packet = .primitive .universal tag octets description ∧
    1 ≤ octets.length ∧ octets.length ≤ 8 ∧ number = Integer.twosComplement octets

/-- A packet holds a truth value in one octet, which is zero for a falsehood. -/
def HoldsTruth (packet : Packet) (truth : Bool) : Prop :=
  ∃ octet description, packet = .primitive .universal booleanTag [octet] description ∧
    truth = (octet != 0)

variable {packet : Packet} {tagClass : TagClass} {tag : UInt32}

/-- A packet is primitive and of a type exactly if its identifier says so. -/
theorem hasShape_primitive_iff : packet.hasShape tagClass false tag = true ↔
    ∃ octets description, packet = .primitive tagClass tag octets description := by
  cases packet with
  | primitive found number octets description =>
    simp [hasShape, Packet.tagClass, isConstructed, Packet.tag]
  | constructed => simp [hasShape, isConstructed]

/-- A packet is constructed and of a type exactly if its identifier says so. -/
theorem hasShape_constructed_iff : packet.hasShape tagClass true tag = true ↔
    ∃ children description, packet = .constructed tagClass tag children description := by
  cases packet with
  | primitive => simp [hasShape, isConstructed]
  | constructed found number children description =>
    simp [hasShape, Packet.tagClass, isConstructed, Packet.tag]

/-- A text is the value of its packet. -/
theorem toText_primitive (tagClass : TagClass) (tag : UInt32)
    (text description : String) :
    toText (.primitive tagClass tag (Utf8.encode text) description) = .ok text := by
  rw [toText]
  simp only [isConstructed, value, Utf8.decode_encode]
  rfl

/-- A text is read off a packet of this type exactly if the packet holds it. -/
theorem holdsText_iff {text : String} : packet.HoldsText text ↔
    packet.hasShape .universal false octetStringTag = true ∧ packet.toText = .ok text := by
  rw [hasShape_primitive_iff]
  constructor
  · intro h
    obtain ⟨description, hpacket⟩ := h
    exact ⟨⟨_, description, hpacket⟩, by rw [hpacket, toText_primitive]⟩
  · intro h
    obtain ⟨⟨octets, description, hpacket⟩, read⟩ := h
    rw [hpacket, toText, isConstructed, if_neg Bool.false_ne_true, value] at read
    cases htext : Utf8.decode octets with
    | error fault =>
      rw [htext] at read
      cases read
    | ok text =>
      rw [htext] at read
      cases read
      exact ⟨description, by rw [hpacket, Utf8.decode_eq_ok_iff.1 htext]⟩

/-- A number is read off a packet of its type exactly if the packet holds it. -/
theorem holdsNumber_iff {number : Int} : packet.HoldsNumber tag number ↔
    packet.hasShape .universal false tag = true ∧ packet.toInt = .ok number := by
  rw [hasShape_primitive_iff]
  constructor
  · intro h
    obtain ⟨octets, description, hpacket, some, few, hnumber⟩ := h
    refine ⟨⟨octets, description, hpacket⟩, ?_⟩
    rw [hpacket, toInt, isConstructed, if_neg Bool.false_ne_true, value]
    exact Integer.decode_eq_ok_iff.2 ⟨⟨some, few⟩, hnumber.symm⟩
  · intro h
    obtain ⟨⟨octets, description, hpacket⟩, read⟩ := h
    rw [hpacket, toInt, isConstructed, if_neg Bool.false_ne_true, value] at read
    obtain ⟨⟨some, few⟩, hnumber⟩ := Integer.decode_eq_ok_iff.1 read
    exact ⟨octets, description, hpacket, some, few, hnumber.symm⟩

/-- A truth value is read off a packet of its type exactly if the packet holds it. -/
theorem holdsTruth_iff {truth : Bool} : packet.HoldsTruth truth ↔
    packet.hasShape .universal false booleanTag = true ∧ packet.toBool = .ok truth := by
  rw [hasShape_primitive_iff]
  constructor
  · intro h
    obtain ⟨octet, description, hpacket, hvalue⟩ := h
    refine ⟨⟨_, description, hpacket⟩, ?_⟩
    rw [hpacket, toBool, hvalue]
  · intro h
    obtain ⟨⟨octets, description, hpacket⟩, read⟩ := h
    rw [hpacket] at read
    match octets with
    | [octet] => exact ⟨octet, description, hpacket, (Except.ok.inj read).symm⟩
    | [] => cases read
    | _ :: _ :: _ => cases read

end Packet

end DirectoryService.Ber
