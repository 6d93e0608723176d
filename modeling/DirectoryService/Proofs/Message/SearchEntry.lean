import DirectoryService.Message.SearchEntry
import DirectoryService.Proofs.Message.Answer
import Mathlib.Data.List.Forall2

/-!
# Found entries in messages

The message of an entry holds its name and all its attributes with all their values, in their order,
each text as an octet string.
-/

namespace DirectoryService

/-- What holds of all that stands beside something holds of a whole list beside another. -/
theorem forall_mem_of_forall₂ {α β : Type} {relation : α → β → Prop} {holds : α → Prop}
    {left : List α} {right : List β} (each : ∀ one other, relation one other → holds one)
    (beside : List.Forall₂ relation left right) : ∀ one ∈ left, holds one :=
  ((List.forall₂_and_left left right).1
    (beside.imp fun one other related => ⟨each one other related, related⟩)).1

namespace Ber.Packet

/-- A packet is an octet string that holds a text. -/
def IsText (packet : Packet) (value : String) : Prop :=
  packet.hasShape .universal false 4 = true ∧ packet.toText = .ok value

/-- A text is written as such a packet. -/
theorem isText_text (value description : String) : (text value description).IsText value := by
  refine ⟨rfl, ?_⟩
  have hread : (Utf8.decode (Utf8.encode value)).mapError ValueFault.notText = .ok value := by
    rw [Utf8.decode_encode]
    rfl
  exact hread

/-- So are several texts, in their order. -/
theorem forall₂_isText_text (values : List String) (description : String) :
    List.Forall₂ IsText (values.map (text · description)) values := by
  rw [List.forall₂_map_left_iff, List.forall₂_same]
  exact fun value _ => isText_text value description

end Ber.Packet

/-- A packet is a sequence of the name of an attribute and the set of its values. -/
def FoundAttribute.IsIn (packet : Ber.Packet) (found : FoundAttribute) : Prop :=
  packet.hasShape .universal true 16 = true ∧
    ∃ name values, packet.children = [name, values] ∧ name.IsText found.name ∧
      values.hasShape .universal true 17 = true ∧
      List.Forall₂ Ber.Packet.IsText values.children found.values

/-- An attribute is written as such a packet. -/
theorem FoundAttribute.isIn_toPacket (found : FoundAttribute) : IsIn found.toPacket found :=
  ⟨rfl, _, _, rfl, Ber.Packet.isText_text _ _, rfl, Ber.Packet.forall₂_isText_text _ _⟩

/-- A packet is the answer to the message of a number that carries an entry: its name and the
sequence of its attributes. -/
def SearchEntry.IsIn (messageId : Int) (message : Ber.Packet) (entry : SearchEntry) : Prop :=
  ∃ operation name attributes, Message.IsAnswer messageId operation message ∧
    operation.hasShape .application true 4 = true ∧
    operation.children = [name, attributes] ∧ name.IsText entry.name ∧
    attributes.hasShape .universal true 16 = true ∧
    List.Forall₂ FoundAttribute.IsIn attributes.children entry.attributes

/-- An entry is written as such a packet. -/
theorem SearchEntry.isIn_toPacket (messageId : Int) (entry : SearchEntry) :
    IsIn messageId (entry.toPacket messageId) entry := by
  refine ⟨_, _, _, Message.isAnswer_iff.2 rfl, rfl, rfl, Ber.Packet.isText_text _ _, rfl, ?_⟩
  change List.Forall₂ FoundAttribute.IsIn (entry.attributes.map FoundAttribute.toPacket) _
  rw [List.forall₂_map_left_iff, List.forall₂_same]
  exact fun found _ => found.isIn_toPacket

/-- Entries are written as such packets, in their order. -/
theorem SearchEntry.forall₂_isIn_toPacket (messageId : Int) (entries : List SearchEntry) :
    List.Forall₂ (IsIn messageId) (entries.map (toPacket messageId)) entries := by
  rw [List.forall₂_map_left_iff, List.forall₂_same]
  exact fun entry _ => entry.isIn_toPacket messageId

/-- A text takes no level. -/
theorem Ber.Packet.IsText.depth_eq {packet : Packet} {value : String} (text : packet.IsText value) :
    packet.depth = 0 := by
  obtain ⟨octets, description, rfl⟩ := hasShape_primitive_iff.1 text.1
  rfl

/-- An attribute takes two levels. -/
theorem FoundAttribute.IsIn.depth_le {packet : Ber.Packet} {found : FoundAttribute}
    (isIn : IsIn packet found) : packet.depth ≤ 2 := by
  obtain ⟨shape, name, values, children, text, set, texts⟩ := isIn
  obtain ⟨_, description, rfl⟩ := Ber.Packet.hasShape_constructed_iff.1 shape
  obtain ⟨members, description, rfl⟩ := Ber.Packet.hasShape_constructed_iff.1 set
  obtain rfl : _ = [name, _] := children
  have hmembers : ∀ member ∈ members, member.depth < 1 := by
    refine forall_mem_of_forall₂ (fun member value text => ?_) texts
    rw [text.depth_eq]
    exact Nat.one_pos
  refine Ber.Packet.depthAll_pair_le ?_ (Nat.lt_succ_of_le (Ber.Packet.depthAll_le hmembers))
  rw [text.depth_eq]
  exact Nat.two_pos

/-- An entry takes five levels. -/
theorem SearchEntry.IsIn.depth_le {messageId : Int} {message : Ber.Packet} {entry : SearchEntry}
    (isIn : IsIn messageId message entry) : message.depth ≤ 5 := by
  obtain ⟨operation, name, attributes, ⟨octets, _, rfl⟩, shape, children, text, sequence, found⟩ :=
    isIn
  obtain ⟨_, description, rfl⟩ := Ber.Packet.hasShape_constructed_iff.1 shape
  obtain ⟨members, description, rfl⟩ := Ber.Packet.hasShape_constructed_iff.1 sequence
  obtain rfl : _ = [name, _] := children
  have hmembers : ∀ member ∈ members, member.depth < 3 :=
    forall_mem_of_forall₂ (fun _ _ isIn => Nat.lt_succ_of_le isIn.depth_le) found
  refine Ber.Packet.depthAll_pair_le (Nat.zero_lt_succ 4) (Nat.lt_succ_of_le ?_)
  refine Ber.Packet.depthAll_pair_le ?_ (Nat.lt_succ_of_le (Ber.Packet.depthAll_le hmembers))
  rw [text.depth_eq]
  exact Nat.zero_lt_succ 3

/-- A message of an entry carries no result. -/
theorem SearchEntry.IsIn.not_carries {messageId : Int} {message : Ber.Packet} {entry : SearchEntry}
    {tag : UInt32} {code : ResultCode} (isIn : IsIn messageId message entry) (apart : tag ≠ 4) :
    ¬ Message.Carries tag code message := by
  obtain ⟨operation, name, attributes, answer, shape, _⟩ := isIn
  obtain ⟨children, description, rfl⟩ := Ber.Packet.hasShape_constructed_iff.1 shape
  exact answer.not_carries apart.symm

/-- A message of an entry refuses nothing. -/
theorem SearchEntry.IsIn.not_refuses {messageId : Int} {message : Ber.Packet} {entry : SearchEntry}
    (isIn : IsIn messageId message entry) : ¬ Message.Refuses message := by
  intro refuses
  obtain ⟨code, _, carries⟩ := refuses.exists_carries
  exact isIn.not_carries (by decide) carries

end DirectoryService
