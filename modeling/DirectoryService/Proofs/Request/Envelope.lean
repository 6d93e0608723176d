import DirectoryService.Proofs.Request.Field
import DirectoryService.Request.Envelope

/-!
# Envelopes as packets

A packet is a message if its first packet holds an integer and a second one is there. The integer is
the number of the message and the second packet is its operation; what stands behind them is not
looked at.
-/

namespace DirectoryService.Envelope

/-- A packet is a message: the first packet in it holds the number of the message, and the second
one is the operation. -/
def IsIn (packet : Ber.Packet) (envelope : Envelope) : Prop :=
  ∃ number more, packet.children = number :: envelope.operation :: more ∧
    number.HoldsNumber 2 envelope.messageId

variable {packet : Ber.Packet} {envelope : Envelope}

/-- A message is read off a packet exactly if the packet is this message. -/
theorem ofPacket_eq_ok_iff : ofPacket packet = .ok envelope ↔ IsIn packet envelope := by
  simp only [ofPacket, Steps.bind_eq_ok_iff, Request.require_eq_ok_iff, Request.integer_eq_ok_iff,
    Ber.Packet.child?]
  constructor
  · rintro ⟨number, first, messageId, holds, operation, second, h⟩
    cases h
    match hc : packet.children with
    | [] => simp [hc] at first
    | [_] => simp [hc] at second
    | found :: other :: more =>
      rw [hc] at first second
      cases first
      cases second
      exact ⟨_, more, hc, holds⟩
  · rintro ⟨number, more, hc, holds⟩
    rw [hc]
    exact ⟨number, rfl, _, holds, _, rfl, rfl⟩

/-- A packet that no message is read off is none. -/
theorem not_isIn_of_ofPacket {cause : Request.Fault} (fault : ofPacket packet = .error cause) :
    ¬ IsIn packet envelope := by
  intro isIn
  rw [ofPacket_eq_ok_iff.2 isIn] at fault
  cases fault

/-- An operation is one that handlers answer exactly if it is constructed and of the application
class. -/
theorem isRoutable_iff : envelope.isRoutable = true ↔ ∃ tag fields description,
    envelope.operation = .constructed .application tag fields description := by
  rw [isRoutable]
  cases envelope.operation with
  | primitive => simp [Ber.Packet.isConstructed]
  | constructed tagClass tag fields description =>
    simp [Ber.Packet.tagClass, Ber.Packet.isConstructed]

end DirectoryService.Envelope
