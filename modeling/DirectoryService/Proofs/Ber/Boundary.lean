import DirectoryService.Ber.Stream
import DirectoryService.Proofs.Ber.RoundTrip

/-!
# Frames on a stream

A frame is told by its own octets: whatever follows it, and however the stream goes on after that,
it is read in the same way and up to the same place. A stream keeps its place over a frame that is
no packet, and written packets are read back from it one by one.
-/

namespace DirectoryService.Ber

namespace Reading

/-- What was read, without the octets that are left. -/
def outcome {α : Type} : Reading α → Except Fault α
  | .got item _ => .ok item
  | .failed fault _ => .error fault

/-- The same reading with other octets left. -/
def leaving {α : Type} (reading : Reading α) (rest : List UInt8) : Reading α :=
  match reading with
  | .got item _ => .got item rest
  | .failed fault _ => .failed fault rest

/-- The octets that are said to be left are left. -/
theorem rest_leaving {α : Type} (reading : Reading α) (rest : List UInt8) :
    (reading.leaving rest).rest = rest := by
  cases reading <;> rfl

/-- Something is only yielded after a first step that yields something. -/
theorem andThen_eq_got {α β : Type} {reading : Reading α} {next : α → List UInt8 → Reading β}
    {item : β} {rest : List UInt8} (h : reading.andThen next = .got item rest) :
    ∃ first more, reading = .got first more ∧ next first more = .got item rest := by
  cases reading with
  | got first more => exact ⟨first, more, rfl, h⟩
  | failed fault more => cases h

/-- The fault of two steps is that of one of them. -/
theorem andThen_eq_failed {α β : Type} {reading : Reading α}
    {next : α → List UInt8 → Reading β} {fault : Fault} {rest : List UInt8}
    (h : reading.andThen next = .failed fault rest) :
    reading = .failed fault rest ∨
      ∃ first more, reading = .got first more ∧ next first more = .failed fault rest := by
  cases reading with
  | got first more => exact .inr ⟨first, more, rfl, h⟩
  | failed cause more => cases h; exact .inl rfl

end Reading

/-- The faults of a header, and of a stream that ends inside a frame. -/
inductive Fault.IsFraming : Fault → Prop where
  /-- The length is left open. -/
  | indefiniteLength : IsFraming .indefiniteLength
  /-- The tag number or the length has too many octets. -/
  | wideLength (octets : Nat) : IsFraming (.wideLength octets)
  /-- The contents are too large. -/
  | tooLarge (length : Nat) : IsFraming (.tooLarge length)
  /-- The stream ends. -/
  | unexpectedEnd : IsFraming .unexpectedEnd

/-- A fault after which the place of the next packet is lost. The stream is only said to fail where
it does. -/
inductive Stop.Loses (stop : Stop) : Fault → Prop where
  /-- A frame is not taken to its end. -/
  | framing {fault} (framing : fault.IsFraming) : Loses stop fault
  /-- The stream fails. -/
  | interrupted {failure} (fails : stop = .failed failure) : Loses stop (.io failure)

/-- No stream goes on after such a fault. -/
theorem Stop.Loses.isRecoverable_eq {stop : Stop} {fault : Fault} (loses : stop.Loses fault) :
    fault.isRecoverable = false := by
  cases loses with
  | framing framing => cases framing <;> rfl
  | interrupted fails => rfl

/-- A stream that stops inside a header has lost its place. -/
theorem Stop.loses_insideHeader (stop : Stop) : stop.Loses stop.insideHeader := by
  cases stop with
  | closed => exact .framing .unexpectedEnd
  | failed failure =>
    rw [Stop.insideHeader]
    split
    · exact .framing .unexpectedEnd
    · exact .interrupted rfl

/-- A stream that stops inside the contents has lost its place. -/
theorem Stop.loses_insideContents (stop : Stop) : stop.Loses stop.insideContents := by
  cases stop with
  | closed => exact .framing .unexpectedEnd
  | failed failure => exact .interrupted rfl

/-- A reader of a part of a frame. -/
structure ReadsPart {α : Type} (read : Stop → List UInt8 → Reading α) : Prop where
  /-- What is yielded is taken from the front: neither what stands behind it nor how the stream
  goes on after that has an influence. -/
  front : ∀ stop octets item rest, read stop octets = .got item rest →
    ∃ taken, octets = taken ++ rest ∧ ∀ other more, read other (taken ++ more) = .got item more
  /-- A fault loses the place of the next packet. -/
  lost : ∀ stop octets fault rest, read stop octets = .failed fault rest → stop.Loses fault

namespace ReadsPart

variable {α β : Type}

/-- What is there already is taken from anywhere. -/
theorem got (item : α) : ReadsPart fun _ octets => .got item octets where
  front := by
    intro stop octets found rest h
    cases h
    exact ⟨[], rfl, fun other more => rfl⟩
  lost := fun stop octets fault rest h => nomatch h

/-- Two parts that follow each other are one. -/
theorem andThen {first : Stop → List UInt8 → Reading α}
    {next : α → Stop → List UInt8 → Reading β} (here : ReadsPart first)
    (later : ∀ item, ReadsPart (next item)) :
    ReadsPart fun stop octets => (first stop octets).andThen (next · stop) where
  front := by
    intro stop octets item rest h
    obtain ⟨start, middle, hs, hn⟩ := Reading.andThen_eq_got h
    obtain ⟨taken, rfl, ht⟩ := here.front stop octets start middle hs
    obtain ⟨further, rfl, hf⟩ := (later start).front stop middle item rest hn
    refine ⟨taken ++ further, (List.append_assoc ..).symm, fun other more => ?_⟩
    simp only [List.append_assoc, ht, Reading.andThen, hf]
  lost := by
    intro stop octets fault rest h
    rcases Reading.andThen_eq_failed h with hs | ⟨start, middle, _, hn⟩
    · exact here.lost stop octets fault rest hs
    · exact (later start).lost stop middle fault rest hn

end ReadsPart

/-- A tag number ends with its first group without a mark. -/
theorem readsPart_takeTagNumber (taken : Nat) :
    ReadsPart fun stop octets => takeTagNumber stop taken octets where
  front := by
    intro stop octets item rest h
    induction octets generalizing taken item rest with
    | nil => cases h
    | cons octet octets ih =>
      by_cases hl : octet < 0x80
      · simp only [takeTagNumber, if_pos hl] at h
        cases h
        refine ⟨[octet], rfl, fun other more => ?_⟩
        simp only [List.singleton_append, takeTagNumber, if_pos hl]
      · by_cases hw : identifierLimit ≤ taken + 1
        · simp only [takeTagNumber, if_neg hl, if_pos hw] at h
          cases h
        · simp only [takeTagNumber, if_neg hl, if_neg hw] at h
          obtain ⟨groups, middle, hg, hr⟩ := Reading.andThen_eq_got h
          cases hr
          obtain ⟨front, rfl, hf⟩ := ih (taken + 1) groups rest hg
          refine ⟨octet :: front, rfl, fun other more => ?_⟩
          simp only [List.cons_append, takeTagNumber, if_neg hl, if_neg hw, hf, Reading.andThen]
  lost := by
    intro stop octets fault rest h
    induction octets generalizing taken fault rest with
    | nil => cases h; exact stop.loses_insideHeader
    | cons octet octets ih =>
      simp only [takeTagNumber] at h
      split at h
      · cases h
      · split at h
        · cases h; exact .framing (.wideLength taken)
        · rcases Reading.andThen_eq_failed h with hs | ⟨groups, middle, _, hr⟩
          · exact ih (taken + 1) fault rest hs
          · cases hr

/-- The identifier octets are told by the leading one and their marks. -/
theorem readsPart_takeTag (leading : UInt8) :
    ReadsPart fun stop octets => takeTag stop leading octets := by
  by_cases hh : leading % 32 = 31
  · simp only [takeTag, if_pos hh]
    exact readsPart_takeTagNumber 1
  · simp only [takeTag, if_neg hh]
    exact ReadsPart.got []

/-- A list that is no shorter than a number of octets has that many at its front. -/
theorem length_take_of_not_lt {octets : List UInt8} {count : Nat}
    (h : ¬ (octets.take count).length < count) : (octets.take count).length = count := by
  rw [List.length_take] at h ⊢
  omega

/-- A length is told by its first octet. -/
theorem readsPart_takeLength : ReadsPart takeLength where
  front := by
    intro stop octets item rest h
    cases octets with
    | nil => cases h
    | cons first octets =>
      simp only [takeLength] at h
      split at h
      · rename_i hl
        cases h
        refine ⟨[first], rfl, fun other more => ?_⟩
        simp only [List.singleton_append, takeLength, if_pos hl]
      · rename_i hl
        split at h
        · cases h
        · rename_i hz
          split at h
          · cases h
          · rename_i hw
            split at h
            · cases h
            · rename_i ht
              cases h
              have hc := length_take_of_not_lt ht
              refine ⟨first :: octets.take (first.toNat - 128), ?_, fun other more => ?_⟩
              · rw [List.cons_append, List.take_append_drop]
              · simp only [List.cons_append, takeLength, if_neg hl, if_neg hz, if_neg hw,
                  List.take_left' hc, List.drop_left' hc, hc, Nat.lt_irrefl, if_false]
  lost := by
    intro stop octets fault rest h
    cases octets with
    | nil => cases h; exact stop.loses_insideHeader
    | cons first octets =>
      simp only [takeLength] at h
      split at h
      · cases h
      · split at h
        · cases h; exact .framing .indefiniteLength
        · split at h
          · cases h; exact .framing (.wideLength _)
          · split at h
            · cases h; exact stop.loses_insideHeader
            · cases h

/-- The contents are told by their length. -/
theorem readsPart_takeContents (length : Nat) :
    ReadsPart fun stop octets => takeContents stop length octets where
  front := by
    intro stop octets item rest h
    simp only [takeContents] at h
    split at h
    · cases h
    · rename_i hw
      split at h
      · cases h
      · rename_i ht
        cases h
        have hc := length_take_of_not_lt ht
        refine ⟨octets.take length, (List.take_append_drop length octets).symm,
          fun other more => ?_⟩
        simp only [takeContents, if_neg hw, List.take_left' hc, List.drop_left' hc, hc,
          Nat.lt_irrefl, if_false]
  lost := by
    intro stop octets fault rest h
    simp only [takeContents] at h
    split at h
    · cases h; exact .framing (.tooLarge length)
    · split at h
      · cases h; exact stop.loses_insideContents
      · cases h

/-- A frame is told by its own octets. -/
theorem readsPart_takeFrame (leading : UInt8) :
    ReadsPart fun stop octets => takeFrame stop leading octets := by
  have hc (tag : List UInt8) (length : List UInt8 × Nat) : ReadsPart fun stop rest =>
      (takeContents stop length.2 rest).andThen fun contents rest =>
        .got (leading :: tag ++ length.1 ++ contents) rest :=
    (readsPart_takeContents length.2).andThen fun contents => ReadsPart.got _
  have hl (tag : List UInt8) : ReadsPart fun stop rest =>
      (takeLength stop rest).andThen fun length rest =>
      (takeContents stop length.2 rest).andThen fun contents rest =>
        .got (leading :: tag ++ length.1 ++ contents) rest :=
    readsPart_takeLength.andThen (hc tag)
  exact (readsPart_takeTag leading).andThen hl

/-- A stream that holds no octets has no frame. -/
theorem goesOn_readFrame_nil (stop : Stop) : (readFrame stop []).goesOn = false := by
  cases stop with
  | closed => rfl
  | failed failure =>
    simp only [readFrame]
    split <;> rfl

/-- A frame that the stream goes on behind takes an octet at least. -/
theorem rest_lt_of_goesOn {stop : Stop} {octets : List UInt8}
    (goesOn : (readFrame stop octets).goesOn = true) :
    (readFrame stop octets).rest.length < octets.length := by
  cases octets with
  | nil => rw [goesOn_readFrame_nil] at goesOn; cases goesOn
  | cons leading octets => exact rest_readFrame_lt stop leading octets

/-- A stream only ends where it holds nothing more. -/
theorem readFrame_eq_none {stop : Stop} {octets rest : List UInt8}
    (h : readFrame stop octets = .got none rest) : octets = [] := by
  cases octets with
  | nil => rfl
  | cons leading octets =>
    simp only [readFrame] at h
    obtain ⟨frame, middle, _, hd⟩ := Reading.andThen_eq_got h
    split at hd <;> cases hd

/-- A reading after which the stream stands before a packet depends on the octets that it took and
on nothing else. -/
theorem readFrame_of_goesOn {stop : Stop} {octets : List UInt8}
    (h : (readFrame stop octets).goesOn = true) :
    ∃ taken, octets = taken ++ (readFrame stop octets).rest ∧
      ∀ other more, readFrame other (taken ++ more) = (readFrame stop octets).leaving more := by
  cases octets with
  | nil => rw [goesOn_readFrame_nil] at h; cases h
  | cons leading octets =>
    simp only [readFrame] at h ⊢
    cases hf : takeFrame stop leading octets with
    | failed fault rest =>
      have hl := ((readsPart_takeFrame leading).lost stop octets fault rest hf).isRecoverable_eq
      rw [hf] at h
      rw [show fault.isRecoverable = true from h] at hl
      cases hl
    | got frame rest =>
      obtain ⟨taken, rfl, ht⟩ := (readsPart_takeFrame leading).front stop octets frame rest hf
      refine ⟨leading :: taken, ?_, fun other more => ?_⟩
      · cases hd : Packet.decode frame <;> simp only [Reading.andThen, hd] <;> rfl
      · simp only [List.cons_append, ht, Reading.andThen]
        cases Packet.decode frame <;> rfl

/-- A frame that is read whole but is no packet is malformed; every other fault loses the place of
the next packet. -/
theorem fault_of_readFrame {stop : Stop} {octets rest : List UInt8} {fault : Fault}
    (h : readFrame stop octets = .failed fault rest) :
    (∃ cause, fault = .malformed cause) ∨ stop.Loses fault := by
  cases octets with
  | nil =>
    cases stop with
    | closed => cases h
    | failed failure =>
      simp only [readFrame] at h
      split at h
      · cases h
      · cases h
        exact .inr (.interrupted rfl)
  | cons leading octets =>
    simp only [readFrame] at h
    rcases Reading.andThen_eq_failed h with hf | ⟨frame, middle, _, hd⟩
    · exact .inr ((readsPart_takeFrame leading).lost stop octets fault rest hf)
    · split at hd
      · cases hd
      · cases hd
        exact .inl ⟨_, rfl⟩

/-- The groups that the decoder reads a number from are taken off a stream, if there are not too
many of them. -/
theorem takeTagNumber_of_readTagNumber {sum number : Nat} {octets rest : List UInt8}
    (h : readTagNumber sum octets = .ok (number, rest)) :
    ∃ taken, octets = taken ++ rest ∧ 0 < taken.length ∧
      ∀ stop count, count + taken.length ≤ identifierLimit →
        takeTagNumber stop count octets = .got taken rest := by
  induction octets generalizing sum with
  | nil => cases h
  | cons octet octets ih =>
    rw [readTagNumber] at h
    split at h
    · cases h
    · by_cases hl : octet < 0x80
      · simp only [if_pos hl] at h
        cases h
        refine ⟨[octet], rfl, Nat.one_pos, fun stop count _ => ?_⟩
        rw [takeTagNumber, if_pos hl]
      · simp only [if_neg hl] at h
        obtain ⟨taken, rfl, hp, ht⟩ := ih h
        refine ⟨octet :: taken, rfl, Nat.succ_pos _, fun stop count fits => ?_⟩
        rw [List.length_cons] at fits
        rw [takeTagNumber, if_neg hl, if_neg (by omega), ht stop (count + 1) (by omega)]
        rfl

/-- The identifier octets that the decoder reads a tag number from are taken off a stream, if there
are not too many of them. -/
theorem takeTag_of_readTag {leading : UInt8} {number : Nat} {octets rest : List UInt8}
    (h : readTag leading octets = .ok (number, rest)) :
    ∃ taken, octets = taken ++ rest ∧ ∀ stop, taken.length < identifierLimit →
      takeTag stop leading octets = .got taken rest := by
  rw [readTag] at h
  by_cases hh : leading % 32 = 31
  · rw [if_pos hh] at h
    obtain ⟨taken, he, _, ht⟩ := takeTagNumber_of_readTagNumber h
    refine ⟨taken, he, fun stop fits => ?_⟩
    rw [takeTag, if_pos hh]
    exact ht stop 1 (by omega)
  · rw [if_neg hh] at h
    cases h
    refine ⟨[], rfl, fun stop _ => ?_⟩
    rw [takeTag, if_neg hh]

/-- The octets that the decoder reads a length from are taken off a stream. -/
theorem takeLength_of_readLength {octets rest : List UInt8} {length : Nat}
    (h : readLength octets = .ok (length, rest)) :
    ∃ taken, octets = taken ++ rest ∧
      ∀ stop, takeLength stop octets = .got (taken, length) rest := by
  cases octets with
  | nil => cases h
  | cons first octets =>
    simp only [readLength] at h
    split at h
    · rename_i hl
      cases h
      refine ⟨[first], rfl, fun stop => ?_⟩
      rw [takeLength, if_pos hl]
    · rename_i hl
      split at h
      · cases h
      · rename_i hz
        split at h
        · cases h
        · rename_i hw
          split at h
          · cases h
          · rename_i ht
            obtain ⟨rfl, rfl⟩ := Prod.mk.inj (Except.ok.inj h)
            refine ⟨first :: octets.take (first.toNat - 128), ?_, fun stop => ?_⟩
            · rw [List.cons_append, List.take_append_drop]
            · simp only [takeLength, if_neg hl, if_neg hz, if_neg hw, if_neg ht]

/-- An encoded packet is the next packet of a stream, whatever follows it. -/
theorem readFrame_encode (stop : Stop) {packet : Packet} (rest : List UInt8)
    (shallow : packet.depth ≤ depthLimit) (small : packet.contents.length ≤ contentLimit) :
    readFrame stop (packet.encode ++ rest) = .got (some packet.undescribed) rest := by
  have hs : packet.contents.length < 0x100000000 := Nat.lt_of_le_of_lt small (by decide)
  have hd := decode_encode_of_depth_le hs shallow
  obtain ⟨leading, more, he, hm, _, _, hr⟩ :=
    encodeIdentifier_cons packet.tagClass packet.isConstructed packet.tag
  have hp : packet.encode =
      leading :: (more ++ (encodeLength packet.contents.length ++ packet.contents)) := by
    rw [Packet.encode_eq, encodeHeader, Packet.header, he, List.append_assoc]
    rfl
  obtain ⟨tag, ht, htag⟩ :=
    takeTag_of_readTag (hr (encodeLength packet.contents.length ++ (packet.contents ++ rest)))
  obtain ⟨length, hl, hlength⟩ :=
    takeLength_of_readLength (readLength_encodeLength (packet.contents ++ rest) hs)
  obtain rfl := List.append_cancel_right ht
  obtain rfl := List.append_cancel_right hl
  have hi : more.length < identifierLimit := Nat.lt_of_le_of_lt hm (by decide)
  have hc : takeContents stop packet.contents.length (packet.contents ++ rest) =
      .got packet.contents rest := by
    simp only [takeContents, if_neg (Nat.not_lt.2 small), List.take_left', List.drop_left',
      Nat.lt_irrefl, if_false]
  rw [hp, List.cons_append, List.append_assoc, List.append_assoc]
  simp only [readFrame, takeFrame, htag stop hi, hlength stop, hc, Reading.andThen]
  rw [List.cons_append, List.cons_append, List.append_assoc, ← hp, hd]

/-- A stream is read by reading its next frame and, where that leaves it before another one, the
rest of it. -/
theorem readStream_eq (stop : Stop) (octets : List UInt8) :
    readStream stop octets =
      if (readFrame stop octets).goesOn then
        readFrame stop octets :: readStream stop (readFrame stop octets).rest
      else [readFrame stop octets] := by
  cases octets with
  | nil => rw [readStream, goesOn_readFrame_nil]; rfl
  | cons leading octets => rw [readStream]

/-- Packets that were written one after the other are read back in this order, and then the stream
ends. -/
theorem outcomes_readStream_encodeAll {packets : List Packet}
    (shallow : ∀ packet ∈ packets, packet.depth ≤ depthLimit)
    (small : ∀ packet ∈ packets, packet.contents.length ≤ contentLimit) :
    (readStream .closed (Packet.encodeAll packets)).map Reading.outcome =
      packets.map (fun packet => .ok (some packet.undescribed)) ++ [.ok none] := by
  induction packets with
  | nil => rw [Packet.encodeAll, readStream]; rfl
  | cons packet packets ih =>
    rw [List.forall_mem_cons] at shallow small
    have hg : (Reading.got (some packet.undescribed) (Packet.encodeAll packets)).goesOn = true :=
      rfl
    rw [Packet.encodeAll, readStream_eq, readFrame_encode .closed _ shallow.1 small.1, if_pos hg,
      List.map_cons, List.map_cons, List.cons_append]
    exact congrArg _ (ih shallow.2 small.2)

end DirectoryService.Ber
