import DirectoryService.Proofs.Ber.Boundary
import DirectoryService.Proofs.Ber.Grammar

/-!
# Frames and packets

The place of the next frame is told by reading a header off the stream, and whether the frame is a
packet by reading a header off its octets again. The two readings agree: what is taken off the
stream is one header with its contents, so the decoder finds neither too few octets nor any left
over, and a packet that is not too large is taken off the stream as it is.
-/

namespace DirectoryService.Ber

/-- Octets in three parts are a frame: an identifier, whose number may have any size, a length, and
as many octets of contents as the length says. -/
structure IsFrame (identifier length contents : List UInt8) : Prop where
  /-- The first part is an identifier. -/
  names : ∃ tagClass constructed number, IsIdentifier tagClass constructed identifier number
  /-- The second part tells the number of octets in the third. -/
  measures : IsLength length contents.length

/-- The tag number that is taken off a stream ends with the first group without a mark, if there
are not too many groups before it. -/
theorem takeTagNumber_eq_got_iff {stop : Stop} {taken : Nat} (few : taken < identifierLimit)
    {octets groups rest : List UInt8} :
    takeTagNumber stop taken octets = .got groups rest ↔
      octets = groups ++ rest ∧ IsGroups groups ∧ taken + groups.length ≤ identifierLimit := by
  constructor
  · intro h
    induction octets generalizing taken groups with
    | nil => cases h
    | cons octet octets ih =>
      by_cases hl : octet < 0x80
      · rw [takeTagNumber, if_pos hl] at h
        cases h
        exact ⟨rfl, .last hl, few⟩
      · rw [takeTagNumber, if_neg hl] at h
        split at h
        · cases h
        · rename_i hw
          obtain ⟨later, more, hg, hr⟩ := Reading.andThen_eq_got h
          cases hr
          obtain ⟨rfl, marks, hb⟩ := ih (Nat.not_le.1 hw) hg
          refine ⟨rfl, .more (UInt8.not_lt.1 hl) marks, ?_⟩
          rw [List.length_cons]
          omega
  · rintro ⟨rfl, marks, fits⟩
    induction marks generalizing taken with
    | last unmarked => rw [List.singleton_append, takeTagNumber, if_pos unmarked]
    | more marked later ih =>
      have hp := later.length_pos
      rw [List.length_cons] at fits
      rw [List.cons_append, takeTagNumber, if_neg (UInt8.not_lt.2 marked), if_neg (by omega),
        ih (by omega) (by omega)]
      rfl

/-- The identifier octets that are taken off a stream are an identifier of at most seven octets. -/
theorem takeTag_eq_got_iff {stop : Stop} {leading : UInt8} {octets more rest : List UInt8} :
    takeTag stop leading octets = .got more rest ↔
      octets = more ++ rest ∧ more.length < identifierLimit ∧
        ∃ number, IsIdentifier (TagClass.ofOctet leading) (leading / 32 % 2 == 1)
          (leading :: more) number := by
  have parts := (toNat_eq_leadingBits_iff leading (TagClass.ofOctet leading)
    (leading / 32 % 2 == 1) (leading.toNat % 32) (by omega)).2 ⟨rfl, rfl, rfl⟩
  rw [takeTag]
  by_cases hh : leading % 32 = 31
  · have hn := (low_eq_iff leading).1 hh
    rw [if_pos hh, takeTagNumber_eq_got_iff (by decide)]
    constructor
    · rintro ⟨he, marks, fits⟩
      rw [hn] at parts
      exact ⟨he, by omega, _, .high parts marks⟩
    · rintro ⟨he, fits, number, names⟩
      cases names with
      | low small other => omega
      | high other marks => exact ⟨he, marks, by omega⟩
  · have hn := mt (low_eq_iff leading).2 hh
    rw [if_neg hh]
    constructor
    · intro h
      cases h
      exact ⟨rfl, by decide, _, .low (by omega) parts⟩
    · rintro ⟨he, fits, number, names⟩
      cases names with
      | low small other => rw [he]; rfl
      | high other marks => omega

/-- A length that is taken off a stream is one that the decoder reads. -/
theorem readLength_of_takeLength {stop : Stop} {octets taken rest : List UInt8} {length : Nat}
    (h : takeLength stop octets = .got (taken, length) rest) :
    readLength octets = .ok (length, rest) := by
  cases octets with
  | nil => cases h
  | cons first octets =>
    rw [readLength]
    by_cases hl : first < 0x80
    · simp only [takeLength, if_pos hl] at h
      cases h
      rw [if_pos hl]
    · simp only [takeLength, if_neg hl] at h
      rw [if_neg hl]
      split at h
      · cases h
      · rename_i hz
        split at h
        · cases h
        · rename_i hw
          split at h
          · cases h
          · rename_i ht
            obtain ⟨hq, rfl⟩ := Reading.got.inj h
            obtain ⟨_, rfl⟩ := Prod.mk.inj hq
            simp only [if_neg hz, if_neg hw, if_neg ht]

/-- The length that is taken off a stream is told by its octets. -/
theorem takeLength_eq_got_iff {stop : Stop} {octets taken rest : List UInt8} {length : Nat} :
    takeLength stop octets = .got (taken, length) rest ↔
      octets = taken ++ rest ∧ IsLength taken length := by
  constructor
  · intro h
    have hr := readLength_of_takeLength h
    obtain ⟨front, he, measures⟩ := readLength_eq_ok_iff.1 hr
    obtain ⟨same, hs, ht⟩ := takeLength_of_readLength hr
    rw [ht stop] at h
    cases h
    obtain rfl := List.append_cancel_right (hs.symm.trans he)
    exact ⟨hs, measures⟩
  · rintro ⟨rfl, measures⟩
    have hr : readLength (taken ++ rest) = .ok (length, rest) :=
      readLength_eq_ok_iff.2 ⟨taken, rfl, measures⟩
    obtain ⟨front, he, ht⟩ := takeLength_of_readLength hr
    obtain rfl := List.append_cancel_right he
    exact ht stop

/-- The contents that are taken off a stream are as long as they should be and not too long. -/
theorem takeContents_eq_got_iff {stop : Stop} {length : Nat} {octets contents rest : List UInt8} :
    takeContents stop length octets = .got contents rest ↔
      octets = contents ++ rest ∧ contents.length = length ∧ length ≤ contentLimit := by
  constructor
  · intro h
    rw [takeContents] at h
    split at h
    · cases h
    · rename_i hw
      split at h
      · cases h
      · rename_i ht
        cases h
        exact ⟨(List.take_append_drop length octets).symm, length_take_of_not_lt ht,
          Nat.not_lt.1 hw⟩
  · rintro ⟨rfl, rfl, fits⟩
    rw [takeContents, if_neg (Nat.not_lt.2 fits), List.take_left' rfl, List.drop_left' rfl,
      if_neg (Nat.lt_irrefl _)]

/-- Octets that decode to a packet are a frame. -/
theorem exists_isFrame_of_decode {octets : List UInt8} {packet : Packet}
    (h : Packet.decode octets = .ok packet) :
    ∃ identifier length contents, IsFrame identifier length contents ∧
      octets = identifier ++ length ++ contents := by
  obtain ⟨_, front, header, contents, rfl, ⟨identifier, length, rfl, names, measures⟩, hc⟩ :=
    (decode_eq_ok_iff_derives.1 h).exists_header
  exact ⟨identifier, length, contents, ⟨⟨_, _, _, names⟩, hc ▸ measures⟩, rfl⟩

/-- What is taken off a stream as a frame is one whose identifier and contents are not too long. -/
theorem takeFrame_eq_got_iff {stop : Stop} {leading : UInt8} {octets frame rest : List UInt8} :
    takeFrame stop leading octets = .got frame rest ↔
      ∃ more length contents, octets = more ++ (length ++ (contents ++ rest)) ∧
        frame = leading :: more ++ length ++ contents ∧
        IsFrame (leading :: more) length contents ∧ more.length < identifierLimit ∧
        contents.length ≤ contentLimit := by
  constructor
  · intro h
    obtain ⟨more, afterTag, ht, h⟩ := Reading.andThen_eq_got h
    obtain ⟨⟨length, size⟩, afterLength, hl, h⟩ := Reading.andThen_eq_got h
    obtain ⟨contents, behind, hc, h⟩ := Reading.andThen_eq_got h
    cases h
    obtain ⟨rfl, few, number, names⟩ := takeTag_eq_got_iff.1 ht
    obtain ⟨rfl, measures⟩ := takeLength_eq_got_iff.1 hl
    obtain ⟨rfl, hs, fits⟩ := takeContents_eq_got_iff.1 hc
    dsimp only at hs fits
    subst hs
    exact ⟨more, length, contents, rfl, rfl, ⟨⟨_, _, number, names⟩, measures⟩, few, fits⟩
  · rintro ⟨more, length, contents, rfl, rfl, ⟨⟨tagClass, constructed, number, names⟩, measures⟩,
      few, fits⟩
    have hlead : TagClass.ofOctet leading = tagClass ∧ (leading / 32 % 2 == 1) = constructed := by
      obtain ⟨first, others, he, hc, hf⟩ := names.exists_leading
      obtain ⟨rfl, rfl⟩ := List.cons.inj he
      exact ⟨hc, hf⟩
    obtain ⟨rfl, rfl⟩ := hlead
    have ht : takeTag stop leading (more ++ (length ++ (contents ++ rest))) =
        .got more (length ++ (contents ++ rest)) := takeTag_eq_got_iff.2 ⟨rfl, few, number, names⟩
    have hl : takeLength stop (length ++ (contents ++ rest)) =
        .got (length, contents.length) (contents ++ rest) :=
      takeLength_eq_got_iff.2 ⟨rfl, measures⟩
    have hc : takeContents stop contents.length (contents ++ rest) = .got contents rest :=
      takeContents_eq_got_iff.2 ⟨rfl, rfl, fits⟩
    simp only [takeFrame, ht, hl, hc, Reading.andThen]

/-- A tag number that needs more than 32 bits is refused for that. -/
theorem readTagNumber_eq_tagOverflow {sum : Nat} {groups : List UInt8} (marks : IsGroups groups)
    (large : 0x100000000 ≤ groupsFrom sum groups) (rest : List UInt8) :
    readTagNumber sum (groups ++ rest) = .error .tagOverflow := by
  induction marks generalizing sum with
  | @last octet unmarked =>
    have hg : 0x100000000 ≤ sum * 128 + octet.toNat % 128 := large
    rw [List.singleton_append, readTagNumber, if_pos (by omega)]
  | @more octet groups marked later ih =>
    have hg : 0x100000000 ≤ groupsFrom (sum * 128 + octet.toNat % 128) groups := large
    rw [List.cons_append, readTagNumber]
    split
    · rfl
    · simp only [if_neg (UInt8.not_lt.2 marked)]
      exact ih hg

namespace IsFrame

variable {identifier length contents : List UInt8}

/-- A frame takes two octets at least. -/
theorem two_le_length (frame : IsFrame identifier length contents) :
    2 ≤ (identifier ++ length ++ contents).length := by
  obtain ⟨tagClass, constructed, number, names⟩ := frame.names
  obtain ⟨leading, more, rfl, _⟩ := names.exists_leading
  have hl := frame.measures.length_pos
  rw [List.length_append, List.length_append, List.length_cons]
  omega

/-- The decoder finds all contents of a frame and nothing behind them, unless the number of the
identifier is too large. -/
theorem readParts_cases (frame : IsFrame identifier length contents) :
    (∃ header, readParts (identifier ++ length ++ contents) = .ok (header, contents, [])) ∨
      readParts (identifier ++ length ++ contents) = .error .tagOverflow := by
  obtain ⟨tagClass, constructed, number, names⟩ := frame.names
  by_cases fits : number < 0x100000000
  · refine .inl ⟨⟨tagClass, constructed, UInt32.ofNat number, contents.length⟩, ?_⟩
    refine readParts_eq_ok_iff.2 ⟨identifier ++ length, by rw [List.append_nil],
      ⟨identifier, length, rfl, ?_, frame.measures⟩, rfl⟩
    rw [UInt32.toNat_ofNat_of_lt' fits]
    exact names
  · right
    cases names with
    | low small parts => omega
    | @high leading groups parts marks =>
      have hh := (low_eq_iff leading).2
        ((toNat_eq_leadingBits_iff leading tagClass constructed 31 (by omega)).1 parts).2.2
      have ht := readTagNumber_eq_tagOverflow marks (groupsFrom_zero groups ▸ Nat.not_lt.1 fits)
        (length ++ contents)
      simp only [List.append_assoc, List.cons_append, readParts, readHeader, readTag, if_pos hh, ht,
        bind, Except.bind]

end IsFrame

/-- One item after the other is read without a fault of its own. -/
theorem fault_of_readAll {one : List UInt8 → Except PacketFault (Packet × List UInt8)} {fuel : Nat}
    {octets : List UInt8} {fault : PacketFault} (h : readAll one fuel octets = .error fault) :
    ∃ input, one input = .error fault := by
  induction fuel generalizing octets with
  | zero => cases octets <;> cases h
  | succ fuel ih =>
    cases octets with
    | nil => cases h
    | cons octet octets =>
      simp only [readAll, bind, Except.bind, pure, Except.pure] at h
      split at h
      · rename_i cause ho
        cases h
        exact ⟨_, ho⟩
      · split at h
        · rename_i cause hl
          cases h
          exact ih hl
        · cases h

/-- Octets that are left over are a fault of the outermost packet only. -/
theorem readPacket_ne_trailing (levels : Nat) (octets : List UInt8) (left : Nat) :
    readPacket levels octets ≠ .error (.trailing left) := by
  induction levels generalizing octets with
  | zero => intro h; cases h
  | succ levels ih =>
    intro h
    simp only [readPacket, bind, Except.bind, pure, Except.pure] at h
    split at h
    · rename_i cause hp
      cases h
      simp only [readParts, bind, Except.bind, pure, Except.pure, throw, throwThe,
        MonadExceptOf.throw] at hp
      split at hp
      · rename_i cause hr
        cases hp
        exact (ofHeader_of_readHeader hr).elim
      · split at hp <;> cases hp
    · split at h
      · split at h
        · rename_i cause ha
          cases h
          obtain ⟨input, hi⟩ := fault_of_readAll ha
          exact ih input hi
        · cases h
      · cases h

/-- A frame is never refused for octets behind it or for contents that it does not have. -/
theorem IsFrame.decode_faults {identifier length contents : List UInt8}
    (frame : IsFrame identifier length contents) :
    (∀ left, Packet.decode (identifier ++ length ++ contents) ≠ .error (.trailing left)) ∧
      ∀ size available,
        readParts (identifier ++ length ++ contents) ≠ .error (.overrun size available) := by
  constructor
  · intro left h
    simp only [Packet.decode, bind, Except.bind] at h
    split at h
    · rename_i cause hr
      cases h
      exact readPacket_ne_trailing _ _ _ hr
    · rename_i item hr
      obtain ⟨packet, rest⟩ := item
      obtain ⟨header, found, hp⟩ := readParts_of_readPacket hr
      rcases frame.readParts_cases with ⟨same, hs⟩ | hs
      · rw [hs] at hp
        cases hp
        cases h
      · rw [hs] at hp
        cases hp
  · intro size available h
    rcases frame.readParts_cases with ⟨header, hs⟩ | hs <;> rw [hs] at h <;> cases h

/-- A reading that leaves the stream on a packet boundary behind a frame, with what the frame turned
out to be. -/
inductive Reading.Frames :
    Reading (Option Packet) → Except PacketFault Packet → List UInt8 → Prop where
  /-- The frame is a packet. -/
  | packet {packet rest} : Frames (.got (some packet) rest) (.ok packet) rest
  /-- The frame is malformed. -/
  | malformed {cause rest} : Frames (.failed (.malformed cause) rest) (.error cause) rest

/-- A stream stands behind a frame where one was taken off it. -/
theorem frames_readFrame_iff {stop : Stop} {octets rest : List UInt8}
    {outcome : Except PacketFault Packet} :
    (readFrame stop octets).Frames outcome rest ↔
      ∃ leading more frame, octets = leading :: more ∧
        takeFrame stop leading more = .got frame rest ∧ Packet.decode frame = outcome := by
  cases octets with
  | nil =>
    constructor
    · intro h
      have hg := goesOn_readFrame_nil stop
      cases hr : readFrame stop [] with
      | got item left =>
        rw [hr] at h hg
        cases h
        cases hg
      | failed fault left =>
        rw [hr] at h hg
        cases h
        cases hg
    · rintro ⟨leading, more, frame, he, _⟩
      cases he
  | cons leading octets =>
    simp only [readFrame]
    cases hf : takeFrame stop leading octets with
    | failed fault left =>
      constructor
      · intro h
        have hl := ((readsPart_takeFrame leading).lost stop octets fault left hf).isRecoverable_eq
        simp only [Reading.andThen] at h
        cases h
        cases hl
      · rintro ⟨first, more, frame, he, ht, _⟩
        obtain ⟨rfl, rfl⟩ := List.cons.inj he
        rw [hf] at ht
        cases ht
    | got frame left =>
      constructor
      · intro h
        refine ⟨leading, octets, frame, rfl, ?_⟩
        simp only [Reading.andThen] at h
        rw [hf]
        cases hd : Packet.decode frame with
        | ok packet =>
          rw [hd] at h
          cases h
          exact ⟨rfl, rfl⟩
        | error cause =>
          rw [hd] at h
          cases h
          exact ⟨rfl, rfl⟩
      · rintro ⟨first, more, taken, he, ht, rfl⟩
        obtain ⟨rfl, rfl⟩ := List.cons.inj he
        rw [hf] at ht
        cases ht
        simp only [Reading.andThen]
        cases Packet.decode frame with
        | ok packet => exact .packet
        | error cause => exact .malformed

/-- The stream and the decoder agree. Where the stream yields a packet or finds its octets
malformed, it has taken off a frame of two octets at least; what it makes of the frame is what the
decoder makes of it, which never finds octets missing from the outermost contents or left behind
them; and it makes the same of the same octets before anything else. Conversely octets that decode
to a packet are a frame, and if neither its identifier nor its contents are too long, the stream
takes off exactly these octets and yields the packet. -/
theorem readFrame_agrees_decode (stop : Stop) (octets : List UInt8) :
    (∀ outcome rest, (readFrame stop octets).Frames outcome rest →
      ∃ identifier length contents, IsFrame identifier length contents ∧
        let frame := identifier ++ length ++ contents
        octets = frame ++ rest ∧ 2 ≤ frame.length ∧ outcome = Packet.decode frame ∧
        (∀ left, outcome ≠ .error (.trailing left)) ∧
        (∀ size available, readParts frame ≠ .error (.overrun size available)) ∧
        ∀ other more, (readFrame other (frame ++ more)).Frames outcome more) ∧
    ∀ front rest packet, octets = front ++ rest → Packet.decode front = .ok packet →
      (∃ identifier length contents, IsFrame identifier length contents ∧
        front = identifier ++ length ++ contents) ∧
      ∀ identifier length contents, IsFrame identifier length contents →
        front = identifier ++ length ++ contents → identifier.length ≤ 1 + 6 →
        contents.length ≤ 16777216 → readFrame stop octets = .got (some packet) rest := by
  constructor
  · intro outcome rest h
    obtain ⟨leading, taken, frame, rfl, ht, rfl⟩ := frames_readFrame_iff.1 h
    obtain ⟨more, length, contents, rfl, rfl, parts, few, fits⟩ := takeFrame_eq_got_iff.1 ht
    refine ⟨leading :: more, length, contents, parts, ?_, parts.two_le_length, rfl,
      parts.decode_faults.1, parts.decode_faults.2, fun other behind => ?_⟩
    · simp only [List.append_assoc, List.cons_append]
    · refine frames_readFrame_iff.2 ⟨leading, more ++ (length ++ (contents ++ behind)), _, ?_,
        takeFrame_eq_got_iff.2 ⟨more, length, contents, rfl, rfl, parts, few, fits⟩, rfl⟩
      simp only [List.append_assoc, List.cons_append]
  · rintro front rest packet rfl hd
    refine ⟨exists_isFrame_of_decode hd, ?_⟩
    rintro identifier length contents parts rfl few fits
    obtain ⟨tagClass, constructed, number, names⟩ := parts.names
    obtain ⟨leading, more, rfl, _⟩ := names.exists_leading
    rw [List.length_cons] at few
    have ht : takeFrame stop leading (more ++ (length ++ (contents ++ rest))) =
        .got (leading :: more ++ length ++ contents) rest :=
      takeFrame_eq_got_iff.2 ⟨more, length, contents, rfl, rfl, parts,
        show more.length < 7 by omega, fits⟩
    have hs : leading :: more ++ length ++ contents ++ rest =
        leading :: (more ++ (length ++ (contents ++ rest))) := by
      simp only [List.append_assoc, List.cons_append]
    rw [hs]
    simp only [readFrame, ht, Reading.andThen, hd]

/-- A frame whose inner packet is too short, and a packet whose lengths take more octets than they
need, each before an octet of the next frame. -/
theorem readFrame_agrees_decode_padded :
    let broken : List UInt8 := [0x30, 0x03, 0x02, 0x05, 0x01]
    let padded : List UInt8 := [0x30, 0x81, 0x05, 0x02, 0x82, 0x00, 0x01, 0x07]
    let packet : Packet := .constructed .universal 16 [.primitive .universal 2 [0x07] ""] ""
    (readFrame .closed (broken ++ [0x30])).Frames (.error (.overrun 5 1)) [0x30] ∧
      (∃ identifier length contents, IsFrame identifier length contents ∧
        broken = identifier ++ length ++ contents) ∧
      Packet.decode padded = .ok packet ∧
      IsFrame [0x30] [0x81, 0x05] [0x02, 0x82, 0x00, 0x01, 0x07] ∧
      readFrame .closed (padded ++ [0x30]) = .got (some packet) [0x30] := by
  intro broken padded packet
  have hb : (readFrame .closed (broken ++ [0x30])).Frames (.error (.overrun 5 1)) [0x30] :=
    .malformed
  have outer : IsIdentifier .universal true [0x30] 16 := .low (by decide) (by decide)
  have inner : IsIdentifier .universal false [0x02] 2 := .low (by decide) (by decide)
  have long : IsLength [0x81, 0x05] 5 := @IsLength.long 0x81 [0x05] rfl (by decide) (by decide)
  have zeros : IsLength [0x82, 0x00, 0x01] 1 :=
    @IsLength.long 0x82 [0x00, 0x01] rfl (by decide) (by decide)
  have hf : IsFrame [0x30] [0x81, 0x05] [0x02, 0x82, 0x00, 0x01, 0x07] := ⟨⟨_, _, _, outer⟩, long⟩
  have value : Derives 1 ([0x02] ++ [0x82, 0x00, 0x01] ++ [0x07])
      (.primitive .universal 2 [0x07] "") := .primitive (by decide) inner zeros
  have hp : Packet.decode padded = .ok packet :=
    decode_eq_ok_iff_derives.2 (@Derives.constructed 0 [0x30] [0x81, 0x05] _ .universal 16 _
      (by decide) outer long (.cons value .nil))
  refine ⟨hb, ?_, hp, hf, ?_⟩
  · obtain ⟨identifier, length, contents, parts, he, _⟩ :=
      (readFrame_agrees_decode .closed _).1 _ _ hb
    exact ⟨identifier, length, contents, parts, List.append_cancel_right he⟩
  · exact ((readFrame_agrees_decode .closed _).2 padded [0x30] packet rfl hp).2 _ _ _ hf rfl
      (by decide) (by decide)

end DirectoryService.Ber
