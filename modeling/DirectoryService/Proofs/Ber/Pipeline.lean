import DirectoryService.Proofs.Ber.Agreement
import Mathlib.Data.List.Infix

/-!
# Packets in a pipeline

Packets that were written one after the other are read back one by one. A stream that is cut off
yields the packets that came through whole. If the cut is between two packets the stream ends there;
in whichever part of a packet it is otherwise, the stream has ended too early.
-/

namespace DirectoryService.Ber

variable {α β : Type}

/-- A reader takes a part off a stream: it yields an item where the part is whole, whatever stands
behind it, and a stream that ends inside the part has ended too early. -/
structure Takes (read : Stop → List UInt8 → Reading α) (part : List UInt8) (item : α) : Prop where
  /-- The whole part is taken, and nothing behind it. -/
  whole : ∀ stop rest, read stop (part ++ rest) = .got item rest
  /-- Less than the part is not enough. -/
  cut : ∀ front missing, part = front ++ missing → missing ≠ [] →
    read .closed front = .failed .unexpectedEnd []

namespace Takes

/-- What is there already needs no octets. -/
theorem got (item : α) : Takes (fun _ octets => .got item octets) [] item where
  whole _ _ := rfl
  cut := by
    intro front missing same lacks
    exact absurd (List.append_eq_nil_iff.1 same.symm).2 lacks

/-- Parts that follow each other are taken one after the other. A cut of both is behind the first
one or in it. -/
theorem andThen {first : Stop → List UInt8 → Reading α} {part further : List UInt8} {item : α}
    {result : β} (next : α → Stop → List UInt8 → Reading β)
    (here : Takes first part item) (later : Takes (next item) further result) :
    Takes (fun stop octets => (first stop octets).andThen (next · stop)) (part ++ further)
      result where
  whole := by
    intro stop rest
    rw [List.append_assoc, here.whole, Reading.andThen, later.whole]
  cut := by
    intro front missing same lacks
    have hbehind (more : List UInt8) (hfront : front = part ++ more)
        (hfurther : further = more ++ missing) :
        (first .closed front).andThen (next · .closed) = .failed .unexpectedEnd [] := by
      rw [hfront, here.whole, Reading.andThen]
      exact later.cut more missing hfurther lacks
    rcases List.append_eq_append_iff.1 same with h | h
    · obtain ⟨more, hfront, hfurther⟩ := h
      exact hbehind more hfront hfurther
    · obtain ⟨lack, hpart, hmissing⟩ := h
      by_cases hnone : lack = []
      · rw [hnone, List.append_nil] at hpart
        rw [hnone, List.nil_append] at hmissing
        exact hbehind [] (by rw [hpart, List.append_nil]) hmissing.symm
      · rw [here.cut front lack hpart hnone]
        rfl

end Takes

/-- A beginning of a list is empty, or it starts in the same way and goes on with a beginning of
what follows. -/
theorem beginning_of_cons {first : α} {more front missing : List α}
    (same : first :: more = front ++ missing) :
    front = [] ∨ ∃ begun, front = first :: begun ∧ more = begun ++ missing := by
  cases front with
  | nil => exact .inl rfl
  | cons head begun =>
    obtain ⟨hfirst, hmore⟩ := List.cons.inj same
    exact .inr ⟨begun, by rw [hfirst], hmore⟩

/-- The groups of a tag number are taken, if there are not too many of them. -/
theorem takes_tagNumber {groups : List UInt8} (marks : IsGroups groups) {taken : Nat}
    (fits : taken + groups.length ≤ identifierLimit) :
    Takes (fun stop octets => takeTagNumber stop taken octets) groups groups where
  whole := by
    intro stop rest
    have hpositive := marks.length_pos
    exact (takeTagNumber_eq_got_iff (by omega)).2 ⟨rfl, marks, fits⟩
  cut := by
    intro front missing same lacks
    induction marks generalizing taken front with
    | last unmarked =>
      rcases beginning_of_cons same with hnil | h
      · rw [hnil, takeTagNumber]
        rfl
      · obtain ⟨begun, -, hmore⟩ := h
        exact absurd (List.append_eq_nil_iff.1 hmore.symm).2 lacks
    | more marked later ih =>
      rcases beginning_of_cons same with hnil | h
      · rw [hnil, takeTagNumber]
        rfl
      · obtain ⟨begun, hfront, hmore⟩ := h
        have hpositive := later.length_pos
        rw [List.length_cons] at fits
        rw [hfront, takeTagNumber, if_neg (UInt8.not_lt.2 marked), if_neg (by omega),
          ih (by omega) begun hmore]
        rfl

/-- The identifier octets behind a leading one are taken, if there are not too many of them. -/
theorem takes_tag {leading : UInt8} {more : List UInt8} {number : Nat}
    (names : IsIdentifier (TagClass.ofOctet leading) (leading / 32 % 2 == 1) (leading :: more)
      number) (few : more.length < identifierLimit) :
    Takes (fun stop octets => takeTag stop leading octets) more more where
  whole := fun stop rest => takeTag_eq_got_iff.2 ⟨rfl, few, number, names⟩
  cut := by
    intro front missing same lacks
    cases names with
    | low small parts => exact absurd (List.append_eq_nil_iff.1 same.symm).2 lacks
    | high parts marks =>
      have hlow : leading % 32 = 31 :=
        (low_eq_iff leading).2 ((toNat_eq_leadingBits_iff leading _ _ 31 (by omega)).1 parts).2.2
      have hnumber : Takes (fun stop octets => takeTagNumber stop 1 octets) more more :=
        takes_tagNumber marks (by omega)
      rw [takeTag, if_pos hlow]
      exact hnumber.cut front missing same lacks

/-- The octets of a length are taken. -/
theorem takes_length {length : List UInt8} {size : Nat} (measures : IsLength length size) :
    Takes takeLength length (length, size) where
  whole := fun stop rest => takeLength_eq_got_iff.2 ⟨rfl, measures⟩
  cut := by
    intro front missing same lacks
    cases measures with
    | short small =>
      rcases beginning_of_cons same with hnil | h
      · rw [hnil, takeLength]
        rfl
      · obtain ⟨begun, -, hmore⟩ := h
        exact absurd (List.append_eq_nil_iff.1 hmore.symm).2 lacks
    | @long first octets counted positive few =>
      rcases beginning_of_cons same with hnil | h
      · rw [hnil, takeLength]
        rfl
      · obtain ⟨begun, hfront, hmore⟩ := h
        have hmany : ¬ first < 0x80 := by
          have hbound : (0x80 : UInt8).toNat = 128 := rfl
          rw [UInt8.lt_iff_toNat_lt, hbound]
          omega
        have hcount : first.toNat - 128 = octets.length := by omega
        have hless : (begun.take octets.length).length < octets.length := by
          have hlacks := List.length_pos_iff.2 lacks
          rw [hmore, List.length_take, List.length_append]
          omega
        rw [hfront, takeLength, if_neg hmany, hcount]
        simp only [if_neg (Nat.ne_of_gt positive), if_neg (Nat.not_lt.2 few), if_pos hless]
        rfl

/-- Contents are taken, if they are not too long. -/
theorem takes_contents {contents : List UInt8} (small : contents.length ≤ contentLimit) :
    Takes (fun stop octets => takeContents stop contents.length octets) contents contents where
  whole := fun stop rest => takeContents_eq_got_iff.2 ⟨rfl, rfl, small⟩
  cut := by
    intro front missing same lacks
    have hless : (front.take contents.length).length < contents.length := by
      have hlacks := List.length_pos_iff.2 lacks
      rw [same, List.length_take, List.length_append]
      omega
    rw [takeContents, if_neg (Nat.not_lt.2 small), if_pos hless]
    rfl

/-- A frame is taken behind its leading octet, part by part. -/
theorem IsFrame.takes {leading : UInt8} {more length contents : List UInt8}
    (frame : IsFrame (leading :: more) length contents) (few : more.length < identifierLimit)
    (small : contents.length ≤ contentLimit) :
    Takes (fun stop octets => takeFrame stop leading octets) (more ++ (length ++ contents))
      (leading :: more ++ length ++ contents) := by
  obtain ⟨tagClass, constructed, number, names⟩ := frame.names
  obtain ⟨first, others, hidentifier, hclass, hform⟩ := names.exists_leading
  obtain ⟨hfirst, -⟩ := List.cons.inj hidentifier
  rw [← hclass, ← hform, ← hfirst] at names
  have hrest : Takes (fun _ octets => .got (leading :: more ++ length ++ contents) octets) []
      (leading :: more ++ length ++ contents) := .got _
  have hcontents := (takes_contents small).andThen
    (fun taken _ octets => .got (leading :: more ++ length ++ taken) octets) hrest
  have hlength := (takes_length frame.measures).andThen
    (fun measured stop octets => (takeContents stop measured.2 octets).andThen
      fun taken rest => .got (leading :: more ++ measured.1 ++ taken) rest) hcontents
  have htag := (takes_tag names few).andThen
    (fun tag stop octets => (takeLength stop octets).andThen fun measured rest =>
      (takeContents stop measured.2 rest).andThen fun taken rest =>
        .got (leading :: tag ++ measured.1 ++ taken) rest) hlength
  rw [List.append_nil] at htag
  exact htag

/-- A stream that ends inside a frame has ended too early. -/
theorem IsFrame.readFrame_cut {leading : UInt8} {more length contents : List UInt8}
    (frame : IsFrame (leading :: more) length contents) (few : more.length < identifierLimit)
    (small : contents.length ≤ contentLimit) {front missing : List UInt8}
    (same : leading :: (more ++ (length ++ contents)) = front ++ missing) (begun : front ≠ [])
    (lacks : missing ≠ []) : readFrame .closed front = .failed .unexpectedEnd [] := by
  rcases beginning_of_cons same with hnil | h
  · exact absurd hnil begun
  · obtain ⟨octets, hfront, hmore⟩ := h
    rw [hfront, readFrame, (frame.takes few small).cut octets missing hmore lacks]
    rfl

/-- The encoding of a packet is a frame. -/
theorem exists_isFrame_encode (packet : Packet) (small : packet.contents.length < 0x100000000) :
    ∃ leading more length, packet.encode = leading :: (more ++ (length ++ packet.contents)) ∧
      more.length < identifierLimit ∧ IsFrame (leading :: more) length packet.contents := by
  obtain ⟨leading, more, hidentifier, hfew, hclass, hform, htag⟩ :=
    encodeIdentifier_cons packet.tagClass packet.isConstructed packet.tag
  obtain ⟨taken, hmore, -, names⟩ := readTag_eq_ok_iff.1 (htag [])
  rw [List.append_nil, List.append_nil] at hmore
  rw [← hmore] at names
  obtain ⟨length, hlength, measures⟩ :=
    readLength_eq_ok_iff.1 (readLength_encodeLength [] small)
  rw [List.append_nil, List.append_nil] at hlength
  rw [← hlength] at measures
  have hencode : packet.encode =
      leading :: (more ++ (encodeLength packet.contents.length ++ packet.contents)) := by
    rw [Packet.encode_eq, encodeHeader, Packet.header, hidentifier, List.append_assoc]
    rfl
  exact ⟨leading, more, _, hencode, Nat.lt_of_le_of_lt hfew (by decide),
    ⟨_, _, _, names⟩, measures⟩

/-- A stream that ends inside a written packet has ended too early. -/
theorem readFrame_encode_cut {packet : Packet} (small : packet.contents.length ≤ contentLimit)
    {front missing : List UInt8} (same : packet.encode = front ++ missing) (begun : front ≠ [])
    (lacks : missing ≠ []) : readFrame .closed front = .failed .unexpectedEnd [] := by
  have hfits : packet.contents.length < 0x100000000 := Nat.lt_of_le_of_lt small (by decide)
  obtain ⟨leading, more, length, hencode, few, frame⟩ := exists_isFrame_encode packet hfits
  exact frame.readFrame_cut few small (hencode.symm.trans same) begun lacks

/-- The packets of a pipeline that lie within its first octets. -/
structure AreWhole (packets : List Packet) (octets : List UInt8) (whole : List Packet) : Prop where
  /-- They are the first packets of the pipeline. -/
  first : whole <+: packets
  /-- Their encodings are within the octets. -/
  within : Packet.encodeAll whole <+: octets
  /-- There are no more such packets. -/
  all : ∀ more, more <+: packets → Packet.encodeAll more <+: octets → more <+: whole

/-- The first octets of a pipeline end between two packets, before the first one or behind the last
one. -/
def IsBoundary (packets : List Packet) (octets : List UInt8) : Prop :=
  ∃ front, front <+: packets ∧ octets = Packet.encodeAll front

/-- Octets that begin with a packet of the pipeline have one packet more than those behind it. -/
theorem AreWhole.cons {packets whole : List Packet} {octets : List UInt8}
    (are : AreWhole packets octets whole) (packet : Packet) :
    AreWhole (packet :: packets) (packet.encode ++ octets) (packet :: whole) where
  first := List.cons_prefix_cons.2 ⟨rfl, are.first⟩
  within := by
    rw [Packet.encodeAll]
    exact (List.prefix_append_right_inj _).2 are.within
  all := by
    intro more hfirst hwithin
    cases more with
    | nil => exact List.nil_prefix
    | cons head more =>
      obtain ⟨hhead, hmore⟩ := List.cons_prefix_cons.1 hfirst
      rw [hhead, Packet.encodeAll] at hwithin
      exact List.cons_prefix_cons.2
        ⟨hhead, are.all more hmore ((List.prefix_append_right_inj _).1 hwithin)⟩

/-- A boundary behind the first packet is one of the packets behind it. -/
theorem isBoundary_cons_iff {packet : Packet} {packets : List Packet} {octets : List UInt8} :
    IsBoundary (packet :: packets) (packet.encode ++ octets) ↔ IsBoundary packets octets := by
  constructor
  · intro h
    obtain ⟨front, hfront, hoctets⟩ := h
    cases front with
    | nil =>
      have hpositive := packet.length_encode_pos
      have hnone := (List.append_eq_nil_iff.1 hoctets).1
      rw [hnone] at hpositive
      exact absurd hpositive (Nat.lt_irrefl 0)
    | cons head front =>
      obtain ⟨hhead, hmore⟩ := List.cons_prefix_cons.1 hfront
      rw [hhead, Packet.encodeAll] at hoctets
      exact ⟨front, hmore, List.append_cancel_left hoctets⟩
  · intro h
    obtain ⟨front, hfront, hoctets⟩ := h
    refine ⟨packet :: front, List.cons_prefix_cons.2 ⟨rfl, hfront⟩, ?_⟩
    rw [hoctets, Packet.encodeAll]

section

variable {packet : Packet} {packets : List Packet} {octets missing : List UInt8}

/-- Octets that end inside the first packet or before it hold no packet. -/
theorem eq_nil_of_cut (same : packet.encode = octets ++ missing) (lacks : missing ≠ [])
    {more : List Packet} (first : more <+: packet :: packets)
    (within : Packet.encodeAll more <+: octets) : more = [] := by
  cases more with
  | nil => rfl
  | cons head more =>
    obtain ⟨hhead, -⟩ := List.cons_prefix_cons.1 first
    have hlacks := List.length_pos_iff.2 lacks
    have hlength := congrArg List.length same
    have hwithin := within.length_le
    rw [hhead, Packet.encodeAll, List.length_append] at hwithin
    rw [List.length_append] at hlength
    omega

/-- No packet is whole where the octets end inside the first one. -/
theorem areWhole_of_cut (same : packet.encode = octets ++ missing) (lacks : missing ≠ []) :
    AreWhole (packet :: packets) octets [] where
  first := List.nil_prefix
  within := List.nil_prefix
  all := by
    intro more first within
    rw [eq_nil_of_cut same lacks first within]

/-- A boundary in front of the end of the first packet is before it. -/
theorem isBoundary_iff_of_cut (same : packet.encode = octets ++ missing) (lacks : missing ≠ []) :
    IsBoundary (packet :: packets) octets ↔ octets = [] := by
  constructor
  · intro h
    obtain ⟨front, hfront, hoctets⟩ := h
    have hnone := eq_nil_of_cut same lacks hfront (hoctets ▸ List.prefix_refl _)
    rw [hoctets, hnone, Packet.encodeAll]
  · intro h
    exact ⟨[], List.nil_prefix, h⟩

end

/-- What a cut in front of the end of the first packet leaves is one reading. -/
theorem outcomes_readStream_of_cut {packet : Packet} (small : packet.contents.length ≤ contentLimit)
    {octets missing : List UInt8} (same : packet.encode = octets ++ missing)
    (lacks : missing ≠ []) : (readStream .closed octets).map Reading.outcome =
      [if octets = [] then .ok none else .error .unexpectedEnd] := by
  by_cases hnone : octets = []
  · rw [if_pos hnone, hnone, readStream]
    rfl
  · rw [if_neg hnone, readStream_eq, readFrame_encode_cut small same hnone lacks]
    rfl

/-- A packet that is whole is the first reading, and what is behind it is read in the same way. -/
theorem outcomes_readStream_encode {packet : Packet} (shallow : packet.depth ≤ depthLimit)
    (small : packet.contents.length ≤ contentLimit) (rest : List UInt8) :
    (readStream .closed (packet.encode ++ rest)).map Reading.outcome =
      .ok (some packet.undescribed) :: (readStream .closed rest).map Reading.outcome := by
  have hgoesOn : (Reading.got (some packet.undescribed) rest).goesOn = true := rfl
  rw [readStream_eq, readFrame_encode .closed _ shallow small, if_pos hgoesOn]
  rfl

/-- What a pipeline that is cut off yields: the packets that are whole, and then the end of the
stream at a boundary and too early an end elsewhere. -/
theorem exists_areWhole {packets : List Packet}
    (shallow : ∀ packet ∈ packets, packet.depth ≤ depthLimit)
    (small : ∀ packet ∈ packets, packet.contents.length ≤ contentLimit) {octets : List UInt8}
    (cut : octets <+: Packet.encodeAll packets) :
    ∃ whole, AreWhole packets octets whole ∧ ∃ last,
      (readStream .closed octets).map Reading.outcome =
        whole.map (fun packet => .ok (some packet.undescribed)) ++ [last] ∧
      (IsBoundary packets octets → last = .ok none) ∧
      (¬ IsBoundary packets octets → last = .error .unexpectedEnd) := by
  induction packets generalizing octets with
  | nil =>
    have hnone : octets = [] := List.prefix_nil.1 cut
    have hboundary : IsBoundary [] octets := ⟨[], List.nil_prefix, hnone⟩
    refine ⟨[], ⟨List.nil_prefix, List.nil_prefix, fun more first _ => first⟩, .ok none, ?_,
      fun _ => rfl, fun h => absurd hboundary h⟩
    rw [hnone, readStream]
    rfl
  | cons packet packets ih =>
    rw [List.forall_mem_cons] at shallow small
    obtain ⟨missing, hsame⟩ := cut
    rw [Packet.encodeAll] at hsame
    -- The first packet is whole, or the cut is in front of its end.
    by_cases hwhole : packet.encode <+: octets
    · obtain ⟨more, hoctets⟩ := hwhole
      rw [← hoctets, List.append_assoc] at hsame
      obtain ⟨whole, are, last, hreadings, hclean, hearly⟩ :=
        ih shallow.2 small.2 ⟨missing, List.append_cancel_left hsame⟩
      rw [← hoctets, isBoundary_cons_iff, outcomes_readStream_encode shallow.1 small.1, hreadings]
      exact ⟨packet :: whole, are.cons packet, last, rfl, hclean, hearly⟩
    · obtain ⟨lack, hpacket, hlacks⟩ : ∃ lack, packet.encode = octets ++ lack ∧ lack ≠ [] := by
        rcases List.append_eq_append_iff.1 hsame with h | h
        · obtain ⟨lack, hpacket, -⟩ := h
          refine ⟨lack, hpacket, fun hnone => hwhole ?_⟩
          rw [hpacket, hnone, List.append_nil]
        · obtain ⟨more, hoctets, -⟩ := h
          exact absurd ⟨more, hoctets.symm⟩ hwhole
      refine ⟨[], areWhole_of_cut hpacket hlacks, _,
        outcomes_readStream_of_cut small.1 hpacket hlacks, fun h => ?_, fun h => ?_⟩
      · exact if_pos ((isBoundary_iff_of_cut hpacket hlacks).1 h)
      · exact if_neg (mt (isBoundary_iff_of_cut hpacket hlacks).2 h)

/-- Packets that are written one after the other, none of them too deep or too long, are read back
in this order, and then the stream ends. Where only the first octets of them arrive, the packets
that are whole are read back in the same way, and then the stream ends if the octets end between two
packets, and ends too early otherwise. -/
theorem readStream_pipeline {packets : List Packet} (shallow : ∀ packet ∈ packets, packet.depth ≤ 64)
    (small : ∀ packet ∈ packets, packet.contents.length ≤ 16777216) :
    (readStream .closed (Packet.encodeAll packets)).map Reading.outcome =
        packets.map (fun packet => .ok (some packet.undescribed)) ++ [.ok none] ∧
    ∀ octets, octets <+: Packet.encodeAll packets → octets ≠ Packet.encodeAll packets →
      ∃ whole, AreWhole packets octets whole ∧ whole ≠ packets ∧
        (IsBoundary packets octets → (readStream .closed octets).map Reading.outcome =
          whole.map (fun packet => .ok (some packet.undescribed)) ++ [.ok none]) ∧
        (¬ IsBoundary packets octets → (readStream .closed octets).map Reading.outcome =
          whole.map (fun packet => .ok (some packet.undescribed)) ++ [.error .unexpectedEnd]) := by
  refine ⟨outcomes_readStream_encodeAll shallow small, fun octets cut proper => ?_⟩
  obtain ⟨whole, are, last, hreadings, hclean, hearly⟩ := exists_areWhole shallow small cut
  refine ⟨whole, are, fun hall => proper ?_, fun h => ?_, fun h => ?_⟩
  · have hwithin := are.within
    rw [hall] at hwithin
    exact cut.eq_of_length (Nat.le_antisymm cut.length_le hwithin.length_le)
  · rw [hreadings, hclean h]
  · rw [hreadings, hearly h]

/-- A pipeline of two packets that is cut off inside the tag number of the second one. -/
theorem readStream_pipeline_cut :
    let first : Packet := .primitive .universal 2 [0x05] "number"
    let second : Packet := .constructed .application 0xFFFFFFFF [.primitive .context 31 [] "part"] ""
    let octets : List UInt8 := [0x02, 0x01, 0x05, 0x7F, 0x8F, 0xFF]
    (∀ packet ∈ [first, second], packet.depth ≤ 64) ∧
      (∀ packet ∈ [first, second], packet.contents.length ≤ 16777216) ∧
      octets <+: Packet.encodeAll [first, second] ∧
      (readStream .closed octets).map Reading.outcome =
        [.ok (some first.undescribed), .error .unexpectedEnd] := by
  intro first second octets
  have hshallow : ∀ packet ∈ [first, second], packet.depth ≤ 64 := by decide +kernel
  have hsmall : ∀ packet ∈ [first, second], packet.contents.length ≤ 16777216 := by decide +kernel
  have hcut : octets <+: Packet.encodeAll [first, second] := by decide +kernel
  have hinside : ∀ front ∈ [first, second].inits, octets ≠ Packet.encodeAll front := by
    decide +kernel
  obtain ⟨whole, are, hproper, -, hearly⟩ := (readStream_pipeline hshallow hsmall).2 octets hcut
    (hinside _ ((List.mem_inits _ _).2 (List.prefix_refl _)))
  have hreadings := hearly fun h => by
    obtain ⟨front, hfront, hoctets⟩ := h
    exact hinside front ((List.mem_inits _ _).2 hfront) hoctets
  have hfirst : [first] <+: whole :=
    are.all [first] (List.prefix_append [first] [second]) (by decide +kernel)
  obtain ⟨behind, hwhole⟩ := hfirst
  have hbehind : behind <+: [second] := (List.prefix_append_right_inj [first]).1 (by
    rw [hwhole]
    exact are.first)
  have hnone : behind = [] := by
    rcases List.prefix_cons_iff.1 hbehind with hnil | h
    · exact hnil
    · obtain ⟨rest, hcons, hrest⟩ := h
      rw [List.prefix_nil.1 hrest] at hcons
      rw [hcons] at hwhole
      exact absurd hwhole.symm hproper
  rw [← hwhole, hnone] at hreadings
  exact ⟨hshallow, hsmall, hcut, hreadings⟩

end DirectoryService.Ber
