import DirectoryService.Proofs.Ber.RoundTrip
import Mathlib.Data.List.Induction
import Mathlib.Data.Nat.Digits.Defs

/-!
# The grammar of packets

Which octets are a packet is told here by a grammar, part by part: identifier octets, length octets,
contents, and the packets of which constructed contents are made up. The decoder accepts exactly
what the grammar derives, with the packet that it derives; it refuses everything else, and it never
looks behind the octets that it was given.
-/

namespace DirectoryService.Ber

/-- Groups of seven bits, of which all but the last one are marked as having a successor. -/
inductive IsGroups : List UInt8 → Prop where
  /-- The last group. -/
  | last {octet} (unmarked : octet < 0x80) : IsGroups [octet]
  /-- A group before others; it may be zero. -/
  | more {octet groups} (marked : 0x80 ≤ octet) (later : IsGroups groups) :
      IsGroups (octet :: groups)

/-- The number that groups of seven bits stand for, most significant first. -/
def groupsNumber (groups : List UInt8) : Nat :=
  Nat.ofDigits 128 (groups.map (·.toNat % 128)).reverse

/-- The number that octets stand for, most significant first. -/
def octetsNumber (octets : List UInt8) : Nat := Nat.ofDigits 256 (octets.map UInt8.toNat).reverse

/-- What class and form add to a leading identifier octet. -/
def leadingBits (tagClass : TagClass) (constructed : Bool) : Nat :=
  tagClass.bits.toNat + if constructed then 32 else 0

/-- The identifier octets of a class, a form and a number. -/
inductive IsIdentifier (tagClass : TagClass) (constructed : Bool) : List UInt8 → Nat → Prop where
  /-- The number is in the low five bits. -/
  | low {leading number} (small : number < 31)
      (parts : leading.toNat = leadingBits tagClass constructed + number) :
      IsIdentifier tagClass constructed [leading] number
  /-- The low five bits are all ones, and the number follows in groups of seven bits. -/
  | high {leading groups} (parts : leading.toNat = leadingBits tagClass constructed + 31)
      (marks : IsGroups groups) :
      IsIdentifier tagClass constructed (leading :: groups) (groupsNumber groups)

/-- The octets of a length. -/
inductive IsLength : List UInt8 → Nat → Prop where
  /-- The length is one octet. -/
  | short {first} (small : first < 0x80) : IsLength [first] first.toNat
  /-- The length follows a count of its octets, of which there are at most four. -/
  | long {first octets} (counted : first.toNat = 0x80 + octets.length)
      (positive : 0 < octets.length) (few : octets.length ≤ 4) :
      IsLength (first :: octets) (octetsNumber octets)

mutual

/-- Octets are a packet that stands at a depth. -/
inductive Derives : Nat → List UInt8 → Packet → Prop where
  /-- The contents of a primitive packet are its value. -/
  | primitive {depth identifier length value tagClass tag} (shallow : depth ≤ depthLimit)
      (names : IsIdentifier tagClass false identifier tag.toNat)
      (measures : IsLength length value.length) :
      Derives depth (identifier ++ length ++ value) (.primitive tagClass tag value "")
  /-- The contents of a constructed packet are packets. -/
  | constructed {depth identifier length contents tagClass tag children}
      (shallow : depth ≤ depthLimit)
      (names : IsIdentifier tagClass true identifier tag.toNat)
      (measures : IsLength length contents.length)
      (holds : DerivesAll (depth + 1) contents children) :
      Derives depth (identifier ++ length ++ contents) (.constructed tagClass tag children "")

/-- Octets are packets one after the other, all of which stand at a depth. -/
inductive DerivesAll : Nat → List UInt8 → List Packet → Prop where
  /-- No octets are no packets. -/
  | nil {depth} : DerivesAll depth [] []
  /-- A packet stands before others. -/
  | cons {depth octets more packet packets} (first : Derives depth octets packet)
      (later : DerivesAll depth more packets) :
      DerivesAll depth (octets ++ more) (packet :: packets)

end

/-- Digits are read from the most significant one on. -/
theorem ofDigits_reverse (base : Nat) (digits : List Nat) :
    Nat.ofDigits base digits.reverse = digits.foldl (fun sum digit => base * sum + digit) 0 := by
  induction digits using List.reverseRecOn with
  | nil => rfl
  | append_singleton digits last ih =>
    rw [List.reverse_append, List.reverse_singleton, List.singleton_append, Nat.ofDigits_cons, ih,
      List.foldl_append, List.foldl_cons, List.foldl_nil, Nat.add_comm]

/-- The decoder's number of octets is that of the grammar. -/
theorem unsigned_eq_octetsNumber (octets : List UInt8) : unsigned octets = octetsNumber octets := by
  rw [octetsNumber, ofDigits_reverse, List.foldl_map, unsigned]

/-- A length takes an octet. -/
theorem IsLength.length_pos {octets : List UInt8} {length : Nat}
    (measures : IsLength octets length) : 0 < octets.length := by
  cases measures <;> exact Nat.succ_pos _

/-- The number of groups after what the groups before gave. -/
def groupsFrom (sum : Nat) (groups : List UInt8) : Nat :=
  groups.foldl (fun sum octet => sum * 128 + octet.toNat % 128) sum

/-- The number of groups is read from the first of them on. -/
theorem groupsFrom_zero (groups : List UInt8) : groupsFrom 0 groups = groupsNumber groups := by
  simp only [groupsNumber, ofDigits_reverse, List.foldl_map, groupsFrom, Nat.mul_comm 128]

/-- Further groups do not make a number smaller. -/
theorem le_groupsFrom (sum : Nat) (groups : List UInt8) : sum ≤ groupsFrom sum groups := by
  induction groups generalizing sum with
  | nil => exact Nat.le_refl sum
  | cons octet groups ih =>
    have h := ih (sum * 128 + octet.toNat % 128)
    rw [groupsFrom, List.foldl_cons, ← groupsFrom]
    omega

/-- There is a last group. -/
theorem IsGroups.length_pos {groups : List UInt8} (marks : IsGroups groups) :
    0 < groups.length := by
  cases marks <;> exact Nat.succ_pos _

/-- A tag number is read off groups that are marked as they should be and whose number has at most
32 bits. -/
theorem readTagNumber_eq_ok_iff {sum number : Nat} {octets rest : List UInt8} :
    readTagNumber sum octets = .ok (number, rest) ↔
      ∃ groups, octets = groups ++ rest ∧ IsGroups groups ∧ groupsFrom sum groups = number ∧
        number < 0x100000000 := by
  induction octets generalizing sum with
  | nil =>
    constructor
    · intro h
      cases h
    · rintro ⟨groups, he, marks, _⟩
      have hp := marks.length_pos
      rw [(List.append_eq_nil_iff.1 he.symm).1] at hp
      cases hp
  | cons octet octets ih =>
    rw [readTagNumber]
    constructor
    · intro h
      split at h
      · cases h
      · rename_i fits
        by_cases hl : octet < 0x80
        · rw [if_pos hl] at h
          cases h
          exact ⟨[octet], rfl, .last hl, rfl, by omega⟩
        · rw [if_neg hl] at h
          obtain ⟨groups, rfl, marks, hn, hb⟩ := ih.1 h
          exact ⟨octet :: groups, rfl, .more (UInt8.not_lt.1 hl) marks, hn, hb⟩
    · rintro ⟨groups, he, marks, hn, hb⟩
      cases marks with
      | last unmarked =>
        obtain ⟨rfl, rfl⟩ := List.cons.inj he
        have hs : sum * 128 + octet.toNat % 128 = number := hn
        rw [if_neg (by omega)]
        simp only [if_pos unmarked, hs]
      | @more first groups marked later =>
        obtain ⟨rfl, rfl⟩ := List.cons.inj he
        have hg : groupsFrom (sum * 128 + octet.toNat % 128) groups = number := hn
        have hle := le_groupsFrom (sum * 128 + octet.toNat % 128) groups
        rw [if_neg (by omega)]
        simp only [if_neg (UInt8.not_lt.2 marked)]
        exact ih.2 ⟨groups, rfl, later, hg, hb⟩

/-- The form is in the bit below the class. -/
theorem form_eq_iff (leading : UInt8) (constructed : Bool) :
    (leading / 32 % 2 == 1) = constructed ↔
      leading.toNat / 32 % 2 = if constructed then 1 else 0 := by
  have hm : (32 : UInt8).toNat = 32 ∧ (2 : UInt8).toNat = 2 ∧ (1 : UInt8).toNat = 1 :=
    ⟨rfl, rfl, rfl⟩
  rw [Bool.eq_iff_iff, beq_iff_eq, ← UInt8.toNat_inj, UInt8.toNat_mod, UInt8.toNat_div, hm.1,
    hm.2.1, hm.2.2]
  cases constructed <;> simp

/-- The class is in the top two bits. -/
theorem ofOctet_eq_iff (leading : UInt8) (tagClass : TagClass) :
    TagClass.ofOctet leading = tagClass ↔ leading.toNat / 64 = tagClass.bits.toNat / 64 := by
  have hl := leading.toNat_lt
  have hm : (0x40 : UInt8).toNat = 64 ∧ (0x80 : UInt8).toNat = 128 ∧ (0xC0 : UInt8).toNat = 192 :=
    ⟨rfl, rfl, rfl⟩
  simp only [TagClass.ofOctet, UInt8.lt_iff_toNat_lt, hm.1, hm.2.1, hm.2.2]
  split
  · cases tagClass <;> simp [TagClass.bits] <;> omega
  · split
    · cases tagClass <;> simp [TagClass.bits] <;> omega
    · split
      · cases tagClass <;> simp [TagClass.bits] <;> omega
      · cases tagClass <;> simp [TagClass.bits] <;> omega

/-- A leading octet is made up of class, form and its low five bits. -/
theorem toNat_eq_leadingBits_iff (leading : UInt8) (tagClass : TagClass) (constructed : Bool)
    (low : Nat) (small : low < 32) :
    leading.toNat = leadingBits tagClass constructed + low ↔
      TagClass.ofOctet leading = tagClass ∧ (leading / 32 % 2 == 1) = constructed ∧
        leading.toNat % 32 = low := by
  have hl := leading.toNat_lt
  rw [form_eq_iff, ofOctet_eq_iff, leadingBits]
  cases tagClass <;> cases constructed <;> simp [TagClass.bits] <;> omega

/-- The low five bits are all ones. -/
theorem low_eq_iff (leading : UInt8) : leading % 32 = 31 ↔ leading.toNat % 32 = 31 := by
  have hm : (32 : UInt8).toNat = 32 ∧ (31 : UInt8).toNat = 31 := ⟨rfl, rfl⟩
  rw [← UInt8.toNat_inj, UInt8.toNat_mod, hm.1, hm.2]

/-- The leading identifier octet tells class and form. -/
theorem IsIdentifier.exists_leading {tagClass : TagClass} {constructed : Bool}
    {octets : List UInt8} {number : Nat}
    (names : IsIdentifier tagClass constructed octets number) :
    ∃ leading more, octets = leading :: more ∧ TagClass.ofOctet leading = tagClass ∧
      (leading / 32 % 2 == 1) = constructed := by
  cases names with
  | @low leading number small parts =>
    have h := (toNat_eq_leadingBits_iff leading tagClass constructed number (by omega)).1 parts
    exact ⟨leading, [], rfl, h.1, h.2.1⟩
  | @high leading groups parts marks =>
    have h := (toNat_eq_leadingBits_iff leading tagClass constructed 31 (by omega)).1 parts
    exact ⟨leading, groups, rfl, h.1, h.2.1⟩

/-- A tag is read off identifier octets, which may be in front of anything, if its number has at
most 32 bits. -/
theorem readTag_eq_ok_iff {leading : UInt8} {octets rest : List UInt8} {number : Nat} :
    readTag leading octets = .ok (number, rest) ↔
      ∃ more, octets = more ++ rest ∧ number < 0x100000000 ∧
        IsIdentifier (TagClass.ofOctet leading) (leading / 32 % 2 == 1) (leading :: more)
          number := by
  have parts := (toNat_eq_leadingBits_iff leading (TagClass.ofOctet leading)
    (leading / 32 % 2 == 1) (leading.toNat % 32) (by omega)).2 ⟨rfl, rfl, rfl⟩
  rw [readTag]
  by_cases hh : leading % 32 = 31
  · have hn := (low_eq_iff leading).1 hh
    rw [if_pos hh, readTagNumber_eq_ok_iff]
    constructor
    · rintro ⟨groups, he, marks, rfl, hb⟩
      rw [hn] at parts
      rw [groupsFrom_zero] at hb ⊢
      exact ⟨groups, he, hb, .high parts marks⟩
    · rintro ⟨more, he, hb, names⟩
      cases names with
      | low small other => omega
      | high other marks => exact ⟨more, he, marks, groupsFrom_zero more, hb⟩
  · have hn := mt (low_eq_iff leading).2 hh
    have hv : (leading % 32).toNat = leading.toNat % 32 := UInt8.toNat_mod leading 32
    rw [if_neg hh, hv]
    constructor
    · intro h
      cases h
      exact ⟨[], rfl, by omega, .low (by omega) parts⟩
    · rintro ⟨more, he, hb, names⟩
      cases names with
      | low small other =>
        rw [show number = leading.toNat % 32 by omega, he]
        rfl
      | high other marks => omega

/-- A length is read off its octets, which may be in front of anything. -/
theorem readLength_eq_ok_iff {octets rest : List UInt8} {length : Nat} :
    readLength octets = .ok (length, rest) ↔
      ∃ front, octets = front ++ rest ∧ IsLength front length := by
  have hm : (0x80 : UInt8).toNat = 128 := rfl
  constructor
  · intro h
    cases octets with
    | nil => cases h
    | cons first octets =>
      simp only [readLength] at h
      split at h
      · rename_i small
        cases h
        exact ⟨[first], rfl, .short small⟩
      · rename_i large
        rw [UInt8.lt_iff_toNat_lt, hm] at large
        split at h
        · cases h
        · split at h
          · cases h
          · split at h
            · cases h
            · rename_i hz hw ht
              rw [List.length_take] at ht
              have hc : (octets.take (first.toNat - 128)).length = first.toNat - 128 := by
                rw [List.length_take]
                omega
              obtain ⟨rfl, rfl⟩ := Prod.mk.inj (Except.ok.inj h)
              refine ⟨first :: octets.take (first.toNat - 128), ?_, ?_⟩
              · rw [List.cons_append, List.take_append_drop]
              · rw [unsigned_eq_octetsNumber]
                exact .long (by omega) (by omega) (by omega)
  · rintro ⟨front, rfl, measures⟩
    cases measures with
    | short small => simp only [List.singleton_append, readLength, if_pos small]
    | @long first octets counted positive few =>
      have large : ¬ first < 0x80 := by
        rw [UInt8.lt_iff_toNat_lt, hm]
        omega
      have hc : first.toNat - 128 = octets.length := by omega
      simp only [List.cons_append, readLength, if_neg large, hc, if_neg (Nat.ne_of_gt positive),
        if_neg (Nat.not_lt.2 few), List.take_left', List.drop_left', Nat.lt_irrefl, if_false,
        unsigned_eq_octetsNumber]

/-- Identifier octets that are followed by those of a length are a header. -/
def IsHeader (octets : List UInt8) (header : Header) : Prop :=
  ∃ identifier length, octets = identifier ++ length ∧
    IsIdentifier header.tagClass header.constructed identifier header.tag.toNat ∧
    IsLength length header.length

/-- A header is read off its octets, which may be in front of anything. -/
theorem readHeader_eq_ok_iff {octets rest : List UInt8} {header : Header} :
    readHeader octets = .ok (header, rest) ↔
      ∃ front, octets = front ++ rest ∧ IsHeader front header := by
  constructor
  · intro h
    cases octets with
    | nil => cases h
    | cons leading octets =>
      simp only [readHeader, bind, Except.bind, pure, Except.pure] at h
      split at h
      · cases h
      · rename_i tagged ht
        obtain ⟨more, rfl, hb, names⟩ := readTag_eq_ok_iff.1 ht
        split at h
        · cases h
        · rename_i measured hl
          obtain ⟨length, he, measures⟩ := readLength_eq_ok_iff.1 hl
          cases h
          refine ⟨leading :: (more ++ length), ?_, leading :: more, length, rfl, ?_, measures⟩
          · rw [he, List.cons_append, List.append_assoc]
          · rw [UInt32.toNat_ofNat_of_lt' hb]
            exact names
  · rintro ⟨front, rfl, identifier, length, rfl, names, measures⟩
    obtain ⟨leading, more, rfl, hc, hf⟩ := names.exists_leading
    have ht : readTag leading (more ++ (length ++ rest)) =
        .ok (header.tag.toNat, length ++ rest) :=
      readTag_eq_ok_iff.2 ⟨more, rfl, header.tag.toNat_lt, by rw [hc, hf]; exact names⟩
    have hl : readLength (length ++ rest) = .ok (header.length, rest) :=
      readLength_eq_ok_iff.2 ⟨length, rfl, measures⟩
    simp only [List.append_assoc, List.cons_append, readHeader, ht, hl, bind, Except.bind, pure,
      Except.pure, hc, hf, UInt32.ofNat_toNat]

/-- Header and contents are read off their octets, which may be in front of anything. -/
theorem readParts_eq_ok_iff {octets contents rest : List UInt8} {header : Header} :
    readParts octets = .ok (header, contents, rest) ↔
      ∃ front, octets = front ++ (contents ++ rest) ∧ IsHeader front header ∧
        contents.length = header.length := by
  constructor
  · intro h
    simp only [readParts, bind, Except.bind, pure, Except.pure, throw, throwThe,
      MonadExceptOf.throw] at h
    split at h
    · cases h
    · rename_i item hr
      obtain ⟨front, rfl, hh⟩ := readHeader_eq_ok_iff.1 hr
      split at h
      · cases h
      · rename_i ht
        obtain ⟨rfl, hq⟩ := Prod.mk.inj (Except.ok.inj h)
        obtain ⟨rfl, rfl⟩ := Prod.mk.inj hq
        refine ⟨front, by rw [List.take_append_drop], hh, ?_⟩
        rw [List.length_take] at ht ⊢
        omega
  · rintro ⟨front, rfl, hh, hc⟩
    have hr : readHeader (front ++ (contents ++ rest)) = .ok (header, contents ++ rest) :=
      readHeader_eq_ok_iff.2 ⟨front, rfl, hh⟩
    simp only [readParts, hr, bind, Except.bind, pure, Except.pure, ← hc, List.take_left',
      List.drop_left', Nat.lt_irrefl, if_false]

/-- A header takes two octets at least. -/
theorem IsHeader.two_le_length {octets : List UInt8} {header : Header}
    (hh : IsHeader octets header) : 2 ≤ octets.length := by
  obtain ⟨identifier, length, rfl, names, measures⟩ := hh
  obtain ⟨leading, more, rfl, _⟩ := names.exists_leading
  have hl := measures.length_pos
  rw [List.length_append, List.length_cons]
  omega

/-- A packet is a header and its contents. -/
theorem Derives.exists_header {depth : Nat} {octets : List UInt8} {packet : Packet}
    (derives : Derives depth octets packet) :
    depth ≤ depthLimit ∧ ∃ front header contents, octets = front ++ contents ∧
      IsHeader front header ∧ contents.length = header.length := by
  cases derives with
  | @primitive _ identifier length value tagClass tag shallow names measures =>
    exact ⟨shallow, identifier ++ length, ⟨tagClass, false, tag, value.length⟩, value, rfl,
      ⟨identifier, length, rfl, names, measures⟩, rfl⟩
  | @constructed _ identifier length contents tagClass tag children shallow names measures holds =>
    exact ⟨shallow, identifier ++ length, ⟨tagClass, true, tag, contents.length⟩, contents, rfl,
      ⟨identifier, length, rfl, names, measures⟩, rfl⟩

/-- A packet takes two octets at least. -/
theorem Derives.two_le_length {depth : Nat} {octets : List UInt8} {packet : Packet}
    (derives : Derives depth octets packet) : 2 ≤ octets.length := by
  obtain ⟨_, front, header, contents, rfl, hh, _⟩ := derives.exists_header
  have h := hh.two_le_length
  rw [List.length_append]
  omega

/-- What is read one after the other is derived, if each item is. -/
theorem derivesAll_of_readAll {one : List UInt8 → Except PacketFault (Packet × List UInt8)}
    {depth : Nat}
    (sound : ∀ octets packet rest, one octets = .ok (packet, rest) →
      ∃ taken, octets = taken ++ rest ∧ Derives depth taken packet)
    {fuel : Nat} {octets : List UInt8} {packets : List Packet} (enough : octets.length ≤ fuel)
    (h : readAll one fuel octets = .ok packets) : DerivesAll depth octets packets := by
  induction fuel generalizing octets packets with
  | zero =>
    rw [List.eq_nil_of_length_eq_zero (Nat.le_zero.1 enough), readAll] at h
    rw [List.eq_nil_of_length_eq_zero (Nat.le_zero.1 enough)]
    cases h
    exact .nil
  | succ fuel ih =>
    cases octets with
    | nil =>
      rw [readAll] at h
      cases h
      exact .nil
    | cons octet octets =>
      simp only [readAll, bind, Except.bind, pure, Except.pure] at h
      split at h
      · cases h
      · rename_i item ho
        split at h
        · cases h
        · rename_i later hl
          cases h
          obtain ⟨taken, he, hd⟩ := sound _ _ _ ho
          have hlen := congrArg List.length he
          have htwo := hd.two_le_length
          rw [List.length_append] at hlen
          rw [he]
          exact .cons hd (ih (by omega) hl)

/-- What is read as a packet is derived. -/
theorem derives_of_readPacket {levels : Nat} {octets rest : List UInt8} {packet : Packet}
    (few : levels ≤ depthLimit + 1) (h : readPacket levels octets = .ok (packet, rest)) :
    ∃ taken, octets = taken ++ rest ∧ Derives (depthLimit + 1 - levels) taken packet := by
  induction levels generalizing octets rest packet with
  | zero => cases h
  | succ levels ih =>
    have hs : depthLimit + 1 - (levels + 1) + 1 = depthLimit + 1 - levels := by omega
    simp only [readPacket, bind, Except.bind, pure, Except.pure] at h
    split at h
    · cases h
    · rename_i parts hp
      obtain ⟨⟨tagClass, constructed, tag, size⟩, contents, behind⟩ := parts
      obtain ⟨front, rfl, ⟨identifier, length, rfl, names, measures⟩, hc⟩ :=
        readParts_eq_ok_iff.1 hp
      dsimp only at names measures hc h
      subst hc
      cases constructed with
      | false =>
        cases h
        refine ⟨identifier ++ length ++ contents, by simp only [List.append_assoc], ?_⟩
        exact .primitive (by omega) names measures
      | true =>
        simp only [if_true] at h
        split at h
        · cases h
        · rename_i children hr
          cases h
          have hall := derivesAll_of_readAll (fun _ _ _ => ih (by omega)) (Nat.le_refl _) hr
          refine ⟨identifier ++ length ++ contents, by simp only [List.append_assoc], ?_⟩
          exact .constructed (by omega) names measures (by rw [hs]; exact hall)

mutual

/-- What is derived is read as a packet, in front of anything. -/
theorem readPacket_of_derives {depth : Nat} {octets : List UInt8} {packet : Packet} :
    Derives depth octets packet → ∀ rest,
      readPacket (depthLimit + 1 - depth) (octets ++ rest) = .ok (packet, rest)
  | @Derives.primitive _ identifier length value tagClass tag shallow names measures, rest => by
    have hs : depthLimit + 1 - depth = depthLimit - depth + 1 := by omega
    have hp : readParts (identifier ++ length ++ (value ++ rest)) =
        .ok (⟨tagClass, false, tag, value.length⟩, value, rest) :=
      readParts_eq_ok_iff.2 ⟨identifier ++ length, rfl,
        ⟨identifier, length, rfl, names, measures⟩, rfl⟩
    rw [hs, List.append_assoc (identifier ++ length), readPacket, hp]
    rfl
  | @Derives.constructed _ identifier length contents tagClass tag children shallow names measures
      holds, rest => by
    have hs : depthLimit + 1 - depth = depthLimit + 1 - (depth + 1) + 1 := by omega
    have hp : readParts (identifier ++ length ++ (contents ++ rest)) =
        .ok (⟨tagClass, true, tag, contents.length⟩, contents, rest) :=
      readParts_eq_ok_iff.2 ⟨identifier ++ length, rfl,
        ⟨identifier, length, rfl, names, measures⟩, rfl⟩
    have hall := readAll_of_derivesAll holds contents.length (Nat.le_refl _)
    rw [hs, List.append_assoc (identifier ++ length), readPacket, hp]
    simp only [bind, Except.bind, if_true, hall, pure, Except.pure]

/-- Packets that are derived one after the other are read so. -/
theorem readAll_of_derivesAll {depth : Nat} {octets : List UInt8} {packets : List Packet} :
    DerivesAll depth octets packets → ∀ fuel, octets.length ≤ fuel →
      readAll (readPacket (depthLimit + 1 - depth)) fuel octets = .ok packets
  | .nil, fuel, _ => by rw [readAll]
  | @DerivesAll.cons _ octets more packet packets first later, fuel, enough => by
    have htwo := first.two_le_length
    rw [List.length_append] at enough
    obtain ⟨fuel, rfl⟩ : ∃ less, fuel = less + 1 := ⟨fuel - 1, by omega⟩
    have hone := readPacket_of_derives first more
    have hall := readAll_of_derivesAll later fuel (by omega)
    rw [readAll_succ (by rw [List.length_append]; omega), hone]
    simp only [Except.bind, hall, Except.map]

end

/-- A packet is read off header and contents. -/
theorem readParts_of_readPacket {levels : Nat} {octets rest : List UInt8} {packet : Packet}
    (h : readPacket levels octets = .ok (packet, rest)) :
    ∃ header contents, readParts octets = .ok (header, contents, rest) := by
  cases levels with
  | zero => cases h
  | succ levels =>
    simp only [readPacket, bind, Except.bind, pure, Except.pure] at h
    split at h
    · cases h
    · rename_i parts hp
      obtain ⟨header, contents, behind⟩ := parts
      refine ⟨header, contents, ?_⟩
      rw [hp]
      split at h
      · split at h
        · cases h
        · cases h
          rfl
      · cases h
        rfl

/-- A packet is read off the front, and two octets at least are used up for it. -/
theorem exists_taken_of_readPacket {levels : Nat} {octets rest : List UInt8} {packet : Packet}
    (h : readPacket levels octets = .ok (packet, rest)) :
    ∃ taken, octets = taken ++ rest ∧ 2 ≤ taken.length := by
  obtain ⟨header, contents, hp⟩ := readParts_of_readPacket h
  obtain ⟨front, rfl, hh, _⟩ := readParts_eq_ok_iff.1 hp
  have htwo := hh.two_le_length
  refine ⟨front ++ contents, (List.append_assoc ..).symm, ?_⟩
  rw [List.length_append]
  omega

/-- What reading one item after the other comes to, if every item takes something and nothing but
that bounds their number. -/
inductive ReadsAll (one : List UInt8 → Except PacketFault (Packet × List UInt8)) :
    List UInt8 → Except PacketFault (List Packet) → Prop where
  /-- No octets are left. -/
  | done : ReadsAll one [] (.ok [])
  /-- An item cannot be read. -/
  | stops {octets fault} (left : octets ≠ []) (fails : one octets = .error fault) :
      ReadsAll one octets (.error fault)
  /-- An item is read before others. -/
  | more {octets rest packet outcome} (left : octets ≠ [])
      (reads : one octets = .ok (packet, rest)) (progress : rest.length < octets.length)
      (later : ReadsAll one rest outcome) :
      ReadsAll one octets (outcome.map (packet :: ·))

/-- As many items as there are octets are enough: the bound on their number never ends the
reading. -/
theorem readsAll_readAll {one : List UInt8 → Except PacketFault (Packet × List UInt8)}
    (progress : ∀ octets packet rest, one octets = .ok (packet, rest) →
      rest.length < octets.length)
    {fuel : Nat} {octets : List UInt8} (enough : octets.length ≤ fuel) :
    ReadsAll one octets (readAll one fuel octets) := by
  induction fuel generalizing octets with
  | zero =>
    obtain rfl := List.eq_nil_of_length_eq_zero (Nat.le_zero.1 enough)
    rw [readAll]
    exact .done
  | succ fuel ih =>
    cases octets with
    | nil =>
      rw [readAll]
      exact .done
    | cons octet octets =>
      rw [readAll_succ (by rw [List.length_cons]; omega)]
      cases ho : one (octet :: octets) with
      | error fault => exact .stops (List.cons_ne_nil _ _) ho
      | ok item =>
        obtain ⟨packet, rest⟩ := item
        have hl := progress _ _ _ ho
        exact .more (List.cons_ne_nil _ _) ho hl (ih (by omega))

/-- Reading a packet that may use up a number of levels never leaves the octets that it was
given. -/
structure StaysWithin (levels : Nat) (octets : List UInt8) : Prop where
  /-- The place behind a header is a place of the octets. -/
  header : ∀ header rest, readHeader octets = .ok (header, rest) → rest <:+ octets
  /-- Contents are refused where fewer octets follow the header than its length says. -/
  overrun : ∀ length available, readParts octets = .error (.overrun length available) →
    ∃ header rest, readHeader octets = .ok (header, rest) ∧ header.length = length ∧
      rest.length = available ∧ available < length
  /-- Contents that are taken are there, as many octets as the header says. -/
  contents : ∀ header contents rest, readParts octets = .ok (header, contents, rest) →
    contents.length = header.length ∧ ∃ front, octets = front ++ (contents ++ rest)
  /-- The next part is read behind the octets of this one, and there is at least one of them. -/
  part : ∀ packet rest, readPacket levels octets = .ok (packet, rest) →
    ∃ taken, taken ≠ [] ∧ octets = taken ++ rest
  /-- Reading one part after the other comes to an end. -/
  parts : ReadsAll (readPacket levels) octets (readAll (readPacket levels) octets.length octets)

/-- The faults of identifier and length octets. -/
def PacketFault.OfHeader : PacketFault → Prop
  | .empty | .truncatedTag | .tagOverflow | .truncatedLength | .indefiniteLength | .wideLength _
  | .truncatedLongLength => True
  | .tooDeep | .overrun _ _ | .trailing _ => False

/-- A tag number has faults of its own. -/
theorem ofHeader_of_readTagNumber {sum : Nat} {octets : List UInt8} {fault : PacketFault}
    (h : readTagNumber sum octets = .error fault) : fault.OfHeader := by
  induction octets generalizing sum with
  | nil => cases h; trivial
  | cons octet octets ih =>
    simp only [readTagNumber] at h
    split at h
    · cases h; trivial
    · split at h
      · cases h
      · exact ih h

/-- A length has faults of its own. -/
theorem ofHeader_of_readLength {octets : List UInt8} {fault : PacketFault}
    (h : readLength octets = .error fault) : fault.OfHeader := by
  revert h
  fun_cases readLength octets <;> intro h <;> cases h <;> trivial

/-- A header has faults of its own. -/
theorem ofHeader_of_readHeader {octets : List UInt8} {fault : PacketFault}
    (h : readHeader octets = .error fault) : fault.OfHeader := by
  cases octets with
  | nil => cases h; trivial
  | cons leading octets =>
    simp only [readHeader, bind, Except.bind, pure, Except.pure] at h
    split at h
    · rename_i cause ht
      cases h
      rw [readTag] at ht
      split at ht
      · exact ofHeader_of_readTagNumber ht
      · cases ht
    · split at h
      · rename_i cause hl
        cases h
        exact ofHeader_of_readLength hl
      · cases h

/-- Contents are refused for their length only behind a header that tells it. -/
theorem readParts_eq_overrun {octets : List UInt8} {length available : Nat}
    (h : readParts octets = .error (.overrun length available)) :
    ∃ header rest, readHeader octets = .ok (header, rest) ∧ header.length = length ∧
      rest.length = available ∧ available < length := by
  simp only [readParts, bind, Except.bind, pure, Except.pure, throw, throwThe,
    MonadExceptOf.throw] at h
  split at h
  · rename_i fault hr
    cases h
    exact (ofHeader_of_readHeader hr).elim
  · rename_i item hr
    split at h
    · rename_i hc
      cases h
      rw [List.length_take] at hc
      exact ⟨item.1, item.2, hr, rfl, rfl, by omega⟩
    · cases h

/-- Reading never leaves its octets. -/
theorem staysWithin (levels : Nat) (octets : List UInt8) : StaysWithin levels octets where
  header := by
    intro header rest h
    obtain ⟨front, rfl, _⟩ := readHeader_eq_ok_iff.1 h
    exact List.suffix_append front rest
  overrun := fun length available h => readParts_eq_overrun h
  contents := by
    intro header contents rest h
    obtain ⟨front, he, _, hc⟩ := readParts_eq_ok_iff.1 h
    exact ⟨hc, front, he⟩
  part := by
    intro packet rest h
    obtain ⟨taken, he, htwo⟩ := exists_taken_of_readPacket h
    exact ⟨taken, List.ne_nil_of_length_pos (by omega), he⟩
  parts := by
    refine readsAll_readAll (fun input packet rest h => ?_) (Nat.le_refl _)
    obtain ⟨taken, rfl, htwo⟩ := exists_taken_of_readPacket h
    rw [List.length_append]
    omega

/-- The packet at the front of octets is decoded if nothing follows it. -/
theorem decode_eq_ok_iff {octets : List UInt8} {packet : Packet} :
    Packet.decode octets = .ok packet ↔ readPacket (depthLimit + 1) octets = .ok (packet, []) := by
  simp only [Packet.decode, bind, Except.bind]
  cases readPacket (depthLimit + 1) octets with
  | error fault => constructor <;> intro h <;> cases h
  | ok item =>
    obtain ⟨found, rest⟩ := item
    cases rest with
    | nil => constructor <;> intro h <;> cases h <;> rfl
    | cons octet rest => constructor <;> intro h <;> cases h

/-- Octets decode to a packet exactly if the grammar derives it from them at the outermost depth. -/
theorem decode_eq_ok_iff_derives {octets : List UInt8} {packet : Packet} :
    Packet.decode octets = .ok packet ↔ Derives 0 octets packet := by
  rw [decode_eq_ok_iff]
  constructor
  · intro h
    obtain ⟨taken, rfl, derives⟩ := derives_of_readPacket (Nat.le_refl _) h
    rwa [List.append_nil, Nat.sub_self] at *
  · intro derives
    have h := readPacket_of_derives derives []
    rwa [List.append_nil] at h

/-- The decoder accepts exactly the octets that the grammar derives, with the packet that it
derives; all other octets it refuses with a cause. While it reads, it never leaves the octets of
the packet that it is in, and reading the parts of a packet always comes to an end. -/
theorem decode_accepts_grammar (octets : List UInt8) :
    (∀ packet, Packet.decode octets = .ok packet ↔ Derives 0 octets packet) ∧
      ((∃ cause, Packet.decode octets = .error cause) ↔ ∀ packet, ¬ Derives 0 octets packet) ∧
      ∀ levels input, StaysWithin levels input := by
  refine ⟨fun packet => decode_eq_ok_iff_derives, ?_, staysWithin⟩
  constructor
  · rintro ⟨cause, h⟩ packet derives
    rw [decode_eq_ok_iff_derives.2 derives] at h
    cases h
  · intro none
    cases h : Packet.decode octets with
    | error cause => exact ⟨cause, rfl⟩
    | ok packet => exact absurd (decode_eq_ok_iff_derives.1 h) (none packet)

end DirectoryService.Ber
