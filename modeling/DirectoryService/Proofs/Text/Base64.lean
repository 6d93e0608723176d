import DirectoryService.Proofs.Text.Utf8
import DirectoryService.Text.Base64

/-!
# Base 64 read back

A text of base 64 stands for a list of numbers below 64, and such a list stands for octets if the
bits that no octet uses are zero. Reading accepts a text exactly if it is what is written for some
octets, and these are what it reads, so every sequence of octets has one text.
-/

namespace DirectoryService.Base64

/-- The octet of the symbol of a number. -/
def symbolOctet (number : Nat) : UInt8 := UInt8.ofNat (symbol number).toNat

/-- A symbol is one octet, and not the padding. -/
theorem utf8EncodeChar_symbol : ∀ number < 64,
    String.utf8EncodeChar (symbol number) = [symbolOctet number] := by
  decide +kernel

/-- The number of a symbol is read from its octet. -/
theorem value?_symbolOctet : ∀ number < 64, value? (symbolOctet number) = some number := by
  decide +kernel

/-- An octet with a number is the octet of the symbol of this number. -/
theorem eq_symbolOctet_of_value? {octet : UInt8} {number : Nat}
    (valued : value? octet = some number) : number < 64 ∧ octet = symbolOctet number := by
  have hall : ∀ code < 256, ∀ number ∈ value? (UInt8.ofNat code),
      number < 64 ∧ UInt8.ofNat code = symbolOctet number := by
    decide +kernel
  have hoctet := hall octet.toNat (UInt8.toNat_lt octet)
  rw [UInt8.ofNat_toNat] at hoctet
  exact hoctet number valued

/-- A symbol is not the padding. -/
theorem symbolOctet_ne_pad {number : Nat} (small : number < 64) : symbolOctet number ≠ pad := by
  intro same
  have hv := value?_symbolOctet number small
  rw [same] at hv
  cases hv

/-- The numbers are read from the octets of their symbols. -/
theorem filterMap_symbolOctet {numbers : List Nat} (small : ∀ number ∈ numbers, number < 64) :
    (numbers.map symbolOctet).filterMap value? = numbers := by
  induction numbers with
  | nil => rfl
  | cons number numbers ih =>
    obtain ⟨here, rest⟩ := List.forall_mem_cons.1 small
    rw [List.map_cons, List.filterMap_cons_some (value?_symbolOctet number here), ih rest]

/-- Nothing but symbols is in octets without a foreign one. -/
theorem firstForeign?_eq_none_iff {octets : List UInt8} {offset : Nat} :
    firstForeign? offset octets = none ↔
      ∃ numbers : List Nat, (∀ number ∈ numbers, number < 64) ∧
        octets = numbers.map symbolOctet := by
  induction octets generalizing offset with
  | nil =>
    simp only [firstForeign?, true_iff]
    exact ⟨[], nofun, rfl⟩
  | cons octet octets ih =>
    rw [firstForeign?]
    constructor
    · intro h
      split at h
      · rename_i valued
        obtain ⟨number, hn⟩ := Option.isSome_iff_exists.1 valued
        obtain ⟨numbers, small, rfl⟩ := ih.1 h
        obtain ⟨here, rfl⟩ := eq_symbolOctet_of_value? hn
        exact ⟨number :: numbers, List.forall_mem_cons.2 ⟨here, small⟩, rfl⟩
      · cases h
    · intro h
      obtain ⟨numbers, small, same⟩ := h
      cases numbers with
      | nil => cases same
      | cons number numbers =>
        obtain ⟨here, rest⟩ := List.forall_mem_cons.1 small
        obtain ⟨rfl, rfl⟩ := List.cons.inj same
        rw [value?_symbolOctet number here]
        exact ih.2 ⟨numbers, rest, rfl⟩

/-- The numbers of octets, three octets to four numbers; where one or two octets are left, the bits
that are missing from their last number are zero. -/
def numbersOf : List UInt8 → List Nat
  | [] => []
  | [a] =>
    let sum := a.toNat * 16
    [sum / 64, sum % 64]
  | [a, b] =>
    let sum := (a.toNat * 256 + b.toNat) * 4
    [sum / 4096, sum / 64 % 64, sum % 64]
  | a :: b :: c :: rest =>
    let sum := (a.toNat * 256 + b.toNat) * 256 + c.toNat
    sum / 262144 :: sum / 4096 % 64 :: sum / 64 % 64 :: sum % 64 :: numbersOf rest

/-- Numbers below 64 that are numbers of octets: no single number is left over, and the bits of a
last one that belong to no octet are zero. -/
inductive Filled : List Nat → Prop where
  /-- There are no octets. -/
  | nil : Filled []
  /-- One octet is left over. -/
  | two {a b} (ha : a < 64) (hb : b < 64) (unused : b % 16 = 0) : Filled [a, b]
  /-- Two octets are left over. -/
  | three {a b c} (ha : a < 64) (hb : b < 64) (hc : c < 64) (unused : c % 4 = 0) : Filled [a, b, c]
  /-- Three octets stand before others. -/
  | four {a b c d rest} (ha : a < 64) (hb : b < 64) (hc : c < 64) (hd : d < 64)
      (filled : Filled rest) : Filled (a :: b :: c :: d :: rest)

/-- Octets have filled numbers. -/
theorem filled_numbersOf (octets : List UInt8) : Filled (numbersOf octets) := by
  induction octets using numbersOf.induct with
  | case1 => exact .nil
  | case2 a =>
    have ha := UInt8.toNat_lt a
    exact .two (by omega) (by omega) (by omega)
  | case3 a b =>
    have ha := UInt8.toNat_lt a
    have hb := UInt8.toNat_lt b
    exact .three (by omega) (by omega) (by omega) (by omega)
  | case4 a b c rest ih =>
    have ha := UInt8.toNat_lt a
    have hb := UInt8.toNat_lt b
    have hc := UInt8.toNat_lt c
    exact .four (by omega) (by omega) (by omega) (by omega) ih

/-- An octet is told by its number modulo 256. -/
theorem ofNat_eq_of_mod {number : Nat} (octet : UInt8) (same : number % 256 = octet.toNat) :
    UInt8.ofNat number = octet := by
  rw [← UInt8.toNat_inj, UInt8.toNat_ofNat']
  exact same

/-- Octets are gathered from their numbers. -/
theorem gather_numbersOf (octets : List UInt8) : gather (numbersOf octets) = octets := by
  induction octets using numbersOf.induct with
  | case1 => rfl
  | case2 a =>
    have ha := UInt8.toNat_lt a
    rw [numbersOf, gather, ofNat_eq_of_mod a (by omega)]
  | case3 a b =>
    have ha := UInt8.toNat_lt a
    have hb := UInt8.toNat_lt b
    rw [numbersOf, gather, ofNat_eq_of_mod a (by omega),
      ofNat_eq_of_mod b (by omega)]
  | case4 a b c rest ih =>
    have ha := UInt8.toNat_lt a
    have hb := UInt8.toNat_lt b
    have hc := UInt8.toNat_lt c
    rw [numbersOf, gather, ih, ofNat_eq_of_mod a (by omega),
      ofNat_eq_of_mod b (by omega), ofNat_eq_of_mod c (by omega)]

/-- Filled numbers are the numbers of the octets that are gathered from them. -/
theorem numbersOf_gather {numbers : List Nat} (filled : Filled numbers) :
    numbersOf (gather numbers) = numbers := by
  induction filled with
  | nil => rfl
  | two ha hb unused =>
    simp only [gather, numbersOf, UInt8.toNat_ofNat']
    congr 1
    · omega
    · congr 1
      omega
  | three ha hb hc unused =>
    simp only [gather, numbersOf, UInt8.toNat_ofNat']
    congr 1
    · omega
    · congr 1
      · omega
      · congr 1
        omega
  | four ha hb hc hd filled ih =>
    simp only [gather, numbersOf, UInt8.toNat_ofNat', ih]
    congr 1
    · omega
    · congr 1
      · omega
      · congr 1
        · omega
        · congr 1
          omega

/-- The octets that are written for numbers: a symbol for each, and padding up to a whole group. -/
def written (numbers : List Nat) : List UInt8 :=
  numbers.map symbolOctet ++ List.replicate ((4 - numbers.length % 4) % 4) pad

/-- Octets are written as their numbers. -/
theorem encode_eq_written (octets : List UInt8) :
    Utf8.encode (encode octets) = written (numbersOf octets) := by
  have hpad : String.utf8EncodeChar '=' = [pad] := by decide
  rw [Utf8.encode, encode, String.toList_ofList, Utf8.encodeChars]
  induction octets using numbersOf.induct with
  | case1 => rfl
  | case2 a =>
    have ha := UInt8.toNat_lt a
    simp only [encodeChars, List.flatMap_cons, List.flatMap_nil, hpad]
    rw [utf8EncodeChar_symbol _ (by omega), utf8EncodeChar_symbol _ (by omega)]
    rfl
  | case3 a b =>
    have ha := UInt8.toNat_lt a
    have hb := UInt8.toNat_lt b
    simp only [encodeChars, List.flatMap_cons, List.flatMap_nil, hpad]
    rw [utf8EncodeChar_symbol _ (by omega), utf8EncodeChar_symbol _ (by omega),
      utf8EncodeChar_symbol _ (by omega)]
    rfl
  | case4 a b c rest ih =>
    have ha := UInt8.toNat_lt a
    have hb := UInt8.toNat_lt b
    have hc := UInt8.toNat_lt c
    simp only [encodeChars, List.flatMap_cons]
    rw [utf8EncodeChar_symbol _ (by omega), utf8EncodeChar_symbol _ (by omega),
      utf8EncodeChar_symbol _ (by omega), utf8EncodeChar_symbol _ (by omega), ih]
    simp only [written, numbersOf, List.map_cons, List.length_cons, Nat.add_assoc, Nat.add_mod_right,
      List.cons_append, List.nil_append]

/-- A last group: the numbers of at least two symbols, and no bit that belongs to no octet. -/
inductive Closes : List Nat → Prop where
  /-- Its symbols are followed by two paddings. -/
  | two {a b} (unused : b % 16 = 0) : Closes [a, b]
  /-- Its symbols are followed by one padding. -/
  | three {a b c} (unused : c % 4 = 0) : Closes [a, b, c]
  /-- It holds symbols only. -/
  | four {a b c d} : Closes [a, b, c, d]

/-- Filled numbers are whole groups before a last one, if they are any. -/
theorem Filled.exists_closes {numbers : List Nat} (filled : Filled numbers) (some : numbers ≠ []) :
    ∃ front last, numbers = front ++ last ∧ front.length % 4 = 0 ∧ Closes last := by
  induction filled with
  | nil => exact absurd rfl some
  | @two a b ha hb unused => exact ⟨[], [a, b], rfl, rfl, .two unused⟩
  | @three a b c ha hb hc unused => exact ⟨[], [a, b, c], rfl, rfl, .three unused⟩
  | @four a b c d rest ha hb hc hd filled ih =>
    by_cases none : rest = []
    · subst none
      exact ⟨[], [a, b, c, d], rfl, rfl, .four⟩
    · obtain ⟨front, last, rfl, whole, closes⟩ := ih none
      refine ⟨a :: b :: c :: d :: front, last, rfl, ?_, closes⟩
      rw [List.length_cons, List.length_cons, List.length_cons, List.length_cons]
      omega

/-- Filled numbers are below 64. -/
theorem Filled.small {numbers : List Nat} (filled : Filled numbers) :
    ∀ number ∈ numbers, number < 64 := by
  induction filled with
  | nil => nofun
  | two ha hb unused => simp [ha, hb]
  | three ha hb hc unused => simp [ha, hb, hc]
  | four ha hb hc hd filled ih => simpa [ha, hb, hc, hd] using ih

/-- Numbers below 64 in whole groups before a last one are filled. -/
theorem Closes.filled {front last : List Nat} (closes : Closes last) (whole : front.length % 4 = 0)
    (small : ∀ number ∈ front ++ last, number < 64) : Filled (front ++ last) := by
  match front with
  | [] =>
    cases closes with
    | two unused => simp at small; exact .two small.1 small.2 unused
    | three unused => simp at small; exact .three small.1 small.2.1 small.2.2 unused
    | four => simp at small; exact .four small.1 small.2.1 small.2.2.1 small.2.2.2 .nil
  | [_] => simp at whole
  | [_, _] => simp at whole
  | [_, _, _] => simp at whole
  | a :: b :: c :: d :: front =>
    simp only [List.cons_append, List.forall_mem_cons] at small
    obtain ⟨ha, hb, hc, hd, rest⟩ := small
    have hwhole : front.length % 4 = 0 := by
      simp only [List.length_cons] at whole
      omega
    exact .four ha hb hc hd (closes.filled hwhole rest)

/-- The symbols of a last group end at its padding. -/
theorem takeWhile_symbols_append {numbers : List Nat} (small : ∀ number ∈ numbers, number < 64)
    (count : Nat) :
    (numbers.map symbolOctet ++ List.replicate count pad).takeWhile (· ≠ pad) =
      numbers.map symbolOctet := by
  have hne : ∀ octet ∈ numbers.map symbolOctet, decide (octet ≠ pad) = true := by
    intro octet member
    obtain ⟨number, hn, rfl⟩ := List.mem_map.1 member
    exact decide_eq_true (symbolOctet_ne_pad (small number hn))
  rw [List.takeWhile_append_of_pos hne]
  cases count with
  | zero => exact List.append_nil _
  | succ count => rw [List.replicate_succ, List.takeWhile_cons_of_neg (by decide), List.append_nil]

/-- Padding may follow if there are two symbols, and is nothing else. -/
theorem misplaced_eq_false_iff {symbols padding : List UInt8} :
    (decide (symbols.length < 2) || padding.any (· ≠ pad)) = false ↔
      2 ≤ symbols.length ∧ padding = List.replicate padding.length pad := by
  rw [Bool.or_eq_false_iff, decide_eq_false_iff_not, Nat.not_lt, List.any_eq_false,
    List.eq_replicate_iff]
  simp only [decide_eq_true_eq, Decidable.not_not, true_and]

/-- A last group is read if it is symbols, two at least, before padding, or symbols alone. -/
theorem lastSymbols_eq_ok_iff {offset : Nat} {group symbols : List UInt8} :
    lastSymbols offset group = .ok symbols ↔
      firstForeign? offset symbols = none ∧
        ∃ count, group = symbols ++ List.replicate count pad ∧ (count = 0 ∨ 2 ≤ symbols.length) := by
  constructor
  · intro h
    have hsplit : group.takeWhile (· ≠ pad) ++ group.dropWhile (· ≠ pad) = group :=
      List.takeWhile_append_dropWhile
    have hdrop : (group.takeWhile (· ≠ pad) ++ group.dropWhile (· ≠ pad)).drop
        (group.takeWhile (· ≠ pad)).length = group.dropWhile (· ≠ pad) := List.drop_left
    rw [hsplit] at hdrop
    simp only [lastSymbols, hdrop] at h
    split at h
    · cases h
    · rename_i known
      split at h
      · rename_i empty
        cases h
        rw [List.isEmpty_iff.1 empty, List.append_nil] at hsplit
        exact ⟨known, 0, by rw [List.replicate_zero, List.append_nil, hsplit], .inl rfl⟩
      · split at h
        · cases h
        · rename_i placed
          cases h
          obtain ⟨enough, hpads⟩ := misplaced_eq_false_iff.1 (Bool.eq_false_iff.2 placed)
          exact ⟨known, _, by rw [← hpads, hsplit], .inr enough⟩
  · intro h
    obtain ⟨known, count, rfl, enough⟩ := h
    obtain ⟨numbers, small, rfl⟩ := firstForeign?_eq_none_iff.1 known
    simp only [lastSymbols, takeWhile_symbols_append small count, known, List.drop_left]
    rcases enough with rfl | enough
    · rfl
    · have hpads : List.replicate count pad =
          List.replicate (List.replicate count pad).length pad := by rw [List.length_replicate]
      rw [misplaced_eq_false_iff.2 ⟨enough, hpads⟩]
      simp only [Bool.false_eq_true, if_false, ite_self]

/-- A text consists of whole groups and a last group, which is empty only if the text is. -/
structure EndsIn (text whole group : List UInt8) : Prop where
  /-- The last group stands at the end. -/
  text_eq : text = whole ++ group
  /-- Four symbols make a whole group. -/
  aligned : whole.length % 4 = 0
  /-- The last group is not longer than a whole one. -/
  le_four : group.length ≤ 4
  /-- There is a last group unless there is nothing. -/
  nonempty : group.length = 0 → whole.length = 0

/-- Every text has a last group. -/
theorem exists_endsIn (text : List UInt8) : ∃ whole group, EndsIn text whole group := by
  let size := if text.length % 4 = 0 then min text.length 4 else text.length % 4
  have hsize : size ≤ 4 ∧ (text.length - size) % 4 = 0 ∧ size ≤ text.length ∧
      (size = 0 → text.length = 0) := by
    simp only [size]
    split <;> omega
  have hwhole : (text.take (text.length - size)).length = text.length - size := by
    rw [List.length_take]
    omega
  have hgroup : (text.drop (text.length - size)).length = size := by
    rw [List.length_drop]
    omega
  refine ⟨_, _, (List.take_append_drop (text.length - size) text).symm, ?_, ?_, ?_⟩
  · rw [hwhole, hsize.2.1]
  · rw [hgroup]
    exact hsize.1
  · rw [hgroup, hwhole]
    omega

section

variable {rules : Rules} {text whole group octets : List UInt8}

/-- The last group is as long as reading takes it to be. -/
theorem EndsIn.size_eq (ends : EndsIn text whole group) :
    (if text.length % 4 = 0 then min text.length 4 else text.length % 4) = group.length ∧
      text.length - group.length = whole.length ∧
        text.take whole.length = whole ∧ text.drop whole.length = group := by
  obtain ⟨rfl, aligned, le_four, nonempty⟩ := ends
  rw [List.length_append, Nat.add_sub_cancel]
  refine ⟨?_, rfl, List.take_left, List.drop_left⟩
  split <;> omega

/-- A text with a single octet in its last group is refused in one way or the other. -/
theorem EndsIn.decode_single (ends : EndsIn text whole group) (single : group.length = 1) :
    decode rules text ≠ .ok octets := by
  obtain ⟨hsize, -⟩ := ends.size_eq
  intro h
  simp only [decode, bind, Except.bind, pure, Except.pure, throw, throwThe, MonadExceptOf.throw,
    hsize, single, if_true] at h
  split at h
  · cases h
  · split at h
    · cases h
    · split at h
      · cases h
      · split at h <;> cases h

/-- A text with more than one octet in its last group is read if both its parts are. -/
theorem EndsIn.decode_eq_ok_iff (padded : rules.paddingRequired = true)
    (ends : EndsIn text whole group) (several : group.length ≠ 1) :
    decode rules text = .ok octets ↔
      group.length % 4 = 0 ∧ firstForeign? 0 whole = none ∧
        ∃ symbols, lastSymbols whole.length group = .ok symbols ∧ unusedBits symbols = 0 ∧
          octets = gather ((whole ++ symbols).filterMap value?) := by
  obtain ⟨hsize, hlength, hwhole, hgroup⟩ := ends.size_eq
  simp only [decode, bind, Except.bind, pure, Except.pure, throw, throwThe, MonadExceptOf.throw,
    padded, Bool.true_and, hsize, hwhole, hgroup, hlength, if_neg several]
  cases known : firstForeign? 0 whole with
  | some fault => simp only [reduceCtorEq, false_and, and_false]
  | none =>
    cases last : lastSymbols whole.length group with
    | error fault => simp only [reduceCtorEq, false_and, and_false, exists_false]
    | ok symbols =>
      simp only [decide_eq_true_eq, ite_not, Except.ok.injEq, true_and, exists_eq_left', closeGroup]
      by_cases full : group.length % 4 = 0
      · by_cases unused : unusedBits symbols = 0
        · simp only [full, unused, if_true, true_and, Except.ok.injEq]
          exact eq_comm
        · simp only [full, unused, if_true, if_false, reduceCtorEq, false_and, and_false]
      · simp only [full, if_false, reduceCtorEq, false_and]

end

/-- A text is read as whole groups of symbols before a last group. -/
theorem decode_eq_ok_iff_groups {rules : Rules} (padded : rules.paddingRequired = true)
    {text octets : List UInt8} :
    decode rules text = .ok octets ↔
      ∃ whole group symbols, text = whole ++ group ∧ whole.length % 4 = 0 ∧
        (group.length = 4 ∨ text = []) ∧ firstForeign? 0 whole = none ∧
        lastSymbols whole.length group = .ok symbols ∧ unusedBits symbols = 0 ∧
        octets = gather ((whole ++ symbols).filterMap value?) := by
  constructor
  · intro h
    obtain ⟨whole, group, ends⟩ := exists_endsIn text
    have several : group.length ≠ 1 := fun single => ends.decode_single single h
    obtain ⟨full, known, symbols, last, unused, rfl⟩ := (ends.decode_eq_ok_iff padded several).1 h
    obtain ⟨rfl, aligned, le_four, nonempty⟩ := ends
    refine ⟨whole, group, symbols, rfl, aligned, ?_, known, last, unused, rfl⟩
    rw [← List.length_eq_zero_iff, List.length_append]
    omega
  · intro h
    obtain ⟨whole, group, symbols, rfl, aligned, hgroup, known, last, unused, rfl⟩ := h
    rw [← List.length_eq_zero_iff, List.length_append] at hgroup
    have ends : EndsIn (whole ++ group) whole group := ⟨rfl, aligned, by omega, by omega⟩
    exact (ends.decode_eq_ok_iff padded (by omega)).2
      ⟨by omega, known, symbols, last, unused, rfl⟩

/-- The unused bits of symbols are those of their numbers: there are none exactly in a last group. -/
theorem unusedBits_eq_zero_iff {numbers : List Nat} (small : ∀ number ∈ numbers, number < 64)
    (two_le : 2 ≤ numbers.length) (le_four : numbers.length ≤ 4) :
    unusedBits (numbers.map symbolOctet) = 0 ↔ Closes numbers := by
  match numbers with
  | [] => simp at two_le
  | [_] => simp at two_le
  | [a, b] =>
    have hb := value?_symbolOctet b (small b (by simp))
    simp only [unusedBits, List.map_cons, List.map_nil, List.length_cons, List.length_nil,
      List.getLast?_cons_cons, List.getLast?_singleton, Option.bind_some, hb, Option.getD_some]
    exact ⟨.two, fun closes => by cases closes; assumption⟩
  | [a, b, c] =>
    have hc := value?_symbolOctet c (small c (by simp))
    simp only [unusedBits, List.map_cons, List.map_nil, List.length_cons, List.length_nil,
      List.getLast?_cons_cons, List.getLast?_singleton, Option.bind_some, hc, Option.getD_some]
    exact ⟨.three, fun closes => by cases closes; assumption⟩
  | [a, b, c, d] => exact ⟨fun _ => .four, fun _ => rfl⟩
  | _ :: _ :: _ :: _ :: _ :: _ =>
    simp only [List.length_cons] at le_four
    omega

/-- What is written for filled numbers is read. -/
theorem decode_written {rules : Rules} (padded : rules.paddingRequired = true) {numbers : List Nat}
    (filled : Filled numbers) : decode rules (written numbers) = .ok (gather numbers) := by
  rw [decode_eq_ok_iff_groups padded]
  by_cases none : numbers = []
  · subst none
    exact ⟨[], [], [], rfl, rfl, .inr rfl, rfl, rfl, rfl, rfl⟩
  · have hsmall := filled.small
    obtain ⟨front, last, rfl, aligned, closes⟩ := filled.exists_closes none
    obtain ⟨hfront, hlast⟩ := List.forall_mem_append.1 hsmall
    have hsize : 2 ≤ last.length ∧ last.length ≤ 4 := by
      cases closes <;> simp
    have hcount : (4 - (front ++ last).length % 4) % 4 = 4 - last.length := by
      rw [List.length_append]
      omega
    refine ⟨front.map symbolOctet,
      last.map symbolOctet ++ List.replicate (4 - last.length) pad, last.map symbolOctet,
      ?_, ?_, .inl ?_, ?_, ?_, ?_, ?_⟩
    · rw [written, hcount, List.map_append, List.append_assoc]
    · rw [List.length_map, aligned]
    · rw [List.length_append, List.length_map, List.length_replicate]
      omega
    · exact firstForeign?_eq_none_iff.2 ⟨front, hfront, rfl⟩
    · refine lastSymbols_eq_ok_iff.2 ⟨firstForeign?_eq_none_iff.2 ⟨last, hlast, rfl⟩, _, rfl, ?_⟩
      rw [List.length_map]
      exact .inr hsize.1
    · exact (unusedBits_eq_zero_iff hlast hsize.1 hsize.2).2 closes
    · rw [← List.map_append, filterMap_symbolOctet hsmall]

/-- Exactly the texts of filled numbers are read. -/
theorem decode_eq_ok_iff_filled {rules : Rules} (padded : rules.paddingRequired = true)
    {text octets : List UInt8} :
    decode rules text = .ok octets ↔
      ∃ numbers, Filled numbers ∧ text = written numbers ∧ octets = gather numbers := by
  constructor
  · intro h
    obtain ⟨whole, group, symbols, rfl, aligned, hgroup, known, last, unused, rfl⟩ :=
      (decode_eq_ok_iff_groups padded).1 h
    obtain ⟨hsymbols, count, rfl, enough⟩ := lastSymbols_eq_ok_iff.1 last
    obtain ⟨front, hfront, rfl⟩ := firstForeign?_eq_none_iff.1 known
    obtain ⟨back, hback, rfl⟩ := firstForeign?_eq_none_iff.1 hsymbols
    have hsmall : ∀ number ∈ front ++ back, number < 64 := List.forall_mem_append.2 ⟨hfront, hback⟩
    rw [← List.map_append, filterMap_symbolOctet hsmall]
    rcases hgroup with hgroup | none
    · rw [List.length_append, List.length_map, List.length_replicate] at hgroup
      rw [List.length_map] at aligned enough
      have closes := (unusedBits_eq_zero_iff hback (by omega) (by omega)).1 unused
      refine ⟨front ++ back, closes.filled aligned hsmall, ?_, rfl⟩
      have hcount : (4 - (front ++ back).length % 4) % 4 = count := by
        rw [List.length_append]
        omega
      rw [written, hcount, List.map_append, List.append_assoc]
    · simp only [List.append_eq_nil_iff, List.map_eq_nil_iff] at none
      obtain ⟨rfl, rfl, hpads⟩ := none
      rw [hpads]
      exact ⟨[], .nil, rfl, rfl⟩
  · intro h
    obtain ⟨numbers, filled, rfl, rfl⟩ := h
    exact decode_written padded filled

/-- A text is read exactly if it is what is written for some octets, and these are read. -/
theorem decode_eq_ok_iff {rules : Rules} (padded : rules.paddingRequired = true)
    {text : String} {octets : List UInt8} :
    decode rules (Utf8.encode text) = .ok octets ↔ text = encode octets := by
  rw [decode_eq_ok_iff_filled padded]
  constructor
  · intro h
    obtain ⟨numbers, filled, written, rfl⟩ := h
    rw [← numbersOf_gather filled, ← encode_eq_written] at written
    exact Utf8.encode_inj.1 written
  · intro same
    subst same
    exact ⟨numbersOf octets, filled_numbersOf octets, encode_eq_written octets,
      (gather_numbersOf octets).symm⟩

/-- No two sequences of octets have the same text. -/
theorem encode_inj {left right : List UInt8} : encode left = encode right ↔ left = right := by
  refine ⟨fun same => ?_, congrArg encode⟩
  have hleft : decode ⟨true, false⟩ (Utf8.encode (encode left)) = .ok left :=
    (decode_eq_ok_iff rfl).2 rfl
  have hright : decode ⟨true, false⟩ (Utf8.encode (encode left)) = .ok right :=
    (decode_eq_ok_iff rfl).2 same
  rw [hleft] at hright
  exact Except.ok.inj hright

end DirectoryService.Base64
