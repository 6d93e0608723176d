import DirectoryService.Text.Utf8

/-!
# Text read back

The octets of a text are read as this text, so no two texts have the same octets. Every character is
read on its own: the octet with which it starts tells how many others belong to it. No reading loses
an octet, and what is read as a character is the way in which this character is written.
-/

namespace DirectoryService.Utf8

/-- The octets that belong to a character are the ones that its first octet asks for. -/
theorem tail_append {first second : UInt8} {others rest : List UInt8}
    (wide : width first = others.length + 2) (second_fits : isSecond first second = true)
    (others_fit : ∀ octet ∈ others, isLater octet = true) :
    tail first (second :: (others ++ rest)) = second :: others := by
  have hwide : 2 ≤ width first := by omega
  have hcount : width first - 2 = others.length := by omega
  rw [tail, decide_eq_true hwide, second_fits, hcount, List.take_left]
  simp only [Bool.and_self, if_true]
  have htake : (others ++ []).takeWhile isLater = others ++ [].takeWhile isLater :=
    List.takeWhile_append_of_pos others_fit
  rw [List.append_nil, List.takeWhile_nil, List.append_nil] at htake
  rw [htake]

/-- An octet with the octets that it asks for is read as a character. -/
theorem pieces_append {first : UInt8} {others rest : List UInt8}
    (taken : tail first (others ++ rest) = others) (whole : others.length + 1 = width first) :
    pieces (first :: (others ++ rest)) =
      .char (Char.ofNat (codePoint first others)) :: pieces rest := by
  rw [pieces, piece, taken, if_pos whole, List.drop_left]

/-- The number of octets of a character, told by the number of the first one. -/
theorem width_eq (first : UInt8) : width first =
    if first.toNat < 128 then 1 else if first.toNat < 194 then 0 else if first.toNat < 224 then 2
    else if first.toNat < 240 then 3 else if first.toNat < 245 then 4 else 0 := by
  simp only [width, UInt8.lt_iff_toNat_lt]
  rfl

/-- Which octets may stand second, told by their numbers. -/
theorem isSecond_iff (first octet : UInt8) : isSecond first octet = true ↔
    if first.toNat = 224 then 160 ≤ octet.toNat ∧ octet.toNat ≤ 191
    else if first.toNat = 237 then 128 ≤ octet.toNat ∧ octet.toNat ≤ 159
    else if first.toNat = 240 then 144 ≤ octet.toNat ∧ octet.toNat ≤ 191
    else if first.toNat = 244 then 128 ≤ octet.toNat ∧ octet.toNat ≤ 143
    else 128 ≤ octet.toNat ∧ octet.toNat ≤ 191 := by
  simp only [isSecond, ← UInt8.toNat_inj, UInt8.le_iff_toNat_le, UInt8.reduceToNat]
  repeat' split
  all_goals simp only [Bool.and_eq_true, decide_eq_true_eq]

/-- Which octets may stand later, told by their numbers. -/
theorem isLater_iff (octet : UInt8) :
    isLater octet = true ↔ 128 ≤ octet.toNat ∧ octet.toNat ≤ 191 := by
  simp only [isLater, UInt8.le_iff_toNat_le, Bool.and_eq_true, decide_eq_true_eq]
  rfl

section

variable {a b c d : UInt8} {point : Nat} {rest : List UInt8}

/-- A character of one octet is read. -/
theorem pieces_one (ha : a.toNat = point) (small : point < 128) :
    pieces (a :: rest) = .char (Char.ofNat point) :: pieces rest := by
  have hw : width a = 1 := by
    rw [width_eq, ha, if_pos small]
  have htail : tail a ([] ++ rest) = [] := by
    cases rest with
    | nil => rfl
    | cons second more =>
      simp only [List.nil_append, tail, hw]
      rfl
  have hpoint : codePoint a [] = point := by
    simp only [codePoint, hw, List.foldl_nil, ha]
  have hp := pieces_append htail (by rw [hw]; rfl)
  rw [hpoint] at hp
  exact hp

/-- A character of two octets is read. -/
theorem pieces_two (ha : a.toNat = point / 64 + 192) (hb : b.toNat = point % 64 + 128)
    (low : 128 ≤ point) (high : point < 2048) :
    pieces (a :: b :: rest) = .char (Char.ofNat point) :: pieces rest := by
  have hw : width a = 2 := by
    rw [width_eq, ha, if_neg (by omega), if_neg (by omega), if_pos (by omega)]
  have hs : isSecond a b = true := by
    rw [isSecond_iff, ha, if_neg (by omega), if_neg (by omega), if_neg (by omega),
      if_neg (by omega)]
    omega
  have hpoint : codePoint a [b] = 64 * (a.toNat % 32) + b.toNat % 64 := by
    simp only [codePoint, hw, List.foldl_cons, List.foldl_nil]
  have hsum : 64 * (a.toNat % 32) + b.toNat % 64 = point := by
    rw [ha, hb]
    omega
  have htail : tail a ([b] ++ rest) = [b] := tail_append hw hs nofun
  have hp := pieces_append htail (by rw [hw]; rfl)
  rw [hpoint, hsum] at hp
  exact hp

/-- A character of three octets is read. -/
theorem pieces_three (ha : a.toNat = point / 4096 + 224) (hb : b.toNat = point / 64 % 64 + 128)
    (hc : c.toNat = point % 64 + 128) (low : 2048 ≤ point) (high : point < 65536)
    (valid : point < 55296 ∨ 57343 < point) :
    pieces (a :: b :: c :: rest) = .char (Char.ofNat point) :: pieces rest := by
  have hw : width a = 3 := by
    rw [width_eq, ha, if_neg (by omega), if_neg (by omega), if_neg (by omega), if_pos (by omega)]
  have hs : isSecond a b = true := by
    rw [isSecond_iff, ha, hb]
    -- Below 2048 the form would be too long, and the surrogates are no characters.
    split
    · omega
    · split
      · omega
      · rw [if_neg (by omega), if_neg (by omega)]
        omega
  have hl : ∀ octet ∈ [c], isLater octet = true := by
    intro octet member
    rw [List.mem_singleton.1 member, isLater_iff, hc]
    omega
  have hpoint : codePoint a [b, c] =
      64 * (64 * (a.toNat % 16) + b.toNat % 64) + c.toNat % 64 := by
    simp only [codePoint, hw, List.foldl_cons, List.foldl_nil]
  have hsum : 64 * (64 * (a.toNat % 16) + b.toNat % 64) + c.toNat % 64 = point := by
    rw [ha, hb, hc]
    omega
  have htail : tail a ([b, c] ++ rest) = [b, c] := tail_append hw hs hl
  have hp := pieces_append htail (by rw [hw]; rfl)
  rw [hpoint, hsum] at hp
  exact hp

/-- A character of four octets is read. -/
theorem pieces_four (ha : a.toNat = point / 262144 + 240)
    (hb : b.toNat = point / 4096 % 64 + 128) (hc : c.toNat = point / 64 % 64 + 128)
    (hd : d.toNat = point % 64 + 128) (low : 65536 ≤ point) (high : point < 1114112) :
    pieces (a :: b :: c :: d :: rest) = .char (Char.ofNat point) :: pieces rest := by
  have hw : width a = 4 := by
    rw [width_eq, ha, if_neg (by omega), if_neg (by omega), if_neg (by omega), if_neg (by omega),
      if_pos (by omega)]
  have hs : isSecond a b = true := by
    rw [isSecond_iff, ha, hb, if_neg (by omega), if_neg (by omega)]
    -- Below 65536 the form would be too long, and there are no characters beyond the last one.
    split
    · omega
    · split
      · omega
      · omega
  have hl : ∀ octet ∈ [c, d], isLater octet = true := by
    intro octet member
    simp only [List.mem_cons, List.not_mem_nil, or_false] at member
    rcases member with rfl | rfl
    · rw [isLater_iff, hc]
      omega
    · rw [isLater_iff, hd]
      omega
  have hpoint : codePoint a [b, c, d] =
      64 * (64 * (64 * (a.toNat % 8) + b.toNat % 64) + c.toNat % 64) + d.toNat % 64 := by
    simp only [codePoint, hw, List.foldl_cons, List.foldl_nil]
  have hsum : 64 * (64 * (64 * (a.toNat % 8) + b.toNat % 64) + c.toNat % 64) + d.toNat % 64 =
      point := by
    rw [ha, hb, hc, hd]
    omega
  have htail : tail a ([b, c, d] ++ rest) = [b, c, d] := tail_append hw hs hl
  have hp := pieces_append htail (by rw [hw]; rfl)
  rw [hpoint, hsum] at hp
  exact hp

end

/-- A character is read from its octets. -/
theorem pieces_utf8EncodeChar_append (c : Char) (rest : List UInt8) :
    pieces (String.utf8EncodeChar c ++ rest) = .char c :: pieces rest := by
  have hvalid : c.val.toNat < 55296 ∨ 57343 < c.val.toNat ∧ c.val.toNat < 1114112 :=
    c.valid
  have hchar : Char.ofNat c.val.toNat = c := Char.ofNat_toNat c
  have hoctet (number : Nat) {value : Nat} (same : number = value) (small : value < 256) :
      (UInt8.ofNat number).toNat = value := by
    rw [same]
    exact UInt8.toNat_ofNat_of_lt' small
  suffices hread : pieces (String.utf8EncodeChar c ++ rest) =
      .char (Char.ofNat c.val.toNat) :: pieces rest by
    rw [hchar] at hread
    exact hread
  unfold String.utf8EncodeChar
  simp only
  split
  · exact pieces_one (hoctet c.val.toNat rfl (by omega)) (by omega)
  · split
    · exact pieces_two (hoctet (c.val.toNat / 64 % 32 + 192) (by omega) (by omega))
        (hoctet (c.val.toNat % 64 + 128) rfl (by omega)) (by omega) (by omega)
    · split
      · exact pieces_three (hoctet (c.val.toNat / 4096 % 16 + 224) (by omega) (by omega))
          (hoctet (c.val.toNat / 64 % 64 + 128) rfl (by omega))
          (hoctet (c.val.toNat % 64 + 128) rfl (by omega)) (by omega) (by omega) (by omega)
      · exact pieces_four (hoctet (c.val.toNat / 262144 % 8 + 240) (by omega) (by omega))
          (hoctet (c.val.toNat / 4096 % 64 + 128) rfl (by omega))
          (hoctet (c.val.toNat / 64 % 64 + 128) rfl (by omega))
          (hoctet (c.val.toNat % 64 + 128) rfl (by omega)) (by omega) (by omega)

/-- The pieces of a text are its characters. -/
theorem pieces_encodeChars (chars : List Char) : pieces (encodeChars chars) = chars.map .char := by
  induction chars with
  | nil => simp only [encodeChars, List.flatMap_nil, pieces, List.map_nil]
  | cons c chars ih =>
    rw [encodeChars, List.flatMap_cons, pieces_utf8EncodeChar_append, List.map_cons]
    exact congrArg _ ih

/-- Characters are read as they are. -/
theorem charsOf_map_char (index : Nat) (chars : List Char) :
    charsOf index (chars.map .char) = .ok chars := by
  induction chars generalizing index with
  | nil => rfl
  | cons c chars ih =>
    rw [List.map_cons, charsOf, ih]
    rfl

/-- A text is read from its octets. -/
theorem decode_encode (text : String) : decode (encode text) = .ok text := by
  rw [decode, encode, pieces_encodeChars, charsOf_map_char]
  exact congrArg Except.ok String.ofList_toList

/-- No two texts have the same octets. -/
theorem encode_inj {left right : String} : encode left = encode right ↔ left = right := by
  refine ⟨fun same => ?_, congrArg encode⟩
  have hleft := decode_encode left
  rw [same, decode_encode right] at hleft
  exact (Except.ok.inj hleft).symm

/-- The octets that go with a first one stand right behind it. -/
theorem tail_isPrefix (first : UInt8) (rest : List UInt8) : tail first rest <+: rest := by
  cases rest with
  | nil => exact List.nil_prefix
  | cons second more =>
    rw [tail]
    split
    · exact (List.prefix_cons_inj second).2
        ((List.takeWhile_prefix _).trans (List.take_prefix _ _))
    · exact List.nil_prefix

/-- The octets that go with a first one are of the kinds that may stand in their places. -/
theorem tail_fits {first second : UInt8} {rest others : List UInt8}
    (taken : tail first rest = second :: others) :
    isSecond first second = true ∧ ∀ octet ∈ others, isLater octet = true := by
  cases rest with
  | nil => cases taken
  | cons next more =>
    rw [tail] at taken
    split at taken
    · rename_i fits
      cases taken
      rw [Bool.and_eq_true] at fits
      exact ⟨fits.2, List.all_eq_true.1 List.all_takeWhile⟩
    · cases taken

section

variable {a b c d : UInt8} {point : Nat}

/-- The number of a character is its code point. -/
theorem val_ofNat (valid : point < 55296 ∨ 57343 < point ∧ point < 1114112) :
    (Char.ofNat point).val.toNat = point := by
  have hvalid : point.isValidChar := valid
  rw [Char.ofNat, dif_pos hvalid]
  rfl

/-- An octet is told by its number. -/
theorem ofNat_eq {number : Nat} (h : a.toNat = number) : UInt8.ofNat number = a := by
  rw [← h, UInt8.ofNat_toNat]

/-- A character is written with one octet. -/
theorem utf8EncodeChar_one (small : a.toNat < 128) :
    String.utf8EncodeChar (Char.ofNat a.toNat) = [a] := by
  have hvalue : (Char.ofNat a.toNat).val.toNat = a.toNat := val_ofNat (by omega)
  simp only [String.utf8EncodeChar, hvalue]
  rw [if_pos (by omega), UInt8.ofNat_toNat]

/-- Octets that are characters on their own are written back from these. -/
theorem encodeChars_map_ofNat {octets : List UInt8} (ascii : ∀ octet ∈ octets, octet.toNat < 128) :
    encodeChars (octets.map fun octet => Char.ofNat octet.toNat) = octets := by
  induction octets with
  | nil => rfl
  | cons octet octets ih =>
    rw [List.forall_mem_cons] at ascii
    rw [List.map_cons, encodeChars, List.flatMap_cons, utf8EncodeChar_one ascii.1]
    exact congrArg _ (ih ascii.2)

/-- Characters that are written with one octet each are their octets. -/
theorem map_ofNat_encodeChars {chars : List Char} (ascii : ∀ c ∈ chars, c.toNat < 128) :
    (encodeChars chars).map (fun octet => Char.ofNat octet.toNat) = chars := by
  induction chars with
  | nil => rfl
  | cons c chars ih =>
    rw [List.forall_mem_cons] at ascii
    have hnumber : (UInt8.ofNat c.toNat).toNat = c.toNat :=
      UInt8.toNat_ofNat_of_lt' (Nat.lt_trans ascii.1 (by decide))
    have hc : Char.ofNat (UInt8.ofNat c.toNat).toNat = c := by rw [hnumber, Char.ofNat_toNat]
    have hoctet : String.utf8EncodeChar c = [UInt8.ofNat c.toNat] := by
      have h := utf8EncodeChar_one (hnumber ▸ ascii.1)
      rwa [hc] at h
    rw [encodeChars, List.flatMap_cons, hoctet, List.map_append, List.map_singleton, hc]
    exact congrArg _ (ih ascii.2)

/-- A character is written with two octets. -/
theorem utf8EncodeChar_two (ha : 194 ≤ a.toNat ∧ a.toNat < 224)
    (hb : 128 ≤ b.toNat ∧ b.toNat ≤ 191) :
    String.utf8EncodeChar (Char.ofNat (64 * (a.toNat % 32) + b.toNat % 64)) = [a, b] := by
  generalize hp : 64 * (a.toNat % 32) + b.toNat % 64 = point
  have hpoint : point = 64 * (a.toNat - 192) + (b.toNat - 128) := by omega
  have hfirst : a.toNat = point / 64 % 32 + 192 := by omega
  have hsecond : b.toNat = point % 64 + 128 := by omega
  have hvalue : (Char.ofNat point).val.toNat = point := val_ofNat (by omega)
  simp only [String.utf8EncodeChar, hvalue]
  rw [if_neg (by omega), if_pos (by omega), ofNat_eq hfirst, ofNat_eq hsecond]

/-- A character is written with three octets. -/
theorem utf8EncodeChar_three (ha : 224 ≤ a.toNat ∧ a.toNat < 240)
    (hb : 128 ≤ b.toNat ∧ b.toNat ≤ 191) (hc : 128 ≤ c.toNat ∧ c.toNat ≤ 191)
    (long : a.toNat = 224 → 160 ≤ b.toNat) (surrogate : a.toNat = 237 → b.toNat ≤ 159) :
    String.utf8EncodeChar
      (Char.ofNat (64 * (64 * (a.toNat % 16) + b.toNat % 64) + c.toNat % 64)) = [a, b, c] := by
  generalize hp : 64 * (64 * (a.toNat % 16) + b.toNat % 64) + c.toNat % 64 = point
  have hpoint : point = 64 * (64 * (a.toNat - 224) + (b.toNat - 128)) + (c.toNat - 128) := by omega
  clear hp
  have hfirst : a.toNat = point / 4096 % 16 + 224 := by omega
  have hsecond : b.toNat = point / 64 % 64 + 128 := by omega
  have hthird : c.toNat = point % 64 + 128 := by omega
  have hlow : 2048 ≤ point := by omega
  have hvalid : point < 55296 ∨ 57343 < point := by omega
  have hhigh : point < 65536 := by omega
  have hvalue : (Char.ofNat point).val.toNat = point := val_ofNat (by omega)
  simp only [String.utf8EncodeChar, hvalue]
  rw [if_neg (by omega), if_neg (by omega), if_pos (by omega), ofNat_eq hfirst, ofNat_eq hsecond,
    ofNat_eq hthird]

/-- A character is written with four octets. -/
theorem utf8EncodeChar_four (ha : 240 ≤ a.toNat ∧ a.toNat < 245)
    (hb : 128 ≤ b.toNat ∧ b.toNat ≤ 191) (hc : 128 ≤ c.toNat ∧ c.toNat ≤ 191)
    (hd : 128 ≤ d.toNat ∧ d.toNat ≤ 191) (long : a.toNat = 240 → 144 ≤ b.toNat)
    (beyond : a.toNat = 244 → b.toNat ≤ 143) :
    String.utf8EncodeChar
      (Char.ofNat (64 * (64 * (64 * (a.toNat % 8) + b.toNat % 64) + c.toNat % 64) +
        d.toNat % 64)) = [a, b, c, d] := by
  generalize hp : 64 * (64 * (64 * (a.toNat % 8) + b.toNat % 64) + c.toNat % 64) +
    d.toNat % 64 = point
  have hpoint : point = 64 * (64 * (64 * (a.toNat - 240) + (b.toNat - 128)) + (c.toNat - 128)) +
      (d.toNat - 128) := by omega
  clear hp
  have hfirst : a.toNat = point / 262144 % 8 + 240 := by omega
  have hsecond : b.toNat = point / 4096 % 64 + 128 := by omega
  have hthird : c.toNat = point / 64 % 64 + 128 := by omega
  have hfourth : d.toNat = point % 64 + 128 := by omega
  have hlow : 65536 ≤ point := by omega
  have hhigh : point < 1114112 := by omega
  have hvalue : (Char.ofNat point).val.toNat = point := val_ofNat (by omega)
  simp only [String.utf8EncodeChar, hvalue]
  rw [if_neg (by omega), if_neg (by omega), if_neg (by omega), ofNat_eq hfirst, ofNat_eq hsecond,
    ofNat_eq hthird, ofNat_eq hfourth]

end

/-- The first octets of characters of each width. -/
theorem width_cases (first : UInt8) :
    width first = 0 ∨ (width first = 1 ∧ first.toNat < 128) ∨
      (width first = 2 ∧ 194 ≤ first.toNat ∧ first.toNat < 224) ∨
      (width first = 3 ∧ 224 ≤ first.toNat ∧ first.toNat < 240) ∨
      (width first = 4 ∧ 240 ≤ first.toNat ∧ first.toNat < 245) := by
  rw [width_eq]
  repeat' split
  all_goals omega

/-- What may stand second keeps out forms that are too long, surrogates, and numbers beyond the last
character. -/
theorem isSecond_bounds {first octet : UInt8} (fits : isSecond first octet = true) :
    128 ≤ octet.toNat ∧ octet.toNat ≤ 191 ∧ (first.toNat = 224 → 160 ≤ octet.toNat) ∧
      (first.toNat = 237 → octet.toNat ≤ 159) ∧ (first.toNat = 240 → 144 ≤ octet.toNat) ∧
      (first.toNat = 244 → octet.toNat ≤ 143) := by
  rw [isSecond_iff] at fits
  repeat' split at fits
  all_goals omega

/-- Octets that are read as a character are the ones with which it is written. -/
theorem utf8EncodeChar_codePoint {first : UInt8} {rest : List UInt8}
    (whole : (tail first rest).length + 1 = width first) :
    String.utf8EncodeChar (Char.ofNat (codePoint first (tail first rest))) =
      first :: tail first rest := by
  have hwidth := width_cases first
  cases taken : tail first rest with
  | nil =>
    rw [taken, List.length_nil] at whole
    simp only [codePoint, ← whole, List.foldl_nil]
    exact utf8EncodeChar_one (by omega)
  | cons second others =>
    obtain ⟨hfits, hothers⟩ := tail_fits taken
    obtain ⟨hlow, hhigh, hlong, hsurrogate, hlonger, hbeyond⟩ := isSecond_bounds hfits
    rw [taken] at whole
    simp only [isLater_iff] at hothers
    simp only [List.length_cons] at whole
    match others with
    | [] =>
      have htwo : width first = 2 := whole.symm
      simp only [codePoint, htwo, List.foldl_cons, List.foldl_nil]
      exact utf8EncodeChar_two (by omega) ⟨hlow, hhigh⟩
    | [third] =>
      have hthree : width first = 3 := whole.symm
      have hthird := hothers third List.mem_cons_self
      simp only [codePoint, hthree, List.foldl_cons, List.foldl_nil]
      exact utf8EncodeChar_three (by omega) ⟨hlow, hhigh⟩ hthird hlong hsurrogate
    | [third, fourth] =>
      have hfour : width first = 4 := whole.symm
      have hthird := hothers third List.mem_cons_self
      have hfourth := hothers fourth (List.mem_cons_of_mem _ List.mem_cons_self)
      simp only [codePoint, hfour, List.foldl_cons, List.foldl_nil]
      exact utf8EncodeChar_four (by omega) ⟨hlow, hhigh⟩ hthird hfourth hlonger hbeyond
    | _ :: _ :: _ :: more =>
      simp only [List.length_cons] at whole
      omega

/-- The octets of a piece. -/
def Piece.octets : Piece → List UInt8
  | .char value => String.utf8EncodeChar value
  | .junk octets => octets
  | .cut octets => octets

/-- A piece has the octets that it was read from. -/
theorem octets_piece (first : UInt8) (rest : List UInt8) :
    (piece first rest).octets = first :: tail first rest := by
  simp only [piece]
  split
  · rename_i whole
    exact utf8EncodeChar_codePoint whole
  · split
    · rfl
    · rfl

/-- Every octet belongs to exactly one piece. -/
theorem flatMap_octets_pieces (octets : List UInt8) : (pieces octets).flatMap Piece.octets = octets := by
  induction octets using pieces.induct with
  | case1 => rw [pieces, List.flatMap_nil]
  | case2 first rest ih =>
    rw [pieces, List.flatMap_cons, octets_piece, ih, List.cons_append]
    have hsplit := List.prefix_iff_eq_append.1 (tail_isPrefix first rest)
    rw [hsplit]

/-- The octets of pieces that are characters are the octets of these. -/
theorem flatMap_octets_map_char (chars : List Char) :
    (chars.map Piece.char).flatMap Piece.octets = encodeChars chars := by
  rw [List.flatMap_map]
  rfl

/-- Pieces that are read as characters are these characters. -/
theorem eq_map_char_of_charsOf {index : Nat} {pieces : List Piece} {chars : List Char}
    (read : charsOf index pieces = .ok chars) : pieces = chars.map .char := by
  induction pieces generalizing index chars with
  | nil =>
    cases read
    rfl
  | cons piece pieces ih =>
    cases piece with
    | junk octets => cases read
    | cut octets => cases read
    | char c =>
      rw [charsOf] at read
      cases hmore : charsOf (index + c.utf8Size) pieces with
      | error fault =>
        rw [hmore] at read
        cases read
      | ok more =>
        rw [hmore] at read
        cases read
        rw [List.map_cons, ih hmore]

/-- Octets are read as a text exactly if they are the octets of this text. -/
theorem decode_eq_ok_iff {octets : List UInt8} {text : String} :
    decode octets = .ok text ↔ octets = encode text := by
  constructor
  · intro read
    rw [decode] at read
    cases hchars : charsOf 0 (pieces octets) with
    | error fault =>
      rw [hchars] at read
      cases read
    | ok chars =>
      rw [hchars] at read
      cases read
      have hwhole := flatMap_octets_pieces octets
      rw [eq_map_char_of_charsOf hchars, flatMap_octets_map_char] at hwhole
      rw [encode, String.toList_ofList, hwhole]
  · intro same
    rw [same, decode_encode]

end DirectoryService.Utf8
