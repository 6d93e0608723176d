import DirectoryService.Proofs.Text.Utf8

/-!
# Octets up to their first fault

Octets that are not a text begin with one, up to the index of the fault. Behind it stand the octets
of the fault, and what follows them is split into pieces as if nothing stood in front of it.
-/

namespace DirectoryService.Utf8

variable {octets broken : List UInt8} {front back : List Piece} {chars : List Char} {index : Nat}

/-- What stands behind pieces is split as it is alone. -/
theorem pieces_drop (whole : pieces octets = front ++ back) :
    pieces (octets.drop (front.flatMap Piece.octets).length) = back := by
  induction front generalizing octets with
  | nil => exact whole
  | cons one front ih =>
    cases octets with
    | nil =>
      rw [pieces] at whole
      cases whole
    | cons first rest =>
      rw [pieces, List.cons_append, List.cons.injEq] at whole
      have hdrop := ih whole.2
      rw [List.drop_drop] at hdrop
      rw [List.flatMap_cons, ← whole.1, octets_piece, List.length_append, List.length_cons,
        Nat.add_right_comm, List.drop_succ_cons]
      exact hdrop

/-- No piece is without octets. -/
theorem octets_ne_nil_of_mem {one : Piece} (member : one ∈ pieces octets) : one.octets ≠ [] := by
  induction octets using pieces.induct with
  | case1 =>
    rw [pieces] at member
    cases member
  | case2 first rest ih =>
    rw [pieces, List.mem_cons] at member
    rcases member with rfl | member
    · rw [octets_piece]
      exact List.cons_ne_nil _ _
    · exact ih member

/-- The beginning of a character takes all octets that are left. -/
theorem tail_of_piece_eq_cut {first : UInt8} {rest : List UInt8}
    (cut : piece first rest = .cut broken) : rest.drop (tail first rest).length = [] := by
  simp only [piece] at cut
  split at cut
  · cases cut
  · split at cut
    · rename_i ends
      rw [Bool.and_eq_true, beq_iff_eq] at ends
      exact List.drop_eq_nil_of_le (Nat.le_of_eq ends.2.symm)
    · cases cut

/-- Nothing stands behind the beginning of a character. -/
theorem eq_nil_of_pieces_eq_cut (whole : pieces octets = front ++ .cut broken :: back) :
    back = [] := by
  have hleft := pieces_drop whole
  generalize octets.drop (front.flatMap Piece.octets).length = left at hleft
  cases left with
  | nil =>
    rw [pieces] at hleft
    cases hleft
  | cons first rest =>
    rw [pieces, List.cons.injEq] at hleft
    rw [← hleft.2, tail_of_piece_eq_cut hleft.1, pieces]

/-- A fault is the one of the first piece that is no character. -/
theorem exists_of_charsOf_eq_error {parts : List Piece} {fault : Fault}
    (read : charsOf index parts = .error fault) : ∃ chars broken back,
      (parts = chars.map .char ++ .junk broken :: back ∧
        fault = .invalid (index + (encodeChars chars).length) broken.length) ∨
      (parts = chars.map .char ++ .cut broken :: back ∧
        fault = .incomplete (index + (encodeChars chars).length)) := by
  induction parts generalizing index with
  | nil => cases read
  | cons one parts ih =>
    cases one with
    | char c =>
      rw [charsOf] at read
      cases hmore : charsOf (index + c.utf8Size) parts with
      | ok chars =>
        rw [hmore] at read
        cases read
      | error other =>
        rw [hmore] at read
        cases read
        have hindex (chars : List Char) : index + (encodeChars (c :: chars)).length =
            index + c.utf8Size + (encodeChars chars).length := by
          rw [encodeChars, List.flatMap_cons, List.length_append, String.length_utf8EncodeChar,
            Nat.add_assoc, encodeChars]
        obtain ⟨chars, broken, back, found⟩ := ih hmore
        refine ⟨c :: chars, broken, back, ?_⟩
        rw [hindex]
        rcases found with ⟨hparts, hfault⟩ | ⟨hparts, hfault⟩
        · exact .inl ⟨congrArg (Piece.char c :: ·) hparts, hfault⟩
        · exact .inr ⟨congrArg (Piece.char c :: ·) hparts, hfault⟩
    | junk octets =>
      rw [charsOf] at read
      cases read
      exact ⟨[], octets, parts, .inl ⟨rfl, rfl⟩⟩
    | cut octets =>
      rw [charsOf] at read
      cases read
      exact ⟨[], octets, parts, .inr ⟨rfl, rfl⟩⟩

/-- The text that octets are, nothing if they are none. -/
def textOrEmpty (octets : List UInt8) : String := (decode octets).toOption.getD ""

/-- The text with which octets begin, and the octets of the fault that ends it. -/
def leadingText (octets : List UInt8) : String × List UInt8 :=
  match decode octets with
  | .ok text => (text, [])
  | .error (.invalid index length) =>
    (textOrEmpty (octets.take index), (octets.drop index).take length)
  | .error (.incomplete index) => (textOrEmpty (octets.take index), octets.drop index)

/-- The octets of characters are their text. -/
theorem textOrEmpty_encodeChars (chars : List Char) :
    textOrEmpty (encodeChars chars) = String.ofList chars := by
  have hdecode := decode_encode (String.ofList chars)
  rw [encode, String.toList_ofList] at hdecode
  rw [textOrEmpty, hdecode]
  rfl

/-- The first octets that begin no character are found behind the characters in front of them. -/
theorem leadingText_of_invalid {more : List UInt8}
    (read : decode (encodeChars chars ++ (broken ++ more)) =
      .error (.invalid (encodeChars chars).length broken.length)) :
    leadingText (encodeChars chars ++ (broken ++ more)) = (String.ofList chars, broken) := by
  rw [leadingText, read]
  simp only [List.take_left, List.drop_left, textOrEmpty_encodeChars]

/-- The beginning of a character is found behind the characters in front of it. -/
theorem leadingText_of_incomplete
    (read : decode (encodeChars chars ++ broken) = .error (.incomplete (encodeChars chars).length)) :
    leadingText (encodeChars chars ++ broken) = (String.ofList chars, broken) := by
  rw [leadingText, read]
  simp only [List.take_left, List.drop_left, textOrEmpty_encodeChars]

/-- The characters of the text with which octets begin are their first pieces, and the fault that
ends it is the next one, if there is any. -/
theorem pieces_eq_leadingText (octets : List UInt8) : ∃ ends back,
    pieces octets = (leadingText octets).1.toList.map .char ++ (ends ++ back) ∧
      (ends = [] ∧ back = [] ∧ (leadingText octets).2 = [] ∨
        ends = [.junk (leadingText octets).2] ∨ ends = [.cut (leadingText octets).2]) := by
  have hoctets := flatMap_octets_pieces octets
  cases read : charsOf 0 (pieces octets) with
  | ok chars =>
    have hdecode : decode octets = .ok (String.ofList chars) := by rw [decode, read]; rfl
    refine ⟨[], [], ?_, .inl ⟨rfl, rfl, ?_⟩⟩
    · rw [leadingText, hdecode, String.toList_ofList, List.append_nil, List.append_nil]
      exact eq_map_char_of_charsOf read
    · rw [leadingText, hdecode]
  | error fault =>
    have hdecode : decode octets = .error fault := by rw [decode, read]; rfl
    obtain ⟨chars, broken, back, ⟨hpieces, hfault⟩ | ⟨hpieces, hfault⟩⟩ :=
      exists_of_charsOf_eq_error read
    · rw [hpieces, List.flatMap_append, flatMap_octets_map_char, List.flatMap_cons,
        Piece.octets] at hoctets
      rw [← hoctets, hfault, Nat.zero_add] at hdecode
      have hleading := leadingText_of_invalid hdecode
      rw [hoctets] at hleading
      rw [hleading, String.toList_ofList, hpieces]
      exact ⟨[.junk broken], back, rfl, .inr (.inl rfl)⟩
    · rw [hpieces, eq_nil_of_pieces_eq_cut hpieces, List.flatMap_append, flatMap_octets_map_char,
        List.flatMap_singleton, Piece.octets] at hoctets
      rw [← hoctets, hfault, Nat.zero_add] at hdecode
      have hleading := leadingText_of_incomplete hdecode
      rw [hoctets] at hleading
      rw [hleading, String.toList_ofList, hpieces]
      exact ⟨[.cut broken], back, rfl, .inr (.inr rfl)⟩

end DirectoryService.Utf8
