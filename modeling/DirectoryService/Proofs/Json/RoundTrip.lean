import DirectoryService.Json.Printer
import DirectoryService.Json.Reader
import DirectoryService.Proofs.Text.Decimal
import Mathlib.Tactic.SplitIfs

/-!
# Reading written JSON

A value is read back from its written form, whatever stands behind it. The only values that are left
out are numbers with a fraction or an exponent: they are kept as they are written, and not every
text is a number.
-/

namespace DirectoryService

namespace Json

/-- A value in which every number is an integer. -/
inductive Exact : Json → Prop where
  /-- The absent value. -/
  | null : Exact .null
  /-- A truth value. -/
  | bool (value : Bool) : Exact (.bool value)
  /-- An integer. -/
  | integer (value : Int) : Exact (.integer value)
  /-- A text. -/
  | text (value : String) : Exact (.text value)
  /-- A list of such values. -/
  | list {items : List Json} (all : ∀ item ∈ items, Exact item) : Exact (.list items)
  /-- Such values under names. -/
  | object {fields : List (String × Json)} (all : ∀ field ∈ fields, Exact field.2) :
    Exact (.object fields)

section Texts

/-- The number of an escape with two zeros in front is read back. -/
theorem hexQuad?_hexPair (code : Nat) (small : code < 256) (rest : List Char) :
    hexQuad? ('0' :: '0' :: Ascii.hexPair (UInt8.ofNat code) ++ rest) = some (code, rest) := by
  have hc : (UInt8.ofNat code).toNat = code := by
    rw [UInt8.toNat_ofNat']
    exact Nat.mod_eq_of_lt small
  have hz : Ascii.hexValue? '0' = some 0 := rfl
  have hhigh := Ascii.hexValue?_hexDigit (code / 16) (by omega)
  have hlow := Ascii.hexValue?_hexDigit (code % 16) (by omega)
  have hsum : (0 * 16 + code / 16) * 16 + code % 16 = code := by omega
  simp only [Ascii.hexPair, hc, List.cons_append, List.nil_append, hexQuad?, hz, hhigh, hlow,
    Option.bind_eq_bind, Option.bind_some, hsum]

/-- A character is written in one of three ways. -/
inductive Escaped (c : Char) : List Char → Prop where
  /-- As a mark that stands for it. -/
  | short (mark : Char) (noCode : mark ≠ 'u') (stands : shortEscape? mark = some c) :
    Escaped c ['\\', mark]
  /-- By its number. -/
  | numbered (low : c.toNat < 32) :
    Escaped c ('\\' :: 'u' :: '0' :: '0' :: Ascii.hexPair (UInt8.ofNat c.toNat))
  /-- As it is. -/
  | plain (noQuote : c ≠ '"') (noMark : c ≠ '\\') (visible : ¬ c.toNat < 32) : Escaped c [c]

/-- These are all the ways in which characters are written. -/
theorem escaped_escape (c : Char) : Escaped c (escape c) := by
  have hcode {code : Nat} (h : c.toNat = code) : Char.ofNat code = c := by
    rw [← h, Char.ofNat_toNat]
  unfold escape
  split_ifs with quote mark line back tab bell feed low
  · subst quote
    exact .short '"' (by decide) rfl
  · subst mark
    exact .short '\\' (by decide) rfl
  · subst line
    exact .short 'n' (by decide) rfl
  · subst back
    exact .short 'r' (by decide) rfl
  · subst tab
    exact .short 't' (by decide) rfl
  · exact .short 'b' (by decide) (congrArg some (hcode bell))
  · exact .short 'f' (by decide) (congrArg some (hcode feed))
  · exact .numbered low
  · exact .plain quote mark low

/-- A written character is read back, and takes one step. -/
theorem Escaped.textTail?_append {c : Char} {written : List Char} (escaped : Escaped c written)
    (fuel : Nat) (rest : List Char) :
    textTail? (fuel + 1) (written ++ rest) =
      (textTail? fuel rest).bind fun tail => some (c :: tail.1, tail.2) := by
  cases escaped with
  | short mark noCode stands =>
    rw [List.cons_append, List.cons_append, List.nil_append, textTail?, stands]
    · rfl
    · rintro rfl
      exact absurd rfl noCode
  | numbered low =>
    have hq := hexQuad?_hexPair c.toNat (by omega) rest
    have hn : numberedEscape? ('0' :: '0' :: Ascii.hexPair (UInt8.ofNat c.toNat) ++ rest) =
        some (c, rest) := by
      simp only [numberedEscape?, hq, Option.bind_eq_bind, Option.bind_some,
        show c.toNat < 0xD800 by omega, true_or, if_true, Char.ofNat_toNat]
      rfl
    change textTail? (fuel + 1) ('\\' :: 'u' :: ('0' :: '0' ::
      Ascii.hexPair (UInt8.ofNat c.toNat) ++ rest)) = _
    rw [textTail?, hn]
    rfl
  | plain noQuote noMark visible =>
    rw [List.singleton_append, textTail?]
    · simp only [visible, noMark, decide_false, Bool.or_self, Bool.false_eq_true, if_false]
      rfl
    · exact noQuote
    · rintro other rfl
      exact absurd rfl noMark
    · rintro other tail rfl
      exact absurd rfl noMark

/-- The characters of a text are read back up to its closing quote. -/
theorem textTail?_escapes {fuel : Nat} (text rest : List Char)
    (enough : text.length < fuel) :
    textTail? fuel (text.flatMap escape ++ '"' :: rest) = some (text, rest) := by
  induction text generalizing fuel with
  | nil =>
    obtain ⟨less, rfl⟩ := Nat.exists_eq_succ_of_ne_zero (by omega : fuel ≠ 0)
    rfl
  | cons c text ih =>
    obtain ⟨less, rfl⟩ := Nat.exists_eq_succ_of_ne_zero (by omega : fuel ≠ 0)
    rw [List.length_cons] at enough
    rw [List.flatMap_cons, List.append_assoc, (escaped_escape c).textTail?_append,
      ih (by omega)]
    rfl

/-- Every character is written with one character at least. -/
theorem length_le_escapes (text : List Char) : text.length ≤ (text.flatMap escape).length := by
  induction text with
  | nil => exact Nat.le_refl 0
  | cons c text ih =>
    have hc : 1 ≤ (escape c).length := by
      generalize escape c = written, escaped_escape c = escaped
      cases escaped <;> simp only [List.length_cons] <;> omega
    rw [List.flatMap_cons, List.length_append, List.length_cons]
    omega

/-- A text is read back with as many steps as the reader takes for it. -/
theorem textTail?_quoted (text : String) (rest : List Char) :
    textTail? ((text.toList.flatMap escape ++ '"' :: rest).length + 1)
      (text.toList.flatMap escape ++ '"' :: rest) = some (text.toList, rest) := by
  refine textTail?_escapes _ _ ?_
  have hl := length_le_escapes text.toList
  rw [List.length_append]
  omega

end Texts

section Numbers

/-- The digits of a number are read back. -/
theorem natural?_toDigits (value : Nat) : natural? (Nat.toDigits 10 value) = some value := by
  have hall : (Nat.toDigits 10 value).all Char.isDigit = true :=
    List.all_eq_true.2 (Decimal.isDigit_of_mem_toDigits value)
  have hne : (Nat.toDigits 10 value).isEmpty = false :=
    List.isEmpty_eq_false_iff.2 Nat.toDigits_ne_nil
  have hzero : ((Nat.toDigits 10 value).length ≠ 1 &&
      (Nat.toDigits 10 value).head? == some '0') = false := by
    by_cases h : (Nat.toDigits 10 value).length ≠ 1
    · rw [Bool.and_eq_false_iff]
      exact Or.inr (beq_eq_false_iff_ne.2 (Decimal.head?_toDigits h))
    · rw [decide_eq_false h, Bool.false_and]
  rw [natural?, hall, hne, hzero]
  exact congrArg some (Decimal.foldl_toDigits value)

/-- The characters of an integer can belong to a number. -/
theorem isNumeral_of_mem_integerChars (value : Int) :
    ∀ c ∈ integerChars value, isNumeral c = true := by
  have hdigits (number : Nat) : ∀ c ∈ Nat.toDigits 10 number, isNumeral c = true := by
    intro c member
    rw [isNumeral, Decimal.isDigit_of_mem_toDigits number c member]
    rfl
  intro c member
  rw [integerChars] at member
  split at member
  · rcases List.mem_cons.1 member with rfl | member
    · rfl
    · exact hdigits _ c member
  · exact hdigits _ c member

/-- An integer is read back. -/
theorem number?_integerChars (value : Int) :
    number? (integerChars value) = some (.integer value) := by
  obtain ⟨htake, hdrop⟩ :=
    (Stops.nil : Stops Char.isDigit []).run_eq (Decimal.isDigit_of_mem_toDigits value.natAbs)
  rw [List.append_nil] at htake hdrop
  rw [integerChars]
  split
  · rename_i negative
    have hv : -(value.natAbs : Int) = value := by omega
    simp only [number?, htake, hdrop, natural?_toDigits, Option.bind_eq_bind, Option.bind_some,
      List.isEmpty_nil, if_true, hv]
    rfl
  · rename_i positive
    have hv : (value.natAbs : Int) = value := by omega
    have hbody : ∀ rest, Nat.toDigits 10 value.natAbs ≠ '-' :: rest := by
      intro rest same
      have hd := Decimal.isDigit_of_mem_toDigits value.natAbs '-' (same ▸ List.mem_cons_self)
      exact absurd hd (by decide)
    rw [number?]
    · simp only [htake, hdrop, natural?_toDigits, Option.bind_eq_bind, Option.bind_some,
        List.isEmpty_nil, if_true, Bool.false_eq_true, if_false, hv]
      rfl
    · exact hbody

end Numbers

section Values

/-- The first character of a written value is no blank and no closing mark. -/
theorem exists_chars_eq_cons {json : Json} (exact : json.Exact) :
    ∃ c tail, json.chars = c :: tail ∧ isBlank c = false ∧ c ≠ ']' := by
  cases exact with
  | null => exact ⟨'n', _, rfl, rfl, by decide⟩
  | bool value => cases value <;> exact ⟨_, _, rfl, rfl, by decide⟩
  | integer value =>
    have hne : integerChars value ≠ [] := by
      rw [integerChars]
      split
      · exact List.cons_ne_nil _ _
      · exact Nat.toDigits_ne_nil
    obtain ⟨c, tail, same⟩ := List.exists_cons_of_ne_nil hne
    have hc := isNumeral_of_mem_integerChars value c (same ▸ List.mem_cons_self)
    refine ⟨c, tail, same, ?_, ?_⟩
    · rw [← Bool.not_eq_true]
      intro blank
      simp only [isBlank, Bool.or_eq_true, decide_eq_true_eq] at blank
      rcases blank with ((rfl | rfl) | rfl) | rfl <;> exact absurd hc (by decide)
    · rintro rfl
      exact absurd hc (by decide)
  | text value => exact ⟨'"', _, rfl, rfl, by decide⟩
  | list all => exact ⟨'[', _, rfl, rfl, by decide⟩
  | object all => exact ⟨'{', _, rfl, rfl, by decide⟩

/-- A value is read back with enough steps, if nothing that follows goes on with a number. -/
def ReadBack (json : Json) : Prop :=
  ∀ fuel rest, json.chars.length < fuel → Stops isNumeral rest →
    value? fuel (json.chars ++ rest) = some (json, rest)

/-- A character that is no blank is not skipped. -/
theorem skipBlanks_cons {c : Char} (visible : isBlank c = false) (tail : List Char) :
    skipBlanks (c :: tail) = c :: tail :=
  List.dropWhile_cons_of_neg (Bool.not_eq_true _ ▸ visible)

/-- An integer is read back. -/
theorem readBack_integer (value : Int) : ReadBack (.integer value) := by
  intro fuel rest enough stops
  obtain ⟨less, rfl⟩ := Nat.exists_eq_succ_of_ne_zero (by omega : fuel ≠ 0)
  obtain ⟨htake, hdrop⟩ := stops.run_eq (isNumeral_of_mem_integerChars value)
  obtain ⟨c, tail, same, visible, -⟩ := exists_chars_eq_cons (.integer value)
  rw [chars] at same
  have hc := isNumeral_of_mem_integerChars value c (same ▸ List.mem_cons_self)
  have hread : skipBlanks (integerChars value ++ rest) = integerChars value ++ rest := by
    rw [same, List.cons_append, skipBlanks_cons visible]
  have hfirst : ∀ mark more, isNumeral mark = false →
      skipBlanks (integerChars value ++ rest) ≠ mark :: more := by
    intro mark more other equal
    rw [hread, same, List.cons_append, List.cons.injEq] at equal
    rw [equal.1, other] at hc
    cases hc
  rw [chars, value?]
  split
  case h_7 =>
    rw [hread, htake, hdrop, number?_integerChars]
    rfl
  all_goals
    rename_i more equal
    exact absurd equal (hfirst _ more (by decide))

/-- A text is read back. -/
theorem readBack_text (value : String) : ReadBack (.text value) := by
  intro fuel rest enough stops
  obtain ⟨less, rfl⟩ := Nat.exists_eq_succ_of_ne_zero (by omega : fuel ≠ 0)
  have ht := textTail?_quoted value rest
  rw [chars, quoted, List.append_assoc, List.cons_append, value?, skipBlanks_cons rfl]
  simp only [List.singleton_append, ht, Option.bind_eq_bind, Option.bind_some, String.ofList_toList]

/-- Items between commas are read back up to the closing bracket. -/
theorem items?_itemChars {items : List Json} (ne : items ≠ [])
    (each : ∀ item ∈ items, item.ReadBack) {fuel : Nat} (rest : List Char)
    (enough : (itemChars items).length + 1 < fuel) :
    items? fuel (itemChars items ++ ']' :: rest) = some (items, rest) := by
  induction items generalizing fuel with
  | nil => exact absurd rfl ne
  | cons item items ih =>
    obtain ⟨less, rfl⟩ := Nat.exists_eq_succ_of_ne_zero (by omega : fuel ≠ 0)
    rw [List.forall_mem_cons] at each
    cases items with
    | nil =>
      rw [itemChars] at enough ⊢
      have hv := each.1 less (']' :: rest) (by omega) (.cons rfl rest)
      simp only [items?, hv, Option.bind_eq_bind, Option.bind_some]
      rfl
    | cons next items =>
      rw [itemChars, List.length_append, List.length_cons] at enough
      have hv := each.1 less (',' :: (itemChars (next :: items) ++ ']' :: rest)) (by omega)
        (.cons rfl _)
      have hi : items? less (itemChars (next :: items) ++ ']' :: rest) = _ :=
        ih (List.cons_ne_nil next items) each.2 (by omega)
      rw [itemChars, List.append_assoc, List.cons_append, items?, hv]
      simp only [Option.bind_eq_bind, Option.bind_some, skipBlanks_cons (c := ',') rfl, hi]

/-- Fields between commas are read back up to the closing brace. -/
theorem fields?_fieldChars {fields : List (String × Json)} (ne : fields ≠ [])
    (each : ∀ field ∈ fields, field.2.ReadBack) {fuel : Nat} (rest : List Char)
    (enough : (fieldChars fields).length + 1 < fuel) :
    fields? fuel (fieldChars fields ++ '}' :: rest) = some (fields, rest) := by
  induction fields generalizing fuel with
  | nil => exact absurd rfl ne
  | cons field fields ih =>
    obtain ⟨less, rfl⟩ := Nat.exists_eq_succ_of_ne_zero (by omega : fuel ≠ 0)
    obtain ⟨name, value⟩ := field
    obtain ⟨head, each⟩ := List.forall_mem_cons.1 each
    have ht (tail : List Char) := textTail?_quoted name tail
    cases fields with
    | nil =>
      rw [fieldChars, List.length_append, List.length_cons] at enough
      have hv := head less ('}' :: rest) (by simp only; omega) (.cons rfl rest)
      rw [fieldChars, quoted, fields?]
      simp only [List.cons_append, List.append_assoc, List.nil_append,
        skipBlanks_cons (c := '"') rfl, skipBlanks_cons (c := ':') rfl,
        skipBlanks_cons (c := '}') rfl, ht, hv, Option.bind_eq_bind, Option.bind_some,
        String.ofList_toList]
    | cons next fields =>
      rw [fieldChars, List.length_append, List.length_cons, List.length_append,
        List.length_cons] at enough
      have hv := head less (',' :: (fieldChars (next :: fields) ++ '}' :: rest))
        (by simp only; omega) (.cons rfl _)
      have hf : fields? less (fieldChars (next :: fields) ++ '}' :: rest) = _ :=
        ih (List.cons_ne_nil next fields) each (by omega)
      rw [fieldChars, quoted, fields?]
      simp only [List.cons_append, List.append_assoc, List.nil_append,
        skipBlanks_cons (c := '"') rfl, skipBlanks_cons (c := ':') rfl,
        skipBlanks_cons (c := ',') rfl, ht, hv, hf, Option.bind_eq_bind, Option.bind_some,
        String.ofList_toList]

/-- Every value in which all numbers are integers is read back. -/
theorem Exact.readBack {json : Json} (exact : json.Exact) : json.ReadBack := by
  induction exact with
  | integer value => exact readBack_integer value
  | text value => exact readBack_text value
  | null =>
    intro fuel rest enough stops
    obtain ⟨less, rfl⟩ := Nat.exists_eq_succ_of_ne_zero (by omega : fuel ≠ 0)
    rfl
  | bool value =>
    intro fuel rest enough stops
    obtain ⟨less, rfl⟩ := Nat.exists_eq_succ_of_ne_zero (by omega : fuel ≠ 0)
    cases value <;> rfl
  | @list items all each =>
    intro fuel rest enough stops
    obtain ⟨less, rfl⟩ := Nat.exists_eq_succ_of_ne_zero (by omega : fuel ≠ 0)
    cases items with
    | nil => rfl
    | cons item items =>
      have hi : (itemChars (item :: items)).length + 1 < less := by
        simp only [chars, List.length_append, List.length_cons, List.length_nil] at enough
        omega
      have hread := items?_itemChars (List.cons_ne_nil item items) each rest hi
      -- The first item does not look like the end of the list.
      obtain ⟨c, tail, same, visible, noEnd⟩ :=
        exists_chars_eq_cons (all item List.mem_cons_self)
      have hfirst : ∃ more, itemChars (item :: items) = c :: more := by
        cases items with
        | nil => exact ⟨tail, same⟩
        | cons next items => exact ⟨_, by rw [itemChars, same]; rfl⟩
      obtain ⟨more, hm⟩ := hfirst
      rw [hm, List.cons_append] at hread
      rw [chars, hm, List.append_assoc, List.cons_append, value?, skipBlanks_cons rfl]
      simp only [List.cons_append, List.nil_append, skipBlanks_cons visible]
      split
      · rename_i equal
        exact absurd (List.cons.inj equal).1 noEnd
      · rw [hread]
        rfl
  | @object fields all each =>
    intro fuel rest enough stops
    obtain ⟨less, rfl⟩ := Nat.exists_eq_succ_of_ne_zero (by omega : fuel ≠ 0)
    cases fields with
    | nil => rfl
    | cons field fields =>
      have hf : (fieldChars (field :: fields)).length + 1 < less := by
        simp only [chars, List.length_append, List.length_cons, List.length_nil] at enough
        omega
      have hread := fields?_fieldChars (List.cons_ne_nil field fields) each rest hf
      have hfirst : ∃ more, fieldChars (field :: fields) = '"' :: more := by
        cases fields with
        | nil => exact ⟨_, rfl⟩
        | cons next fields => exact ⟨_, rfl⟩
      obtain ⟨more, hm⟩ := hfirst
      rw [hm, List.cons_append] at hread
      rw [chars, hm, List.append_assoc, List.cons_append, value?, skipBlanks_cons rfl]
      simp only [List.cons_append, List.nil_append, skipBlanks_cons (c := '"') rfl]
      change (fields? less ('"' :: (more ++ '}' :: rest))).bind _ = _
      rw [hread]
      rfl

/-- The written form of a value stands for it. -/
theorem Exact.parse?_render {json : Json} (exact : json.Exact) :
    parse? json.render = some json := by
  have hread := exact.readBack (json.chars.length + 1) [] (Nat.lt_succ_self _) .nil
  rw [List.append_nil] at hread
  simp only [parse?, render, String.toList_ofList, hread, Option.bind_eq_bind, Option.bind_some]
  rfl

end Values

end Json

end DirectoryService
