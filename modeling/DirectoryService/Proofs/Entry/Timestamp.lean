import DirectoryService.Entry.Timestamp
import DirectoryService.Proofs.Text.Decimal
import Mathlib.Algebra.Ring.Nat

/-!
# Reading written moments

Every moment is read back from its written form. A moment is written in UTC, so nothing is left of
the offsets that a reader understands but the offset of nothing.
-/

namespace DirectoryService.Timestamp

/-- The padded digits of a number are digits. -/
theorem isDigit_of_mem_padded (width value : Nat) :
    ∀ c ∈ padded width value, c.isDigit = true := by
  intro c member
  rw [padded, List.mem_append, List.mem_replicate] at member
  rcases member with ⟨-, rfl⟩ | member
  · rfl
  · exact Decimal.isDigit_of_mem_toDigits value c member

/-- There are digits. -/
theorem padded_ne_nil (width value : Nat) : padded width value ≠ [] :=
  List.append_ne_nil_of_right_ne_nil _ Nat.toDigits_ne_nil

/-- The zeros in front do not change the number. -/
theorem foldl_padded (width value : Nat) :
    (padded width value).foldl (fun sum digit => 10 * sum + (digit.toNat - 48)) 0 = value := by
  have hz : Nat.ofDigitChars 10 (padded width value) 0 = value := by
    simp only [padded, Nat.ofDigitChars_append, Nat.ofDigitChars_replicate_zero, Nat.mul_zero,
      Nat.ofDigitChars_ten_toDigits]
  exact hz

/-- A number that is small enough has exactly the digits that are asked for. -/
theorem length_padded (width value : Nat) (positive : 0 < width) (small : value < 10 ^ width) :
    (padded width value).length = width := by
  have hl := (Nat.length_toDigits_le_iff (by decide : 1 < 10) positive).2 small
  simp only [padded, List.length_append, List.length_replicate]
  omega

/-- Digits that no further digit follows are read as their number, if there are not too many. -/
theorem digits?_padded {limit width value : Nat} {rest : List Char}
    (fits : (padded width value).length ≤ limit) (stops : Stops Char.isDigit rest) :
    digits? limit (padded width value ++ rest) =
      some (value, rest, (padded width value).length) := by
  have hstops : Stops Char.isDigit (rest.take (limit - (padded width value).length)) := by
    intro c tail same
    cases rest with
    | nil =>
      rw [List.take_nil] at same
      cases same
    | cons first more =>
      cases h : limit - (padded width value).length with
      | zero =>
        rw [h, List.take_zero] at same
        cases same
      | succ left =>
        rw [h, List.take_succ_cons] at same
        cases same
        exact stops c more rfl
  have htake : ((padded width value ++ rest).take limit).takeWhile Char.isDigit =
      padded width value := by
    rw [List.take_append, List.take_of_length_le fits]
    exact (hstops.run_eq (isDigit_of_mem_padded width value)).1
  have hne : (padded width value).isEmpty = false :=
    List.isEmpty_eq_false_iff.2 (padded_ne_nil width value)
  simp only [digits?, htake, hne, Bool.false_eq_true, if_false, foldl_padded, List.drop_left]

/-- A digit is no blank. -/
theorem skipBlanks_padded (width value : Nat) (rest : List Char) :
    skipBlanks (padded width value ++ rest) = padded width value ++ rest := by
  obtain ⟨c, tail, same⟩ := List.exists_cons_of_ne_nil (padded_ne_nil width value)
  have digit := isDigit_of_mem_padded width value c (same ▸ List.mem_cons_self)
  have hc : 48 ≤ c.toNat ∧ c.toNat ≤ 57 := by
    simpa [Char.isDigit, UInt32.le_iff_toNat_le] using digit
  have hb : ¬ isBlank c = true := by
    simp only [isBlank, Bool.or_eq_true, Bool.and_eq_true, decide_eq_true_eq]
    omega
  rw [same, List.cons_append, skipBlanks, List.dropWhile_cons_of_neg hb]

/-- A number of two digits is read back. -/
theorem pair?_padded (value : Nat) (rest : List Char) (small : value < 100)
    (stops : Stops Char.isDigit rest) : pair? (padded 2 value ++ rest) = some (value, rest) := by
  have hl := length_padded 2 value (by decide) small
  rw [pair?, skipBlanks_padded, digits?_padded (Nat.le_of_eq hl) stops]
  rfl

/-- A year is read back. -/
theorem year?_yearChars (year : Int) (rest : List Char) (stops : Stops Char.isDigit rest) :
    year? (yearChars year ++ rest) = some (year, rest) := by
  have hsigned : digits? (padded 4 year.natAbs ++ rest).length (padded 4 year.natAbs ++ rest) =
      some (year.natAbs, rest, (padded 4 year.natAbs).length) := by
    refine digits?_padded ?_ stops
    rw [List.length_append]
    exact Nat.le_add_right _ _
  rw [yearChars]
  split
  · rename_i plain
    have hl : (padded 4 year.toNat).length = 4 :=
      length_padded 4 _ (by decide) (by omega)
    have hsign : ∀ sign more, sign.isDigit = false →
        padded 4 year.toNat ++ rest ≠ sign :: more := by
      intro sign more other same
      obtain ⟨c, tail, first⟩ := List.exists_cons_of_ne_nil (padded_ne_nil 4 year.toNat)
      have digit := isDigit_of_mem_padded 4 year.toNat c (first ▸ List.mem_cons_self)
      rw [first, List.cons_append, List.cons.injEq] at same
      rw [same.1, other] at digit
      cases digit
    rw [year?, skipBlanks_padded]
    split
    · rename_i more same
      exact absurd same (hsign '-' more rfl)
    · rename_i more same
      exact absurd same (hsign '+' more rfl)
    · rw [digits?_padded (Nat.le_of_eq hl) stops]
      have hy : (year.toNat : Int) = year := by omega
      exact congrArg some (congrArg (·, rest) hy)
  · split
    · rename_i negative
      have hy : -(year.natAbs : Int) = year := by omega
      change (digits? (padded 4 year.natAbs ++ rest).length
        (padded 4 year.natAbs ++ rest)).map _ = _
      rw [hsigned]
      exact congrArg some (congrArg (·, rest) hy)
    · rename_i positive
      have hy : (year.natAbs : Int) = year := by omega
      change (digits? (padded 4 year.natAbs ++ rest).length
        (padded 4 year.natAbs ++ rest)).map _ = _
      rw [hsigned]
      exact congrArg some (congrArg (·, rest) hy)

/-- A part of a second is read back, however many groups of digits it takes. -/
theorem fraction?_fractionChars {nanosecond : Nat} (small : nanosecond < 1000000000) :
    fraction? (fractionChars nanosecond ++ ['Z']) = some (nanosecond, ['Z']) := by
  have stops : Stops Char.isDigit ['Z'] := .cons rfl []
  have hread {width : Nat} (value : Nat) (positive : 0 < width) (narrow : width ≤ 9)
      (fits : value < 10 ^ width) (exact : value * Nat.pow 10 (9 - width) = nanosecond) :
      fraction? ('.' :: padded width value ++ ['Z']) = some (nanosecond, ['Z']) := by
    have hl := length_padded width value positive fits
    have hd := digits?_padded (Nat.le_trans (Nat.le_of_eq hl) narrow) stops
    rw [List.cons_append, fraction?, hd]
    simp only [Option.bind_eq_bind, Option.bind_some, hl, exact]
    rfl
  rw [fractionChars]
  split
  · rename_i none
    rw [none]
    rfl
  · split
    · exact hread (nanosecond / 1000000) (by decide) (by decide) (by omega)
        (by simp only [Nat.reducePow, Nat.reduceSub, Nat.pow_eq]; omega)
    · split
      · exact hread (nanosecond / 1000) (by decide) (by decide) (by omega)
          (by simp only [Nat.reducePow, Nat.reduceSub, Nat.pow_eq]; omega)
      · exact hread nanosecond (by decide) (by decide) small (by simp)

/-- A moment is made of its parts. -/
theorem ofParts?_self (moment : Timestamp) :
    ofParts? moment.year moment.month moment.day moment.hour moment.minute moment.second
      moment.nanosecond = some moment := by
  rw [ofParts?, dif_pos moment.date_valid, dif_pos moment.time_valid]

/-- Clocks of UTC show the moment itself. -/
theorem ofLocal?_zero (moment : Timestamp) : ofLocal? moment 0 = some moment := by
  have time := moment.time_valid
  simp only [isTime, Bool.and_eq_true, decide_eq_true_eq] at time
  have hm : (60 * (moment.hour : Int) + moment.minute - 0) % 1440 =
      60 * (moment.hour : Int) + moment.minute := by omega
  have hlow : ¬ 60 * (moment.hour : Int) + moment.minute - 0 < 0 := by omega
  have hhigh : ¬ 1440 ≤ 60 * (moment.hour : Int) + moment.minute - 0 := by omega
  have hh : (60 * (moment.hour : Int) + moment.minute).toNat / 60 = moment.hour := by omega
  have hr : (60 * (moment.hour : Int) + moment.minute).toNat % 60 = moment.minute := by omega
  simp only [ofLocal?, hm, hlow, hhigh, if_false, hh, hr]
  exact ofParts?_self moment

/-- No month has more than 31 days. -/
theorem daysInMonth_le (year : Int) (month : Nat) : daysInMonth year month ≤ 31 := by
  rw [daysInMonth]
  repeat' split
  all_goals omega

/-- A moment is read back from its written form. -/
theorem parse?_render (moment : Timestamp) : parse? moment.render = some moment := by
  have date := moment.date_valid
  have time := moment.time_valid
  simp only [isDate, isTime, Bool.and_eq_true, decide_eq_true_eq] at date time
  have hdays := daysInMonth_le moment.year moment.month
  have hfraction : Stops Char.isDigit (fractionChars moment.nanosecond ++ ['Z']) := by
    rw [fractionChars]
    repeat' split
    all_goals exact .cons rfl _
  have hyear (rest : List Char) := year?_yearChars moment.year ('-' :: rest) (.cons rfl _)
  have hmonth (rest : List Char) :=
    pair?_padded moment.month ('-' :: rest) (by omega) (.cons rfl _)
  have hday (rest : List Char) :=
    pair?_padded moment.day ('T' :: rest) (by omega) (.cons rfl _)
  have hhour (rest : List Char) :=
    pair?_padded moment.hour (':' :: rest) (by omega) (.cons rfl _)
  have hminute (rest : List Char) :=
    pair?_padded moment.minute (':' :: rest) (by omega) (.cons rfl _)
  have hsecond := pair?_padded moment.second _ (by omega) hfraction
  have hnano := fraction?_fractionChars (by omega : moment.nanosecond < 1000000000)
  have hmark (mark : Char) (visible : isBlank mark = false) (rest : List Char) :
      after? mark (mark :: rest) = some rest := by
    have hs : skipBlanks (mark :: rest) = mark :: rest :=
      List.dropWhile_cons_of_neg (Bool.not_eq_true _ ▸ visible)
    simp only [after?, hs, if_true]
  have hchars : moment.chars = yearChars moment.year ++ '-' :: (padded 2 moment.month ++
      '-' :: (padded 2 moment.day ++ 'T' :: (padded 2 moment.hour ++ ':' ::
        (padded 2 moment.minute ++ ':' :: (padded 2 moment.second ++
          (fractionChars moment.nanosecond ++ ['Z'])))))) := by
    simp only [chars, List.append_assoc, List.cons_append]
  rw [parse?, render, String.toList_ofList, hchars, ofChars?]
  refine Option.bind_eq_some_iff.2 ⟨_, hyear _, ?_⟩
  refine Option.bind_eq_some_iff.2 ⟨_, hmark '-' rfl _, ?_⟩
  refine Option.bind_eq_some_iff.2 ⟨_, hmonth _, ?_⟩
  refine Option.bind_eq_some_iff.2 ⟨_, hmark '-' rfl _, ?_⟩
  refine Option.bind_eq_some_iff.2 ⟨_, hday _, ?_⟩
  refine Option.bind_eq_some_iff.2 ⟨_, rfl, ?_⟩
  refine Option.bind_eq_some_iff.2 ⟨_, hhour _, ?_⟩
  refine Option.bind_eq_some_iff.2 ⟨_, hmark ':' rfl _, ?_⟩
  refine Option.bind_eq_some_iff.2 ⟨_, hminute _, ?_⟩
  refine Option.bind_eq_some_iff.2 ⟨_, hmark ':' rfl _, ?_⟩
  refine Option.bind_eq_some_iff.2 ⟨_, hsecond, ?_⟩
  refine Option.bind_eq_some_iff.2 ⟨_, hnano, ?_⟩
  -- The time is that of UTC, and nothing is left behind it.
  refine Option.bind_eq_some_iff.2 ⟨(0, []), rfl, ?_⟩
  exact Option.bind_eq_some_iff.2 ⟨moment, moment.ofParts?_self, moment.ofLocal?_zero⟩

end DirectoryService.Timestamp
