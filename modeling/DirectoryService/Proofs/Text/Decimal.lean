/-!
# Decimal digits

A number is read back from its decimal digits. A reader of digits takes the longest run of them, so
it finds the whole number exactly if no further digit follows.
-/

namespace DirectoryService

/-- What does not go on with a run of characters of a kind. -/
def Stops (kind : Char → Bool) (rest : List Char) : Prop :=
  ∀ c tail, rest = c :: tail → kind c = false

namespace Stops

variable {kind : Char → Bool}

/-- Nothing stops a run. -/
theorem nil : Stops kind [] := nofun

/-- A character of another kind stops a run. -/
theorem cons {c : Char} (other : kind c = false) (tail : List Char) : Stops kind (c :: tail) := by
  rintro _ _ ⟨⟩
  exact other

/-- A run in front of what stops it is the longest one, and the rest is behind it. -/
theorem run_eq {rest : List Char} (stops : Stops kind rest) {run : List Char}
    (all : ∀ c ∈ run, kind c = true) :
    (run ++ rest).takeWhile kind = run ∧ (run ++ rest).dropWhile kind = rest := by
  rw [List.takeWhile_append_of_pos all, List.dropWhile_append_of_pos all]
  cases rest with
  | nil => exact ⟨List.append_nil run, rfl⟩
  | cons c tail =>
    have hc : ¬ kind c = true := by
      rw [stops c tail rfl]
      exact Bool.false_ne_true
    rw [List.takeWhile_cons_of_neg hc, List.dropWhile_cons_of_neg hc, List.append_nil]
    exact ⟨rfl, rfl⟩

end Stops

namespace Decimal

/-- The digits of a number are digits. -/
theorem isDigit_of_mem_toDigits (value : Nat) : ∀ c ∈ Nat.toDigits 10 value, c.isDigit = true :=
  fun _ member => Nat.isDigit_of_mem_toDigits (by decide) (by decide) member

/-- The digits of a number have the number as their value. -/
theorem foldl_toDigits (value : Nat) :
    (Nat.toDigits 10 value).foldl (fun sum digit => 10 * sum + (digit.toNat - 48)) 0 = value :=
  Nat.ofDigitChars_ten_toDigits

/-- A number of several digits does not start with a zero. -/
theorem head?_toDigits {value : Nat} (several : (Nat.toDigits 10 value).length ≠ 1) :
    (Nat.toDigits 10 value).head? ≠ some '0' := by
  induction value using Nat.base_induction 10 (by decide) with
  | single value small => exact absurd (by rw [Nat.toDigits_of_lt_base small]; rfl) several
  | digit value last small positive ih =>
    have hne : (Nat.toDigits 10 value).head?.isSome = true :=
      List.isSome_head?.2 Nat.toDigits_ne_nil
    rw [← Nat.toDigits_append_toDigits (by decide) positive small, List.head?_append,
      Option.or_of_isSome hne]
    by_cases one : value < 10
    · rw [Nat.toDigits_of_lt_base one]
      have hd : ∀ digit < 10, 0 < digit → [Nat.digitChar digit].head? ≠ some '0' := by decide
      exact hd value one positive
    · refine ih fun single => one ?_
      have hl := (Nat.length_toDigits_le_iff (n := value) (by decide : 1 < 10) Nat.one_pos).1
        (Nat.le_of_eq single)
      omega

end Decimal

end DirectoryService
