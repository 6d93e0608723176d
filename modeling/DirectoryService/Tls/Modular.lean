/-!
# Arithmetic modulo a number

Powers are formed by squaring, so that their cost grows with the length of the exponent only.
-/

namespace DirectoryService.Modular

/-- The rest of a power. -/
def power (base exponent modulus : Nat) : Nat :=
  if exponent = 0 then 1 % modulus
  else
    let half := power (base * base % modulus) (exponent / 2) modulus
    if exponent % 2 = 1 then base * half % modulus else half
termination_by exponent

theorem power_eq (base exponent modulus : Nat) :
    power base exponent modulus = Nat.pow base exponent % modulus := by
  rw [Nat.pow_eq]
  fun_induction power base exponent modulus with
  | case1 => simp
  | case2 base exponent _ half hodd ih =>
    have h : exponent = 2 * (exponent / 2) + 1 := by omega
    simp only [half, ih]
    conv => rhs; rw [h, Nat.pow_succ, Nat.pow_mul]
    rw [← Nat.pow_mod, Nat.mul_mod_mod, Nat.mul_comm, Nat.pow_two]
  | case3 base exponent _ half heven ih =>
    have h : exponent = 2 * (exponent / 2) := by omega
    simp only [half, ih]
    conv => rhs; rw [h, Nat.pow_mul]
    rw [← Nat.pow_mod, Nat.pow_two]

/-- The rest of a difference of two rests. -/
def difference (left right modulus : Nat) : Nat := (left + (modulus - right)) % modulus

/-- The inverse of a rest modulo a prime; zero has none, and gives zero. -/
def inverse (value prime : Nat) : Nat := power value (prime - 2) prime

end DirectoryService.Modular
