/-!
# The order of texts

Sequences are ordered by the first items in which they differ, and a sequence comes before what it
is the beginning of. Texts are ordered by the code points of their characters. As no two characters
have the same code point, of two different texts one comes before the other.
-/

namespace DirectoryService.Order

variable {α : Type}

/-- Whether a sequence comes before another, by the keys of their items. -/
def precedes (key : α → Nat) : List α → List α → Bool
  | _, [] => false
  | [], _ :: _ => true
  | x :: left, y :: right => key x < key y || (key x == key y && precedes key left right)

theorem precedes_cons {key : α → Nat} {x y : α} {left right : List α} :
    precedes key (x :: left) (y :: right) = true ↔
      key x < key y ∨ (key x = key y ∧ precedes key left right = true) := by
  simp [precedes]

theorem precedes_trans {key : α → Nat} {first second third : List α}
    (h : precedes key first second = true) (k : precedes key second third = true) :
    precedes key first third = true := by
  induction third generalizing first second with
  | nil => simp [precedes] at k
  | cons z third ih =>
    cases second with
    | nil => simp [precedes] at h
    | cons y second =>
      cases first with
      | nil => rfl
      | cons x first =>
        rw [precedes_cons] at h k ⊢
        rcases h with less | ⟨eq, tail⟩
        · rcases k with more | ⟨same, _⟩
          · exact Or.inl (Nat.lt_trans less more)
          · exact Or.inl (same ▸ less)
        · rcases k with more | ⟨same, next⟩
          · exact Or.inl (eq ▸ more)
          · exact Or.inr ⟨eq.trans same, ih tail next⟩

theorem precedes_of_not {key : α → Nat} (injective : ∀ x y, key x = key y → x = y)
    {first second : List α} (h : ¬ precedes key first second = true) (ne : first ≠ second) :
    precedes key second first = true := by
  induction second generalizing first with
  | nil =>
    cases first with
    | nil => exact absurd rfl ne
    | cons x first => rfl
  | cons y second ih =>
    cases first with
    | nil => simp [precedes] at h
    | cons x first =>
      rw [precedes_cons] at h ⊢
      by_cases eq : key x = key y
      · refine Or.inr ⟨eq.symm, ih (fun tail => h (Or.inr ⟨eq, tail⟩)) fun same => ne ?_⟩
        rw [injective x y eq, same]
      · exact Or.inl (by omega)

/-- Whether a text comes before another. -/
def before (left right : String) : Bool := precedes Char.toNat left.toList right.toList

/-- Whether a text comes before another or is the same. -/
def atMost (left right : String) : Bool := !before right left

theorem before_trans {first second third : String} (h : before first second = true)
    (k : before second third = true) : before first third = true := precedes_trans h k

/-- Of two different texts one comes before the other. -/
theorem before_of_not {first second : String} (h : ¬ before first second = true)
    (ne : first ≠ second) : before second first = true :=
  precedes_of_not (fun _ _ => Char.toNat_inj.1) h fun same => ne (String.toList_inj.1 same)

end DirectoryService.Order
