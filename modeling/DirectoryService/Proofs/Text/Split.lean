import Mathlib.Data.List.Basic

/-!
# Where a list is cut

A list whose front is of one kind is cut in one way only, before the first item that is not of this
kind. A list that was joined with a mark that none of its parts holds is cut into these parts again.
-/

namespace DirectoryService

variable {α : Type} {first second front back : List α}

/-- A list tells what of it is of a kind up to the first item that is not, and what follows. -/
theorem append_inj_of_kind (kind : α → Prop) (hfirst : ∀ item ∈ first, kind item)
    (hsecond : ∀ item ∈ second, kind item) (hfront : ∀ item ∈ front.head?, ¬ kind item)
    (hback : ∀ item ∈ back.head?, ¬ kind item) (same : first ++ front = second ++ back) :
    first = second ∧ front = back := by
  induction first generalizing second with
  | nil =>
    cases second with
    | nil => exact ⟨rfl, same⟩
    | cons item second =>
      have hhead : front.head? = some item := congrArg List.head? same
      exact absurd (hsecond item List.mem_cons_self) (hfront item hhead)
  | cons item first ih =>
    cases second with
    | nil =>
      have hhead : back.head? = some item := (congrArg List.head? same).symm
      exact absurd (hfirst item List.mem_cons_self) (hback item hhead)
    | cons other second =>
      obtain ⟨hitem, hrest⟩ := List.cons.inj same
      obtain ⟨hfirsts, hbacks⟩ := ih (fun one member => hfirst one (List.mem_cons_of_mem _ member))
        (fun one member => hsecond one (List.mem_cons_of_mem _ member)) hrest
      rw [hitem, hfirsts]
      exact ⟨rfl, hbacks⟩

/-- A list tells what stands in front of its first sign and what stands behind it. -/
theorem append_cons_inj {sign : α} (hfirst : sign ∉ first) (hsecond : sign ∉ second)
    (same : first ++ sign :: front = second ++ sign :: back) : first = second ∧ front = back := by
  have hsign (rest : List α) : ∀ item ∈ (sign :: rest).head?, ¬ item ≠ sign := by
    intro item head
    exact not_not.2 (Option.some.inj head).symm
  obtain ⟨hfirsts, hrest⟩ := append_inj_of_kind (fun item => item ≠ sign)
    (fun item member => ne_of_mem_of_not_mem member hfirst)
    (fun item member => ne_of_mem_of_not_mem member hsecond) (hsign front) (hsign back) same
  exact ⟨hfirsts, (List.cons.inj hrest).2⟩

/-- Parts that are each followed by a mark are cut at the marks. -/
theorem splitOn_flatMap_append [DecidableEq α] {β : Type} {items : List β} {write : β → List α}
    {mark : α} {last : List α} (absent : ∀ item ∈ items, mark ∉ write item) (final : mark ∉ last) :
    (items.flatMap (fun item => write item ++ [mark]) ++ last).splitOn mark =
      items.map write ++ [last] := by
  induction items with
  | nil => exact List.splitOn_eq_singleton final
  | cons item items ih =>
    obtain ⟨hitem, hitems⟩ := List.forall_mem_cons.1 absent
    simp only [List.flatMap_cons, List.append_assoc, List.cons_append, List.nil_append,
      List.splitOn_append_cons_self_of_not_mem hitem, ih hitems, List.map_cons]

end DirectoryService
