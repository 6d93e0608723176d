import Mathlib.Data.List.Forall2

/-!
# Steps that can fail

Two steps that can fail yield a value exactly if both do, and their fault is that of the first one
that fails. The same holds of a step that is made for each of several items.
-/

namespace DirectoryService.Steps

variable {ε α β : Type}

section

variable {first : Except ε α} {second : α → Except ε β}

/-- Two steps yield a value exactly if the first one yields something and the second one yields the
value from it. -/
theorem bind_eq_ok_iff {value : β} :
    (first >>= second) = .ok value ↔ ∃ found, first = .ok found ∧ second found = .ok value := by
  cases first with
  | error fault => exact ⟨nofun, fun h => nomatch h⟩
  | ok found =>
    constructor
    · intro h
      exact ⟨found, rfl, h⟩
    · intro h
      obtain ⟨_, hfound, hsecond⟩ := h
      cases hfound
      exact hsecond

/-- The fault of two steps is that of the first one, or of the second one behind what the first one
yields. -/
theorem bind_eq_error_iff {fault : ε} :
    (first >>= second) = .error fault ↔
      first = .error fault ∨ ∃ found, first = .ok found ∧ second found = .error fault := by
  cases first with
  | error cause =>
    constructor
    · intro h
      cases h
      exact .inl rfl
    · intro h
      rcases h with h | h
      · cases h
        rfl
      · obtain ⟨_, hfound, -⟩ := h
        cases hfound
  | ok found =>
    constructor
    · intro h
      exact .inr ⟨found, rfl, h⟩
    · intro h
      rcases h with h | h
      · cases h
      · obtain ⟨_, hfound, hsecond⟩ := h
        cases hfound
        exact hsecond

end

/-- One check after another passes exactly if both do. -/
theorem andThen_eq_ok_iff {check : Except ε PUnit} {further : Except ε α} {result : α} :
    (check >>= fun _ => further) = .ok result ↔ check = .ok () ∧ further = .ok result := by
  rw [bind_eq_ok_iff]
  constructor
  · intro h
    obtain ⟨_, passed⟩ := h
    exact passed
  · intro h
    exact ⟨(), h⟩

/-- A step whose faults are put in other words yields what the step does. -/
theorem mapError_eq_ok_iff {δ : Type} {step : Except ε α} {reword : ε → δ} {value : α} :
    step.mapError reword = .ok value ↔ step = .ok value := by
  cases step with
  | error fault => exact ⟨nofun, nofun⟩
  | ok found => exact ⟨fun h => congrArg Except.ok (Except.ok.inj h), fun h => h ▸ rfl⟩

/-- The fault of a step whose faults are put in other words is a fault of the step in these. -/
theorem mapError_eq_error_iff {δ : Type} {step : Except ε α} {reword : ε → δ} {fault : δ} :
    step.mapError reword = .error fault ↔ ∃ cause, step = .error cause ∧ reword cause = fault := by
  cases step with
  | error cause =>
    constructor
    · intro h
      exact ⟨cause, rfl, Except.error.inj h⟩
    · intro h
      obtain ⟨_, hcause, hfault⟩ := h
      cases hcause
      exact congrArg Except.error hfault
  | ok found => exact ⟨nofun, fun h => nomatch h⟩

/-- Checks of all items pass exactly if the check of each does. -/
theorem forM_eq_ok_iff {check : α → Except ε PUnit} {items : List α} :
    items.forM check = .ok () ↔ ∀ item ∈ items, check item = .ok () := by
  induction items with
  | nil => exact ⟨fun _ => List.forall_mem_nil _, fun _ => rfl⟩
  | cons item items ih =>
    have hstep : (item :: items).forM check = check item >>= fun _ => items.forM check := rfl
    rw [hstep, andThen_eq_ok_iff, List.forall_mem_cons, ih]

/-- A step for each of several items yields values exactly if it yields each one from its item. -/
theorem mapM_eq_ok_iff {read : α → Except ε β} {items : List α} {values : List β} :
    items.mapM read = .ok values ↔
      List.Forall₂ (fun item value => read item = .ok value) items values := by
  induction items generalizing values with
  | nil =>
    rw [List.mapM_nil, List.forall₂_nil_left_iff]
    exact ⟨fun h => (Except.ok.inj h).symm, fun h => h ▸ rfl⟩
  | cons item rest ih =>
    rw [List.mapM_cons, List.forall₂_cons_left_iff, bind_eq_ok_iff]
    refine exists_congr fun value => ?_
    rw [bind_eq_ok_iff]
    constructor
    · intro h
      obtain ⟨hitem, more, hrest, hvalues⟩ := h
      exact ⟨more, hitem, ih.1 hrest, (Except.ok.inj hvalues).symm⟩
    · intro h
      obtain ⟨more, hitem, hrest, hvalues⟩ := h
      exact ⟨hitem, more, ih.2 hrest, congrArg Except.ok hvalues.symm⟩

/-- The fault of a step for each of several items is the fault for one of them. -/
theorem exists_of_mapM_eq_error {read : α → Except ε β} {items : List α} {fault : ε}
    (refused : items.mapM read = .error fault) : ∃ item ∈ items, read item = .error fault := by
  induction items with
  | nil => cases refused
  | cons item rest ih =>
    rw [List.mapM_cons, bind_eq_error_iff] at refused
    rcases refused with h | h
    · exact ⟨item, List.mem_cons_self, h⟩
    · obtain ⟨value, -, h⟩ := h
      rcases bind_eq_error_iff.1 h with hrest | hdone
      · obtain ⟨found, hmem, hfound⟩ := ih hrest
        exact ⟨found, List.mem_cons_of_mem item hmem, hfound⟩
      · obtain ⟨_, -, hdone⟩ := hdone
        cases hdone

end DirectoryService.Steps
