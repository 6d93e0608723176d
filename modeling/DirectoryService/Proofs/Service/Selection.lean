import DirectoryService.Proofs.NameMap
import DirectoryService.Service.Selection

/-!
# What a search asks for

The names of a search are read from the first on, and `1.1` hides what follows. A fact about the
server is asked for exactly if its name, in any case, stands before `1.1`; an attribute is asked for
exactly if it is no such name and is listed, in this spelling, in a list without `1.1`.
-/

namespace DirectoryService.Selection

/-- The names that stand before the first `1.1`. -/
def front (names : List String) : List String := names.takeWhile (· ≠ noAttributes)

/-- A name, in any case, stands before the first `1.1` of a list. -/
def Asks (names : List String) (wanted : String) : Prop :=
  ∃ name ∈ front names, Ascii.same name wanted = true

instance (names : List String) (wanted : String) : Decidable (Asks names wanted) :=
  inferInstanceAs (Decidable (∃ name ∈ front names, _))

/-- Whether a name is, in any case, the one of a fact about the server. -/
def isFact (name : String) : Bool :=
  Ascii.same name subschemaAttribute || Ascii.same name namingContextsAttribute

/-- No name is the one of both facts. -/
theorem not_same_namingContexts {name : String} (same : Ascii.same name subschemaAttribute = true) :
    Ascii.same name namingContextsAttribute = false := by
  rw [Bool.eq_false_iff]
  intro other
  rw [Ascii.same_iff] at same other
  have hfolds : Ascii.fold subschemaAttribute = Ascii.fold namingContextsAttribute :=
    same.symm.trans other
  revert hfolds
  decide

/-- What names are sorted into, all at once. -/
theorem scan_eq (before : Selection) (names : List String) : scan before names =
    ⟨if noAttributes ∈ names then []
      else before.requested ++ names.filter fun name => !isFact name,
      before.subschema || (front names).any (Ascii.same · subschemaAttribute),
      before.namingContexts || (front names).any (Ascii.same · namingContextsAttribute)⟩ := by
  induction names generalizing before with
  | nil => simp [scan, front]
  | cons name rest ih =>
    rw [scan]
    split
    · rename_i marker
      simp [marker, front]
    · rename_i other
      have hfront : front (name :: rest) = name :: front rest :=
        List.takeWhile_cons_of_pos (decide_eq_true other)
      have hmarker : noAttributes ∈ name :: rest ↔ noAttributes ∈ rest := by
        rw [List.mem_cons, or_iff_right (Ne.symm other)]
      simp only [hfront, hmarker, List.any_cons]
      split
      · rename_i subschema
        rw [ih]
        simp [subschema, not_same_namingContexts subschema, isFact]
      · rename_i noSubschema
        split
        · rename_i namingContexts
          rw [ih]
          simp [noSubschema, namingContexts, isFact]
        · rename_i noNamingContexts
          rw [ih]
          simp [noSubschema, noNamingContexts, isFact]

/-- The place of the schema is asked for exactly if its name stands before `1.1`. -/
theorem subschema_ofNames (names : List String) :
    (ofNames names).subschema = true ↔ Asks names subschemaAttribute := by
  simp only [ofNames, scan_eq, Bool.false_or, List.any_eq_true, Asks]

/-- The roots of the directory are asked for exactly if their name stands before `1.1`. -/
theorem namingContexts_ofNames (names : List String) :
    (ofNames names).namingContexts = true ↔ Asks names namingContextsAttribute := by
  simp only [ofNames, scan_eq, Bool.false_or, List.any_eq_true, Asks]

/-- Names in increasing order, where a name may occur more than once. -/
abbrev Ordered (names : List String) : Prop :=
  names.Pairwise fun left right => Order.atMost left right = true

section

variable {name middle : String} {lower upper : List String}

/-- A name that comes before the middle of an ordered list can only be in front of it. -/
theorem mem_iff_mem_lower (ordered : Ordered (lower ++ middle :: upper))
    (less : Order.before name middle = true) :
    name ∈ lower ++ middle :: upper ↔ name ∈ lower := by
  obtain ⟨-, upper_ordered, -⟩ := List.pairwise_append.1 ordered
  have hrest : name ∉ middle :: upper := by
    intro member
    rcases List.mem_cons.1 member with same | later
    · rw [same, Order.not_before_self] at less
      cases less
    · have habove := (List.pairwise_cons.1 upper_ordered).1 name later
      rw [Order.atMost, less] at habove
      cases habove
  rw [List.mem_append, or_iff_left hrest]

/-- A name that does not come before the middle of an ordered list can only be behind it. -/
theorem mem_iff_mem_upper (ordered : Ordered (lower ++ middle :: upper)) (differs : name ≠ middle)
    (atLeast : ¬ Order.before name middle = true) :
    name ∈ lower ++ middle :: upper ↔ name ∈ upper := by
  obtain ⟨-, -, below⟩ := List.pairwise_append.1 ordered
  have hlower : name ∉ lower := by
    intro member
    have hbelow := below name member middle List.mem_cons_self
    rw [Order.atMost, Order.before_of_not atLeast differs] at hbelow
    cases hbelow
  rw [List.mem_append, or_iff_right hlower, List.mem_cons, or_iff_right differs]

end

/-- A name is found in an ordered list exactly if it is there. -/
theorem search_eq_true_iff {name : String} {names : List String} (ordered : Ordered names) :
    search name names = true ↔ name ∈ names := by
  have hsplit {names upper : List String} {middle : String}
      (rest : names.drop (names.length / 2) = middle :: upper) :
      names.take (names.length / 2) ++ middle :: upper = names := by
    rw [← rest, List.take_append_drop]
  fun_induction search name names with
  | case1 names none =>
    have size := congrArg List.length none
    rw [List.length_drop, List.length_nil] at size
    have hempty : names = [] := List.length_eq_zero_iff.1 (by omega)
    rw [hempty]
    simp only [Bool.false_eq_true, List.not_mem_nil]
  | case2 names upper rest =>
    have hmember : name ∈ names.take (names.length / 2) ++ name :: upper :=
      List.mem_append_right _ List.mem_cons_self
    rw [hsplit rest] at hmember
    exact iff_of_true rfl hmember
  | case3 names middle upper rest differs less ih =>
    rw [← hsplit rest] at ordered
    have hmember := mem_iff_mem_lower ordered less
    rw [hsplit rest] at hmember
    exact (ih (List.pairwise_append.1 ordered).1).trans hmember.symm
  | case4 names middle upper rest differs atLeast ih =>
    rw [← hsplit rest] at ordered
    have hmember := mem_iff_mem_upper ordered differs atLeast
    rw [hsplit rest] at hmember
    have hupper := (List.pairwise_cons.1 (List.pairwise_append.1 ordered).2.1).2
    exact (ih hupper).trans hmember.symm

/-- The attributes that are asked for are ordered before they are looked up. -/
theorem ordered_requested (names : List String) : Ordered (ofNames names).requested := by
  have htrans (first second third : String) (h : Order.atMost first second = true)
      (k : Order.atMost second third = true) : Order.atMost first third = true :=
    Order.atMost_trans h k
  exact List.pairwise_mergeSort htrans Order.atMost_total _

/-- An attribute is asked for exactly if it is listed, in this spelling, in a list without `1.1`,
and is none of the facts about the server. -/
theorem contains_ofNames {names : List String} {name : String} :
    (ofNames names).contains name = true ↔
      noAttributes ∉ names ∧ name ∈ names ∧ isFact name = false := by
  rw [contains, search_eq_true_iff (ordered_requested names)]
  simp only [ofNames, scan_eq, List.mem_mergeSort]
  by_cases marker : noAttributes ∈ names
  · simp only [marker, if_true, List.not_mem_nil, not_true_eq_false, false_and]
  · simp only [marker, if_false, List.nil_append, List.mem_filter, Bool.not_eq_true',
      not_false_eq_true, true_and]

end DirectoryService.Selection
