import DirectoryService.NameMap

/-!
# What a map holds

A map is told by the values that it has at names: what an operation does is said by the values
after it, and maps with the same values are the same.
-/

namespace DirectoryService

namespace Order

variable {α : Type}

/-- No sequence comes before itself. -/
theorem not_precedes_self (key : α → Nat) (items : List α) : precedes key items items = false := by
  induction items with
  | nil => rfl
  | cons item items ih => simp [precedes, ih]

/-- No text comes before itself. -/
theorem not_before_self (text : String) : before text text = false := not_precedes_self _ _

/-- A text that comes before another is not the same. -/
theorem ne_of_before {first second : String} (h : before first second = true) : first ≠ second := by
  rintro rfl
  rw [not_before_self] at h
  cases h

/-- No two texts come before each other. -/
theorem not_before_of_before {first second : String} (h : before first second = true) :
    ¬ before second first = true := by
  intro back
  have hs := before_trans h back
  rw [not_before_self] at hs
  cases hs

/-- A text comes before another or is the same, or the other comes before it. -/
theorem atMost_total (left right : String) : (atMost left right || atMost right left) = true := by
  rw [atMost, atMost]
  by_cases h : before left right = true
  · rw [Bool.eq_false_iff.2 (not_before_of_before h)]
    rfl
  · rw [Bool.eq_false_iff.2 h, Bool.not_false, Bool.or_true]

/-- Texts that each come before the other or are the same are the same. -/
theorem eq_of_atMost {left right : String} (h : atMost left right = true)
    (back : atMost right left = true) : left = right := by
  rw [atMost, Bool.not_eq_true'] at h back
  refine Decidable.byContradiction fun ne => ?_
  exact absurd (before_of_not (Bool.eq_false_iff.1 back) ne) (Bool.eq_false_iff.1 h)

/-- What comes before a text or is the same comes before all that follows it. -/
theorem atMost_trans {first second third : String} (h : atMost first second = true)
    (k : atMost second third = true) : atMost first third = true := by
  rw [atMost, Bool.not_eq_true'] at h k ⊢
  rw [Bool.eq_false_iff]
  intro back
  by_cases same : second = third
  · rw [same, back] at h
    cases h
  · -- The third text comes before the first, and the second one before the third.
    have hk := before_of_not (Bool.eq_false_iff.1 k) (Ne.symm same)
    rw [before_trans hk back] at h
    cases h

/-- Items whose names increase are told by which of them there are. -/
theorem eq_of_increasing {name : α → String} {left right : List α}
    (hleft : left.Pairwise fun a b => before (name a) (name b) = true)
    (hright : right.Pairwise fun a b => before (name a) (name b) = true)
    (same : ∀ a, a ∈ left ↔ a ∈ right) : left = right := by
  have distinct {items : List α}
      (increasing : items.Pairwise fun a b => before (name a) (name b) = true) : items.Nodup :=
    increasing.imp fun h equal => ne_of_before h (congrArg name equal)
  have hperm := (List.perm_ext_iff_of_nodup (distinct hleft) (distinct hright)).2 same
  exact hperm.eq_of_pairwise (fun _ _ _ _ h back => absurd back (not_before_of_before h))
    hleft hright

end Order

namespace NameMap

variable {β : Type}

/-- Pairs in increasing order of their names. -/
abbrev Increasing (list : List (String × β)) : Prop :=
  list.Pairwise fun left right => Order.before left.1 right.1 = true

/-- There is no value at a name that comes before all others. -/
theorem lookup_eq_none_of_before {name : String} {list : List (String × β)}
    (h : ∀ pair ∈ list, Order.before name pair.1 = true) : lookup name list = none := by
  induction list with
  | nil => rfl
  | cons pair list ih =>
    rw [List.forall_mem_cons] at h
    rw [lookup, if_neg (Order.ne_of_before h.1).symm, ih h.2]

/-- A value is at a name if its pair is in the list. -/
theorem mem_of_lookup_eq_some {name : String} {value : β} {list : List (String × β)}
    (h : lookup name list = some value) : (name, value) ∈ list := by
  induction list with
  | nil => cases h
  | cons pair list ih =>
    obtain ⟨key, here⟩ := pair
    rw [lookup] at h
    split at h
    · rename_i same
      cases h
      rw [same]
      exact List.mem_cons_self
    · exact List.mem_cons_of_mem _ (ih h)

/-- In an increasing list every pair has its value at its name. -/
theorem lookup_eq_some_iff {name : String} {value : β} {list : List (String × β)}
    (increasing : Increasing list) : lookup name list = some value ↔ (name, value) ∈ list := by
  refine ⟨mem_of_lookup_eq_some, fun h => ?_⟩
  induction list with
  | nil => cases h
  | cons pair list ih =>
    obtain ⟨below, tail⟩ := List.pairwise_cons.1 increasing
    rw [lookup]
    rcases List.mem_cons.1 h with rfl | h
    · rw [if_pos rfl]
    · rw [if_neg (Order.ne_of_before (below _ h)), ih tail h]

/-- A changed list has the changed value at the name and its old values at all others. -/
theorem lookup_alterPairs (name : String) (f : Option β → Option β) {list : List (String × β)}
    (increasing : Increasing list) (other : String) :
    lookup other (alterPairs name f list) =
      if other = name then f (lookup name list) else lookup other list := by
  induction list with
  | nil =>
    simp only [alterPairs, lookup]
    cases f none <;> simp [lookup, eq_comm]
  | cons pair list ih =>
    obtain ⟨key, value⟩ := pair
    obtain ⟨below, tail⟩ := List.pairwise_cons.1 increasing
    rw [alterPairs]
    split
    · rename_i before
      have hn : lookup name ((key, value) :: list) = none := by
        refine lookup_eq_none_of_before fun pair member => ?_
        rcases List.mem_cons.1 member with rfl | member
        · exact before
        · exact Order.before_trans before (below pair member)
      rw [hn]
      cases f none with
      | none =>
        by_cases ho : other = name
        · rw [if_pos ho, ho]
          exact hn
        · rw [if_neg ho]
          rfl
      | some added =>
        simp only [Option.map_some, Option.toList_some, List.singleton_append, lookup]
        by_cases ho : other = name
        · rw [if_pos ho, if_pos ho.symm]
        · rw [if_neg ho, if_neg (Ne.symm ho)]
    · split
      · rename_i same
        subst same
        have hn : lookup name list = none := lookup_eq_none_of_before below
        simp only [lookup, if_true]
        by_cases ho : other = name
        · subst ho
          cases f (some value) with
          | none => simp [hn]
          | some added => simp [lookup]
        · cases f (some value) with
          | none => simp [ho, Ne.symm ho]
          | some added => simp [lookup, ho, Ne.symm ho]
      · rename_i differs
        simp only [lookup, ih tail, if_neg (Ne.symm differs)]
        by_cases ho : key = other
        · subst ho
          rw [if_pos rfl, if_neg (Ne.symm differs), if_pos rfl]
        · rw [if_neg ho, if_neg ho]

@[simp] theorem get?_empty (name : String) : (empty : NameMap β).get? name = none := rfl

/-- A changed map has the changed value at the name and its old values at all others. -/
theorem get?_alter (map : NameMap β) (name : String) (f : Option β → Option β) (other : String) :
    (map.alter name f).get? other = if other = name then f (map.get? name) else map.get? other :=
  lookup_alterPairs name f map.ordered other

@[simp] theorem get?_insert (map : NameMap β) (name : String) (value : β) (other : String) :
    (map.insert name value).get? other = if other = name then some value else map.get? other :=
  map.get?_alter name _ other

@[simp] theorem contains_insert (map : NameMap β) (name : String) (value : β) (other : String) :
    (map.insert name value).contains other = (decide (other = name) || map.contains other) := by
  rw [contains, get?_insert, contains]
  by_cases ho : other = name
  · rw [if_pos ho, decide_eq_true ho]
    rfl
  · rw [if_neg ho, decide_eq_false ho]
    rfl

/-- There is a value at a name exactly if one is found there. -/
theorem contains_iff {map : NameMap β} {name : String} :
    map.contains name = true ↔ ∃ value, map.get? name = some value := Option.isSome_iff_exists

/-- The pairs of a map are its values with their names. -/
theorem mem_pairs_iff {map : NameMap β} {name : String} {value : β} :
    (name, value) ∈ map.pairs ↔ map.get? name = some value := (lookup_eq_some_iff map.ordered).symm

/-- The names of a map are those with a value. -/
theorem mem_keys_iff {map : NameMap β} {name : String} :
    name ∈ map.keys ↔ map.contains name = true := by
  rw [keys, List.mem_map, contains_iff]
  constructor
  · rintro ⟨⟨key, value⟩, member, rfl⟩
    exact ⟨value, mem_pairs_iff.1 member⟩
  · rintro ⟨value, found⟩
    exact ⟨(name, value), mem_pairs_iff.2 found, rfl⟩

/-- The values of a map are those at some name. -/
theorem mem_values_iff {map : NameMap β} {value : β} :
    value ∈ map.values ↔ ∃ name, map.get? name = some value := by
  rw [values, List.mem_map]
  constructor
  · rintro ⟨⟨name, found⟩, member, rfl⟩
    exact ⟨name, mem_pairs_iff.1 member⟩
  · rintro ⟨name, found⟩
    exact ⟨(name, value), mem_pairs_iff.2 found, rfl⟩

/-- Maps with the same values at all names are the same. -/
theorem ext_get? {left right : NameMap β} (h : ∀ name, left.get? name = right.get? name) :
    left = right := by
  refine ext (Order.eq_of_increasing left.ordered right.ordered fun pair => ?_)
  rw [mem_pairs_iff, mem_pairs_iff, h]

/-- Pairs that are put into a map one after the other take the places of those before. -/
theorem get?_foldl_insert {list : List (String × β)} (increasing : Increasing list)
    (map : NameMap β) (name : String) :
    (list.foldl (fun map pair => map.insert pair.1 pair.2) map).get? name =
      (lookup name list).or (map.get? name) := by
  induction list generalizing map with
  | nil => rfl
  | cons pair list ih =>
    obtain ⟨key, value⟩ := pair
    obtain ⟨below, tail⟩ := List.pairwise_cons.1 increasing
    rw [List.foldl_cons, ih tail, lookup, get?_insert]
    by_cases here : key = name
    · subst here
      rw [if_pos rfl, if_pos rfl, lookup_eq_none_of_before below]
      rfl
    · rw [if_neg here, if_neg (Ne.symm here)]

/-- A map is made of its pairs. -/
theorem ofList_pairs (map : NameMap β) : ofList map.pairs = map := by
  refine ext_get? fun name => ?_
  rw [ofList, get?_foldl_insert map.ordered, get?_empty, Option.or_none]
  rfl

/-- The names of a map increase. -/
theorem keys_increasing (map : NameMap β) :
    map.keys.Pairwise fun left right => Order.before left right = true :=
  List.pairwise_map.2 map.ordered

/-- No name occurs twice. -/
theorem keys_nodup (map : NameMap β) : map.keys.Nodup := map.keys_increasing.imp Order.ne_of_before

end NameMap

end DirectoryService
