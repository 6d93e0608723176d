import DirectoryService.Text.Order

/-!
# Maps from names, in the order of the names

A map is the list of its pairs in increasing order of their names, so two maps with the same
contents are equal, and listing a map lists it in order.
-/

namespace DirectoryService

/-- A map from names to values. -/
structure NameMap (β : Type) where
  /-- The pairs of the map. -/
  pairs : List (String × β)
  /-- Names increase strictly, hence none occurs twice. -/
  ordered : pairs.Pairwise (fun left right => Order.before left.1 right.1 = true)

namespace NameMap

variable {β γ : Type}

@[ext] theorem ext {left right : NameMap β} (h : left.pairs = right.pairs) : left = right := by
  cases left; cases right; simp_all

instance [DecidableEq β] : DecidableEq (NameMap β) := fun left right =>
  decidable_of_iff (left.pairs = right.pairs) ⟨ext, fun h => h ▸ rfl⟩

/-- The map without pairs. -/
def empty : NameMap β := ⟨[], .nil⟩

instance : Inhabited (NameMap β) := ⟨empty⟩

/-- The value at `name` in a list of pairs. -/
def lookup (name : String) : List (String × β) → Option β
  | [] => none
  | (key, value) :: rest => if key = name then some value else lookup name rest

/-- The list of pairs with the value at `name` changed by `f`, which sees the value that is there.
The pair is left out where `f` answers nothing. -/
def alterPairs (name : String) (f : Option β → Option β) : List (String × β) → List (String × β)
  | [] => ((f none).map (name, ·)).toList
  | (key, value) :: rest =>
    if Order.before name key then ((f none).map (name, ·)).toList ++ (key, value) :: rest
    else if name = key then ((f (some value)).map (name, ·)).toList ++ rest
    else (key, value) :: alterPairs name f rest

theorem mem_alterPairs {name : String} {f : Option β → Option β} {list : List (String × β)}
    {pair : String × β} (h : pair ∈ alterPairs name f list) : pair.1 = name ∨ pair ∈ list := by
  induction list with
  | nil => cases hf : f none <;> simp_all [alterPairs]
  | cons head rest ih =>
    obtain ⟨key, value⟩ := head
    simp only [alterPairs] at h
    split at h
    · cases hf : f none <;> simp_all; grind
    · split at h
      · cases hf : f (some value) <;> simp_all; grind
      · simp at h; grind

theorem ordered_alterPairs (name : String) (f : Option β → Option β) {list : List (String × β)}
    (h : list.Pairwise (fun left right => Order.before left.1 right.1 = true)) :
    (alterPairs name f list).Pairwise (fun left right => Order.before left.1 right.1 = true) := by
  induction list with
  | nil => cases hf : f none <;> simp [alterPairs, hf]
  | cons head rest ih =>
    obtain ⟨key, value⟩ := head
    have ⟨below, tail⟩ := List.pairwise_cons.1 h
    simp only [alterPairs]
    split
    · rename_i small
      cases hf : f none
      · simpa using h
      · simp only [Option.map_some, Option.toList_some, List.singleton_append,
          List.pairwise_cons]
        refine ⟨fun pair member => ?_, below, tail⟩
        rcases List.mem_cons.1 member with rfl | member
        · exact small
        · exact Order.before_trans small (below pair member)
    · rename_i large
      split
      · rename_i same
        subst same
        cases hf : f (some value)
        · simpa using tail
        · simpa using ⟨fun k v member => below (k, v) member, tail⟩
      · rename_i other
        refine List.pairwise_cons.2 ⟨fun pair member => ?_, ih tail⟩
        rcases mem_alterPairs member with eq | member
        · rw [eq]; exact Order.before_of_not large other
        · exact below pair member

/-- The map with the value at `name` changed by `f`. -/
def alter (map : NameMap β) (name : String) (f : Option β → Option β) : NameMap β :=
  ⟨alterPairs name f map.pairs, ordered_alterPairs name f map.ordered⟩

/-- The value at `name`. -/
def get? (map : NameMap β) (name : String) : Option β := lookup name map.pairs

/-- Whether there is a value at `name`. -/
def contains (map : NameMap β) (name : String) : Bool := (map.get? name).isSome

/-- The map with `value` at `name`. -/
def insert (map : NameMap β) (name : String) (value : β) : NameMap β :=
  map.alter name fun _ => some value

/-- The map without a value at `name`. -/
def erase (map : NameMap β) (name : String) : NameMap β := map.alter name fun _ => none

/-- The names of a map, in order. -/
def keys (map : NameMap β) : List String := map.pairs.map (·.1)

/-- The values of a map, in the order of their names. -/
def values (map : NameMap β) : List β := map.pairs.map (·.2)

/-- The map of a list of pairs, in which a later pair replaces an earlier one of its name. -/
def ofList (pairs : List (String × β)) : NameMap β :=
  pairs.foldl (fun map pair => map.insert pair.1 pair.2) empty

end NameMap

end DirectoryService
