import DirectoryService.Schema.Catalog
import Mathlib.Data.List.Dedup
import Mathlib.Data.List.Nodup
import Mathlib.Data.List.Perm.Subperm
import Mathlib.Logic.Function.Iterate

/-!
# Chains of superiors

A chain of superiors is searched for by looking up one name after the other, in any catalog: names
may be missing, and classes may share names and object identifiers or be superiors of each other.
The search comes to an end all the same, since every look-up but the last one finds an object
identifier that was not found before, and its result tells how the walk along the superiors ends.
-/

namespace DirectoryService

/-- A search for a chain of superiors. -/
inductive Climb where
  /-- Classes were found, and a name is looked up next. -/
  | searching (seen : List ObjectClass) (next : String)
  /-- The search is over. -/
  | ended (result : Except Schema.Fault (List ObjectClass))

/-- A search that has found classes, with the name of the superior of the last one: it is over where
there is no superior. -/
def Climb.at (seen : List ObjectClass) : Option String → Climb
  | some next => .searching seen next
  | none => .ended (.ok seen)

namespace Catalog

/-- One look-up of a search that started at a name. -/
def lookUp (catalog : Catalog) (start : String) : Climb → Climb
  | .searching seen next =>
    match catalog.objectClass? next with
    | none => .ended (.error (.unknownClass next))
    | some found =>
      if found.oid ∈ seen.map (·.oid) then .ended (.error (.cyclicSuperiors start))
      else .at (seen ++ [found]) found.effectiveSuperior
  | .ended result => .ended result

/-- The walk from a name: the classes that are found one after the other, each but the first by the
name of the superior of the one before it, and the name of the superior of the last one. -/
inductive Walks (catalog : Catalog) (start : String) :
    List ObjectClass → Option String → Prop where
  /-- Before the first class stands its name. -/
  | start : Walks catalog start [] (some start)
  /-- A name finds the next class. -/
  | step {way next found} (before : Walks catalog start way (some next))
      (finds : catalog.objectClass? next = some found) :
      Walks catalog start (way ++ [found]) found.effectiveSuperior

/-- How a walk ends if it is stopped where an object identifier comes again. -/
inductive WalkEnds (catalog : Catalog) (start : String) :
    Except Schema.Fault (List ObjectClass) → Prop where
  /-- It reaches a class without superior. -/
  | root {way} (walks : Walks catalog start way none) (distinct : (way.map (·.oid)).Nodup) :
      WalkEnds catalog start (.ok way)
  /-- It comes to an object identifier again. -/
  | again {way next found} (walks : Walks catalog start way (some next))
      (distinct : (way.map (·.oid)).Nodup) (finds : catalog.objectClass? next = some found)
      (seen : found.oid ∈ way.map (·.oid)) :
      WalkEnds catalog start (.error (.cyclicSuperiors start))
  /-- It comes to a name that finds nothing. -/
  | unknown {way next} (walks : Walks catalog start way (some next))
      (distinct : (way.map (·.oid)).Nodup) (misses : catalog.objectClass? next = none) :
      WalkEnds catalog start (.error (.unknownClass next))

/-- The object identifiers of the classes, each of them once. -/
def classOids (catalog : Catalog) : List String := (catalog.objectClasses.map (·.oid)).dedup

variable {catalog : Catalog} {start : String} {way : List ObjectClass} {next : Option String}

/-- What a name finds is a class of the catalog. -/
theorem mem_of_objectClass? {name : String} {found : ObjectClass}
    (finds : catalog.objectClass? name = some found) : found ∈ catalog.objectClasses :=
  List.mem_of_find?_eq_some finds

namespace Walks

/-- All of a walk is in the catalog. -/
theorem mem_objectClasses (walks : Walks catalog start way next) :
    ∀ definition ∈ way, definition ∈ catalog.objectClasses := by
  induction walks with
  | start => exact List.forall_mem_nil _
  | step before finds ih =>
    exact List.forall_mem_append.2 ⟨ih, List.forall_mem_singleton.2 (mem_of_objectClass? finds)⟩

/-- A walk without repetition is no longer than there are object identifiers. -/
theorem length_le (walks : Walks catalog start way next) (distinct : (way.map (·.oid)).Nodup) :
    way.length ≤ catalog.classOids.length := by
  have hsubset : way.map (·.oid) ⊆ catalog.classOids := by
    intro oid member
    obtain ⟨definition, hdefinition, hoid⟩ := List.mem_map.1 member
    rw [← hoid]
    exact List.mem_dedup.2 (List.mem_map_of_mem (walks.mem_objectClasses definition hdefinition))
  have hle := (List.subperm_of_subset distinct hsubset).length_le
  rwa [List.length_map] at hle

/-- A search keeps to the walk as long as no object identifier comes again, with one look-up for
each class. -/
theorem iterate_lookUp (walks : Walks catalog start way next)
    (distinct : (way.map (·.oid)).Nodup) :
    (catalog.lookUp start)^[way.length] (.searching [] start) = .at way next := by
  induction walks with
  | start => rfl
  | @step way next found before finds ih =>
    rw [List.map_append] at distinct
    obtain ⟨hway, -, hapart⟩ := List.nodup_append.1 distinct
    have hnew : found.oid ∉ way.map (·.oid) := by
      intro member
      exact hapart _ member _ List.mem_cons_self rfl
    rw [List.length_append, List.length_singleton, Function.iterate_succ_apply', ih hway, Climb.at,
      lookUp, finds]
    exact if_neg hnew

/-- A walk without repetition goes on until it ends: the fewer object identifiers are left, the
sooner. -/
theorem exists_walkEnds (walks : Walks catalog start way next)
    (distinct : (way.map (·.oid)).Nodup) : ∃ result, WalkEnds catalog start result := by
  generalize hleft : catalog.classOids.length - way.length = left
  induction left using Nat.strongRecOn generalizing way next with
  | ind left ih =>
    cases next with
    | none => exact ⟨_, .root walks distinct⟩
    | some next =>
      cases hfound : catalog.objectClass? next with
      | none => exact ⟨_, .unknown walks distinct hfound⟩
      | some found =>
        by_cases hseen : found.oid ∈ way.map (·.oid)
        · exact ⟨_, .again walks distinct hfound hseen⟩
        · have hdistinct : ((way ++ [found]).map (·.oid)).Nodup := by
            rw [List.map_append]
            exact distinct.append (List.nodup_singleton _) (List.disjoint_singleton.2 hseen)
          have hwalks := walks.step hfound
          have hle := hwalks.length_le hdistinct
          rw [List.length_append, List.length_singleton] at hle
          refine ih _ ?_ hwalks hdistinct rfl
          rw [List.length_append, List.length_singleton]
          omega

end Walks

/-- A search that is over stays so. -/
theorem iterate_lookUp_ended (count : Nat) (result : Except Schema.Fault (List ObjectClass)) :
    (catalog.lookUp start)^[count] (.ended result) = .ended result :=
  Function.iterate_fixed rfl count

/-- An object identifier was seen exactly if a class of it was. -/
theorem any_oid_iff {seen : List ObjectClass} {oid : String} :
    seen.any (·.oid == oid) = true ↔ oid ∈ seen.map (·.oid) := by
  simp only [List.any_eq_true, beq_iff_eq, List.mem_map]

/-- The search for a chain starts with one look-up and goes on with what this leaves. -/
theorem climb_eq {seen : List ObjectClass} {current : String} :
    catalog.climb start seen current =
      match catalog.lookUp start (.searching seen current) with
      | .searching more next => catalog.climb start more next
      | .ended result => result := by
  rw [climb, lookUp]
  cases catalog.objectClass? current with
  | none => rfl
  | some found =>
    by_cases again : found.oid ∈ seen.map (·.oid)
    · simp only [if_pos again, dif_pos (any_oid_iff.2 again)]
    · simp only [if_neg again, dif_neg (mt any_oid_iff.1 again)]
      cases found.effectiveSuperior <;> rfl

/-- The search for a chain is the repeated look-up. -/
theorem climb_eq_of_iterate {count : Nat} {seen : List ObjectClass} {current : String}
    {result : Except Schema.Fault (List ObjectClass)}
    (ends : (catalog.lookUp start)^[count] (.searching seen current) = .ended result) :
    catalog.climb start seen current = result := by
  induction count generalizing seen current with
  | zero => cases ends
  | succ count ih =>
    rw [Function.iterate_succ_apply] at ends
    rw [climb_eq]
    cases hfirst : catalog.lookUp start (.searching seen current) with
    | searching more next =>
      rw [hfirst] at ends
      exact ih ends
    | ended found =>
      rw [hfirst, iterate_lookUp_ended] at ends
      exact Climb.ended.inj ends

/-- A search ends as the walk does, after at most one look-up more than there are object
identifiers. -/
theorem WalkEnds.iterate_lookUp {result : Except Schema.Fault (List ObjectClass)}
    (ends : WalkEnds catalog start result) : ∃ count ≤ catalog.classOids.length + 1,
      (catalog.lookUp start)^[count] (.searching [] start) = .ended result := by
  cases ends with
  | @root way walks distinct =>
    have hle := walks.length_le distinct
    exact ⟨way.length, by omega, walks.iterate_lookUp distinct⟩
  | @again way next found walks distinct finds seen =>
    have hle := walks.length_le distinct
    refine ⟨way.length + 1, by omega, ?_⟩
    rw [Function.iterate_succ_apply', walks.iterate_lookUp distinct, Climb.at, lookUp, finds]
    exact if_pos seen
  | @unknown way next walks distinct misses =>
    have hle := walks.length_le distinct
    refine ⟨way.length + 1, by omega, ?_⟩
    rw [Function.iterate_succ_apply', walks.iterate_lookUp distinct, Climb.at, lookUp, misses]

/-- The result of a search is how the walk ends. -/
theorem superiorChain_eq_iff {result : Except Schema.Fault (List ObjectClass)} :
    catalog.superiorChain start = result ↔ WalkEnds catalog start result := by
  have hends {other : Except Schema.Fault (List ObjectClass)}
      (ends : WalkEnds catalog start other) : catalog.superiorChain start = other := by
    obtain ⟨count, -, hiterate⟩ := ends.iterate_lookUp
    exact climb_eq_of_iterate hiterate
  constructor
  · intro h
    obtain ⟨other, ends⟩ :=
      (Walks.start : Walks catalog start [] (some start)).exists_walkEnds List.nodup_nil
    rw [← h, hends ends]
    exact ends
  · exact hends

/-- A search yields a chain exactly if the walk reaches a class without superior. -/
theorem superiorChain_eq_ok_iff_walks {chain : List ObjectClass} :
    catalog.superiorChain start = .ok chain ↔
      Walks catalog start chain none ∧ (chain.map (·.oid)).Nodup := by
  rw [superiorChain_eq_iff]
  constructor
  · intro h
    cases h with
    | root walks distinct => exact ⟨walks, distinct⟩
  · intro h
    exact .root h.1 h.2

/-- In any catalog the search for the chain of a name is over after at most one look-up more than
there are object identifiers of classes. It yields the classes of the walk from the name if this
reaches a class without superior before an object identifier comes again. If an object identifier
comes again before that the chain is cyclic, and if a name on the walk finds nothing before either
this name is the one that is unknown. Nothing else can happen. -/
theorem superiorChain_ends (catalog : Catalog) (name : String) :
    (∃ count ≤ catalog.classOids.length + 1,
      (catalog.lookUp name)^[count] (.searching [] name) = .ended (catalog.superiorChain name)) ∧
    (∀ chain, catalog.superiorChain name = .ok chain ↔
      catalog.Walks name chain none ∧ (chain.map (·.oid)).Nodup) ∧
    (catalog.superiorChain name = .error (.cyclicSuperiors name) ↔
      ∃ way next found, catalog.Walks name way (some next) ∧ (way.map (·.oid)).Nodup ∧
        catalog.objectClass? next = some found ∧ found.oid ∈ way.map (·.oid)) ∧
    (∀ missing, catalog.superiorChain name = .error (.unknownClass missing) ↔
      ∃ way, catalog.Walks name way (some missing) ∧ (way.map (·.oid)).Nodup ∧
        catalog.objectClass? missing = none) ∧
    ((∃ chain, catalog.superiorChain name = .ok chain) ∨
      catalog.superiorChain name = .error (.cyclicSuperiors name) ∨
      ∃ missing, catalog.superiorChain name = .error (.unknownClass missing)) := by
  have hends : WalkEnds catalog name (catalog.superiorChain name) := superiorChain_eq_iff.1 rfl
  refine ⟨hends.iterate_lookUp, fun chain => superiorChain_eq_ok_iff_walks, ?_,
    fun missing => ?_, ?_⟩
  · rw [superiorChain_eq_iff]
    constructor
    · intro h
      cases h with
      | again walks distinct finds seen => exact ⟨_, _, _, walks, distinct, finds, seen⟩
    · intro h
      obtain ⟨way, next, found, walks, distinct, finds, seen⟩ := h
      exact .again walks distinct finds seen
  · rw [superiorChain_eq_iff]
    constructor
    · intro h
      cases h with
      | unknown walks distinct misses => exact ⟨_, walks, distinct, misses⟩
    · intro h
      obtain ⟨way, walks, distinct, misses⟩ := h
      exact .unknown walks distinct misses
  · generalize catalog.superiorChain name = result at hends
    cases hends with
    | @root way walks distinct => exact .inl ⟨way, rfl⟩
    | again walks distinct finds seen => exact .inr (.inl rfl)
    | @unknown way next walks distinct misses => exact .inr (.inr ⟨next, rfl⟩)

end Catalog

end DirectoryService
