import DirectoryService.Proofs.Schema.Chain
import DirectoryService.Proofs.Steps

/-!
# Superiors

The walk from a class up to one without superior goes by names: each step looks up the name of a
superior, and a name finds the first class that goes by it in any case. A chain of superiors is such
a walk, as long as no object identifier comes twice on it. A catalog that passes its checks has a
chain for the first name of every class. A class whose first name finds another class before it is
not looked at, so what it records as its superior need not be there.
-/

namespace DirectoryService

namespace Catalog

/-- The classes on the walk from a class up to one without superior. -/
inductive Ascends (catalog : Catalog) : ObjectClass → List ObjectClass → Prop where
  /-- A class without superior is the end of the walk. -/
  | root {found} (top : found.effectiveSuperior = none) : Ascends catalog found [found]
  /-- The walk goes on from the class that the name of the superior finds. -/
  | step {found name above way} (superior : found.effectiveSuperior = some name)
      (finds : catalog.objectClass? name = some above) (rest : Ascends catalog above way) :
      Ascends catalog found (found :: way)

variable {catalog : Catalog}

namespace Ascends

variable {found : ObjectClass} {way : List ObjectClass}

/-- The walk from a class without superior is that class. -/
theorem iff_of_root (top : found.effectiveSuperior = none) :
    Ascends catalog found way ↔ way = [found] := by
  constructor
  · intro ascends
    cases ascends with
    | root => rfl
    | step superior finds rest =>
      rw [top] at superior
      cases superior
  · intro h
    rw [h]
    exact .root top

/-- The walk from a class with a superior is that class and the walk from what the name of the
superior finds. -/
theorem iff_of_superior {name : String} (superior : found.effectiveSuperior = some name) :
    Ascends catalog found way ↔ ∃ above rest, catalog.objectClass? name = some above ∧
      Ascends catalog above rest ∧ way = found :: rest := by
  constructor
  · intro ascends
    cases ascends with
    | root top =>
      rw [top] at superior
      cases superior
    | step other finds rest =>
      have hname := Option.some.inj (superior.symm.trans other)
      rw [hname]
      exact ⟨_, _, finds, rest, rfl⟩
  · intro h
    obtain ⟨above, rest, finds, ascends, hway⟩ := h
    rw [hway]
    exact .step superior finds ascends

/-- A walk starts with its class. -/
theorem exists_eq_cons (ascends : Ascends catalog found way) : ∃ rest, way = found :: rest := by
  cases ascends with
  | root top => exact ⟨[], rfl⟩
  | step superior finds rest => exact ⟨_, rfl⟩

/-- There is only one walk from a class. -/
theorem unique (ascends : Ascends catalog found way) {other : List ObjectClass}
    (another : Ascends catalog found other) : way = other := by
  induction ascends generalizing other with
  | root top => exact ((iff_of_root top).1 another).symm
  | step superior finds rest ih =>
    obtain ⟨above, otherRest, otherFinds, otherWay, hother⟩ := (iff_of_superior superior).1 another
    have habove := Option.some.inj (finds.symm.trans otherFinds)
    rw [← habove] at otherWay
    rw [hother, ih otherWay]

/-- The rest of a walk is the walk from where it starts. -/
theorem of_append {front back : List ObjectClass} {later : ObjectClass}
    (ascends : Ascends catalog found (front ++ later :: back)) :
    Ascends catalog later (later :: back) := by
  induction front generalizing found with
  | nil =>
    cases ascends with
    | root top => exact .root top
    | step superior finds rest => exact .step superior finds rest
  | cons first front ih =>
    -- A walk that ends with its first class has nothing behind it.
    generalize hway : first :: front ++ later :: back = way at ascends
    cases ascends with
    | root top =>
      have hlength := congrArg List.length hway
      simp only [List.cons_append, List.length_cons, List.length_append, List.length_nil] at hlength
      omega
    | step superior finds rest =>
      have hrest : front ++ later :: back = _ := List.tail_eq_of_cons_eq hway
      rw [← hrest] at rest
      exact ih rest

/-- No class comes twice on a walk: the walks from both places would be of different lengths. -/
theorem nodup (ascends : Ascends catalog found way) : way.Nodup := by
  induction ascends with
  | root top => exact List.nodup_singleton _
  | @step found name above way superior finds rest ih =>
    refine List.nodup_cons.2 ⟨fun again => ?_, ih⟩
    have hsplit := List.append_of_mem again
    obtain ⟨front, back, hway⟩ := hsplit
    have hagain : Ascends catalog found (found :: back) := by
      rw [hway] at rest
      exact rest.of_append
    have hsame := (step superior finds rest).unique hagain
    have hlength := congrArg List.length hsame
    rw [hway] at hlength
    simp only [List.length_cons, List.length_append] at hlength
    omega

/-- All of a walk is in the catalog if its first class is. -/
theorem mem_objectClasses (ascends : Ascends catalog found way)
    (inside : found ∈ catalog.objectClasses) : ∀ definition ∈ way, definition ∈ catalog.objectClasses := by
  induction ascends with
  | root top => exact List.forall_mem_singleton.2 inside
  | step superior finds rest ih =>
    exact List.forall_mem_cons.2 ⟨inside, ih (mem_of_objectClass? finds)⟩

/-- Where no two classes share an object identifier, none comes twice on a walk. -/
theorem nodup_oids (ascends : Ascends catalog found way) (inside : found ∈ catalog.objectClasses)
    (distinct : (catalog.objectClasses.map (·.oid)).Nodup) : (way.map (·.oid)).Nodup := by
  have hinside := ascends.mem_objectClasses inside
  refine ascends.nodup.map_on fun first hfirst second hsecond same => ?_
  exact List.inj_on_of_nodup_map distinct (hinside first hfirst) (hinside second hsecond) same

end Ascends

/-- A walk that comes to the name of a class comes to an end where the one from the class does. -/
theorem Walks.root_of_ascends {start name : String} {before way : List ObjectClass}
    {found : ObjectClass} (walks : Walks catalog start before (some name))
    (finds : catalog.objectClass? name = some found) (ascends : Ascends catalog found way) :
    Walks catalog start (before ++ way) none := by
  induction ascends generalizing before name with
  | root top =>
    have hwalks := walks.step finds
    rwa [top] at hwalks
  | step superior finds' rest ih =>
    have hwalks := walks.step finds
    rw [superior] at hwalks
    rw [List.append_cons]
    exact ih hwalks finds'

/-- What goes on from a name on a walk goes on from its first class. -/
theorem Walks.exists_ascends {start : String} {before : List ObjectClass} {next : Option String}
    (walks : Walks catalog start before next) {name : String} (comes : next = some name)
    {found : ObjectClass} {way : List ObjectClass} (finds : catalog.objectClass? name = some found)
    (ascends : Ascends catalog found way) :
    ∃ first, catalog.objectClass? start = some first ∧ Ascends catalog first (before ++ way) := by
  induction walks generalizing name found way with
  | start =>
    cases comes
    exact ⟨found, finds, ascends⟩
  | @step before name' found' _ finds' ih =>
    rw [List.append_assoc]
    exact ih rfl finds' (.step comes finds ascends)

/-- The walk from a name comes to an end exactly if the one from the class that it finds does. -/
theorem walks_none_iff {start : String} {way : List ObjectClass} :
    Walks catalog start way none ↔
      ∃ found, catalog.objectClass? start = some found ∧ Ascends catalog found way := by
  constructor
  · intro walks
    generalize hnext : (none : Option String) = next at walks
    cases walks with
    | start => cases hnext
    | step before finds => exact before.exists_ascends rfl finds (.root hnext.symm)
  · intro h
    obtain ⟨found, finds, ascends⟩ := h
    exact Walks.start.root_of_ascends finds ascends

/-- A name has a chain of superiors exactly if the walk from the class that it finds comes to an end
and meets no object identifier twice, and then the chain is this walk. -/
theorem superiorChain_eq_ok_iff {name : String} {chain : List ObjectClass} :
    catalog.superiorChain name = .ok chain ↔
      ∃ found, catalog.objectClass? name = some found ∧ catalog.Ascends found chain ∧
        (chain.map (·.oid)).Nodup := by
  rw [superiorChain_eq_ok_iff_walks, walks_none_iff]
  simp only [← and_assoc, exists_and_right]

/-- Identifiers pass exactly if they are different from each other and from those before them. -/
theorem checkUnique_eq_ok_iff {kind : Schema.Kind} {seen oids : List String} :
    checkUnique kind seen oids = .ok () ↔ oids.Nodup ∧ ∀ oid ∈ oids, oid ∉ seen := by
  induction oids generalizing seen with
  | nil => simp only [checkUnique, List.nodup_nil, List.not_mem_nil, false_implies, implies_true,
      and_true]
  | cons oid oids ih =>
    rw [checkUnique]
    by_cases hseen : oid ∈ seen
    · rw [if_pos (List.contains_iff_mem.2 hseen)]
      constructor
      · intro h
        cases h
      · intro h
        exact absurd hseen (h.2 oid List.mem_cons_self)
    · rw [if_neg (mt List.contains_iff_mem.1 hseen), ih, List.nodup_cons, List.forall_mem_cons]
      simp only [List.mem_cons, not_or]
      constructor
      · intro h
        exact ⟨⟨fun again => (h.2 oid again).1 rfl, h.1⟩, hseen, fun other member => (h.2 other member).2⟩
      · intro h
        refine ⟨h.1.2, fun other member => ⟨?_, h.2.2 other member⟩⟩
        intro same
        rw [same] at member
        exact h.1.1 member

/-- Identifiers pass on their own exactly if they are different from each other. -/
theorem checkUnique_nil_eq_ok_iff {kind : Schema.Kind} {oids : List String} :
    checkUnique kind [] oids = .ok () ↔ oids.Nodup := by
  rw [checkUnique_eq_ok_iff]
  exact and_iff_left fun oid _ => List.not_mem_nil

/-- An attribute type passes exactly if the type that it refines is there. -/
theorem checkSuperior_eq_ok_iff {type : AttributeType} :
    checkSuperior catalog type = .ok () ↔ ∀ superior, type.superior = some superior →
      ∃ found, catalog.attributeType? superior = some found := by
  rw [checkSuperior]
  cases type.superior with
  | none => simp only [reduceCtorEq, false_implies, implies_true]
  | some superior =>
    simp only [Option.some.injEq, forall_eq', ← Option.isSome_iff_exists, ite_eq_left_iff,
      reduceCtorEq, imp_false, Bool.not_eq_true, Bool.not_eq_false]

/-- What the checks of a catalog ask for. -/
structure IsSound (catalog : Catalog) : Prop where
  /-- No two syntaxes share an object identifier. -/
  syntaxes : (catalog.syntaxes.map (·.oid)).Nodup
  /-- No two matching rules share an object identifier. -/
  matchingRules : (catalog.matchingRules.map (·.oid)).Nodup
  /-- No two attribute types share an object identifier. -/
  attributeTypes : (catalog.attributeTypes.map (·.oid)).Nodup
  /-- No two object classes share an object identifier. -/
  objectClasses : (catalog.objectClasses.map (·.oid)).Nodup
  /-- Every attribute type that another one refines is there. -/
  refines : ∀ type ∈ catalog.attributeTypes, ∀ superior, type.superior = some superior →
    ∃ found, catalog.attributeType? superior = some found
  /-- The first name of every class finds one from which the walk comes to an end. -/
  ascends : ∀ definition ∈ catalog.objectClasses, ∃ found way,
    catalog.objectClass? definition.name = some found ∧ catalog.Ascends found way

/-- Where no two classes share an object identifier, a name has a chain of superiors exactly if the
walk from the class that it finds comes to an end. -/
theorem superiorChain_eq_ok_iff_ascends (distinct : (catalog.objectClasses.map (·.oid)).Nodup)
    {name : String} {chain : List ObjectClass} :
    catalog.superiorChain name = .ok chain ↔
      ∃ found, catalog.objectClass? name = some found ∧ catalog.Ascends found chain := by
  rw [superiorChain_eq_ok_iff]
  constructor
  · intro h
    obtain ⟨found, finds, ascends, _⟩ := h
    exact ⟨found, finds, ascends⟩
  · intro h
    obtain ⟨found, finds, ascends⟩ := h
    exact ⟨found, finds, ascends, ascends.nodup_oids (mem_of_objectClass? finds) distinct⟩

/-- A class passes exactly if its first name has a chain of superiors. -/
theorem checkChain_eq_ok_iff (distinct : (catalog.objectClasses.map (·.oid)).Nodup)
    {name : String} :
    (catalog.superiorChain name >>= fun _ => pure PUnit.unit) = .ok () ↔
      ∃ found way, catalog.objectClass? name = some found ∧ catalog.Ascends found way := by
  have hchain : (catalog.superiorChain name >>= fun _ => pure PUnit.unit) = .ok () ↔
      ∃ chain, catalog.superiorChain name = .ok chain := by
    rw [Steps.bind_eq_ok_iff]
    exact exists_congr fun chain => and_iff_left rfl
  simp only [hchain, superiorChain_eq_ok_iff_ascends distinct]
  exact exists_comm

/-- A catalog passes its checks exactly if it is sound, and what comes out is the catalog itself. -/
theorem checked_eq_ok_iff {result : Catalog} :
    catalog.checked = .ok result ↔ result = catalog ∧ catalog.IsSound := by
  simp only [checked, Steps.andThen_eq_ok_iff, checkUnique_nil_eq_ok_iff, Steps.forM_eq_ok_iff,
    checkSuperior_eq_ok_iff]
  constructor
  · intro h
    obtain ⟨syntaxes, matchingRules, attributeTypes, objectClasses, refines, chains, same⟩ := h
    refine ⟨(Except.ok.inj same).symm, syntaxes, matchingRules, attributeTypes, objectClasses,
      refines, fun definition member => ?_⟩
    exact (checkChain_eq_ok_iff objectClasses).1 (chains definition member)
  · intro h
    obtain ⟨rfl, sound⟩ := h
    refine ⟨sound.syntaxes, sound.matchingRules, sound.attributeTypes, sound.objectClasses,
      sound.refines, fun definition member => ?_, rfl⟩
    exact (checkChain_eq_ok_iff sound.objectClasses).2 (sound.ascends definition member)

/-- In a catalog that passes its checks every attribute type that another one refines is there, the
first name of every class has a chain of superiors, and a name has a chain exactly if the walk from
the class that it finds comes to an end. For a class that its own first name finds the walk does so:
its superior is found, and each further one, and every name that finds the class has this chain. -/
theorem checked_superiors {catalog result : Catalog} (passed : catalog.checked = .ok result) :
    result = catalog ∧
    (∀ type ∈ catalog.attributeTypes, ∀ superior, type.superior = some superior →
      ∃ found, catalog.attributeType? superior = some found) ∧
    (∀ definition ∈ catalog.objectClasses, ∃ chain,
      catalog.superiorChain definition.name = .ok chain) ∧
    (∀ name found, catalog.objectClass? name = some found →
      ∀ chain, catalog.superiorChain name = .ok chain ↔ catalog.Ascends found chain) ∧
    (∀ definition, catalog.objectClass? definition.name = some definition →
      ∃ way, catalog.Ascends definition way ∧ ∀ name, catalog.objectClass? name = some definition →
        catalog.superiorChain name = .ok way) := by
  obtain ⟨same, sound⟩ := checked_eq_ok_iff.1 passed
  have hchain (name : String) (found : ObjectClass) (finds : catalog.objectClass? name = some found)
      (chain : List ObjectClass) :
      catalog.superiorChain name = .ok chain ↔ catalog.Ascends found chain := by
    rw [superiorChain_eq_ok_iff_ascends sound.objectClasses, finds]
    simp only [Option.some.injEq, exists_eq_left']
  refine ⟨same, sound.refines, fun definition member => ?_, hchain, fun definition finds => ?_⟩
  · obtain ⟨found, way, finds, ascends⟩ := sound.ascends definition member
    exact ⟨way, (hchain _ found finds way).2 ascends⟩
  · obtain ⟨found, way, other, ascends⟩ :=
      sound.ascends definition (mem_of_objectClass? finds)
    rw [finds] at other
    cases other
    exact ⟨way, ascends, fun name named => (hchain name definition named way).2 ascends⟩

/-- Of two classes of one name, the first one has a chain. -/
theorem checked_superiors_first :
    let top : ObjectClass := ⟨"0", "top", [], none, .abstractRoot, [], []⟩
    let first : ObjectClass := ⟨"1", "device", [], none, .structural, [], []⟩
    let second : ObjectClass := ⟨"2", "Device", ["appliance"], some "equipment", .structural, [], []⟩
    let catalog : Catalog := ⟨[], [], [], [top, first, second]⟩
    catalog.checked = .ok catalog ∧ ∃ way, catalog.Ascends first way ∧
      ∀ name, catalog.objectClass? name = some first → catalog.superiorChain name = .ok way := by
  intro top first second catalog
  have passed : catalog.checked = .ok catalog := by decide +kernel
  exact ⟨passed, (checked_superiors passed).2.2.2.2 first (by decide +kernel)⟩

/-- Of two classes of one name, the second one passes the checks with a superior that is not there,
and another name that finds it has no chain. -/
theorem superiorChain_of_second :
    let top : ObjectClass := ⟨"0", "top", [], none, .abstractRoot, [], []⟩
    let first : ObjectClass := ⟨"1", "device", [], none, .structural, [], []⟩
    let second : ObjectClass := ⟨"2", "Device", ["appliance"], some "equipment", .structural, [], []⟩
    let catalog : Catalog := ⟨[], [], [], [top, first, second]⟩
    catalog.checked = .ok catalog ∧ second ∈ catalog.objectClasses ∧
      second.effectiveSuperior = some "equipment" ∧ catalog.objectClass? "equipment" = none ∧
      catalog.objectClass? "appliance" = some second ∧
      catalog.superiorChain "appliance" = .error (.unknownClass "equipment") := by
  decide +kernel

end Catalog

end DirectoryService
