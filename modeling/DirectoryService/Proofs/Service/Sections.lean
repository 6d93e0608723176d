import DirectoryService.Proofs.Service.Search
import Mathlib.Data.List.TakeWhile

/-!
# The sections of the schema that are asked for

The entry of the schema has four attributes that are always there, and behind them the sections that
a search asks for. A section is asked for by its name as it is spelled, in a list without `1.1`;
where it stands in the list, and how often, has no influence.
-/

namespace DirectoryService

namespace Selection

/-- A name stands before the first `1.1` of a list exactly if the list can be split at it so that
there is none in front. -/
theorem asks_iff_exists_split {names : List String} {wanted : String}
    (other : Ascii.same noAttributes wanted = false) : Asks names wanted ↔
      ∃ before name after, names = before ++ name :: after ∧ noAttributes ∉ before ∧
        Ascii.same name wanted = true := by
  constructor
  · intro h
    obtain ⟨name, hname, same⟩ := h
    obtain ⟨before, behind, hfront⟩ := List.append_of_mem hname
    have hsplit := List.takeWhile_append_dropWhile (p := (· ≠ noAttributes)) (l := names)
    rw [← front, hfront, List.append_assoc, List.cons_append] at hsplit
    refine ⟨before, name, _, hsplit.symm, fun member => ?_, same⟩
    have hmember : noAttributes ∈ front names := by
      rw [hfront]
      exact List.mem_append_left _ member
    have hdiffers := List.mem_takeWhile_imp hmember
    exact of_decide_eq_true hdiffers rfl
  · intro h
    obtain ⟨before, name, after, hnames, hnone, same⟩ := h
    have hbefore : ∀ item ∈ before, decide (item ≠ noAttributes) = true := by
      intro item member
      refine decide_eq_true fun marker => hnone ?_
      rw [← marker]
      exact member
    have hname : decide (name ≠ noAttributes) = true := by
      refine decide_eq_true fun marker => ?_
      rw [marker, other] at same
      cases same
    refine ⟨name, ?_, same⟩
    have hfront : front (name :: after) = name :: front after := List.takeWhile_cons_of_pos hname
    rw [front, hnames, List.takeWhile_append_of_pos hbefore, ← front, hfront]
    exact List.mem_append_right _ List.mem_cons_self

/-- Two lists of the same names ask for the same attributes. -/
theorem contains_ofNames_congr {names others : List String}
    (same : ∀ name, name ∈ others ↔ name ∈ names) (name : String) :
    (ofNames others).contains name = (ofNames names).contains name := by
  rw [Bool.eq_iff_iff, contains_ofNames, contains_ofNames, same, same]

end Selection

/-- The attributes of the entry of the schema that are always there. -/
def fixedAttributes : List FoundAttribute :=
  [⟨"cn", ["schema"]⟩, ⟨"objectClass", ["top"]⟩, ⟨"objectClass", ["ldapSubentry"]⟩,
    ⟨"objectClass", ["subschema"]⟩]

/-- The attributes that serve the sections of the schema, each with a value for every definition. -/
def sectionAttributes (catalog : Catalog) : List FoundAttribute :=
  [⟨"ldapSyntaxes", catalog.syntaxes.map LdapSyntax.describe⟩,
    ⟨"objectClasses", catalog.objectClasses.map ObjectClass.describe⟩,
    ⟨"matchingRules", catalog.matchingRules.map MatchingRule.describe⟩,
    ⟨"attributeTypes", catalog.attributeTypes.map AttributeType.describe⟩]

/-- The entry of the schema shows the sections that are listed without `1.1`, in their order. -/
theorem schemaEntry_eq (catalog : Catalog) (names : List String) :
    schemaEntry catalog (.ofNames names) = ⟨schemaName, fixedAttributes ++
      (sectionAttributes catalog).filter fun shown =>
        noAttributes ∉ names ∧ shown.name ∈ names⟩ := by
  rw [Search.schemaEntry_ofNames]
  have hsections : sectionAttributes catalog =
      (schemaSections catalog).map fun shown => ⟨shown.1, shown.2⟩ := rfl
  rw [hsections, List.filter_map]
  rfl

/-- An attribute is asked for exactly if the list of names has no `1.1`, the attribute is in it, and
it is neither of the two facts about the server in any case. A fact is asked for exactly if its name,
in any case, comes before the first `1.1`. So the entry of the schema has the attributes that are
always there, and then those of the sections that are listed without `1.1`, in an order of their own
and with a value for every definition; every list of the same names yields the same entry. -/
theorem ofNames_selects (names : List String) :
    (∀ name, (Selection.ofNames names).contains name = true ↔
      "1.1" ∉ names ∧ name ∈ names ∧ Ascii.same name "subschemaSubentry" = false ∧
        Ascii.same name "namingContexts" = false) ∧
    ((Selection.ofNames names).subschema = true ↔
      ∃ before name after, names = before ++ name :: after ∧ "1.1" ∉ before ∧
        Ascii.same name "subschemaSubentry" = true) ∧
    ((Selection.ofNames names).namingContexts = true ↔
      ∃ before name after, names = before ++ name :: after ∧ "1.1" ∉ before ∧
        Ascii.same name "namingContexts" = true) ∧
    ∀ catalog : Catalog,
      schemaEntry catalog (.ofNames names) = ⟨"cn=schema", fixedAttributes ++
        (sectionAttributes catalog).filter fun shown => "1.1" ∉ names ∧ shown.name ∈ names⟩ ∧
      ∀ others, (∀ name, name ∈ others ↔ name ∈ names) →
        schemaEntry catalog (.ofNames others) = schemaEntry catalog (.ofNames names) := by
  refine ⟨fun name => ?_, ?_, ?_, fun catalog => ⟨schemaEntry_eq catalog names, ?_⟩⟩
  · rw [Selection.contains_ofNames, Selection.isFact, Bool.or_eq_false_iff]
    exact Iff.rfl
  · rw [Selection.subschema_ofNames]
    exact Selection.asks_iff_exists_split (by decide)
  · rw [Selection.namingContexts_ofNames]
    exact Selection.asks_iff_exists_split (by decide)
  · intro others same
    simp only [schemaEntry, Selection.contains_ofNames_congr same]

end DirectoryService
