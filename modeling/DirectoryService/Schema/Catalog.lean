import DirectoryService.Entry.Basic
import DirectoryService.Schema.Basic

/-!
# Schema catalogs

A catalog is a whole schema. A catalog that was checked has no object identifier twice in one kind,
and every superior that it names leads up to the root.
-/

namespace DirectoryService

namespace Schema

/-- The kinds of definitions. -/
inductive Kind where
  /-- Syntaxes. -/
  | ldapSyntax
  /-- Matching rules. -/
  | matchingRule
  /-- Attribute types. -/
  | attributeType
  /-- Object classes. -/
  | objectClass
deriving DecidableEq

/-- The name of a kind. -/
def Kind.label : Kind → String
  | .ldapSyntax => "syntax"
  | .matchingRule => "matching rule"
  | .attributeType => "attribute type"
  | .objectClass => "object class"

/-- Why definitions are no schema. -/
inductive Fault where
  /-- Two definitions of a kind share an object identifier. -/
  | duplicateOid (kind : Kind) (oid : String)
  /-- An attribute type refines a type that is not there. -/
  | unknownSuperior (name superior : String)
  /-- There is no class of a name. -/
  | unknownClass (name : String)
  /-- The superiors of a class lead back to one of them. -/
  | cyclicSuperiors (name : String)
  /-- A fault in the words of whoever reports it. -/
  | reported (text : String)
deriving DecidableEq

/-- The wording of a fault. -/
def Fault.message : Fault → String
  | .duplicateOid kind oid => s!"duplicate {kind.label} OID {oid}"
  | .unknownSuperior name superior => s!"attribute type {name} names unknown superior {superior}"
  | .unknownClass name => s!"unknown object class {name}"
  | .cyclicSuperiors name => s!"object class {name} has a cyclic superior chain"
  | .reported text => text

end Schema

/-- A schema. -/
structure Catalog where
  /-- The syntaxes. -/
  syntaxes : List LdapSyntax
  /-- The matching rules. -/
  matchingRules : List MatchingRule
  /-- The attribute types. -/
  attributeTypes : List AttributeType
  /-- The object classes. -/
  objectClasses : List ObjectClass
deriving DecidableEq

namespace Catalog

/-- The schema without definitions. -/
def empty : Catalog := ⟨[], [], [], []⟩

instance : Inhabited Catalog := ⟨empty⟩

/-- The first attribute type that goes by a name. -/
def attributeType? (catalog : Catalog) (name : String) : Option AttributeType :=
  catalog.attributeTypes.find? (·.isNamed name)

/-- The first object class that goes by a name. -/
def objectClass? (catalog : Catalog) (name : String) : Option ObjectClass :=
  catalog.objectClasses.find? (·.isNamed name)

/-- The classes whose object identifier none of the classes `seen` has. -/
def unseen (catalog : Catalog) (seen : List ObjectClass) : List ObjectClass :=
  catalog.objectClasses.filter fun definition => !seen.any (·.oid == definition.oid)

/-- A class with a new object identifier is unseen until it is seen. -/
theorem length_unseen_lt {catalog : Catalog} {seen : List ObjectClass} {found : ObjectClass}
    (known : found ∈ catalog.objectClasses) (fresh : ¬ seen.any (·.oid == found.oid) = true) :
    (catalog.unseen (seen ++ [found])).length < (catalog.unseen seen).length := by
  have hfilter : catalog.unseen (seen ++ [found]) =
      (catalog.unseen seen).filter fun definition => !(found.oid == definition.oid) := by
    simp only [unseen, List.filter_filter, List.any_append, List.any_cons, List.any_nil,
      Bool.or_false, Bool.not_or]
    exact List.filter_congr fun definition _ => Bool.and_comm _ _
  rw [hfilter, List.length_filter_lt_length_iff_exists]
  refine ⟨found, List.mem_filter.2 ⟨known, ?_⟩, ?_⟩
  · rw [Bool.not_eq_true] at fresh
    rw [fresh]
    rfl
  · rw [beq_self_eq_true]
    exact Bool.false_ne_true

/-- The walk from the class named `current` up to the root, after the classes `seen`. It started at
`start`. Every look-up but the last finds a class of a new object identifier, so the walk ends. -/
def climb (catalog : Catalog) (start : String) (seen : List ObjectClass) (current : String) :
    Except Schema.Fault (List ObjectClass) :=
  match _finds : catalog.objectClass? current with
  | none => .error (.unknownClass current)
  | some found =>
    if _again : seen.any (·.oid == found.oid) then .error (.cyclicSuperiors start)
    else match found.effectiveSuperior with
      | none => .ok (seen ++ [found])
      | some next => climb catalog start (seen ++ [found]) next
termination_by (catalog.unseen seen).length
decreasing_by exact length_unseen_lt (List.mem_of_find?_eq_some _finds) _again

/-- The class of a name followed by its superiors up to the root. -/
def superiorChain (catalog : Catalog) (name : String) :
    Except Schema.Fault (List ObjectClass) :=
  climb catalog name [] name

/-- Checks that no object identifier occurs twice. -/
def checkUnique (kind : Schema.Kind) : (seen : List String) → List String →
    Except Schema.Fault Unit
  | _, [] => .ok ()
  | seen, oid :: rest =>
    if seen.contains oid then .error (.duplicateOid kind oid)
    else checkUnique kind (oid :: seen) rest

/-- Checks that the type which an attribute type refines is there. -/
def checkSuperior (catalog : Catalog) (type : AttributeType) : Except Schema.Fault Unit :=
  match type.superior with
  | none => .ok ()
  | some superior =>
    if (catalog.attributeType? superior).isSome then .ok ()
    else .error (.unknownSuperior type.name superior)

/-- The catalog, if it passes every check. -/
def checked (catalog : Catalog) : Except Schema.Fault Catalog := do
  checkUnique .ldapSyntax [] (catalog.syntaxes.map (·.oid))
  checkUnique .matchingRule [] (catalog.matchingRules.map (·.oid))
  checkUnique .attributeType [] (catalog.attributeTypes.map (·.oid))
  checkUnique .objectClass [] (catalog.objectClasses.map (·.oid))
  catalog.attributeTypes.forM (checkSuperior catalog)
  catalog.objectClasses.forM fun definition => do
    let _ ← catalog.superiorChain definition.name
  return catalog

/-- Checks the classes that an entry declares: every one is known, and one at least is
structural. -/
def checkEntry (catalog : Catalog) (entry : Entry) : Except Rejection Unit := do
  let classes ← entry.objectClasses.mapM fun name =>
    match catalog.objectClass? name with
    | some found => .ok found
    | none => .error (.unknownClass entry.dn name)
  if classes.any (·.kind == .structural) then return ()
  throw (.noStructuralClass entry.dn)

end Catalog

end DirectoryService
