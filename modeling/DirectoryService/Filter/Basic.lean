/-!
# Search filters

The filters of RFC 4511. Attribute descriptions and rule names are texts; assertion values are
octets, since nothing says that a value is text.
-/

namespace DirectoryService

/-- How an assertion compares an attribute with a value. -/
inductive Relation where
  /-- Equality. -/
  | equal
  /-- The attribute is not smaller. -/
  | atLeast
  /-- The attribute is not greater. -/
  | atMost
  /-- Equality up to spelling. -/
  | approximate
deriving DecidableEq

/-- The parts that a value has to consist of, with anything between them. -/
structure Substrings where
  /-- How the value begins. -/
  initial : Option (List UInt8)
  /-- What it contains, in this order. -/
  inner : List (List UInt8)
  /-- How it ends. -/
  final : Option (List UInt8)
deriving DecidableEq

/-- A comparison by a named rule. -/
structure ExtensibleMatch where
  /-- The rule, if it is not the usual one of the attribute. -/
  rule : Option String
  /-- The attribute, if it is not every attribute. -/
  name : Option String
  /-- The value to compare with. -/
  value : List UInt8
  /-- Whether the parts of the entry's name are compared too. -/
  nameParts : Bool
deriving DecidableEq

/-- A condition on entries. -/
inductive Filter where
  /-- Every part holds. -/
  | conjunction (parts : List Filter)
  /-- Some part holds. -/
  | disjunction (parts : List Filter)
  /-- The inner filter does not hold. -/
  | negation (inner : Filter)
  /-- An attribute stands in a relation to a value. -/
  | comparison (relation : Relation) (name : String) (value : List UInt8)
  /-- An attribute value consists of the given parts. -/
  | substrings (name : String) (parts : Substrings)
  /-- An attribute is there. -/
  | presence (name : String)
  /-- A value matches by a rule. -/
  | extensible (assertion : ExtensibleMatch)

end DirectoryService
