import DirectoryService.Text.Ascii

/-!
# Schema definitions

A schema has definitions of four kinds: syntaxes, matching rules, attribute types and object
classes. Attribute types and object classes go by several names, which are compared without regard
to case.
-/

namespace DirectoryService

/-- The form of attribute values. -/
structure LdapSyntax where
  /-- The object identifier. -/
  oid : String
  /-- What the values are. -/
  description : String
deriving DecidableEq

/-- A way to compare attribute values. -/
structure MatchingRule where
  /-- The object identifier. -/
  oid : String
  /-- The first name. -/
  name : String
  /-- Further names. -/
  aliases : List String
  /-- The identifier of the syntax of the values that are compared. -/
  syntaxOid : String
deriving DecidableEq

/-- Yes-or-no properties of an attribute type, one bit each. -/
structure AttributeFlags where
  /-- The bits. -/
  bits : UInt8
deriving DecidableEq

namespace AttributeFlags

/-- No property. -/
def none : AttributeFlags := ⟨0⟩

/-- An entry has at most one value. -/
def singleValue : AttributeFlags := ⟨1⟩

/-- Users may not change the values. -/
def noUserModification : AttributeFlags := ⟨2⟩

/-- The type is not used any more. -/
def obsolete : AttributeFlags := ⟨4⟩

/-- The values are shared by several entries. -/
def collective : AttributeFlags := ⟨8⟩

/-- The properties of both. -/
def union (left right : AttributeFlags) : AttributeFlags := ⟨left.bits ||| right.bits⟩

/-- Whether at least one property is asked for and all that are asked for are there. -/
def contains (flags asked : AttributeFlags) : Bool :=
  (flags.bits &&& asked.bits) == asked.bits && asked.bits != 0

end AttributeFlags

/-- What an attribute type is used for. -/
inductive AttributeUsage where
  /-- Data of users. -/
  | userApplications
  /-- Data of the directory. -/
  | directoryOperation
  /-- Data that servers share. -/
  | distributedOperation
  /-- Data of one server. -/
  | dsaOperation
deriving DecidableEq

/-- The keyword of a usage. -/
def AttributeUsage.keyword : AttributeUsage → String
  | .userApplications => "userApplications"
  | .directoryOperation => "directoryOperation"
  | .distributedOperation => "distributedOperation"
  | .dsaOperation => "dSAOperation"

/-- A type of attributes. -/
structure AttributeType where
  /-- The object identifier. -/
  oid : String
  /-- The first name. -/
  name : String
  /-- Further names. -/
  aliases : List String
  /-- The name of the type that this one refines. -/
  superior : Option String
  /-- The identifier of the syntax of the values. -/
  syntaxOid : Option String
  /-- The rule that tells values apart. -/
  equality : Option String
  /-- The rule that finds parts of values. -/
  substring : Option String
  /-- The rule that orders values. -/
  ordering : Option String
  /-- Yes-or-no properties. -/
  flags : AttributeFlags
  /-- What the type is used for. -/
  usage : AttributeUsage
deriving DecidableEq

namespace AttributeType

/-- All names, the first one first. -/
def names (type : AttributeType) : List String := type.name :: type.aliases

/-- Whether the type goes by a name, in any case. -/
def isNamed (type : AttributeType) (name : String) : Bool :=
  type.names.any (Ascii.same · name)

end AttributeType

/-- How entries use a class. -/
inductive ClassKind where
  /-- A class that tells what an entry is. -/
  | structural
  /-- A class that adds to what an entry is. -/
  | auxiliary
  /-- A class that only other classes derive from. -/
  | abstractRoot
deriving DecidableEq

/-- The keyword of a kind. -/
def ClassKind.keyword : ClassKind → String
  | .structural => "STRUCTURAL"
  | .auxiliary => "AUXILIARY"
  | .abstractRoot => "ABSTRACT"

/-- A class of entries. -/
structure ObjectClass where
  /-- The object identifier. -/
  oid : String
  /-- The first name. -/
  name : String
  /-- Further names. -/
  aliases : List String
  /-- The recorded superior class. -/
  superior : Option String
  /-- How entries use the class. -/
  kind : ClassKind
  /-- Attributes that an entry of the class has to have. -/
  must : List String
  /-- Attributes that an entry of the class may have. -/
  may : List String
deriving DecidableEq

/-- The class from which every class derives. -/
def topClass : String := "top"

namespace ObjectClass

/-- All names, the first one first. -/
def names (definition : ObjectClass) : List String := definition.name :: definition.aliases

/-- Whether the class goes by a name, in any case. -/
def isNamed (definition : ObjectClass) (name : String) : Bool :=
  definition.names.any (Ascii.same · name)

/-- The superior class: the recorded one, else `top`, which itself has none. -/
def effectiveSuperior (definition : ObjectClass) : Option String :=
  match definition.superior with
  | some name => some name
  | none => if Ascii.same definition.name topClass then none else some topClass

end ObjectClass

end DirectoryService
