import DirectoryService.NameMap
import DirectoryService.Schema.Basic
import DirectoryService.Text.Ascii
import DirectoryService.Text.Quoted

/-!
# Directory entries

An entry has a distinguished name, which is its relative name followed by the name of its parent.
The class `top`, from which every class derives, is never declared; it is added where the classes of
an entry are listed.
-/

namespace DirectoryService

/-- The attribute that lists the classes of an entry. -/
def objectClassAttribute : String := "objectClass"

/-- The attributes of an entry: names with their values, in the order of the names. -/
abbrev Attributes := NameMap (List String)

/-- Values are added at the end of the values that an attribute has. -/
def Attributes.extend (attributes : Attributes) (name : String) (values : List String) :
    Attributes :=
  attributes.alter name fun present => some (present.getD [] ++ values)

/-- An entry of the directory. -/
structure Entry where
  /-- The distinguished name. -/
  dn : String
  /-- The distinguished name of the parent, if there is one. -/
  parent : Option String
  /-- The relative name. -/
  rdn : String
  /-- The declared classes. -/
  objectClasses : List String
  /-- The attributes that users maintain. -/
  userAttributes : Attributes
  /-- The attributes that the server maintains. -/
  operationalAttributes : Attributes
deriving DecidableEq

/-- Why a store refuses a record. -/
inductive Rejection where
  /-- An entry has no relative name. -/
  | emptyRelativeName (dn : String)
  /-- The name of an entry is not made of its relative name and its parent. -/
  | nameMismatch (dn expected : String)
  /-- An entry declares `top`. -/
  | declaresTop (dn : String)
  /-- An entry has an attribute for its classes. -/
  | storesClasses (dn : String)
  /-- There is an entry of the name. -/
  | entryExists (dn : String)
  /-- There is no parent. -/
  | parentMissing (parent dn : String)
  /-- An entry declares a class that the schema does not know. -/
  | unknownClass (dn className : String)
  /-- An entry declares no structural class. -/
  | noStructuralClass (dn : String)
  /-- There is a principal of the name. -/
  | principalExists (username : String)
  /-- A rejection in the words of whoever reports it. -/
  | reported (text : String)
deriving DecidableEq

/-- The wording of a rejection. -/
def Rejection.message : Rejection → String
  | .emptyRelativeName dn => "entry " ++ Quoted.quote dn ++ " has an empty RDN"
  | .nameMismatch dn expected =>
    "entry DN " ++ Quoted.quote dn ++ " does not match RDN and parent (expected " ++
      Quoted.quote expected ++ ")"
  | .declaresTop dn =>
    "entry " ++ Quoted.quote dn ++ " declares " ++ Quoted.quote topClass ++ ", which is implicit"
  | .storesClasses dn =>
    "entry " ++ Quoted.quote dn ++ " stores " ++ Quoted.quote objectClassAttribute ++
      " as an attribute; declare classes instead"
  | .entryExists dn => s!"entry {dn} already exists"
  | .parentMissing parent dn => s!"parent {parent} of entry {dn} does not exist"
  | .unknownClass dn className => s!"entry {dn} declares unknown object class {className}"
  | .noStructuralClass dn => s!"entry {dn} has no structural object class"
  | .principalExists username => s!"principal {username} already exists"
  | .reported text => text

namespace Entry

/-- The distinguished name of a relative name below a parent. -/
def distinguishedName (rdn : String) (parent : Option String) : String :=
  match parent with
  | none => rdn
  | some parent => rdn ++ "," ++ parent

/-- An entry of the given place, without classes and attributes. -/
def bare (rdn : String) (parent : Option String) : Entry :=
  ⟨distinguishedName rdn parent, parent, rdn, [], .empty, .empty⟩

/-- The entry with one more declared class. -/
def declaring (entry : Entry) (className : String) : Entry :=
  { entry with objectClasses := entry.objectClasses ++ [className] }

/-- The entry with more values of a user attribute. -/
def adding (entry : Entry) (name : String) (values : List String) : Entry :=
  { entry with userAttributes := entry.userAttributes.extend name values }

/-- The entry with more values of an operational attribute. -/
def addingOperational (entry : Entry) (name : String) (values : List String) : Entry :=
  { entry with operationalAttributes := entry.operationalAttributes.extend name values }

/-- Whether the entry has no parent. -/
def isRoot (entry : Entry) : Bool := entry.parent.isNone

/-- Whether the name of the entry ends with `base`. Components are not told apart, so the end of a
component counts too. -/
def inSubtreeOf (entry : Entry) (base : String) : Bool :=
  base.toList.isSuffixOf entry.dn.toList

/-- The classes of the entry, `top` first. -/
def allClasses (entry : Entry) : List String := topClass :: entry.objectClasses

/-- Checks everything that an entry has to satisfy on its own. -/
def validate (entry : Entry) : Except Rejection Unit :=
  let expected := distinguishedName entry.rdn entry.parent
  if entry.rdn.isEmpty then .error (.emptyRelativeName entry.dn)
  else if entry.dn ≠ expected then .error (.nameMismatch entry.dn expected)
  else if entry.objectClasses.any (Ascii.same · topClass) then .error (.declaresTop entry.dn)
  else if (entry.userAttributes.keys ++ entry.operationalAttributes.keys).any
      (Ascii.same · objectClassAttribute) then .error (.storesClasses entry.dn)
  else .ok ()

end Entry

end DirectoryService
