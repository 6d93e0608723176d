import DirectoryService.Request.Field

/-!
# Search requests

The limits, the treatment of aliases, the wish for types only and the filter are read but have no
influence on what a search finds. A filter that cannot be read is no fault of the request.
-/

namespace DirectoryService

/-- How far a search goes from its base. -/
inductive SearchScope where
  /-- The base alone. -/
  | base
  /-- The entries right below the base. -/
  | oneLevel
  /-- The base and everything below it. -/
  | subtree
deriving DecidableEq

/-- The scope of a number. -/
def SearchScope.ofNumber? (number : Int) : Option SearchScope :=
  if number = 0 then some .base
  else if number = 1 then some .oneLevel
  else if number = 2 then some .subtree
  else none

/-- What a search does with aliases. -/
inductive AliasTreatment where
  /-- It does not follow them. -/
  | never
  /-- It follows them below the base. -/
  | searching
  /-- It follows them on the way to the base. -/
  | findingBase
  /-- It follows them everywhere. -/
  | always
deriving DecidableEq

/-- The treatment of a number. -/
def AliasTreatment.ofNumber? (number : Int) : Option AliasTreatment :=
  if number = 0 then some .never
  else if number = 1 then some .searching
  else if number = 2 then some .findingBase
  else if number = 3 then some .always
  else none

/-- A request to search. -/
structure SearchRequest where
  /-- The name of the entry where the search starts. -/
  base : String
  /-- How far it goes. -/
  scope : SearchScope
  /-- What it does with aliases. -/
  aliases : AliasTreatment
  /-- How many entries it may return. -/
  sizeLimit : Int
  /-- How long it may take. -/
  timeLimit : Int
  /-- Whether it leaves values out. -/
  typesOnly : Bool
  /-- The filter, if it can be read. -/
  filter : Option Filter
  /-- The attributes asked for. -/
  attributes : List String

namespace SearchRequest

/-- The text of the filter, empty if the filter cannot be read. -/
def filterText (request : SearchRequest) : String := (request.filter.map Filter.render).getD ""

/-- The scope in a field. -/
def readScope (packet : Ber.Packet) : Except Request.Fault SearchScope := do
  let number ← Request.enumerated .scope packet
  match SearchScope.ofNumber? number with
  | some scope => return scope
  | none => throw (.unknownScope number)

/-- The treatment of aliases in a field. -/
def readAliases (packet : Ber.Packet) : Except Request.Fault AliasTreatment := do
  let number ← Request.enumerated .derefAliases packet
  match AliasTreatment.ofNumber? number with
  | some treatment => return treatment
  | none => throw (.unknownAliasTreatment number)

/-- The attributes in a field. -/
def readAttributes (packet : Ber.Packet) : Except Request.Fault (List String) := do
  Request.expect packet Ber.sequenceTag true .attributes
  packet.children.mapM (Request.text .attributes)

/-- The search request that an operation is. -/
def ofPacket (operation : Ber.Packet) : Except Request.Fault SearchRequest := do
  let base ← Request.text .baseObject (← Request.require operation 0 .baseObject)
  let scope ← readScope (← Request.require operation 1 .scope)
  let aliases ← readAliases (← Request.require operation 2 .derefAliases)
  let sizeLimit ← Request.integer .sizeLimit (← Request.require operation 3 .sizeLimit)
  let timeLimit ← Request.integer .timeLimit (← Request.require operation 4 .timeLimit)
  let typesOnly ← Request.boolean .typesOnly (← Request.require operation 5 .typesOnly)
  let filter := Filter.ofPacket (← Request.require operation 6 .filter)
  let attributes ← readAttributes (← Request.require operation 7 .attributes)
  return ⟨base, scope, aliases, sizeLimit, timeLimit, typesOnly, filter.toOption, attributes⟩

end SearchRequest

end DirectoryService
