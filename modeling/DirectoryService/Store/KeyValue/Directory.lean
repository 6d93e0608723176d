import DirectoryService.Entry.Record
import DirectoryService.Entry.Seed
import DirectoryService.Json.Printer
import DirectoryService.Json.Reader
import DirectoryService.Schema.Record
import DirectoryService.Schema.Standard
import DirectoryService.Store.Basic
import DirectoryService.Store.KeyValue.Program

/-!
# The directory in a key-value database

An entry is kept as JSON under its name. Next to the entries there are a set of the names below each
parent, a set of the names without parent, and an ordered set of all names read backwards, in which
the names of a subtree stand together. Each section of the schema is one JSON list.
-/

namespace DirectoryService.KeyValue

/-- The key of an entry. -/
def entryKey (dn : String) : String := "entry:" ++ dn

/-- The key of the names below a parent. -/
def childrenKey (parent : String) : String := "entries:children:" ++ parent

/-- The key of a principal. -/
def principalKey (username : String) : String := "principal:" ++ username

/-- The key of the names without parent. -/
def rootsKey : String := "entries:roots"

/-- The key of all names read backwards. -/
def treeKey : String := "entries:tree"

/-- The key of the syntaxes. -/
def syntaxesKey : String := "schema:syntaxes"

/-- The key of the matching rules. -/
def matchingRulesKey : String := "schema:matching_rules"

/-- The key of the attribute types. -/
def attributeTypesKey : String := "schema:attribute_types"

/-- The key of the object classes. -/
def objectClassesKey : String := "schema:object_classes"

/-- A name read backwards. -/
def reversed (dn : String) : String := String.ofList dn.toList.reverse

/-- The range of the texts that start with a given one. The octet after it in the upper end occurs
in no text, so it comes after everything that can follow. -/
def startRange (start : String) : Bound × Bound :=
  if start.isEmpty then (.lowest, .highest)
  else (.inclusive (Utf8.encode start), .inclusive (Utf8.encode start ++ [0xFF]))

/-- The record that a text is the JSON of. -/
def readRecord {α : Type} (read : Json → Option α) (text : String) : Except Error α :=
  match (Json.parse? text).bind read with
  | some record => .ok record
  | none => .error .serialization

/-- The record under a key, as a list of one or none. -/
def fetch {α : Type} (read : Json → Option α) (key : String) : Task (List α) := do
  match ← Task.get key with
  | none => return []
  | some text => return [← liftM (readRecord read text)]

/-- The entries of names, in the order of their names; a name without an entry is passed over. -/
def fetchEntries (names : List String) : Task (List Entry) := do
  if names.isEmpty then return []
  let texts ← Task.getAll (names.map entryKey)
  let entries ← liftM ((texts.filterMap id).mapM (readRecord Entry.ofJson?))
  return entries.mergeSort fun left right => Order.atMost left.dn right.dn

/-- A section of the schema; one that was never kept is empty. -/
def fetchSection {α : Type} (read : Json → Option α) (key : String) : Task (List α) := do
  match ← Task.get key with
  | none => return []
  | some text => liftM (readRecord (Json.list? read) text)

/-- The entries of a name. -/
def entriesByName (dn : String) : Task (List Entry) := fetch Entry.ofJson? (entryKey dn)

/-- The entries right below a name. -/
def entriesByParent (parent : String) : Task (List Entry) := do
  fetchEntries (← Task.members (childrenKey parent))

/-- The entries whose name ends with a text. -/
def subtree (base : String) : Task (List Entry) := do
  let (low, high) := startRange (reversed base)
  let names ← Task.range treeKey low high
  fetchEntries (names.map reversed)

/-- The entries without parent. -/
def roots : Task (List Entry) := do fetchEntries (← Task.members rootsKey)

/-- The principals of a user name. -/
def principals (username : String) : Task (List Principal) :=
  fetch Principal.ofJson? (principalKey username)

/-- The kept schema. -/
def loadCatalog : Task Catalog := do
  let syntaxes ← fetchSection LdapSyntax.ofJson? syntaxesKey
  let matchingRules ← fetchSection MatchingRule.ofJson? matchingRulesKey
  let attributeTypes ← fetchSection AttributeType.ofJson? attributeTypesKey
  let objectClasses ← fetchSection ObjectClass.ofJson? objectClassesKey
  liftM (Catalog.assemble (.ok syntaxes) (.ok matchingRules) (.ok attributeTypes)
    (.ok objectClasses))

/-- The changes that keep a schema. -/
def catalogWrites (catalog : Catalog) : List Write :=
  [.put syntaxesKey (Json.render (.list (catalog.syntaxes.map (·.toJson)))),
    .put matchingRulesKey (Json.render (.list (catalog.matchingRules.map (·.toJson)))),
    .put attributeTypesKey (Json.render (.list (catalog.attributeTypes.map (·.toJson)))),
    .put objectClassesKey (Json.render (.list (catalog.objectClasses.map (·.toJson))))]

/-- Keeps a schema. -/
def storeCatalog (catalog : Catalog) : Task Unit := Task.commit (catalogWrites catalog)

/-- Where the name of an entry is listed; its parent has to be there. -/
def listingKey (entry : Entry) : Task String := do
  match entry.parent with
  | none => return rootsKey
  | some parent =>
    if ← Task.holds (entryKey parent) then return childrenKey parent
    throw (.rejected (.parentMissing parent entry.dn))

/-- The changes that keep an entry, which is listed under a key. -/
def entryWrites (entry : Entry) (listing : String) : List Write :=
  [.put (entryKey entry.dn) entry.toJson.render, .addMember listing entry.dn,
    .addOrdered treeKey (reversed entry.dn)]

/-- Keeps an entry that fits the schema and the other entries. -/
def insertEntry (entry : Entry) : Task Unit := do
  liftM (entry.validate.mapError Error.rejected)
  let catalog ← loadCatalog
  liftM ((catalog.checkEntry entry).mapError Error.rejected)
  if ← Task.holds (entryKey entry.dn) then
    throw (.rejected (.entryExists entry.dn))
  let listing ← listingKey entry
  Task.commit (entryWrites entry listing)

/-- Keeps a principal of a new name. -/
def insertPrincipal (principal : Principal) : Task Unit := do
  let added ← Task.putNew (principalKey principal.username) principal.toJson.render
  if !added then throw (.rejected (.principalExists principal.username))

/-- Provisions a directory without roots with the standard schema, the example tree and the
administrator, and tells whether it did. -/
def seedIfEmpty (created : String) (administrator : Principal) : Task Bool := do
  let count ← Task.size rootsKey
  if 0 < count then return false
  storeCatalog .standard
  (Seed.entries created).forM insertEntry
  if !(← Task.holds (principalKey administrator.username)) then
    insertPrincipal administrator
  return true

/-- Whether the database answers. -/
def healthy : Program Bool :=
  .ask .ping fun answer => .done (match answer with
    | .ok _ => true
    | .error _ => false)

/-- A database that may be out of reach. -/
structure Server where
  /-- What is kept. -/
  database : Database
  /-- Whether commands are carried out. -/
  reachable : Bool

namespace Server

/-- Carries a command out, or refuses it. -/
def answer (server : Server) (command : Command) : Except Failure command.Answer × Server :=
  if server.reachable then
    let (result, database) := server.database.execute command
    (result, { server with database })
  else (.error "Connection refused", server)

/-- Runs a task alone. -/
def perform {α : Type} (server : Server) (task : Task α) : Except Error α × Server :=
  Program.run answer task.run server

/-- The answer of a task that changes nothing. -/
def query {α : Type} (server : Server) (task : Task α) : Except Error α := (server.perform task).1

/-- The directory as the service sees it. -/
def toStore (server : Server) : Store where
  entriesByName dn := server.query (entriesByName dn)
  entriesByParent parent := server.query (entriesByParent parent)
  subtree base := server.query (subtree base)
  roots := server.query roots
  principals username := server.query (principals username)
  syntaxes := server.query (fetchSection LdapSyntax.ofJson? syntaxesKey)
  matchingRules := server.query (fetchSection MatchingRule.ofJson? matchingRulesKey)
  attributeTypes := server.query (fetchSection AttributeType.ofJson? attributeTypesKey)
  objectClasses := server.query (fetchSection ObjectClass.ofJson? objectClassesKey)
  healthy := .ok (Program.run answer healthy server).1
  measured := true

end Server

/-- The error of an attempt to connect that fails for a reason. -/
def connectionError (reason : String) : Error :=
  .pool ("Connection pool error: Error occurred while creating a new object: " ++ reason)

/-- Tries to connect up to `limit` times, and once at least. -/
def connect (limit : Nat) (attempt : Nat → Except Error Unit) : Except Error Unit :=
  let outcomes := (List.range (max limit 1)).map attempt
  match outcomes.find? succeeded, outcomes.getLast? with
  | none, some (.error error) =>
    .error (.storage s!"Failed to connect to Redis after {limit} attempts: {error.message}")
  | _, _ => .ok ()

end DirectoryService.KeyValue
