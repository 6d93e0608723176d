import DirectoryService.Message.SearchEntry
import DirectoryService.Request.Search
import DirectoryService.Schema.Description
import DirectoryService.Service.Handler
import DirectoryService.Service.Selection

/-!
# Searching

A search is answered in exactly one way: by the place of the schema or the roots of the directory if
these are asked for, by the schema itself if that is the base, and by entries of the directory
otherwise. The filter and the attributes asked for never leave an entry out. A search ends with its
result; one whose store fails is not answered at all.
-/

namespace DirectoryService

/-- The name of the schema. -/
def schemaName : String := "cn=schema"

/-- The entry that tells the place of the schema. -/
def subschemaEntry : SearchEntry := (SearchEntry.named "").add subschemaAttribute [schemaName]

/-- The entry that tells the roots of the directory. -/
def namingContextsEntry (roots : List Entry) : SearchEntry :=
  (SearchEntry.named "").add namingContextsAttribute (roots.map Entry.dn)

/-- The sections of the schema with the attributes that serve them. -/
def schemaSections (catalog : Catalog) : List (String × List String) :=
  [("ldapSyntaxes", catalog.syntaxes.map LdapSyntax.describe),
    ("objectClasses", catalog.objectClasses.map ObjectClass.describe),
    ("matchingRules", catalog.matchingRules.map MatchingRule.describe),
    ("attributeTypes", catalog.attributeTypes.map AttributeType.describe)]

/-- The entry of the schema without any section. -/
def bareSchemaEntry : SearchEntry :=
  (((SearchEntry.named schemaName).add "cn" ["schema"]).add objectClassAttribute ["top"]).add
    objectClassAttribute ["ldapSubentry"] |>.add objectClassAttribute ["subschema"]

/-- The entry of the schema with the sections asked for. -/
def schemaEntry (catalog : Catalog) (selection : Selection) : SearchEntry :=
  bareSchemaEntry.addAll
    ((schemaSections catalog).filter fun (name, _) => selection.contains name)

/-- An entry of the directory: the attributes of users, those of the server, and the classes. -/
def directoryEntry (entry : Entry) : SearchEntry :=
  ((SearchEntry.named entry.dn).addAll
    (entry.userAttributes.pairs ++ entry.operationalAttributes.pairs)).add
      objectClassAttribute entry.allClasses

namespace Search

/-- The way in which a request is answered. -/
def pathOf (request : SearchRequest) (selection : Selection) : SearchPath :=
  if selection.subschema then .subschema
  else if selection.namingContexts then .namingContexts
  else if Ascii.same request.base schemaName then .schema
  else match request.scope with
    | .base => .base
    | .oneLevel => .oneLevel
    | .subtree => .subtree

/-- The entries on a path. -/
def entriesOn (path : SearchPath) (context : Context) (base : String) (selection : Selection) :
    Counted (Except Error (List SearchEntry)) :=
  let store := context.store
  let directory (answer : Except Error (List Entry)) : Except Error (List SearchEntry) :=
    answer.map fun entries => entries.map directoryEntry
  match path with
  | .subschema => .of (.ok [subschemaEntry])
  | .namingContexts =>
    (store.counted .roots store.roots).andThen fun answer =>
      .of (answer.map fun roots => [namingContextsEntry roots])
  | .schema => .of (.ok [schemaEntry context.catalog selection])
  | .base =>
    (store.counted .entriesByName (store.entriesByName base)).andThen (.of ∘ directory)
  | .oneLevel =>
    (store.counted .entriesByParent (store.entriesByParent base)).andThen (.of ∘ directory)
  | .subtree => (store.counted .subtree (store.subtree base)).andThen (.of ∘ directory)

/-- The result of a search that found entries on a path. -/
def resultOf (path : SearchPath) (entries : List SearchEntry) : ResultCode :=
  if path = .base ∧ entries = [] then .noSuchObject else .success

/-- The reply to a search: its entries, then its result. -/
def replyTo (messageId : Int) (entries : List SearchEntry) (code : ResultCode) : Reply :=
  ⟨entries.map (·.toPacket messageId) ++ [Message.searchDone messageId code], false⟩

/-- Answers a request that could be read. -/
def answer (context : Context) (messageId : Int) (request : SearchRequest) :
    Counted (Except Error Reply) :=
  let selection := Selection.ofNames request.attributes
  let path := pathOf request selection
  (entriesOn path context request.base selection).andThen fun found =>
    match found with
    | .error error => ⟨.error error, [.search path .other]⟩
    | .ok entries =>
      let code := resultOf path entries
      ⟨.ok (replyTo messageId entries code), [.search path code]⟩

/-- Answers requests to search. -/
def handler : Handler := fun context messageId operation =>
  match SearchRequest.ofPacket operation with
  | .error cause => .of (.error (.request cause))
  | .ok request => answer context messageId request

end Search

end DirectoryService
