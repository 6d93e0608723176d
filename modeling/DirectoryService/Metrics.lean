import DirectoryService.Error
import DirectoryService.Message.Result

/-!
# Counters

The service counts what it does. A sample names the counter that goes up by one; what a run counted
is the list of its samples, so the counters of two runs add up as the lists are joined.
-/

namespace DirectoryService

/-- The ways in which a search is answered. -/
inductive SearchPath where
  /-- By the place of the schema. -/
  | subschema
  /-- By the roots of the directory. -/
  | namingContexts
  /-- By the schema itself. -/
  | schema
  /-- By the entry of a name. -/
  | base
  /-- By the entries right below a name. -/
  | oneLevel
  /-- By the entries of a subtree. -/
  | subtree
deriving DecidableEq

/-- The label of a path. -/
def SearchPath.label : SearchPath → String
  | .subschema => "subschema"
  | .namingContexts => "naming_contexts"
  | .schema => "schema"
  | .base => "base"
  | .oneLevel => "one"
  | .subtree => "sub"

/-- The questions that a store answers. -/
inductive StoreCall where
  /-- The entries of a name. -/
  | entriesByName
  /-- The entries right below a name. -/
  | entriesByParent
  /-- The entries of a subtree. -/
  | subtree
  /-- The entries without parent. -/
  | roots
  /-- The principals of a user name. -/
  | principals
  /-- The stored syntaxes. -/
  | syntaxes
  /-- The stored matching rules. -/
  | matchingRules
  /-- The stored attribute types. -/
  | attributeTypes
  /-- The stored object classes. -/
  | objectClasses
deriving DecidableEq

/-- The label of a question. -/
def StoreCall.label : StoreCall → String
  | .entriesByName => "entries_by_dn"
  | .entriesByParent => "entries_by_parent"
  | .subtree => "entry_tree_by_parent"
  | .roots => "root_entries"
  | .principals => "principals_by_username"
  | .syntaxes => "all_syntaxes"
  | .matchingRules => "all_matching_rules"
  | .attributeTypes => "all_attribute_types"
  | .objectClasses => "all_object_classes"

/-- Something that is counted. -/
inductive Sample where
  /-- A bind ended with a result. -/
  | bind (result : ResultCode)
  /-- A search was answered in a way and ended with a result. -/
  | search (path : SearchPath) (result : ResultCode)
  /-- A connection reported an error. -/
  | connectionError (kind : ErrorKind)
  /-- A store answered a question or failed to. -/
  | storeCall (call : StoreCall) (succeeded : Bool)
deriving DecidableEq

/-- The name of a counter with its labels. -/
def Sample.name : Sample → String
  | .bind result => "ldap_bind_operations_total\x7bresult=\"" ++ result.name ++ "\"\x7d"
  | .search path result =>
    "ldap_search_operations_total\x7bkind=\"" ++ path.label ++ "\",result=\"" ++ result.name ++
      "\"\x7d"
  | .connectionError kind =>
    "ldap_connection_errors_total\x7bkind=\"" ++ kind.label ++ "\"\x7d"
  | .storeCall call succeeded =>
    "directory_store_operation_duration_seconds_count\x7boperation=\"" ++ call.label ++
      "\",result=\"" ++ (if succeeded then "success" else "failure") ++ "\"\x7d"

/-- A value with the samples that were counted on the way to it. -/
structure Counted (α : Type) where
  /-- The value. -/
  value : α
  /-- The samples, in order. -/
  samples : List Sample

namespace Counted

variable {α β : Type}

/-- A value for which nothing was counted. -/
def of (value : α) : Counted α := ⟨value, []⟩

/-- Goes on from a value; what is counted after it follows what was counted for it. -/
def andThen (counted : Counted α) (next : α → Counted β) : Counted β :=
  let result := next counted.value
  ⟨result.value, counted.samples ++ result.samples⟩

/-- Counts one more sample. -/
def plus (counted : Counted α) (sample : Sample) : Counted α :=
  ⟨counted.value, counted.samples ++ [sample]⟩

end Counted

end DirectoryService
