/-!
# Operations

The operations of the protocol are told apart by their application tag numbers.
-/

namespace DirectoryService

/-- The operations of the protocol that have a name here, by their application tag numbers. -/
def operationName (tag : UInt32) : String :=
  match tag.toNat with
  | 0 => "BindRequest"
  | 1 => "BindResponse"
  | 2 => "UnbindRequest"
  | 3 => "SearchRequest"
  | 4 => "SearchResultEntry"
  | 5 => "SearchResultDone"
  | _ => "Unknown"

/-- Application tag number of a request to bind. -/
def bindRequestTag : UInt32 := 0

/-- Application tag number of the answer to a bind. -/
def bindResponseTag : UInt32 := 1

/-- Application tag number of a request to search. -/
def searchRequestTag : UInt32 := 3

/-- Application tag number of an entry that a search found. -/
def searchEntryTag : UInt32 := 4

/-- Application tag number of the end of a search. -/
def searchDoneTag : UInt32 := 5

end DirectoryService
