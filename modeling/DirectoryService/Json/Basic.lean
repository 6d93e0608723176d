/-!
# JSON values

The values that stored records are written as. The fields of an object keep their order.
-/

namespace DirectoryService

/-- A JSON value. -/
inductive Json where
  /-- The absent value. -/
  | null
  /-- A truth value. -/
  | bool (value : Bool)
  /-- A number written without fraction and exponent. -/
  | integer (value : Int)
  /-- Any other number, as it is written. -/
  | decimal (literal : String)
  /-- A text. -/
  | text (value : String)
  /-- A list of values. -/
  | list (items : List Json)
  /-- Named values. -/
  | object (fields : List (String × Json))

namespace Json

instance : Inhabited Json := ⟨.null⟩

/-- A list of texts. -/
def texts (values : List String) : Json := .list (values.map .text)

/-- A text, or the absent value. -/
def optional (value : Option String) : Json :=
  match value with
  | none => .null
  | some content => .text content

/-- The first field of a name. -/
def field? (name : String) : List (String × Json) → Option Json
  | [] => none
  | (key, value) :: rest => if key = name then some value else field? name rest

/-- The value of a text. -/
def text? : Json → Option String
  | .text value => some value
  | _ => none

/-- The values of a list of texts. -/
def texts? : Json → Option (List String)
  | .list items => items.mapM text?
  | _ => none

end Json

end DirectoryService
