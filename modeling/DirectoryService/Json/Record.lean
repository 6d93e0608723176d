import DirectoryService.Json.Basic

/-!
# Records as JSON

A record is an object with a field for each part, or a list of the parts in their order. Fields that
a record does not have are passed over; no field of the record may occur twice.
-/

namespace DirectoryService.Json

/-- The parts of a record, of which the first `needed` ones have to be there in a list. A part of an
object that is not there is left open. -/
def parts? (names : List String) (needed : Nat) : Json → Option (List (Option Json))
  | .object fields =>
    if names.all fun name => (fields.filter (·.1 == name)).length ≤ 1 then
      some (names.map (field? · fields))
    else none
  | .list items =>
    if needed ≤ items.length ∧ items.length ≤ names.length then
      some (items.map some ++ List.replicate (names.length - items.length) none)
    else none
  | _ => none

/-- A part that has to be there. -/
def required {α : Type} (read : Json → Option α) (part : Option Json) : Option α :=
  part.bind read

/-- A part that may be left out or absent. -/
def optional? {α : Type} (read : Json → Option α) (part : Option Json) : Option (Option α) :=
  match part with
  | none => some none
  | some .null => some none
  | some json => (read json).map some

/-- A part that has a value of its own if it is left out. -/
def defaulted {α : Type} (value : α) (read : Json → Option α) (part : Option Json) : Option α :=
  match part with
  | none => some value
  | some json => read json

/-- A list of values. -/
def list? {α : Type} (read : Json → Option α) : Json → Option (List α)
  | .list items => items.mapM read
  | _ => none

/-- The name of a choice without contents. -/
def choice? : Json → Option String
  | .text name => some name
  | .object [(name, .null)] => some name
  | _ => none

end DirectoryService.Json
