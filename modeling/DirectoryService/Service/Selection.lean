import DirectoryService.Text.Ascii
import DirectoryService.Text.Order

/-!
# Attribute selections

What a search asks for. Two names stand for facts about the server and are taken out of the list in
any case; `1.1` means no attributes, takes back the names before it, and hides what follows.
-/

namespace DirectoryService

/-- The attribute that tells the place of the schema. -/
def subschemaAttribute : String := "subschemaSubentry"

/-- The attribute that tells the roots of the directory. -/
def namingContextsAttribute : String := "namingContexts"

/-- The name that stands for no attributes. -/
def noAttributes : String := "1.1"

/-- What a search asks for. -/
structure Selection where
  /-- The attributes asked for, in order. -/
  requested : List String
  /-- Whether the place of the schema is asked for. -/
  subschema : Bool
  /-- Whether the roots of the directory are asked for. -/
  namingContexts : Bool
deriving DecidableEq

namespace Selection

/-- Sorts a list of names into what it asks for, after what was asked for before it. -/
def scan (before : Selection) : List String → Selection
  | [] => before
  | name :: rest =>
    if name = noAttributes then { before with requested := [] }
    else if Ascii.same name subschemaAttribute then scan { before with subschema := true } rest
    else if Ascii.same name namingContextsAttribute then
      scan { before with namingContexts := true } rest
    else scan { before with requested := before.requested ++ [name] } rest

/-- The selection that a list of names makes. -/
def ofNames (names : List String) : Selection :=
  let scanned := scan ⟨[], false, false⟩ names
  { scanned with requested := scanned.requested.mergeSort Order.atMost }

/-- Looks a name up in an ordered list, of which each step leaves out half. -/
def search (name : String) (names : List String) : Bool :=
  match _rest : names.drop (names.length / 2) with
  | [] => false
  | middle :: upper =>
    if name = middle then true
    else if Order.before name middle then search name (names.take (names.length / 2))
    else search name upper
termination_by names.length
decreasing_by
  all_goals have size := congrArg List.length _rest
  all_goals simp only [List.length_drop, List.length_cons] at size
  · rw [List.length_take]; omega
  · omega

/-- Whether a name is asked for, in this spelling. -/
def contains (selection : Selection) (name : String) : Bool := search name selection.requested

end Selection

end DirectoryService
