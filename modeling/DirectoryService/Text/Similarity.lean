/-!
# Similar words

Characters of two words are partners if they are equal and stand at nearly the same place. Two words
are the more alike the more of their characters have partners, and the more of the partners come in
the same order. In this way the word is found that was probably meant.
-/

namespace DirectoryService.Similarity

/-- How far apart the places of partners may be in words of two lengths. -/
def reach (left right : Nat) : Nat := max left right / 2 - 1

/-- The place of the partner of a character: the first one within reach that is not taken. -/
def partner? (reach : Nat) (others : List Char) (taken : List Nat) (place : Nat) (c : Char) :
    Option Nat :=
  (List.range others.length).find? fun other =>
    place ≤ other + reach && other ≤ place + reach && others[other]? == some c &&
      !taken.contains other

/-- The characters from a place on that have partners, each with the place of its partner. -/
def partners (reach : Nat) (others : List Char) (taken : List Nat) (place : Nat) :
    List Char → List (Char × Nat)
  | [] => []
  | c :: rest =>
    match partner? reach others taken place c with
    | some other => (c, other) :: partners reach others (other :: taken) (place + 1) rest
    | none => partners reach others taken (place + 1) rest

/-- How many pairs of characters have changed places among partners. -/
def exchanges (others : List Char) (pairs : List (Char × Nat)) : Nat :=
  let places := (pairs.map (·.2)).mergeSort
  let inOrder := places.filterMap fun place => others[place]?
  ((pairs.zip inOrder).filter fun (pair, c) => pair.1 ≠ c).length / 2

/-- How alike two words are, from zero to one. -/
def similarity (left right : String) : Float :=
  let chars := left.toList
  let others := right.toList
  let pairs := partners (reach chars.length others.length) others [] 0 chars
  if chars.isEmpty && others.isEmpty then 1
  else if pairs.isEmpty then 0
  else
    let found := pairs.length.toFloat
    let ordered := (pairs.length - exchanges others pairs).toFloat
    (found / chars.length.toFloat + found / others.length.toFloat + ordered / found) / 3

/-- Words are alike above this similarity. -/
def threshold : Float := 0.7

/-- The words that are like a given one, the most similar last. -/
def alike (word : String) (candidates : List String) : List String :=
  let rated := candidates.map fun candidate => (similarity word candidate, candidate)
  let close := rated.filter fun (rating, _) => threshold < rating
  (close.mergeSort fun first second => first.1 ≤ second.1).map (·.2)

end DirectoryService.Similarity
