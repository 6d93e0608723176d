import DirectoryService.Proofs.Filter.Packet
import DirectoryService.Proofs.Filter.Escape

/-!
# Reading filters

A reader of the string form of RFC 4515. The text of a filter without inner filters ends with its
first closing parenthesis and is split at its first equals sign: what stands in front tells the kind
by its last character, and asterisks behind it separate the parts of a value.
-/

namespace DirectoryService

namespace IsDescription

variable {name : String} {c : Char}

/-- A character that has a meaning in a filter does not stand in a name. -/
theorem not_mem (described : IsDescription name) (other : isDescriptionChar c = false) :
    c ∉ name.toList := by
  intro member
  have hc := described.all c member
  rw [other] at hc
  cases hc

/-- A character that has a meaning in a filter does not end a name. -/
theorem getLast?_ne (described : IsDescription name) (other : isDescriptionChar c = false) :
    name.toList.getLast? ≠ some c :=
  fun last => described.not_mem other (List.mem_of_getLast? last)

/-- A name has a first character, which has no meaning in a filter. -/
theorem exists_eq_cons (described : IsDescription name) :
    ∃ c rest, name.toList = c :: rest ∧ isDescriptionChar c = true := by
  cases hname : name.toList with
  | nil => exact absurd (String.toList_eq_nil_iff.1 hname) described.nonempty
  | cons c rest =>
    have hmember : c ∈ name.toList := by
      rw [hname]
      exact List.mem_cons_self
    exact ⟨c, rest, rfl, described.all c hmember⟩

end IsDescription

namespace Filter

/-- The parts of a text in front of and behind the first character of a kind. -/
def cut? (mark : Char) : List Char → Option (List Char × List Char)
  | [] => none
  | c :: rest =>
    if c = mark then some ([], rest)
    else (cut? mark rest).map fun parts => (c :: parts.1, parts.2)

/-- A text is cut at the first character of a kind. -/
theorem cut?_append {mark : Char} {front : List Char} (absent : mark ∉ front) (back : List Char) :
    cut? mark (front ++ mark :: back) = some (front, back) := by
  induction front with
  | nil => rw [List.nil_append, cut?, if_pos rfl]
  | cons c front ih =>
    rw [List.mem_cons, not_or] at absent
    rw [List.cons_append, cut?, if_neg (Ne.symm absent.1), ih absent.2]
    rfl

/-- A part of a value, which may be left out. -/
def readPart? (text : List Char) : Option (Option (List UInt8)) :=
  if text = [] then some none else (unescape? text).map some

/-- A filter with parts of a value, of which at least the first and the last one are there. -/
def readParts? (name : String) (first : List Char) (more : List (List Char)) : Option Filter :=
  if first = [] ∧ more = [[]] then some (.presence name)
  else (readPart? first).bind fun initial => (more.dropLast.mapM unescape?).bind fun inner =>
    (readPart? (more.getLastD [])).map fun final => .substrings name ⟨initial, inner, final⟩

/-- A filter with a value behind an equals sign. -/
def readValue? (name : String) (text : List Char) : Option Filter :=
  match text.splitOn '*' with
  | [] => none
  | [value] => (unescape? value).map (.comparison .equal name)
  | first :: more => readParts? name first more

/-- What stands between colons behind the attribute: the mark of the entry's name and a rule. -/
def readMarks? : List (List Char) → Option (Bool × Option String)
  | [] => some (false, none)
  | [mark] =>
    if mark = "dn".toList then some (true, none) else some (false, some (String.ofList mark))
  | [mark, rule] => if mark = "dn".toList then some (true, some (String.ofList rule)) else none
  | _ => none

/-- An extensible match with what stands in front of the last colon and the value. -/
def readMatch? (head value : List Char) : Option Filter :=
  match head.splitOn ':' with
  | [] => none
  | name :: marks => (readMarks? marks).bind fun found => (unescape? value).map fun value =>
    .extensible ⟨found.2, if name = [] then none else some (String.ofList name), value, found.1⟩

/-- A filter with what stands in front of and behind its first equals sign. -/
def readSides? (left right : List Char) : Option Filter :=
  let compared (relation : Relation) : Option Filter :=
    (unescape? right).map (.comparison relation (String.ofList left.dropLast))
  if left.getLast? = some '>' then compared .atLeast
  else if left.getLast? = some '<' then compared .atMost
  else if left.getLast? = some '~' then compared .approximate
  else if left.getLast? = some ':' then readMatch? left.dropLast right
  else readValue? (String.ofList left) right

/-- A filter without inner filters behind its opening parenthesis, and what follows it. -/
def readSimple? (text : List Char) : Option (Filter × List Char) :=
  (cut? ')' text).bind fun outer => (cut? '=' outer.1).bind fun inner =>
    (readSides? inner.1 inner.2).map fun filter => (filter, outer.2)

mutual

/-- A filter and what follows it, with at most `fuel` filters and lists of filters inside each
other. -/
def read? : (fuel : Nat) → List Char → Option (Filter × List Char)
  | fuel + 1, '(' :: '&' :: rest =>
    (readAll? fuel rest).map fun found => (.conjunction found.1, found.2)
  | fuel + 1, '(' :: '|' :: rest =>
    (readAll? fuel rest).map fun found => (.disjunction found.1, found.2)
  | fuel + 1, '(' :: '!' :: rest => (read? fuel rest).bind fun found =>
    match found.2 with
    | ')' :: behind => some (.negation found.1, behind)
    | _ => none
  | _ + 1, '(' :: rest => readSimple? rest
  | _, _ => none

/-- Filters up to a closing parenthesis, and what follows it. -/
def readAll? : (fuel : Nat) → List Char → Option (List Filter × List Char)
  | _, ')' :: rest => some ([], rest)
  | fuel + 1, text => (read? fuel text).bind fun first => (readAll? fuel first.2).map fun more =>
    (first.1 :: more.1, more.2)
  | 0, _ => none

end

/-- The filter that a text stands for. -/
def ofText? (text : String) : Option Filter :=
  match read? text.length text.toList with
  | some (filter, []) => some filter
  | _ => none

/-- The sides of the first equals sign of a filter without inner filters. -/
structure HasSides (filter : Filter) (left right : List Char) : Prop where
  /-- They are all that stands between the parentheses. -/
  chars_eq : chars filter = '(' :: (left ++ '=' :: right) ++ [')']
  /-- The left side is not the beginning of a filter with inner filters. -/
  simple : ∃ c rest, left = c :: rest ∧ c ≠ '&' ∧ c ≠ '|' ∧ c ≠ '!'
  /-- The equals sign between them is the first one. -/
  first : '=' ∉ left
  /-- The parenthesis that ends the filter is the first one. -/
  last : ')' ∉ left ++ '=' :: right
  /-- The filter is read from them. -/
  read : readSides? left right = some filter

/-- A filter with sides is read from its text. -/
theorem HasSides.read?_append {filter : Filter} {left right : List Char}
    (sides : HasSides filter left right) (fuel : Nat) (rest : List Char) :
    read? (fuel + 1) (chars filter ++ rest) = some (filter, rest) := by
  obtain ⟨c, more, hleft, hand, hor, hnot⟩ := sides.simple
  have hchars : chars filter ++ rest = '(' :: ((left ++ '=' :: right) ++ ')' :: rest) := by
    simp only [sides.chars_eq, List.cons_append, List.append_assoc, List.nil_append]
  have hread : read? (fuel + 1) (chars filter ++ rest) =
      readSimple? ((left ++ '=' :: right) ++ ')' :: rest) := by
    rw [hchars, hleft]
    simp only [List.cons_append]
    rw [read?]
    · intro other h
      exact hand (List.cons.inj h).1
    · intro other h
      exact hor (List.cons.inj h).1
    · intro other h
      exact hnot (List.cons.inj h).1
  rw [hread, readSimple?, cut?_append sides.last, Option.bind_some, cut?_append sides.first,
    Option.bind_some, sides.read, Option.map_some]

end Filter

end DirectoryService
