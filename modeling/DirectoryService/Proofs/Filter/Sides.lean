import DirectoryService.Proofs.Filter.Reading
import DirectoryService.Proofs.Text.Split

/-!
# The sides of a filter

A filter without inner filters is written with an equals sign between two sides. No name contains a
character that has a meaning, and no assertion value an asterisk or a closing parenthesis, so the
sides are found again, and the parts of each side.
-/

namespace DirectoryService.Filter

/-- What starts with the character of a name starts no inner filter. -/
theorem simple_of_description {c : Char} (plain : isDescriptionChar c = true) (rest : List Char) :
    ∃ first more, c :: rest = first :: more ∧ first ≠ '&' ∧ first ≠ '|' ∧ first ≠ '!' := by
  have hne {other : Char} (marked : isDescriptionChar other = false) : c ≠ other := by
    intro same
    rw [same, marked] at plain
    cases plain
  exact ⟨c, rest, rfl, hne (by decide), hne (by decide), hne (by decide)⟩

/-- No closing parenthesis is in a filter without inner filters if none is in its sides. -/
theorem last_of_sides {left right : List Char} (hleft : ')' ∉ left) (hright : ')' ∉ right) :
    ')' ∉ left ++ '=' :: right := by
  rw [List.mem_append, List.mem_cons]
  intro h
  rcases h with h | h | h
  · exact hleft h
  · exact absurd h (by decide)
  · exact hright h

/-- No closing parenthesis is in an assertion value. -/
theorem close_not_mem_escapeValue (value : List UInt8) : ')' ∉ escapeValue value :=
  not_mem_escapeValue rfl (by decide)

/-- No asterisk is in an assertion value. -/
theorem asterisk_not_mem_escapeValue (value : List UInt8) : '*' ∉ escapeValue value :=
  not_mem_escapeValue rfl (by decide)

section

variable {name : String}

/-- A comparison with a sign of two characters has the first of them in its left side. -/
theorem hasSides_signed (described : IsDescription name) {relation : Relation} {sign : Char}
    {value : List UInt8} (signs : relationSign relation = [sign, '=']) (notEqual : '=' ≠ sign)
    (notLast : ')' ≠ sign)
    (read : readSides? (name.toList ++ [sign]) (escapeValue value) =
      some (.comparison relation name value)) :
    HasSides (.comparison relation name value) (name.toList ++ [sign]) (escapeValue value) where
  chars_eq := by
    simp only [chars, signs, List.append_assoc, List.cons_append, List.nil_append]
  simple := by
    obtain ⟨c, rest, hname, plain⟩ := described.exists_eq_cons
    rw [hname]
    exact simple_of_description plain (rest ++ [sign])
  first := by
    rw [List.mem_append, List.mem_singleton, not_or]
    exact ⟨described.not_mem rfl, notEqual⟩
  last := by
    refine last_of_sides ?_ (close_not_mem_escapeValue value)
    rw [List.mem_append, List.mem_singleton, not_or]
    exact ⟨described.not_mem rfl, notLast⟩
  read := read

/-- A name alone says nothing about the kind of a filter: what follows the equals sign does. -/
theorem readSides?_name (described : IsDescription name) (right : List Char) :
    readSides? name.toList right = readValue? name right := by
  simp only [readSides?]
  rw [if_neg (described.getLast?_ne rfl), if_neg (described.getLast?_ne rfl),
    if_neg (described.getLast?_ne rfl), if_neg (described.getLast?_ne rfl), String.ofList_toList]

/-- A filter whose kind is told by what follows its first equals sign has a name for left side. -/
theorem hasSides_value (described : IsDescription name) {filter : Filter} {right : List Char}
    (written : chars filter = '(' :: (name.toList ++ '=' :: right) ++ [')'])
    (last : ')' ∉ right) (read : readValue? name right = some filter) :
    HasSides filter name.toList right where
  chars_eq := written
  simple := by
    obtain ⟨c, rest, hname, plain⟩ := described.exists_eq_cons
    rw [hname]
    exact simple_of_description plain rest
  first := described.not_mem rfl
  last := last_of_sides (described.not_mem rfl) last
  read := (readSides?_name described right).trans read

/-- A comparison has sides. -/
theorem hasSides_comparison (described : IsDescription name) (relation : Relation)
    (value : List UInt8) : ∃ left right, HasSides (.comparison relation name value) left right := by
  have hread := unescape?_escapeValue value
  cases relation with
  | equal =>
    refine ⟨_, _, hasSides_value described ?_ (close_not_mem_escapeValue value) ?_⟩
    · simp only [chars, relationSign, List.append_assoc, List.cons_append, List.nil_append]
    · rw [readValue?, List.splitOn_eq_singleton (asterisk_not_mem_escapeValue value)]
      simp only [hread, Option.map_some]
  | atLeast =>
    refine ⟨_, _, hasSides_signed described rfl (by decide) (by decide) ?_⟩
    simp only [readSides?, List.getLast?_concat, List.dropLast_concat, hread, Option.map_some,
      String.ofList_toList, if_true]
  | atMost =>
    refine ⟨_, _, hasSides_signed described rfl (by decide) (by decide) ?_⟩
    simp only [readSides?, List.getLast?_concat, List.dropLast_concat, hread, Option.map_some,
      String.ofList_toList, Option.some.injEq, Char.reduceEq, if_false, if_true]
  | approximate =>
    refine ⟨_, _, hasSides_signed described rfl (by decide) (by decide) ?_⟩
    simp only [readSides?, List.getLast?_concat, List.dropLast_concat, hread, Option.map_some,
      String.ofList_toList, Option.some.injEq, Char.reduceEq, if_false, if_true]

/-- A test for presence has sides. -/
theorem hasSides_presence (described : IsDescription name) :
    HasSides (.presence name) name.toList ['*'] := by
  refine hasSides_value described ?_ (by decide) rfl
  simp only [chars, List.append_assoc, List.cons_append, List.nil_append]

/-- Asterisks separate the parts of a value. -/
theorem splitOn_substringChars (parts : Substrings) :
    (substringChars parts).splitOn '*' = (parts.initial.map escapeValue).getD [] ::
      (parts.inner.map escapeValue ++ [(parts.final.map escapeValue).getD []]) := by
  have habsent (part : Option (List UInt8)) : '*' ∉ (part.map escapeValue).getD [] := by
    cases part with
    | none => exact List.not_mem_nil
    | some value => exact asterisk_not_mem_escapeValue value
  rw [substringChars, List.append_assoc, List.cons_append,
    List.splitOn_append_cons_self_of_not_mem (habsent parts.initial),
    splitOn_flatMap_append (fun part _ => asterisk_not_mem_escapeValue part) (habsent parts.final)]

/-- A part of a value is read, and so is that it is left out. -/
theorem readPart?_written {part : Option (List UInt8)} (nonempty : part ≠ some []) :
    readPart? ((part.map escapeValue).getD []) = some part := by
  cases part with
  | none => rfl
  | some value =>
    have hvalue : escapeValue value ≠ [] := by
      intro h
      exact nonempty (congrArg some (escapeValue_eq_nil_iff.1 h))
    simp only [readPart?, Option.map_some, Option.getD_some, if_neg hvalue, unescape?_escapeValue]

/-- The parts in between are read. -/
theorem mapM_unescape?_escapeValue (inner : List (List UInt8)) :
    (inner.map escapeValue).mapM unescape? = some inner := by
  induction inner with
  | nil => rfl
  | cons part inner ih =>
    rw [List.map_cons, List.mapM_cons, unescape?_escapeValue, ih]
    rfl

/-- The parts of a value are read. -/
theorem readValue?_substringChars (name : String) {parts : Substrings} (proper : parts.Proper) :
    readValue? name (substringChars parts) = some (.substrings name parts) := by
  have hinitial := readPart?_written proper.initial
  have hfinal := readPart?_written proper.final
  have hsplit := splitOn_substringChars parts
  generalize hfirst : (parts.initial.map escapeValue).getD [] = first at hinitial hsplit
  generalize hlast : (parts.final.map escapeValue).getD [] = last at hfinal hsplit
  -- An asterisk alone would be a test for presence.
  have hsome : ¬ (first = [] ∧ parts.inner.map escapeValue ++ [last] = [[]]) := by
    intro h
    have hinner : parts.inner = [] := by
      have hlength := congrArg List.length h.2
      simp only [List.length_append, List.length_map, List.length_cons, List.length_nil] at hlength
      exact List.length_eq_zero_iff.1 (by omega)
    have hlastNil : last = [] := by
      have hsame := h.2
      rw [hinner] at hsame
      exact (List.cons.inj hsame).1
    rw [h.1] at hinitial
    rw [hlastNil] at hfinal
    rcases proper.nonempty with hn | hn | hn
    · exact hn (Option.some.inj hinitial).symm
    · exact hn hinner
    · exact hn (Option.some.inj hfinal).symm
  obtain ⟨second, more, hmore⟩ := List.exists_cons_of_ne_nil
    (List.append_ne_nil_of_right_ne_nil (parts.inner.map escapeValue) (List.cons_ne_nil last []))
  have hread : readValue? name (substringChars parts) =
      readParts? name first (parts.inner.map escapeValue ++ [last]) := by
    rw [readValue?, hsplit, hmore]
  rw [hread, readParts?, if_neg hsome, hinitial, List.dropLast_concat, mapM_unescape?_escapeValue,
    List.getLastD_concat, hfinal]
  rfl

/-- A substring filter has sides. -/
theorem hasSides_substrings (described : IsDescription name) {parts : Substrings}
    (proper : parts.Proper) :
    HasSides (.substrings name parts) name.toList (substringChars parts) := by
  refine hasSides_value described ?_ ?_ (readValue?_substringChars name proper)
  · simp only [chars, List.append_assoc, List.cons_append]
  · have hpart (part : Option (List UInt8)) : ')' ∉ (part.map escapeValue).getD [] := by
      cases part with
      | none => exact List.not_mem_nil
      | some value => exact close_not_mem_escapeValue value
    simp only [substringChars, List.mem_append, List.mem_cons, List.mem_flatMap, List.not_mem_nil,
      or_false, not_or, Char.reduceEq, not_exists, not_and, not_false_eq_true, true_and]
    exact ⟨⟨hpart parts.initial, fun part _ => close_not_mem_escapeValue part⟩, hpart parts.final⟩

end

/-- What stands in front of the last colon of an extensible match. -/
def headChars (assertion : ExtensibleMatch) : List Char :=
  (assertion.name.map String.toList).getD [] ++
    ((if assertion.nameParts then ":dn".toList else []) ++
      (assertion.rule.map fun rule => ':' :: rule.toList).getD [])

section

variable {assertion : ExtensibleMatch} (proper : assertion.Proper)

include proper

/-- No character that has a meaning in a filter is in the name of an extensible match. -/
theorem not_mem_nameChars {c : Char} (other : isDescriptionChar c = false) :
    c ∉ (assertion.name.map String.toList).getD [] := by
  cases hname : assertion.name with
  | none => exact List.not_mem_nil
  | some name => exact (proper.name name hname).not_mem other

/-- No character that has a meaning in a filter but the colon is in front of the last colon. -/
theorem not_mem_headChars {c : Char} (other : isDescriptionChar c = false) (noColon : c ≠ ':') :
    c ∉ headChars assertion := by
  have hmark : c ∉ if assertion.nameParts then ":dn".toList else [] := by
    have hne {plain : Char} (described : isDescriptionChar plain = true) : c ≠ plain := by
      intro same
      rw [← same, other] at described
      cases described
    split
    · have hd : c ≠ 'd' := hne (by decide)
      have hn : c ≠ 'n' := hne (by decide)
      have hdn : ":dn".toList = [':', 'd', 'n'] := rfl
      simp only [hdn, List.mem_cons, List.not_mem_nil, or_false, noColon, hd, hn, not_false_eq_true]
    · exact List.not_mem_nil
  have hrule : c ∉ (assertion.rule.map fun rule => ':' :: rule.toList).getD [] := by
    cases hr : assertion.rule with
    | none => exact List.not_mem_nil
    | some rule =>
      have hnot := (proper.rule rule hr).1.not_mem other
      simp only [Option.map_some, Option.getD_some, List.mem_cons, noColon, hnot, or_self,
        not_false_eq_true]
  simp only [headChars, List.mem_append, not_mem_nameChars proper other, hmark, hrule, or_self,
    not_false_eq_true]

/-- Colons separate the attribute, the mark of the entry's name and the rule. -/
theorem splitOn_headChars : (headChars assertion).splitOn ':' =
    (assertion.name.map String.toList).getD [] ::
      ((if assertion.nameParts then ["dn".toList] else []) ++
        (assertion.rule.map String.toList).toList) := by
  have hname := not_mem_nameChars proper (rfl : isDescriptionChar ':' = false)
  have hdn : ":dn".toList = ':' :: "dn".toList := rfl
  have hmark : ':' ∉ "dn".toList := by decide
  rw [headChars]
  generalize (assertion.name.map String.toList).getD [] = name at hname
  cases hr : assertion.rule with
  | none =>
    cases assertion.nameParts with
    | false =>
      simp only [Bool.false_eq_true, if_false, Option.map_none, Option.getD_none, List.append_nil,
        List.splitOn_eq_singleton hname, Option.toList_none]
    | true =>
      simp only [if_true, hdn, Option.map_none, Option.getD_none, List.append_nil,
        List.splitOn_append_cons_self_of_not_mem hname, List.splitOn_eq_singleton hmark,
        Option.toList_none]
  | some rule =>
    have hrule : ':' ∉ rule.toList := (proper.rule rule hr).1.not_mem rfl
    cases assertion.nameParts with
    | false =>
      simp only [Bool.false_eq_true, if_false, Option.map_some, Option.getD_some, List.nil_append,
        List.splitOn_append_cons_self_of_not_mem hname, List.splitOn_eq_singleton hrule,
        Option.toList_some]
    | true =>
      simp only [if_true, hdn, Option.map_some, Option.getD_some, List.cons_append,
        List.splitOn_append_cons_self_of_not_mem hname,
        List.splitOn_append_cons_self_of_not_mem hmark, List.splitOn_eq_singleton hrule,
        Option.toList_some, List.nil_append]

/-- The marks of an extensible match are read. -/
theorem readMarks?_marks : readMarks? ((if assertion.nameParts then ["dn".toList] else []) ++
    (assertion.rule.map String.toList).toList) = some (assertion.nameParts, assertion.rule) := by
  cases hr : assertion.rule with
  | none => cases assertion.nameParts <;> rfl
  | some rule =>
    have hne : rule.toList ≠ "dn".toList := by
      intro same
      exact (proper.rule rule hr).2 (String.toList_inj.1 same)
    cases assertion.nameParts with
    | false =>
      simp only [Bool.false_eq_true, if_false, Option.map_some, Option.toList_some, List.nil_append,
        readMarks?, if_neg hne, String.ofList_toList]
    | true =>
      simp only [if_true, Option.map_some, Option.toList_some, List.cons_append, List.nil_append,
        readMarks?, String.ofList_toList]

/-- An extensible match is read. -/
theorem readMatch?_headChars :
    readMatch? (headChars assertion) (escapeValue assertion.value) =
      some (.extensible assertion) := by
  have hname : (if (assertion.name.map String.toList).getD [] = [] then none
      else some (String.ofList ((assertion.name.map String.toList).getD []))) = assertion.name := by
    cases hn : assertion.name with
    | none => rfl
    | some name =>
      have hne : name.toList ≠ [] := by
        intro h
        exact (proper.name name hn).nonempty (String.toList_eq_nil_iff.1 h)
      simp only [Option.map_some, Option.getD_some, if_neg hne, String.ofList_toList]
  rw [readMatch?, splitOn_headChars proper]
  simp only [readMarks?_marks proper, Option.bind_some, unescape?_escapeValue, Option.map_some,
    hname]

/-- An extensible match has sides. -/
theorem hasSides_extensible :
    HasSides (.extensible assertion) (headChars assertion ++ [':'])
      (escapeValue assertion.value) where
  chars_eq := by
    have hsign : ":=".toList = [':', '='] := rfl
    simp only [chars, extensibleChars, headChars, hsign, List.append_assoc, List.cons_append,
      List.nil_append]
  simple := by
    rw [headChars]
    cases hn : assertion.name with
    | some name =>
      obtain ⟨c, rest, hname, plain⟩ := (proper.name name hn).exists_eq_cons
      simp only [Option.map_some, Option.getD_some, hname, List.cons_append]
      exact simple_of_description plain _
    | none =>
      -- Without an attribute, the first colon comes first.
      have hcolon : ∃ rest, ((if assertion.nameParts then ":dn".toList else []) ++
          (assertion.rule.map fun rule => ':' :: rule.toList).getD []) ++ [':'] = ':' :: rest := by
        cases assertion.nameParts <;> cases assertion.rule <;> exact ⟨_, rfl⟩
      obtain ⟨rest, hrest⟩ := hcolon
      exact ⟨':', rest, hrest, by decide, by decide, by decide⟩
  first := by
    rw [List.mem_append, List.mem_singleton, not_or]
    exact ⟨not_mem_headChars proper rfl (by decide), by decide⟩
  last := by
    refine last_of_sides ?_ (close_not_mem_escapeValue assertion.value)
    rw [List.mem_append, List.mem_singleton, not_or]
    exact ⟨not_mem_headChars proper rfl (by decide), by decide⟩
  read := by
    simp only [readSides?, List.getLast?_concat, List.dropLast_concat, Option.some.injEq,
      Char.reduceEq, if_false, if_true, readMatch?_headChars proper]

end

end DirectoryService.Filter
