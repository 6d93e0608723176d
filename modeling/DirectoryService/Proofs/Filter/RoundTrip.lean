import DirectoryService.Proofs.Filter.Sides

/-!
# Filters read back

Every filter of the kind that clients send is read back from the text that is logged for its packet,
so no two of them are logged alike.
-/

namespace DirectoryService.Filter

/-- A filter starts with an opening parenthesis. -/
theorem exists_chars_eq_cons (filter : Filter) : ∃ more, chars filter = '(' :: more := by
  cases filter <;> exact ⟨_, rfl⟩

/-- A filter is read from its text, whatever stands behind it. -/
def ReadsBack (filter : Filter) : Prop :=
  ∀ fuel rest, (chars filter).length ≤ fuel → read? fuel (chars filter ++ rest) = some (filter, rest)

/-- A text is not empty, so reading it takes a step. -/
theorem readsBack_of_succ {filter : Filter} (read : ∀ fuel rest, (chars filter).length ≤ fuel + 1 →
    read? (fuel + 1) (chars filter ++ rest) = some (filter, rest)) : ReadsBack filter := by
  intro fuel rest enough
  obtain ⟨more, hmore⟩ := exists_chars_eq_cons filter
  cases fuel with
  | zero =>
    rw [hmore, List.length_cons] at enough
    omega
  | succ fuel => exact read fuel rest enough

/-- Filters are read up to a closing parenthesis if each of them is read. -/
theorem readAll?_charsAll_append {parts : List Filter} (each : ∀ part ∈ parts, ReadsBack part)
    {fuel : Nat} (rest : List Char) (enough : (charsAll parts).length < fuel) :
    readAll? fuel (charsAll parts ++ ')' :: rest) = some (parts, rest) := by
  induction parts generalizing fuel with
  | nil => rw [charsAll, List.nil_append, readAll?]
  | cons part parts ih =>
    rw [List.forall_mem_cons] at each
    rw [charsAll, List.length_append] at enough
    obtain ⟨more, hmore⟩ := exists_chars_eq_cons part
    have hpositive : 0 < (chars part).length := by
      rw [hmore]
      exact Nat.succ_pos _
    cases fuel with
    | zero => omega
    | succ fuel =>
      have hfirst := each.1 fuel (charsAll parts ++ ')' :: rest) (by omega)
      have hothers := ih each.2 (by omega : (charsAll parts).length < fuel)
      have hread : readAll? (fuel + 1) (charsAll (part :: parts) ++ ')' :: rest) =
          (read? fuel (chars part ++ (charsAll parts ++ ')' :: rest))).bind fun first =>
            (readAll? fuel first.2).map fun more => (first.1 :: more.1, more.2) := by
        rw [charsAll, List.append_assoc, hmore]
        rfl
      rw [hread, hfirst, Option.bind_some, hothers]
      rfl

/-- Filters that are joined are read from their text if each of them is. -/
theorem readsBack_conjunction {parts : List Filter} (each : ∀ part ∈ parts, ReadsBack part) :
    ReadsBack (.conjunction parts) := by
  refine readsBack_of_succ fun fuel rest enough => ?_
  simp only [chars, List.cons_append, List.length_cons, List.length_append, List.length_nil]
    at enough
  have hparts := readAll?_charsAll_append each rest (by omega : (charsAll parts).length < fuel)
  simp only [chars, List.cons_append, List.append_assoc, List.nil_append, read?, hparts,
    Option.map_some]

/-- Filters of which one is enough are read from their text if each of them is. -/
theorem readsBack_disjunction {parts : List Filter} (each : ∀ part ∈ parts, ReadsBack part) :
    ReadsBack (.disjunction parts) := by
  refine readsBack_of_succ fun fuel rest enough => ?_
  simp only [chars, List.cons_append, List.length_cons, List.length_append, List.length_nil]
    at enough
  have hparts := readAll?_charsAll_append each rest (by omega : (charsAll parts).length < fuel)
  simp only [chars, List.cons_append, List.append_assoc, List.nil_append, read?, hparts,
    Option.map_some]

/-- A filter that is reversed is read from its text if the filter itself is. -/
theorem readsBack_negation {inner : Filter} (within : ReadsBack inner) :
    ReadsBack (.negation inner) := by
  refine readsBack_of_succ fun fuel rest enough => ?_
  simp only [chars, List.cons_append, List.length_cons, List.length_append, List.length_nil]
    at enough
  have hinner := within fuel (')' :: rest) (by omega)
  simp only [chars, List.cons_append, List.append_assoc, List.nil_append, read?, hinner,
    Option.bind_some]

/-- A filter without inner filters is read from its text. -/
theorem HasSides.readsBack {filter : Filter} {left right : List Char}
    (sides : HasSides filter left right) : ReadsBack filter :=
  readsBack_of_succ fun fuel rest _ => sides.read?_append fuel rest

/-- Every filter of the kind that clients send is read from its text. -/
theorem Proper.readsBack {filter : Filter} (proper : filter.Proper) : ReadsBack filter := by
  induction proper with
  | conjunction all ih => exact readsBack_conjunction ih
  | disjunction all ih => exact readsBack_disjunction ih
  | negation within ih => exact readsBack_negation ih
  | @comparison relation name value described =>
    obtain ⟨left, right, sides⟩ := hasSides_comparison described relation value
    exact sides.readsBack
  | substrings described proper => exact (hasSides_substrings described proper).readsBack
  | presence described => exact (hasSides_presence described).readsBack
  | extensible proper => exact (hasSides_extensible proper).readsBack

/-- A filter of the kind that clients send is read from the text that is logged for it. -/
theorem ofText?_render {filter : Filter} (proper : filter.Proper) :
    ofText? filter.render = some filter := by
  have hread := proper.readsBack (chars filter).length [] (Nat.le_refl _)
  rw [List.append_nil] at hread
  rw [ofText?, render, String.toList_ofList, String.length_ofList, hread]

/-- For the packet of every filter of the kind that clients send there is a text, from which the
filter is read back. So no two such filters are logged alike. -/
theorem describe_toPacket_faithful {first second : Filter} (proper : first.Proper)
    (other : second.Proper) :
    describe first.toPacket = .ok first.render ∧ ofText? first.render = some first ∧
      (first ≠ second → ∃ text otherText, describe first.toPacket = .ok text ∧
        describe second.toPacket = .ok otherText ∧ text ≠ otherText) := by
  have hdescribe {filter : Filter} (proper : filter.Proper) :
      describe filter.toPacket = .ok filter.render := by
    rw [describe, ofPacket_toPacket proper]
    rfl
  refine ⟨hdescribe proper, ofText?_render proper, fun different => ?_⟩
  refine ⟨_, _, hdescribe proper, hdescribe other, fun same => different ?_⟩
  have hfirst := ofText?_render proper
  rw [same, ofText?_render other] at hfirst
  exact (Option.some.inj hfirst).symm

/-- A value that is an asterisk is told from a test for presence, also deep inside a filter. -/
theorem describe_toPacket_faithful_asterisk :
    let first : Filter := .negation (.conjunction [.comparison .equal "cn" [0x2A], .disjunction []])
    let second : Filter := .negation (.conjunction [.presence "cn", .disjunction []])
    first.Proper ∧ second.Proper ∧ describe first.toPacket = .ok first.render ∧
      ofText? first.render = some first ∧
      ∃ text otherText, describe first.toPacket = .ok text ∧
        describe second.toPacket = .ok otherText ∧ text ≠ otherText := by
  intro first second
  have described : IsDescription "cn" := ⟨by decide, List.all_eq_true.1 (by decide)⟩
  have empty : (Filter.disjunction []).Proper := .disjunction (List.forall_mem_nil _)
  have proper : first.Proper := .negation (.conjunction
    (List.forall_mem_cons.2 ⟨.comparison described, List.forall_mem_singleton.2 empty⟩))
  have other : second.Proper := .negation (.conjunction
    (List.forall_mem_cons.2 ⟨.presence described, List.forall_mem_singleton.2 empty⟩))
  have different : first ≠ second := by
    intro same
    injection same with parts
    injection parts with items
    injection items with item
    cases item
  have faithful := describe_toPacket_faithful proper other
  exact ⟨proper, other, faithful.1, faithful.2.1, faithful.2.2 different⟩

end DirectoryService.Filter
