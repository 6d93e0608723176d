import DirectoryService.Proofs.Schema.Reading
import DirectoryService.Schema.Standard

/-!
# Descriptions conform to their productions

The descriptions of matching rules and object classes are texts of the productions of RFC 4512.
That of an attribute type is one unless it has a rule for parts of values as well as one that orders
them, since those two clauses stand in the wrong order. That of a syntax is one, but a quote or a
backslash in what the syntax describes itself with is not escaped.
-/

namespace DirectoryService.Production

open Computability

/-- A text with only tight characters is read up to the next space. -/
theorem Slot.isReadable_of_over {slot : Slot} {argument : Language Char}
    (takes : slot.argument = some argument) (limited : Over IsTight argument)
    (starts : Starts IsTight argument) : slot.IsReadable := by
  intro other same
  obtain rfl := Option.some.inj (takes.symm.trans same)
  exact ⟨isDetermined_of_over limited, starts.mono fun _ tight => tight.1⟩

/-- A keyword alone is read. -/
theorem Slot.isReadable_of_none {slot : Slot} (alone : slot.argument = none) : slot.IsReadable := by
  intro argument takes
  rw [alone] at takes
  cases takes

/-- Names are read up to the last quote or the parenthesis. -/
theorem isDetermined_descriptors : IsDetermined descriptors := by
  have hquoted : Over IsTight (quoted descriptor) :=
    (Over.sign (by decide)).mul (over_descriptor.mul (Over.sign (by decide)))
  have hplain : Over (· ≠ ')') (quoted descriptor) := fun text member c within =>
    (hquoted text member c within).2
  have hspaces : Over (· ≠ ')') sp := (Over.sign (by decide)).many
  exact isDetermined_add_parenthesised hquoted (Starts.sign (by decide)).mul
    (hplain.mul (hspaces.mul hplain).kstar).optional

theorem Slot.isReadable_descriptors {name : String} {isKeyword : IsKeyword name} :
    (mk name (some descriptors) isKeyword).IsReadable := by
  rintro - ⟨⟩
  exact ⟨isDetermined_descriptors, (Starts.sign (by decide)).mul.add (Starts.sign (by decide)).mul⟩

/-- A text between parentheses, with a space on either side. -/
theorem mem_parenthesised {language : Language Char} {text : List Char} (member : text ∈ language) :
    '(' :: ' ' :: (text ++ [' ', ')']) ∈ parenthesised language := by
  have hinner := Language.append_mem_mul member close_mem
  have hspaced : [' '] ++ (text ++ [' ', ')']) ∈ wsp * (language * (wsp * sign ')')) :=
    Language.append_mem_mul space_mem_wsp hinner
  exact cons_mem_sign_mul hspaced

/-- Items behind each other, all but the first one with a separator in front of them. -/
theorem mem_separated {item separator : Language Char} {α : Type} {first : List Char}
    {items : List α} {text : α → List Char} (hfirst : first ∈ item)
    (hitems : ∀ other ∈ items, text other ∈ separator * item) :
    first ++ items.flatMap text ∈ separated item separator :=
  Language.append_mem_mul hfirst (flatMap_mem_kstar hitems)

/-- Words between parentheses. -/
theorem spaced_parenthesised (first : List Char) (words : List (List Char)) :
    spaced (word "(" :: first :: (words ++ [word ")"])) =
      '(' :: ' ' :: ((first ++ trailing words) ++ [' ', ')']) := by
  rw [spaced_cons, trailing_cons, trailing_append, List.append_assoc]
  rfl

/-- The names of a definition are short names between quotes. -/
theorem mem_descriptors {name : String} {aliases : List String}
    (valid : ∀ text ∈ name :: aliases, text.toList ∈ descriptor) :
    spaced (nameWords name aliases) ∈ descriptors := by
  have hquoted (text : String) (member : text ∈ name :: aliases) :
      singleQuoted text ∈ quoted descriptor :=
    cons_mem_sign_mul (Language.append_mem_mul (valid text member) (mem_sign.2 rfl))
  have hname := hquoted name List.mem_cons_self
  cases aliases with
  | nil => exact Or.inl hname
  | cons first aliases =>
    rw [nameWords_cons, List.map_cons, List.cons_append, spaced_parenthesised, trailing,
      List.flatMap_map]
    refine Or.inr (mem_parenthesised (mem_optional.2 (Or.inr (mem_separated hname ?_))))
    exact fun text member => Language.append_mem_mul space_mem_sp
      (hquoted text (List.mem_cons_of_mem _ member))

/-- A list of attributes is one of object identifiers. -/
theorem mem_oids {first : String} {rest : List String}
    (valid : ∀ text ∈ first :: rest, text.toList ∈ oid) :
    spaced (listWords (first :: rest)) ∈ oids := by
  have hdollar : [' ', '$', ' '] ∈ wsp * (sign '$' * wsp) :=
    Language.append_mem_mul space_mem_wsp (cons_mem_sign_mul space_mem_wsp)
  rw [listWords_cons, spaced_parenthesised, trailing, List.flatMap_assoc]
  refine Or.inr (mem_parenthesised (mem_separated (valid first List.mem_cons_self) ?_))
  intro text member
  have hitem := Language.append_mem_mul hdollar (valid text (List.mem_cons_of_mem _ member))
  simpa [trailing, word] using hitem

/-- The clauses in front of others fill a place at most. -/
def Slot.Takes (slot : Slot) (present : List Clause) : Prop :=
  present.length ≤ 1 ∧ ∀ clause ∈ present, slot.Accepts clause

namespace Slot

variable {name : String} {isKeyword : IsKeyword name}

/-- What stands behind a keyword is accepted if it is of the language there. -/
theorem accepts_words {argument : Language Char} {first : List Char} {words : List (List Char)}
    (member : spaced (first :: words) ∈ argument) :
    (mk name (some argument) isKeyword).Accepts (name, first :: words) := by
  refine ⟨rfl, ?_⟩
  rw [trailing_cons, ← spaced_cons]
  exact Language.append_mem_mul space_mem_sp member

/-- A clause with a text, if there is one, is taken if the text is of the language there. -/
theorem takes_text {argument : Language Char} {given : Option String}
    (valid : ∀ text ∈ given, text.toList ∈ argument) :
    (mk name (some argument) isKeyword).Takes (Clause.text name given) := by
  cases given with
  | none => exact ⟨Nat.zero_le 1, List.forall_mem_nil _⟩
  | some text => exact ⟨le_rfl, List.forall_mem_singleton.2 (accepts_words (valid text rfl))⟩

/-- A clause without words is taken where none stand. -/
theorem takes_flag (applies : Bool) :
    (mk name none isKeyword).Takes (Clause.flag applies name) := by
  cases applies with
  | false => exact ⟨Nat.zero_le 1, List.forall_mem_nil _⟩
  | true => exact ⟨le_rfl, List.forall_mem_singleton.2 ⟨rfl, Language.nil_mem_one⟩⟩

/-- A clause with a list of attributes, if there are any, is taken as one of identifiers. -/
theorem takes_list {attributes : List String} (valid : ∀ text ∈ attributes, text.toList ∈ oid) :
    (mk name (some oids) isKeyword).Takes (Clause.list name attributes) := by
  cases attributes with
  | nil => exact ⟨Nat.zero_le 1, List.forall_mem_nil _⟩
  | cons first rest =>
    exact ⟨le_rfl, List.forall_mem_singleton.2 (accepts_words (mem_oids valid))⟩

/-- The names of a definition are taken. -/
theorem takes_names {first : String} {aliases : List String}
    (valid : ∀ text ∈ first :: aliases, text.toList ∈ descriptor) :
    (mk name (some descriptors) isKeyword).Takes [(name, nameWords first aliases)] := by
  have hnames := mem_descriptors valid
  refine ⟨le_rfl, List.forall_mem_singleton.2 ?_⟩
  cases aliases with
  | nil => exact accepts_words hnames
  | cons second aliases => exact accepts_words hnames

end Slot

/-- Clauses that a slot takes fill its place in front of others. -/
theorem Fill.append {slot : Slot} {front present : List Clause} {places : List (Language Char)}
    (taken : slot.Takes front) (fills : Fill present places) :
    Fill (front ++ present) (slot.language :: places) := by
  obtain ⟨short, accepted⟩ := taken
  match front with
  | [] => exact .cons_right fills
  | [clause] => exact .cons (accepted clause List.mem_cons_self).mem_language fills
  | _ :: _ :: _ => exact absurd short (by simp)

/-- A place may stay empty. -/
theorem Fill.skip {place : Language Char} {present : List Clause} {places : List (Language Char)}
    (fills : Fill present places) : Fill present (place :: places) := .cons_right fills

/-- An object identifier and the rest of a description. -/
theorem mem_description {oid rest : List Char} {language : Language Char}
    (valid : oid ∈ numericOid) (member : rest ∈ language) :
    '(' :: ' ' :: (oid ++ rest) ∈ description language := by
  have hbody : [' '] ++ (oid ++ rest) ∈ wsp * (numericOid * language) :=
    Language.append_mem_mul space_mem_wsp (Language.append_mem_mul valid member)
  exact cons_mem_sign_mul hbody

/-- Spaces and what starts with an object identifier behind them. -/
theorem mem_of_space_cons {oid rest : List Char} {language : Language Char}
    (valid : oid ∈ numericOid) (starts : Starts (· ≠ ' ') language)
    (member : ' ' :: (oid ++ rest) ∈ wsp * language) : oid ++ rest ∈ language := by
  obtain ⟨digit, head, isDigit⟩ := starts_numericOid oid valid
  exact mem_of_spaces_mul starts (List.forall_mem_singleton.2 rfl)
    ⟨digit, List.mem_head?_append_of_mem_head? head, (isTight_of_isDigit isDigit).1⟩ member

/-- What follows the object identifier of a description is told. -/
theorem of_mem_description {oid rest : List Char} {language : Language Char}
    (valid : oid ∈ numericOid) (stops : IsBreak rest) (starts : Starts (¬ IsTight ·) language)
    (member : '(' :: ' ' :: (oid ++ rest) ∈ description language) : rest ∈ language := by
  have hbegins : Starts (· ≠ ' ') numericOid :=
    starts_numericOid.mono fun c digit => (isTight_of_isDigit digit).1
  have hbody := mem_of_space_cons valid hbegins.mul (of_cons_mem_sign_mul member)
  obtain ⟨read, hread, back, hback, cut⟩ := Language.mem_mul.1 hbody
  rwa [isDetermined_of_over over_numericOid oid valid read hread rest back stops
    (starts.isBreak hback) cut.symm]

end DirectoryService.Production

namespace DirectoryService

open Production

/-- The text of a description made of clauses. -/
theorem spaced_clausal (oid : String) (clauses : List Clause) :
    spaced (clausal oid clauses) =
      '(' :: ' ' :: (oid.toList ++ (trailing (clauseWords clauses) ++ [' ', ')'])) := by
  rw [clausal, spaced_cons, trailing_cons, trailing_append]
  rfl

/-- A description whose clauses fill the places of a production is a text of it. -/
theorem clausal_mem {oid : String} {clauses : List Clause} {places : List (Language Char)}
    (valid : oid.toList ∈ numericOid) (fills : Fill clauses places) :
    spaced (clausal oid clauses) ∈ description (Production.clauses places * ending) := by
  rw [spaced_clausal]
  exact mem_description valid (Language.append_mem_mul fills.mem_clauses close_mem_ending)

/-- The texts of a matching rule are identifiers and names of their kind. -/
structure MatchingRule.IsValid (definition : MatchingRule) : Prop where
  oid : definition.oid.toList ∈ numericOid
  names : ∀ name ∈ definition.name :: definition.aliases, name.toList ∈ descriptor
  syntaxOid : definition.syntaxOid.toList ∈ numericOid

/-- The texts of an attribute type are identifiers and names of their kind. -/
structure AttributeType.IsValid (definition : AttributeType) : Prop where
  oid : definition.oid.toList ∈ numericOid
  names : ∀ name ∈ definition.names, name.toList ∈ descriptor
  /-- Other definitions are referred to by a name or an identifier. -/
  superior : ∀ name ∈ definition.superior, name.toList ∈ Production.oid
  equality : ∀ name ∈ definition.equality, name.toList ∈ Production.oid
  substring : ∀ name ∈ definition.substring, name.toList ∈ Production.oid
  ordering : ∀ name ∈ definition.ordering, name.toList ∈ Production.oid
  syntaxOid : ∀ oid ∈ definition.syntaxOid, oid.toList ∈ numericOid

/-- The texts of an object class are identifiers and names of their kind. -/
structure ObjectClass.IsValid (definition : ObjectClass) : Prop where
  oid : definition.oid.toList ∈ numericOid
  names : ∀ name ∈ definition.names, name.toList ∈ descriptor
  superior : ∀ name ∈ definition.superior, name.toList ∈ Production.oid
  attributes : ∀ name ∈ definition.must ++ definition.may, name.toList ∈ Production.oid

instance (definition : MatchingRule) : Decidable definition.IsValid :=
  decidable_of_iff (definition.oid.toList ∈ numericOid ∧
      (∀ name ∈ definition.name :: definition.aliases, name.toList ∈ descriptor) ∧
      definition.syntaxOid.toList ∈ numericOid)
    ⟨fun ⟨oid, names, syntaxOid⟩ => ⟨oid, names, syntaxOid⟩,
      fun valid => ⟨valid.oid, valid.names, valid.syntaxOid⟩⟩

instance (definition : AttributeType) : Decidable definition.IsValid :=
  decidable_of_iff (definition.oid.toList ∈ numericOid ∧
      (∀ name ∈ definition.names, name.toList ∈ descriptor) ∧
      ((∀ name ∈ definition.superior, name.toList ∈ Production.oid) ∧
        (∀ name ∈ definition.equality, name.toList ∈ Production.oid) ∧
        (∀ name ∈ definition.substring, name.toList ∈ Production.oid) ∧
        ∀ name ∈ definition.ordering, name.toList ∈ Production.oid) ∧
      ∀ oid ∈ definition.syntaxOid, oid.toList ∈ numericOid)
    ⟨fun ⟨oid, names, ⟨superior, equality, substring, ordering⟩, syntaxOid⟩ =>
      ⟨oid, names, superior, equality, substring, ordering, syntaxOid⟩, fun valid => ⟨valid.oid,
        valid.names, ⟨valid.superior, valid.equality, valid.substring, valid.ordering⟩,
        valid.syntaxOid⟩⟩

instance (definition : ObjectClass) : Decidable definition.IsValid :=
  decidable_of_iff (definition.oid.toList ∈ numericOid ∧
      (∀ name ∈ definition.names, name.toList ∈ descriptor) ∧
      (∀ name ∈ definition.superior, name.toList ∈ Production.oid) ∧
      ∀ name ∈ definition.must ++ definition.may, name.toList ∈ Production.oid)
    ⟨fun ⟨oid, names, superior, attributes⟩ => ⟨oid, names, superior, attributes⟩,
      fun valid => ⟨valid.oid, valid.names, valid.superior, valid.attributes⟩⟩

/-- The names of a definition fill the place of names in front of other clauses. -/
theorem fill_names {name : String} {aliases : List String} {present : List Clause}
    {places : List (Language Char)} (valid : ∀ text ∈ name :: aliases, text.toList ∈ descriptor)
    (fills : Fill present ((Slot.mk "OBSOLETE" none).language :: places)) :
    Fill (("NAME", nameWords name aliases) :: present) (leading.map Slot.language ++ places) :=
  Fill.append (Slot.takes_names valid) (.cons_right fills)

/-- The description of a matching rule is one of the production. -/
theorem MatchingRule.IsValid.describe_mem {definition : MatchingRule}
    (valid : definition.IsValid) : definition.describe.toList ∈ matchingRuleDescription := by
  have hnames : Fill [("NAME", nameWords definition.name definition.aliases)]
      (leading.map Slot.language) := fill_names valid.names (.skip .nil)
  have hsyntax : clauseText ("SYNTAX", [word definition.syntaxOid]) ∈
      (Slot.mk "SYNTAX" (some numericOid)).language :=
    (Slot.accepts_words valid.syntaxOid).mem_language
  have hlast := Language.append_mem_mul space_mem_sp hsyntax
  have hrest := Language.append_mem_mul hnames.mem_clauses
    (Language.append_mem_mul hlast close_mem_ending)
  rw [describe, String.toList_ofList, words_eq, clauses, spaced_clausal]
  refine mem_description valid.oid ?_
  rw [← List.singleton_append, clauseWords_append, trailing_append]
  have hclause : trailing (clauseWords [("SYNTAX", [word definition.syntaxOid])]) =
      [' '] ++ clauseText ("SYNTAX", [word definition.syntaxOid]) := by
    rw [trailing_clauseWords_cons, clauseWords, List.flatMap_nil, trailing, List.flatMap_nil,
      List.append_nil]
    rfl
  rw [hclause, List.append_assoc]
  exact hrest

/-- The keyword of a kind is one of those of the grammar. -/
theorem ObjectClass.mem_kind (definition : ObjectClass) :
    clauseText (definition.kind.keyword, []) ∈ Production.kind := by
  have hkeyword (name : String) : clauseText (name, []) ∈ keyword name := by
    rw [clauseText, trailing, List.flatMap_nil, List.append_nil]
    exact self_mem_keyword name
  cases definition.kind
  · exact Or.inl (Or.inr (hkeyword _))
  · exact Or.inr (hkeyword _)
  · exact Or.inl (Or.inl (hkeyword _))

/-- The superior class that is described is referred to as the recorded one, or is `top`. -/
theorem ObjectClass.IsValid.mem_oids {definition : ObjectClass} (valid : definition.IsValid) :
    ∀ name ∈ definition.effectiveSuperior, name.toList ∈ oids := by
  have htop : topClass.toList ∈ descriptor := by decide
  intro name superior
  rw [effectiveSuperior] at superior
  refine Or.inl ?_
  split at superior
  · rename_i recorded given
    exact valid.superior name (given.trans superior)
  · split at superior
    · cases superior
    · obtain rfl := Option.some.inj superior
      exact Or.inl htop

/-- The description of an object class is one of the production. -/
theorem ObjectClass.IsValid.describe_mem {definition : ObjectClass}
    (valid : definition.IsValid) : definition.describe.toList ∈ objectClassDescription := by
  obtain ⟨hmust, hmay⟩ := List.forall_mem_append.1 valid.attributes
  have hlast : Fill (Clause.list "MAY" definition.may)
      [(Slot.mk "MAY" (some oids)).language] := by
    rw [← List.append_nil (Clause.list _ _)]
    exact .append (Slot.takes_list hmay) .nil
  have hlists : Fill (Clause.list "MUST" definition.must ++ Clause.list "MAY" definition.may)
      (objectClassClauses.drop 5) := .append (Slot.takes_list hmust) hlast
  have hkind : Fill ([(definition.kind.keyword, [])] ++ (Clause.list "MUST" definition.must ++
      Clause.list "MAY" definition.may)) (objectClassClauses.drop 4) :=
    .cons definition.mem_kind hlists
  rw [describe, String.toList_ofList, words_eq]
  refine clausal_mem valid.oid ?_
  rw [clauses]
  simp only [List.append_assoc]
  exact fill_names valid.names (.skip (.append (Slot.takes_text valid.mem_oids) hkind))

namespace AttributeType

variable {definition : AttributeType}

/-- The keyword of a usage that is described is one of those of the grammar. -/
theorem mem_usage (definition : AttributeType) :
    ∀ text ∈ definition.usage.shown, text.toList ∈ Production.usage := by
  have hkeyword (name : String) : name.toList ∈ keyword name := self_mem_keyword name
  intro text shown
  cases husage : definition.usage <;> rw [husage] at shown <;> cases shown
  · exact Or.inl (Or.inl (Or.inr (hkeyword _)))
  · exact Or.inl (Or.inr (hkeyword _))
  · exact Or.inr (hkeyword _)

theorem IsValid.mem_sizedOid (valid : definition.IsValid) :
    ∀ text ∈ definition.syntaxOid, text.toList ∈ sizedOid := by
  intro text given
  rw [← List.append_nil text.toList]
  exact Language.append_mem_mul (valid.syntaxOid text given) (mem_optional.2 (Or.inl rfl))

/-- The description of an attribute type that does not have both rules is one of the production. -/
theorem IsValid.describe_mem (valid : definition.IsValid)
    (either : definition.ordering = none ∨ definition.substring = none) :
    definition.describe.toList ∈ attributeTypeDescription := by
  rw [describe, String.toList_ofList, words_eq]
  refine clausal_mem valid.oid ?_
  rw [clauses]
  simp only [List.append_assoc]
  refine fill_names valid.names (.append (Slot.takes_flag _)
    (.append (Slot.takes_text valid.superior) (.append (Slot.takes_text valid.equality) ?_)))
  have husage : Fill (Clause.text "USAGE" definition.usage.shown)
      [(Slot.mk "USAGE" (some Production.usage)).language] := by
    rw [← List.append_nil (Clause.text _ _)]
    exact .append (Slot.takes_text definition.mem_usage) .nil
  have hlater : Fill _ ((attributeTypeSlots.drop 7).map Slot.language) :=
    .append (Slot.takes_text valid.mem_sizedOid)
      (.append (Slot.takes_flag (definition.flags.contains .singleValue))
        (.append (Slot.takes_flag (definition.flags.contains .collective))
          (.append (Slot.takes_flag (definition.flags.contains .noUserModification)) husage)))
  -- Without one of the two rules, the other one is in its place.
  rcases either with unordered | whole
  · rw [unordered, Clause.text_none, List.nil_append]
    exact Fill.skip (Fill.append (Slot.takes_text valid.substring) hlater)
  · rw [whole, Clause.text_none, List.nil_append]
    exact Fill.append (Slot.takes_text valid.ordering) hlater.skip

/-- The clauses of an attribute type are read one by one. -/
theorem IsValid.readable (valid : definition.IsValid) :
    ∀ clause ∈ definition.clauses,
      ∃ slot ∈ attributeTypeSlots, slot.Accepts clause ∧ slot.IsReadable := by
  have hreads (place : ℕ) {slot : Slot} {present : List Clause} (taken : slot.Takes present)
      (legible : slot.IsReadable) (placed : attributeTypeSlots[place]? = some slot) :
      ∀ clause ∈ present, ∃ slot ∈ attributeTypeSlots, slot.Accepts clause ∧ slot.IsReadable :=
    fun clause member => ⟨slot, List.mem_of_getElem? placed, taken.2 clause member, legible⟩
  have hflag (place : ℕ) {name : String} {isKeyword : IsKeyword name} (applies : Bool) :=
    hreads place (Slot.takes_flag applies : (Slot.mk name none isKeyword).Takes _)
      (Slot.isReadable_of_none rfl)
  have hreference {name : String} {isKeyword : IsKeyword name} :
      (Slot.mk name (some Production.oid) isKeyword).IsReadable :=
    Slot.isReadable_of_over rfl over_oid starts_oid
  have hsyntax : (Slot.mk "SYNTAX" (some sizedOid)).IsReadable :=
    Slot.isReadable_of_over rfl over_sizedOid starts_sizedOid
  have husage : (Slot.mk "USAGE" (some Production.usage)).IsReadable :=
    Slot.isReadable_of_over rfl over_usage starts_usage
  rw [clauses, ← List.singleton_append]
  simp only [List.forall_mem_append]
  exact ⟨hreads 0 (Slot.takes_names valid.names) Slot.isReadable_descriptors rfl,
    ⟨⟨⟨⟨⟨⟨⟨⟨hflag 2 _ rfl, hreads 3 (Slot.takes_text valid.superior) hreference rfl⟩,
      hreads 4 (Slot.takes_text valid.equality) hreference rfl⟩,
      hreads 6 (Slot.takes_text valid.substring) hreference rfl⟩,
      hreads 5 (Slot.takes_text valid.ordering) hreference rfl⟩,
      hreads 7 (Slot.takes_text valid.mem_sizedOid) hsyntax rfl⟩,
      hflag 8 _ rfl⟩, hflag 9 _ rfl⟩, hflag 10 _ rfl⟩,
      hreads 11 (Slot.takes_text definition.mem_usage) husage rfl⟩

/-- The description of an attribute type that has both rules is not one of the production. -/
theorem IsValid.either_of_describe_mem (valid : definition.IsValid)
    (member : definition.describe.toList ∈ attributeTypeDescription) :
    definition.ordering = none ∨ definition.substring = none := by
  rw [describe, String.toList_ofList, words_eq, spaced_clausal] at member
  have hclauses := of_mem_description valid.oid isBreak_close.trailing_append
    (starts_clauses_mul _) member
  have hfills := sublistForall₂_of_mem (by decide) (List.Subset.refl _) valid.readable hclauses
  have hkeywords : List.Sublist (definition.clauses.map Prod.fst)
      (attributeTypeSlots.map Slot.name) :=
    keywords_sublist hfills
  by_contra both
  obtain ⟨ordered, partial_⟩ := not_or.1 both
  obtain ⟨ordering, hordering⟩ := Option.ne_none_iff_exists'.1 ordered
  obtain ⟨substring, hsubstring⟩ := Option.ne_none_iff_exists'.1 partial_
  have hboth : List.Sublist [("SUBSTR", [word substring]), ("ORDERING", [word ordering])]
      definition.clauses := by
    rw [clauses, hordering, hsubstring]
    simp only [List.append_assoc]
    have hpair (rest : List Clause) : List.Sublist
        [("SUBSTR", [word substring]), ("ORDERING", [word ordering])]
        (Clause.text "SUBSTR" (some substring) ++
          (Clause.text "ORDERING" (some ordering) ++ rest)) :=
      ((List.nil_sublist rest).cons_cons _).cons_cons _
    exact .cons _ ((((hpair _).trans (List.sublist_append_right _ _)).trans
      (List.sublist_append_right _ _)).trans (List.sublist_append_right _ _))
  have hwrong : ¬ List.Sublist ["SUBSTR", "ORDERING"] (attributeTypeSlots.map Slot.name) := by
    decide
  exact hwrong ((hboth.map Prod.fst).trans hkeywords)

end AttributeType

namespace LdapSyntax

variable {definition : LdapSyntax}

/-- The production of a syntax, with its own identifier and the escaped form of its own
description. -/
def production (definition : LdapSyntax) : Language Char :=
  sign '(' * (wsp * ({definition.oid.toList} * (sp * (keyword "DESC" *
    (sp * (quoted (escapedText definition.description.toList) * ending))))))

/-- The description of a syntax as a text. -/
theorem toList_describe (definition : LdapSyntax) : definition.describe.toList =
    '(' :: ' ' :: (definition.oid.toList ++ ([' '] ++ ("DESC".toList ++
      ([' '] ++ (singleQuoted definition.description ++ [' ', ')']))))) := by
  rw [describe, String.toList_ofList, words, spaced_cons]
  simp only [trailing_cons]
  rfl

/-- A syntax describes itself with quotes and backslashes escaped only if there are none. -/
theorem describe_mem_iff (valid : definition.oid.toList ∈ numericOid) :
    definition.describe.toList ∈ definition.production ↔
      ∀ c ∈ definition.description.toList, c ≠ '\'' ∧ c ≠ '\\' := by
  rw [toList_describe]
  constructor
  · intro member c within
    by_contra special
    have hspecial : c = '\'' ∨ c = '\\' := by
      rcases not_and_or.1 special with quote | backslash
      · exact Or.inl (not_not.1 quote)
      · exact Or.inr (not_not.1 backslash)
    have hstarts : Starts (· ≠ ' ') ({definition.oid.toList} : Language Char) := by
      rintro - rfl
      exact (starts_numericOid.mono fun c digit => (isTight_of_isDigit digit).1) _ valid
    have hbody := mem_of_space_cons valid hstarts.mul (of_cons_mem_sign_mul member)
    obtain ⟨-, rfl, rest, hrest, same⟩ := Language.mem_mul.1 hbody
    rw [List.append_cancel_left same] at hrest
    -- An escaped form is longer than the text, and there is no room for it.
    have hsp : AtLeast 1 sp := AtLeast.sign.mul .any
    have hending : AtLeast 1 ending := (AtLeast.any.mul (AtLeast.any.mul .sign)).mono (by decide)
    have hquoted : AtLeast (1 + (definition.description.toList.length + 2 + 1))
        (quoted (escapedText definition.description.toList)) :=
      AtLeast.sign.mul ((atLeast_escapedText_of_special ⟨c, within, hspecial⟩).mul .sign)
    have hbound := hsp.mul ((AtLeast.keyword "DESC").mul (hsp.mul (hquoted.mul hending))) _ hrest
    simp only [List.length_append, singleQuoted, List.length_cons, List.length_nil,
      String.length_toList] at hbound
    omega
  · intro plain
    have hquoted : singleQuoted definition.description ∈
        quoted (escapedText definition.description.toList) :=
      cons_mem_sign_mul (Language.append_mem_mul (self_mem_escapedText plain) (mem_sign.2 rfl))
    have hdescription := Language.append_mem_mul space_mem_sp (Language.append_mem_mul
      (self_mem_keyword "DESC") (Language.append_mem_mul space_mem_sp
        (Language.append_mem_mul hquoted close_mem_ending)))
    have hbody := Language.append_mem_mul space_mem_wsp
      (Language.append_mem_mul (Set.mem_singleton definition.oid.toList) hdescription)
    exact cons_mem_sign_mul hbody

/-- The production with the texts of a syntax is a part of the production of all of them. -/
theorem production_le (valid : definition.oid.toList ∈ numericOid)
    (described : definition.description ≠ "") : definition.production ≤ syntaxDescription := by
  have htext : escapedText definition.description.toList ≤ textString :=
    escapedText_le (mt String.toList_eq_nil_iff.1 described)
  have hquoted : quoted (escapedText definition.description.toList) ≤ quoted textString :=
    mul_le_mul' le_rfl (mul_le_mul' htext le_rfl)
  have hoid : ({definition.oid.toList} : Language Char) ≤ numericOid := by
    rintro - rfl
    exact valid
  let slot : Slot := .mk "DESC" (some (quoted textString))
  have hrest : sp * (keyword "DESC" * (sp *
      (quoted (escapedText definition.description.toList) * ending))) ≤
      Production.clauses [slot.language] * ending := calc
    _ ≤ sp * (keyword "DESC" * (sp * (quoted textString * ending))) :=
      mul_le_mul' le_rfl (mul_le_mul' le_rfl (mul_le_mul' le_rfl (mul_le_mul' hquoted le_rfl)))
    _ = sp * slot.language * ending := by
      simp only [slot, Slot.language, Slot.behind, Option.elim_some, mul_assoc]
    _ ≤ optional (sp * slot.language) * ending :=
      mul_le_mul' (fun _ member => mem_optional.2 (Or.inr member)) le_rfl
    _ = Production.clauses [slot.language] * ending := by
      rw [Production.clauses, Production.clauses, mul_one]
  exact mul_le_mul' le_rfl (mul_le_mul' le_rfl (mul_le_mul' hoid hrest))

end LdapSyntax

/-- Descriptions of definitions whose identifiers, names and references are as the grammar has them.
That of a syntax is the production with its own texts exactly if it has no quote or backslash to
escape, and is then a syntax description. Matching rules and object classes are always described by
a text of their production, and an attribute type exactly if it does not have both an ordering and a
substring rule, which are described in the wrong order. -/
theorem descriptions_conform (text : LdapSyntax) (rule : MatchingRule) (type : AttributeType)
    (definition : ObjectClass) :
    (text.oid.toList ∈ numericOid → text.description ≠ "" →
      text.production ≤ syntaxDescription ∧
        (text.describe.toList ∈ text.production ↔
          ∀ c ∈ text.description.toList, c ≠ '\'' ∧ c ≠ '\\')) ∧
    (rule.IsValid → rule.describe.toList ∈ matchingRuleDescription) ∧
    (type.IsValid → (type.describe.toList ∈ attributeTypeDescription ↔
      type.ordering = none ∨ type.substring = none)) ∧
    (definition.IsValid → definition.describe.toList ∈ objectClassDescription) := by
  refine ⟨fun valid described => ?_, fun valid => valid.describe_mem,
    fun valid => ⟨valid.either_of_describe_mem, valid.describe_mem⟩,
    fun valid => valid.describe_mem⟩
  exact ⟨LdapSyntax.production_le valid described, LdapSyntax.describe_mem_iff valid⟩

/-- An attribute type that has a substring rule alone is described by a text of its production, as
are a syntax, a matching rule and an object class; with an ordering rule too, it is not. -/
theorem descriptions_conform_unordered :
    let text : LdapSyntax := ⟨"1.2", "a"⟩
    let rule : MatchingRule := ⟨"1.3", "same", ["equal"], "1.2"⟩
    let unordered : AttributeType := ⟨"1.4", "title", ["rank"], some "name", some "1.2",
      some "same", some "equal", none, .singleValue, .dsaOperation⟩
    let ordered : AttributeType := { unordered with ordering := some "1.3" }
    let unit : ObjectClass := ⟨"1.5", "unit", [], none, .auxiliary, ["title"], ["rank", "name"]⟩
    (text.oid.toList ∈ numericOid ∧ text.description ≠ "" ∧
      text.describe.toList ∈ syntaxDescription) ∧
    (rule.IsValid ∧ rule.describe.toList ∈ matchingRuleDescription) ∧
    (unordered.IsValid ∧ unordered.describe.toList ∈ attributeTypeDescription) ∧
    (ordered.IsValid ∧ ordered.describe.toList ∉ attributeTypeDescription) ∧
    unit.IsValid ∧ unit.describe.toList ∈ objectClassDescription := by
  intro text rule unordered ordered unit
  obtain ⟨htext, hmatching, htype, hclass⟩ := descriptions_conform text rule unordered unit
  obtain ⟨-, -, hboth, -⟩ := descriptions_conform text rule ordered unit
  have hoid : text.oid.toList ∈ numericOid := by decide
  have hdescribed : text.description ≠ "" := by decide
  have hrule : rule.IsValid := by decide
  have hunordered : unordered.IsValid := by decide
  have hordered : ordered.IsValid := by decide
  have hunit : unit.IsValid := by decide
  have hplain : ∀ c ∈ text.description.toList, c ≠ '\'' ∧ c ≠ '\\' := by
    have hletters : text.description.toList = ['a'] := by decide
    rw [hletters]
    exact List.forall_mem_singleton.2 (by decide)
  obtain ⟨within, plain⟩ := htext hoid hdescribed
  refine ⟨⟨hoid, hdescribed, within (plain.2 hplain)⟩, ⟨hrule, hmatching hrule⟩,
    ⟨hunordered, (htype hunordered).2 (Or.inl rfl)⟩, ⟨hordered, fun member => ?_⟩, hunit,
    hclass hunit⟩
  rcases (hboth hordered).1 member with unordered | whole
  · cases unordered
  · cases whole

/-- The standard attribute type for qualifiers of names has both rules, and a syntax may describe
itself with an apostrophe. -/
theorem dnQualifier_not_conform :
    let qualifier : AttributeType :=
      { oid := "2.5.4.46"
        name := "dnQualifier"
        aliases := []
        superior := none
        syntaxOid := some "1.3.6.1.4.1.1466.115.121.1.44"
        equality := some "caseIgnoreMatch"
        substring := some "caseIgnoreSubstringsMatch"
        ordering := some "caseIgnoreOrderingMatch"
        flags := .none
        usage := .userApplications }
    let apostrophe : LdapSyntax := ⟨"1.2", "it's"⟩
    (qualifier ∈ Catalog.standard.attributeTypes ∧ qualifier.IsValid ∧
      qualifier.describe.toList ∉ attributeTypeDescription) ∧
    (apostrophe.oid.toList ∈ numericOid ∧ apostrophe.description ≠ "" ∧
      apostrophe.describe.toList ∉ apostrophe.production) := by
  intro qualifier apostrophe
  have hvalid : qualifier.IsValid := by decide
  have hdigits : apostrophe.oid.toList ∈ numericOid := by decide
  refine ⟨⟨by decide +kernel, hvalid, fun member => ?_⟩, hdigits, by decide, fun member => ?_⟩
  · rcases hvalid.either_of_describe_mem member with unordered | whole
    · cases unordered
    · cases whole
  · have hquote := (LdapSyntax.describe_mem_iff hdigits).1 member '\'' (by decide)
    exact hquote.1 rfl

end DirectoryService
