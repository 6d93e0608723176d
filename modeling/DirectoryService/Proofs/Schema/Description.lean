import DirectoryService.Proofs.Text.Split
import DirectoryService.Schema.Description

/-!
# Descriptions tell definitions apart

Between its object identifier and its end, a description is a list of clauses: keywords, each with
the words that belong to it. How many words belong to a keyword is told by the keyword or by the
words themselves, so the clauses can be found again, although their words may be keywords too. Two
definitions with the same description therefore agree in everything that is described.
-/

namespace DirectoryService

/-- Words behind a space each. -/
def trailing (words : List (List Char)) : List Char := words.flatMap (' ' :: ·)

theorem trailing_append (first second : List (List Char)) :
    trailing (first ++ second) = trailing first ++ trailing second := List.flatMap_append

theorem trailing_cons (word : List Char) (words : List (List Char)) :
    trailing (word :: words) = ' ' :: (word ++ trailing words) := rfl

/-- All words but the first one stand behind a space. -/
theorem spaced_cons (word : List Char) (words : List (List Char)) :
    spaced (word :: words) = word ++ trailing words := by
  induction words generalizing word with
  | nil =>
    rw [spaced, trailing, List.flatMap_nil, List.append_nil]
  | cons next words ih =>
    rw [spaced, ih, trailing_cons]

/-- Words without spaces are found again. -/
theorem trailing_inj {first second : List (List Char)} (hfirst : ∀ word ∈ first, ' ' ∉ word)
    (hsecond : ∀ word ∈ second, ' ' ∉ word) (same : trailing first = trailing second) :
    first = second := by
  induction first generalizing second with
  | nil =>
    cases second with
    | nil => rfl
    | cons word second => cases same
  | cons word first ih =>
    cases second with
    | nil => cases same
    | cons other second =>
      obtain ⟨hword, hfirst⟩ := List.forall_mem_cons.1 hfirst
      obtain ⟨hother, hsecond⟩ := List.forall_mem_cons.1 hsecond
      have hbreak (words : List (List Char)) : ∀ c ∈ (trailing words).head?, ¬ c ≠ ' ' := by
        intro c head
        cases words with
        | nil => cases head
        | cons word words => exact not_not.2 (Option.some.inj head).symm
      obtain ⟨hwords, hrest⟩ := append_inj_of_kind (fun c => c ≠ ' ')
        (fun c member => ne_of_mem_of_not_mem member hword)
        (fun c member => ne_of_mem_of_not_mem member hother) (hbreak first) (hbreak second)
        (List.cons.inj same).2
      rw [hwords, ih hfirst hsecond hrest]

/-- A list of words without spaces that is not empty is told by its text. -/
theorem spaced_cons_inj {word other : List Char} {first second : List (List Char)}
    (hfirst : ∀ one ∈ word :: first, ' ' ∉ one) (hsecond : ∀ one ∈ other :: second, ' ' ∉ one)
    (same : spaced (word :: first) = spaced (other :: second)) :
    word :: first = other :: second := by
  refine trailing_inj hfirst hsecond ?_
  rw [trailing_cons, trailing_cons, ← spaced_cons, ← spaced_cons, same]

/-- Equal words are equal texts. -/
theorem word_inj {first second : String} : word first = word second ↔ first = second :=
  String.toList_inj

theorem singleQuoted_inj {first second : String} :
    singleQuoted first = singleQuoted second ↔ first = second := by
  rw [singleQuoted, singleQuoted, List.append_left_inj, List.cons_inj_right, String.toList_inj]

/-- A quoted text is not a parenthesis. -/
theorem singleQuoted_ne {text other : String} (plain : other.toList.head? ≠ some '\'') :
    singleQuoted text ≠ word other := by
  intro same
  have hhead := congrArg List.head? same
  exact plain hhead.symm

/-- How the words behind a keyword end. -/
inductive ClauseShape where
  /-- There are none. -/
  | alone
  /-- There is one. -/
  | one
  /-- They are the names of a definition. -/
  | names
  /-- They are a list of attributes, of which there is one at least. -/
  | list
deriving DecidableEq

/-- Words behind a keyword are of a shape. -/
def ClauseShape.Fits (words : List (List Char)) : ClauseShape → Prop
  | .alone => words = []
  | .one => ∃ text, words = [word text]
  | .names => ∃ name aliases, words = nameWords name aliases
  | .list => ∃ (first : String) (rest : List String), ")" ∉ rest ∧ words = listWords (first :: rest)

/-- Several names stand between parentheses. -/
theorem nameWords_cons (name first : String) (aliases : List String) :
    nameWords name (first :: aliases) =
      word "(" :: ((name :: first :: aliases).map singleQuoted ++ [word ")"]) := rfl

/-- The names of a definition are found again in front of anything. -/
theorem nameWords_append_inj {name other : String} {aliases others : List String}
    {front back : List (List Char)}
    (same : nameWords name aliases ++ front = nameWords other others ++ back) :
    name = other ∧ aliases = others := by
  have hopen (text : String) : singleQuoted text ≠ word "(" := singleQuoted_ne (by decide)
  have hclose (names : List String) : word ")" ∉ names.map singleQuoted := by
    intro member
    obtain ⟨text, -, hquoted⟩ := List.mem_map.1 member
    exact singleQuoted_ne (by decide) hquoted
  -- One name starts with a quote, several start with a parenthesis.
  cases aliases with
  | nil =>
    cases others with
    | nil =>
      have hhead := (List.cons.inj same).1
      exact ⟨singleQuoted_inj.1 hhead, rfl⟩
    | cons second others => exact absurd (List.cons.inj same).1 (hopen name)
  | cons first aliases =>
    cases others with
    | nil => exact absurd (List.cons.inj same).1.symm (hopen other)
    | cons second others =>
      rw [nameWords_cons, nameWords_cons, List.cons_append, List.cons_append] at same
      have hnames := (List.cons.inj same).2
      rw [List.append_assoc, List.append_assoc, List.singleton_append, List.singleton_append]
        at hnames
      have hquoted := (append_cons_inj (hclose _) (hclose _) hnames).1
      have hinjective : Function.Injective singleQuoted := fun _ _ => singleQuoted_inj.1
      exact List.cons.inj (List.map_injective_iff.2 hinjective hquoted)

/-- Attributes behind a dollar sign each are found again. -/
theorem flatMap_dollar_inj {first second : List String}
    (same : first.flatMap (fun name => [word "$", word name]) =
      second.flatMap fun name => [word "$", word name]) : first = second := by
  induction first generalizing second with
  | nil =>
    cases second with
    | nil => rfl
    | cons other second => cases same
  | cons name first ih =>
    cases second with
    | nil => cases same
    | cons other second =>
      obtain ⟨hname, hrest⟩ := List.cons.inj (List.cons.inj same).2
      rw [word_inj.1 hname, ih hrest]

/-- A list of attributes stands between parentheses. -/
theorem listWords_cons (first : String) (rest : List String) :
    listWords (first :: rest) = word "(" :: word first ::
      (rest.flatMap (fun name => [word "$", word name]) ++ [word ")"]) := rfl

/-- A list of attributes is found again in front of anything. -/
theorem listWords_append_inj {first second : String} {rest others : List String}
    {front back : List (List Char)} (hrest : ")" ∉ rest) (hothers : ")" ∉ others)
    (same : listWords (first :: rest) ++ front = listWords (second :: others) ++ back) :
    first :: rest = second :: others := by
  have hclose (names : List String) (plain : ")" ∉ names) :
      word ")" ∉ names.flatMap fun name => [word "$", word name] := by
    intro member
    obtain ⟨name, listed, either⟩ := List.mem_flatMap.1 member
    rcases List.mem_cons.1 either with sign | text
    · exact absurd sign (by decide)
    · exact plain (word_inj.1 (List.mem_singleton.1 text) ▸ listed)
  rw [listWords_cons, listWords_cons] at same
  obtain ⟨hname, hbehind⟩ := List.cons.inj (List.cons.inj same).2
  simp only [List.append_eq, List.append_assoc, List.singleton_append] at hbehind
  have hitems := (append_cons_inj (hclose rest hrest) (hclose others hothers) hbehind).1
  rw [word_inj.1 hname, flatMap_dollar_inj hitems]

/-- Words of one shape are found again in front of anything. -/
theorem ClauseShape.append_inj {shape : ClauseShape} {first second front back : List (List Char)}
    (hfirst : shape.Fits first) (hsecond : shape.Fits second)
    (same : first ++ front = second ++ back) : first = second ∧ front = back := by
  have hwords : first = second := by
    cases shape with
    | alone => exact hfirst.trans hsecond.symm
    | one =>
      obtain ⟨text, rfl⟩ := hfirst
      obtain ⟨other, rfl⟩ := hsecond
      rw [(List.cons.inj same).1]
    | names =>
      obtain ⟨name, aliases, rfl⟩ := hfirst
      obtain ⟨other, others, rfl⟩ := hsecond
      obtain ⟨rfl, rfl⟩ := nameWords_append_inj same
      rfl
    | list =>
      obtain ⟨name, names, plain, rfl⟩ := hfirst
      obtain ⟨other, others, unclosed, rfl⟩ := hsecond
      rw [listWords_append_inj plain unclosed same]
  rw [hwords] at same
  exact ⟨hwords, List.append_cancel_left same⟩

/-- A keyword with the words behind it. -/
abbrev Clause := String × List (List Char)

/-- The words of clauses. -/
def clauseWords (clauses : List Clause) : List (List Char) :=
  clauses.flatMap fun clause => word clause.1 :: clause.2

theorem clauseWords_append (first second : List Clause) :
    clauseWords (first ++ second) = clauseWords first ++ clauseWords second := List.flatMap_append

/-- The shape of the words behind a keyword. -/
def shapeOf (keyword : String) : ClauseShape :=
  if keyword = "NAME" then .names
  else if keyword ∈ ["MUST", "MAY"] then .list
  else if keyword ∈ ["SUP", "EQUALITY", "SUBSTR", "ORDERING", "SYNTAX", "USAGE"] then .one
  else .alone

/-- Behind every keyword stand words of its shape, and no keyword is the end of a description. -/
def AreShaped (clauses : List Clause) : Prop :=
  ∀ clause ∈ clauses, clause.1 ≠ ")" ∧ (shapeOf clause.1).Fits clause.2

theorem areShaped_cons {keyword : String} {words : List (List Char)} {clauses : List Clause}
    (known : keyword ≠ ")") (fits : (shapeOf keyword).Fits words) (rest : AreShaped clauses) :
    AreShaped ((keyword, words) :: clauses) := List.forall_mem_cons.2 ⟨⟨known, fits⟩, rest⟩

theorem areShaped_nil : AreShaped [] := List.forall_mem_nil _

theorem areShaped_append {first second : List Clause} :
    AreShaped (first ++ second) ↔ AreShaped first ∧ AreShaped second := List.forall_mem_append

/-- Clauses are found again in front of the end of a description. -/
theorem clauseWords_inj {first second : List Clause} (hfirst : AreShaped first)
    (hsecond : AreShaped second)
    (same : clauseWords first ++ [word ")"] = clauseWords second ++ [word ")"]) :
    first = second := by
  induction first generalizing second with
  | nil =>
    cases second with
    | nil => rfl
    | cons other second =>
      obtain ⟨open_end, -⟩ := hsecond other List.mem_cons_self
      exact absurd (word_inj.1 (List.cons.inj same).1).symm open_end
  | cons clause first ih =>
    obtain ⟨open_end, fits⟩ := hfirst clause List.mem_cons_self
    cases second with
    | nil => exact absurd (word_inj.1 (List.cons.inj same).1) open_end
    | cons other second =>
      obtain ⟨-, fits_other⟩ := hsecond other List.mem_cons_self
      simp only [clauseWords, List.flatMap_cons, List.cons_append, List.append_assoc] at same
      obtain ⟨hkeyword, hwords⟩ := List.cons.inj same
      have hkeyword := word_inj.1 hkeyword
      rw [← hkeyword] at fits_other
      obtain ⟨hargument, hrest⟩ := ClauseShape.append_inj fits fits_other hwords
      have hclauses := ih (fun one member => hfirst one (List.mem_cons_of_mem _ member))
        (fun one member => hsecond one (List.mem_cons_of_mem _ member)) hrest
      rw [hclauses, Prod.ext hkeyword hargument]

namespace Clause

/-- A clause with a text, if there is one. -/
def text (keyword : String) (argument : Option String) : List Clause :=
  (argument.map fun text => (keyword, [word text])).toList

/-- A clause without words, if it applies. -/
def flag (applies : Bool) (keyword : String) : List Clause :=
  if applies then [(keyword, [])] else []

/-- A clause with a list of attributes, if there are any. -/
def list (keyword : String) (attributes : List String) : List Clause :=
  if attributes.isEmpty then [] else [(keyword, listWords attributes)]

variable {keyword name : String} {argument : Option String} {applies : Bool}
  {attributes : List String}

theorem text_none : text keyword none = [] := rfl

theorem words_text : clauseWords (text keyword argument) = clause keyword argument := by
  cases argument <;> rfl

theorem words_flag : clauseWords (flag applies keyword) = keywordIf applies keyword := by
  cases applies <;> rfl

theorem words_list : clauseWords (list keyword attributes) = listClause keyword attributes := by
  rw [list, listClause]
  split
  · rfl
  · exact List.append_nil _

@[simp] theorem lookup_cons (words : List (List Char)) (rest : List Clause) :
    List.lookup name ((keyword, words) :: rest) =
      if name = keyword then some words else rest.lookup name := by
  rw [List.lookup_cons]
  by_cases same : name = keyword
  · rw [same, beq_self_eq_true, if_pos rfl]
  · rw [beq_false_of_ne same, if_neg same]

@[simp] theorem lookup_text : (text keyword argument).lookup name =
    if name = keyword then argument.map fun text => [word text] else none := by
  cases argument with
  | none => rw [Option.map_none, ite_self]; rfl
  | some given => exact lookup_cons _ []

@[simp] theorem lookup_flag : (flag applies keyword).lookup name =
    if name = keyword ∧ applies = true then some [] else none := by
  cases applies with
  | false => simp [flag]
  | true => simp [flag]

@[simp] theorem lookup_list : (list keyword attributes).lookup name =
    if name = keyword ∧ attributes ≠ [] then some (listWords attributes) else none := by
  cases attributes with
  | nil => simp [list]
  | cons first rest => simp [list]

/-- Clauses with a text are shaped. -/
theorem areShaped_text (known : keyword ≠ ")" ∧ shapeOf keyword = .one) :
    AreShaped (text keyword argument) := by
  intro clause member
  rw [text, Option.mem_toList, Option.map_eq_some_iff] at member
  obtain ⟨given, -, rfl⟩ := member
  refine ⟨known.1, ?_⟩
  rw [known.2]
  exact ⟨given, rfl⟩

/-- Clauses without words are shaped. -/
theorem areShaped_flag (known : keyword ≠ ")" ∧ shapeOf keyword = .alone) :
    AreShaped (flag applies keyword) := by
  intro clause member
  rw [flag, List.mem_ite_nil_right, List.mem_singleton] at member
  obtain ⟨-, rfl⟩ := member
  refine ⟨known.1, ?_⟩
  rw [known.2]
  rfl

/-- Clauses with a list of attributes are shaped, unless an attribute could be taken for its end. -/
theorem areShaped_list (known : keyword ≠ ")" ∧ shapeOf keyword = .list)
    (plain : ")" ∉ attributes) : AreShaped (list keyword attributes) := by
  intro clause member
  cases attributes with
  | nil => cases member
  | cons first rest =>
    obtain rfl := List.mem_singleton.1 member
    refine ⟨known.1, ?_⟩
    rw [known.2]
    exact ⟨first, rest, mt (List.mem_cons_of_mem first) plain, rfl⟩

end Clause

/-- The usage of an attribute type as it is described: that of users goes without saying. -/
def AttributeUsage.shown (usage : AttributeUsage) : Option String :=
  if usage = .userApplications then none else some usage.keyword

theorem AttributeUsage.shown_injective : Function.Injective AttributeUsage.shown := by
  intro first second
  cases first <;> cases second <;> decide

/-- The clauses of an attribute type. -/
def AttributeType.clauses (definition : AttributeType) : List Clause :=
  ("NAME", nameWords definition.name definition.aliases) ::
    (Clause.flag (definition.flags.contains .obsolete) "OBSOLETE" ++
      Clause.text "SUP" definition.superior ++ Clause.text "EQUALITY" definition.equality ++
      Clause.text "SUBSTR" definition.substring ++ Clause.text "ORDERING" definition.ordering ++
      Clause.text "SYNTAX" definition.syntaxOid ++
      Clause.flag (definition.flags.contains .singleValue) "SINGLE-VALUE" ++
      Clause.flag (definition.flags.contains .collective) "COLLECTIVE" ++
      Clause.flag (definition.flags.contains .noUserModification) "NO-USER-MODIFICATION" ++
      Clause.text "USAGE" definition.usage.shown)

/-- The clauses of an object class. -/
def ObjectClass.clauses (definition : ObjectClass) : List Clause :=
  ("NAME", nameWords definition.name definition.aliases) ::
    (Clause.text "SUP" definition.effectiveSuperior ++ [(definition.kind.keyword, [])] ++
      Clause.list "MUST" definition.must ++ Clause.list "MAY" definition.may)

/-- The clauses of a matching rule. -/
def MatchingRule.clauses (definition : MatchingRule) : List Clause :=
  [("NAME", nameWords definition.name definition.aliases),
    ("SYNTAX", [word definition.syntaxOid])]

/-- A description made of clauses: an object identifier and what follows it, between parentheses. -/
def clausal (oid : String) (clauses : List Clause) : List (List Char) :=
  word "(" :: word oid :: (clauseWords clauses ++ [word ")"])

theorem AttributeType.words_eq (definition : AttributeType) :
    definition.words = clausal definition.oid definition.clauses := by
  have husage : clause "USAGE" definition.usage.shown =
      if definition.usage = .userApplications then []
      else [word "USAGE", word definition.usage.keyword] := by
    rw [AttributeUsage.shown]
    split <;> rfl
  rw [clausal, clauses, clauseWords, List.flatMap_cons, ← clauseWords]
  simp only [clauseWords_append, Clause.words_text, Clause.words_flag, husage]
  rw [words]
  simp only [List.append_assoc, List.cons_append, List.nil_append]

theorem ObjectClass.words_eq (definition : ObjectClass) :
    definition.words = clausal definition.oid definition.clauses := by
  rw [clausal, clauses, clauseWords, List.flatMap_cons, ← clauseWords]
  have hkind : clauseWords [(definition.kind.keyword, [])] = [word definition.kind.keyword] := rfl
  simp only [clauseWords_append, Clause.words_text, Clause.words_list, hkind]
  rw [words]
  simp only [List.append_assoc, List.cons_append, List.nil_append]

theorem MatchingRule.words_eq (definition : MatchingRule) :
    definition.words = clausal definition.oid definition.clauses := by
  rw [clausal, clauses, clauseWords, List.flatMap_cons, List.flatMap_cons, List.flatMap_nil, words]
  simp only [List.append_assoc, List.cons_append, List.nil_append]

/-- Every clause of an attribute type is shaped. -/
theorem AttributeType.areShaped_clauses (definition : AttributeType) :
    AreShaped definition.clauses := by
  refine areShaped_cons (by decide) ⟨_, _, rfl⟩ ?_
  simp only [areShaped_append]
  exact ⟨⟨⟨⟨⟨⟨⟨⟨⟨Clause.areShaped_flag (by decide), Clause.areShaped_text (by decide)⟩,
    Clause.areShaped_text (by decide)⟩, Clause.areShaped_text (by decide)⟩,
    Clause.areShaped_text (by decide)⟩, Clause.areShaped_text (by decide)⟩,
    Clause.areShaped_flag (by decide)⟩, Clause.areShaped_flag (by decide)⟩,
    Clause.areShaped_flag (by decide)⟩, Clause.areShaped_text (by decide)⟩

/-- Every clause of an object class is shaped, unless an attribute could be taken for the end of a
list. -/
theorem ObjectClass.areShaped_clauses {definition : ObjectClass} (must : ")" ∉ definition.must)
    (may : ")" ∉ definition.may) : AreShaped definition.clauses := by
  have hkind : AreShaped [(definition.kind.keyword, [])] := by
    cases definition.kind <;> exact areShaped_cons (by decide) rfl areShaped_nil
  refine areShaped_cons (by decide) ⟨_, _, rfl⟩ ?_
  simp only [areShaped_append]
  exact ⟨⟨⟨Clause.areShaped_text (by decide), hkind⟩, Clause.areShaped_list (by decide) must⟩,
    Clause.areShaped_list (by decide) may⟩

/-- Every clause of a matching rule is shaped. -/
theorem MatchingRule.areShaped_clauses (definition : MatchingRule) :
    AreShaped definition.clauses :=
  areShaped_cons (by decide) ⟨_, _, rfl⟩ (areShaped_cons (by decide) ⟨_, rfl⟩ areShaped_nil)

/-- The descriptions of two definitions are the same only if object identifiers and clauses are. -/
theorem clausal_inj {first second : String} {clauses others : List Clause}
    (hclauses : AreShaped clauses) (hothers : AreShaped others)
    (hfirst : ∀ one ∈ clausal first clauses, ' ' ∉ one)
    (hsecond : ∀ one ∈ clausal second others, ' ' ∉ one)
    (same : spaced (clausal first clauses) = spaced (clausal second others)) :
    first = second ∧ clauses = others := by
  have hwords := spaced_cons_inj hfirst hsecond same
  obtain ⟨hoid, hrest⟩ := List.cons.inj (List.cons.inj hwords).2
  exact ⟨word_inj.1 hoid, clauseWords_inj hclauses hothers hrest⟩

/-- A text without spaces that no list of attributes ends with. -/
def IsPlain (text : String) : Prop := ' ' ∉ text.toList ∧ ')' ∉ text.toList

instance (text : String) : Decidable (IsPlain text) :=
  inferInstanceAs (Decidable (' ' ∉ text.toList ∧ ')' ∉ text.toList))

/-- A plain text is not the end of a list. -/
theorem not_mem_of_isPlain {texts : List String} (plain : ∀ text ∈ texts, IsPlain text) :
    ")" ∉ texts := by
  intro member
  obtain ⟨-, unclosed⟩ := plain ")" member
  exact unclosed (by decide)

/-- No word has a space. -/
def Unspaced (words : List (List Char)) : Prop := ∀ word ∈ words, ' ' ∉ word

theorem unspaced_cons {word : List Char} {words : List (List Char)} :
    Unspaced (word :: words) ↔ ' ' ∉ word ∧ Unspaced words := List.forall_mem_cons

theorem unspaced_append {first second : List (List Char)} :
    Unspaced (first ++ second) ↔ Unspaced first ∧ Unspaced second := List.forall_mem_append

theorem unspaced_nil : Unspaced [] := List.forall_mem_nil _

theorem unspaced_nameWords {name : String} {aliases : List String}
    (plain : ∀ text ∈ name :: aliases, IsPlain text) : Unspaced (nameWords name aliases) := by
  have hquoted (text : String) (unspaced : IsPlain text) : ' ' ∉ singleQuoted text := by
    simp only [singleQuoted, List.mem_cons, List.mem_append, List.not_mem_nil]
    exact fun member => by
      rcases member with (sign | member) | sign | member
      · exact absurd sign (by decide)
      · exact unspaced.1 member
      · exact absurd sign (by decide)
      · exact member
  cases aliases with
  | nil => exact unspaced_cons.2 ⟨hquoted name (plain name List.mem_cons_self), unspaced_nil⟩
  | cons first aliases =>
    rw [nameWords_cons]
    refine unspaced_cons.2 ⟨by decide, unspaced_append.2 ⟨fun one member => ?_, ?_⟩⟩
    · obtain ⟨text, listed, rfl⟩ := List.mem_map.1 member
      exact hquoted text (plain text listed)
    · exact unspaced_cons.2 ⟨by decide, unspaced_nil⟩

theorem Clause.unspaced_text {keyword : String} {argument : Option String}
    (known : ' ' ∉ word keyword) (plain : ∀ text ∈ argument.toList, IsPlain text) :
    Unspaced (clauseWords (Clause.text keyword argument)) := by
  cases argument with
  | none => exact unspaced_nil
  | some given =>
    have hgiven := plain given (Option.mem_toList.2 rfl)
    exact unspaced_cons.2 ⟨known, unspaced_cons.2 ⟨hgiven.1, unspaced_nil⟩⟩

theorem Clause.unspaced_flag {keyword : String} {applies : Bool} (known : ' ' ∉ word keyword) :
    Unspaced (clauseWords (Clause.flag applies keyword)) := by
  cases applies with
  | false => exact unspaced_nil
  | true => exact unspaced_cons.2 ⟨known, unspaced_nil⟩

theorem Clause.unspaced_list {keyword : String} {attributes : List String}
    (known : ' ' ∉ word keyword) (plain : ∀ text ∈ attributes, IsPlain text) :
    Unspaced (clauseWords (Clause.list keyword attributes)) := by
  cases attributes with
  | nil => exact unspaced_nil
  | cons first rest =>
    obtain ⟨hfirst, hrest⟩ := List.forall_mem_cons.1 plain
    rw [Clause.words_list, listClause, List.isEmpty_cons, if_neg Bool.false_ne_true, listWords_cons]
    refine unspaced_cons.2 ⟨known, unspaced_cons.2 ⟨by decide, unspaced_cons.2 ⟨hfirst.1,
      unspaced_append.2 ⟨fun one member => ?_, unspaced_cons.2 ⟨by decide, unspaced_nil⟩⟩⟩⟩⟩
    obtain ⟨text, listed, either⟩ := List.mem_flatMap.1 member
    rcases List.mem_cons.1 either with rfl | alone
    · decide
    · rw [List.mem_singleton.1 alone]
      exact (hrest text listed).1

/-- A description made of clauses has no word with a space if its parts have none. -/
theorem unspaced_clausal {oid : String} {clauses : List Clause} (plain : IsPlain oid)
    (unspaced : Unspaced (clauseWords clauses)) : Unspaced (clausal oid clauses) :=
  unspaced_cons.2 ⟨by decide, unspaced_cons.2 ⟨plain.1, unspaced_append.2 ⟨unspaced,
    unspaced_cons.2 ⟨by decide, unspaced_nil⟩⟩⟩⟩

/-- The texts of an attribute type that stand in its description. -/
def AttributeType.texts (definition : AttributeType) : List String :=
  definition.oid :: definition.names ++ definition.superior.toList ++
    definition.equality.toList ++ definition.substring.toList ++ definition.ordering.toList ++
    definition.syntaxOid.toList

/-- The texts of an object class that stand in its description. -/
def ObjectClass.texts (definition : ObjectClass) : List String :=
  definition.oid :: definition.names ++ definition.superior.toList ++ definition.must ++
    definition.may

/-- The texts of a matching rule. -/
def MatchingRule.texts (definition : MatchingRule) : List String :=
  definition.oid :: definition.name :: definition.aliases ++ [definition.syntaxOid]

/-- Attribute types do not differ in anything that is described. -/
structure AttributeType.Alike (first second : AttributeType) : Prop where
  oid_eq : first.oid = second.oid
  name_eq : first.name = second.name
  aliases_eq : first.aliases = second.aliases
  superior_eq : first.superior = second.superior
  equality_eq : first.equality = second.equality
  substring_eq : first.substring = second.substring
  ordering_eq : first.ordering = second.ordering
  syntaxOid_eq : first.syntaxOid = second.syntaxOid
  usage_eq : first.usage = second.usage
  /-- The four properties that have a keyword are the same; other bits may differ. -/
  flags_agree : ∀ flag ∈ [AttributeFlags.obsolete, .singleValue, .collective, .noUserModification],
    first.flags.contains flag = second.flags.contains flag

/-- Object classes do not differ in anything that is described. -/
structure ObjectClass.Alike (first second : ObjectClass) : Prop where
  oid_eq : first.oid = second.oid
  name_eq : first.name = second.name
  aliases_eq : first.aliases = second.aliases
  /-- A recorded superior `top` is the same as none. -/
  superior_eq : first.effectiveSuperior = second.effectiveSuperior
  kind_eq : first.kind = second.kind
  must_eq : first.must = second.must
  may_eq : first.may = second.may

/-- Texts behind a keyword are the same if their words are. -/
@[simp] theorem map_word_inj {first second : Option String} :
    first.map (fun text => [word text]) = second.map (fun text => [word text]) ↔
      first = second := by
  have hinjective : Function.Injective fun text : String => [word text] :=
    fun _ _ same => word_inj.1 (List.cons.inj same).1
  exact (Option.map_injective hinjective).eq_iff

/-- A keyword without words tells whether it applies. -/
theorem applies_inj {first second : Bool}
    (same : (if first = true then some ([] : List (List Char)) else none) =
      if second = true then some [] else none) : first = second := by
  cases first <;> cases second <;> first | rfl | cases same

/-- Lists behind a keyword are the same if their words are. -/
theorem listed_inj {first second : List String} (hfirst : ")" ∉ first) (hsecond : ")" ∉ second)
    (same : (if first = [] then none else some (listWords first)) =
      if second = [] then none else some (listWords second)) : first = second := by
  cases first with
  | nil =>
    cases second with
    | nil => rfl
    | cons other others => cases same
  | cons name rest =>
    cases second with
    | nil => cases same
    | cons other others =>
      have hwords := congrArg (· ++ [word ")"]) (Option.some.inj same)
      exact listWords_append_inj (mt (List.mem_cons_of_mem name) hfirst)
        (mt (List.mem_cons_of_mem other) hsecond) hwords

namespace AttributeType

variable {definition first second : AttributeType}

/-- The description of an attribute type has no word with a space if its texts have none. -/
theorem unspaced_words (plain : ∀ text ∈ definition.texts, IsPlain text) :
    Unspaced (clausal definition.oid definition.clauses) := by
  simp only [texts, names, List.forall_mem_append, List.forall_mem_cons] at plain
  obtain ⟨⟨⟨⟨⟨⟨hoid, hname, haliases⟩, hsuperior⟩, hequality⟩, hsubstring⟩, hordering⟩, hsyntax⟩ :=
    plain
  have husage : ∀ text ∈ definition.usage.shown.toList, IsPlain text := by
    cases definition.usage <;> decide +kernel
  have hnames := unspaced_nameWords (List.forall_mem_cons.2 ⟨hname, haliases⟩)
  refine unspaced_clausal hoid ?_
  rw [clauses, clauseWords, List.flatMap_cons, ← clauseWords]
  simp only [clauseWords_append, unspaced_append, unspaced_cons]
  exact ⟨⟨by decide, hnames⟩,
    ⟨⟨⟨⟨⟨⟨⟨⟨Clause.unspaced_flag (by decide), Clause.unspaced_text (by decide) hsuperior⟩,
    Clause.unspaced_text (by decide) hequality⟩, Clause.unspaced_text (by decide) hsubstring⟩,
    Clause.unspaced_text (by decide) hordering⟩, Clause.unspaced_text (by decide) hsyntax⟩,
    Clause.unspaced_flag (by decide)⟩, Clause.unspaced_flag (by decide)⟩,
    Clause.unspaced_flag (by decide)⟩, Clause.unspaced_text (by decide) husage⟩

/-- Attribute types with the same clauses are alike: each keyword finds its own clause. -/
theorem alike_of_clauses_eq (oids : first.oid = second.oid)
    (same : first.clauses = second.clauses) : first.Alike second := by
  have agrees (name : String) : first.clauses.lookup name = second.clauses.lookup name := by
    rw [same]
  have hnames : nameWords first.name first.aliases = nameWords second.name second.aliases := by
    simpa [clauses] using agrees "NAME"
  have hsuperior : first.superior = second.superior := by
    simpa [clauses, List.lookup_append] using agrees "SUP"
  have hequality : first.equality = second.equality := by
    simpa [clauses, List.lookup_append] using agrees "EQUALITY"
  have hsubstring : first.substring = second.substring := by
    simpa [clauses, List.lookup_append] using agrees "SUBSTR"
  have hordering : first.ordering = second.ordering := by
    simpa [clauses, List.lookup_append] using agrees "ORDERING"
  have hsyntax : first.syntaxOid = second.syntaxOid := by
    simpa [clauses, List.lookup_append] using agrees "SYNTAX"
  have husage : AttributeUsage.shown first.usage = AttributeUsage.shown second.usage := by
    simpa [clauses, List.lookup_append] using agrees "USAGE"
  have hobsolete : first.flags.contains .obsolete = second.flags.contains .obsolete :=
    applies_inj (by simpa [clauses, List.lookup_append] using agrees "OBSOLETE")
  have hsingle : first.flags.contains .singleValue = second.flags.contains .singleValue :=
    applies_inj (by simpa [clauses, List.lookup_append] using agrees "SINGLE-VALUE")
  have hcollective : first.flags.contains .collective = second.flags.contains .collective :=
    applies_inj (by simpa [clauses, List.lookup_append] using agrees "COLLECTIVE")
  have hfixed : first.flags.contains .noUserModification =
      second.flags.contains .noUserModification :=
    applies_inj (by simpa [clauses, List.lookup_append] using agrees "NO-USER-MODIFICATION")
  have hwords := nameWords_append_inj (congrArg (· ++ [word ")"]) hnames)
  refine ⟨oids, hwords.1, hwords.2, hsuperior, hequality, hsubstring, hordering, hsyntax,
    AttributeUsage.shown_injective husage, ?_⟩
  simp only [List.forall_mem_cons, List.not_mem_nil, false_implies, implies_true, and_true]
  exact ⟨hobsolete, hsingle, hcollective, hfixed⟩

/-- What is described tells the description. -/
theorem words_of_alike (alike : first.Alike second) : first.words = second.words := by
  have hflags := alike.flags_agree
  simp only [List.forall_mem_cons, List.not_mem_nil, false_implies, implies_true, and_true]
    at hflags
  obtain ⟨hobsolete, hsingle, hcollective, hfixed⟩ := hflags
  simp only [words, alike.oid_eq, alike.name_eq, alike.aliases_eq, alike.superior_eq,
    alike.equality_eq, alike.substring_eq, alike.ordering_eq, alike.syntaxOid_eq, alike.usage_eq,
    hobsolete, hsingle, hcollective, hfixed]

/-- Attribute types have the same description exactly if they are alike. -/
theorem describe_eq_iff (plain : ∀ text ∈ first.texts ++ second.texts, IsPlain text) :
    first.describe = second.describe ↔ first.Alike second := by
  obtain ⟨hfirst, hsecond⟩ := List.forall_mem_append.1 plain
  rw [describe, describe, String.ofList_inj]
  constructor
  · intro same
    rw [words_eq, words_eq] at same
    obtain ⟨hoid, hclauses⟩ := clausal_inj first.areShaped_clauses second.areShaped_clauses
      (unspaced_words hfirst) (unspaced_words hsecond) same
    exact alike_of_clauses_eq hoid hclauses
  · intro alike
    rw [words_of_alike alike]

end AttributeType

namespace ObjectClass

variable {definition first second : ObjectClass}

/-- The description of an object class has no word with a space if its texts have none. -/
theorem unspaced_words (plain : ∀ text ∈ definition.texts, IsPlain text) :
    Unspaced (clausal definition.oid definition.clauses) := by
  simp only [texts, names, List.forall_mem_append, List.forall_mem_cons] at plain
  obtain ⟨⟨⟨⟨hoid, hname, haliases⟩, hrecorded⟩, hmust⟩, hmay⟩ := plain
  have hsuperior : ∀ text ∈ definition.effectiveSuperior.toList, IsPlain text := by
    rw [effectiveSuperior]
    split
    · rename_i name recorded
      rwa [recorded] at hrecorded
    · split
      · exact List.forall_mem_nil _
      · exact List.forall_mem_singleton.2 (by decide)
  have hkind : Unspaced (clauseWords [(definition.kind.keyword, [])]) := by
    cases definition.kind <;> exact unspaced_cons.2 ⟨by decide, unspaced_nil⟩
  have hnames := unspaced_nameWords (List.forall_mem_cons.2 ⟨hname, haliases⟩)
  refine unspaced_clausal hoid ?_
  rw [clauses, clauseWords, List.flatMap_cons, ← clauseWords]
  simp only [clauseWords_append, unspaced_append, unspaced_cons]
  exact ⟨⟨by decide, hnames⟩, ⟨⟨Clause.unspaced_text (by decide) hsuperior, hkind⟩,
    Clause.unspaced_list (by decide) hmust⟩, Clause.unspaced_list (by decide) hmay⟩

/-- The keyword of its kind is the only one of a kind that an object class has. -/
theorem lookup_kind (definition : ObjectClass) (kind : ClassKind) :
    definition.clauses.lookup kind.keyword = if kind = definition.kind then some [] else none := by
  cases kind <;> cases own : definition.kind <;>
    simp [clauses, List.lookup_append, own, ClassKind.keyword]

/-- Object classes with the same clauses are alike: each keyword finds its own clause. -/
theorem alike_of_clauses_eq (oids : first.oid = second.oid)
    (must : ")" ∉ first.must ∧ ")" ∉ second.must) (may : ")" ∉ first.may ∧ ")" ∉ second.may)
    (same : first.clauses = second.clauses) : first.Alike second := by
  have agrees (name : String) : first.clauses.lookup name = second.clauses.lookup name := by
    rw [same]
  have hother (kind : ClassKind) :
      "SUP" ≠ kind.keyword ∧ "MUST" ≠ kind.keyword ∧ "MAY" ≠ kind.keyword := by
    cases kind <;> decide
  have hnames : nameWords first.name first.aliases = nameWords second.name second.aliases := by
    simpa [clauses] using agrees "NAME"
  have hsuperior : first.effectiveSuperior = second.effectiveSuperior := by
    simpa [clauses, List.lookup_append, hother] using agrees "SUP"
  have hmust : first.must = second.must :=
    listed_inj must.1 must.2 (by simpa [clauses, List.lookup_append, hother] using agrees "MUST")
  have hmay : first.may = second.may :=
    listed_inj may.1 may.2 (by simpa [clauses, List.lookup_append, hother] using agrees "MAY")
  have hkind := agrees first.kind.keyword
  rw [lookup_kind, lookup_kind, if_pos rfl] at hkind
  have hwords := nameWords_append_inj (congrArg (· ++ [word ")"]) hnames)
  refine ⟨oids, hwords.1, hwords.2, hsuperior, ?_, hmust, hmay⟩
  by_contra other
  rw [if_neg other] at hkind
  cases hkind

/-- What is described tells the description. -/
theorem words_of_alike (alike : first.Alike second) : first.words = second.words := by
  simp only [words, alike.oid_eq, alike.name_eq, alike.aliases_eq, alike.superior_eq,
    alike.kind_eq, alike.must_eq, alike.may_eq]

/-- Object classes have the same description exactly if they are alike. -/
theorem describe_eq_iff (plain : ∀ text ∈ first.texts ++ second.texts, IsPlain text) :
    first.describe = second.describe ↔ first.Alike second := by
  obtain ⟨hfirst, hsecond⟩ := List.forall_mem_append.1 plain
  have hmust (definition : ObjectClass) (plain : ∀ text ∈ definition.texts, IsPlain text) :
      ")" ∉ definition.must := by
    refine not_mem_of_isPlain fun text member => plain text ?_
    simp [texts, member]
  have hmay (definition : ObjectClass) (plain : ∀ text ∈ definition.texts, IsPlain text) :
      ")" ∉ definition.may := by
    refine not_mem_of_isPlain fun text member => plain text ?_
    simp [texts, member]
  rw [describe, describe, String.ofList_inj]
  constructor
  · intro same
    rw [words_eq, words_eq] at same
    obtain ⟨hoid, hclauses⟩ := clausal_inj
      (areShaped_clauses (hmust first hfirst) (hmay first hfirst))
      (areShaped_clauses (hmust second hsecond) (hmay second hsecond))
      (unspaced_words hfirst) (unspaced_words hsecond) same
    exact alike_of_clauses_eq hoid ⟨hmust first hfirst, hmust second hsecond⟩
      ⟨hmay first hfirst, hmay second hsecond⟩ hclauses
  · intro alike
    rw [words_of_alike alike]

end ObjectClass

namespace MatchingRule

variable {definition first second : MatchingRule}

/-- The description of a matching rule has no word with a space if its texts have none. -/
theorem unspaced_words (plain : ∀ text ∈ definition.texts, IsPlain text) :
    Unspaced (clausal definition.oid definition.clauses) := by
  simp only [texts, List.forall_mem_append, List.forall_mem_cons] at plain
  obtain ⟨⟨hoid, hname, haliases⟩, hsyntax, -⟩ := plain
  have hnames := unspaced_nameWords (List.forall_mem_cons.2 ⟨hname, haliases⟩)
  refine unspaced_clausal hoid ?_
  rw [clauses, clauseWords, List.flatMap_cons, List.flatMap_cons, List.flatMap_nil]
  simp only [unspaced_append, unspaced_cons]
  exact ⟨⟨by decide, hnames⟩, ⟨by decide, hsyntax.1, unspaced_nil⟩, unspaced_nil⟩

/-- Matching rules have the same description only if they are the same. -/
theorem describe_eq_iff (plain : ∀ text ∈ first.texts ++ second.texts, IsPlain text) :
    first.describe = second.describe ↔ first = second := by
  obtain ⟨hfirst, hsecond⟩ := List.forall_mem_append.1 plain
  rw [describe, describe, String.ofList_inj]
  constructor
  · intro same
    rw [words_eq, words_eq] at same
    obtain ⟨hoid, hclauses⟩ := clausal_inj first.areShaped_clauses second.areShaped_clauses
      (unspaced_words hfirst) (unspaced_words hsecond) same
    obtain ⟨hnames, hrest⟩ := List.cons.inj hclauses
    have hwords := nameWords_append_inj
      (congrArg (· ++ [word ")"]) (Prod.mk.inj hnames).2)
    have hsyntax := (List.cons.inj (Prod.mk.inj (List.cons.inj hrest).1).2).1
    obtain ⟨oid, name, aliases, syntaxOid⟩ := first
    obtain ⟨otherOid, other, others, otherSyntax⟩ := second
    rw [mk.injEq]
    exact ⟨hoid, hwords.1, hwords.2, word_inj.1 hsyntax⟩
  · intro same
    rw [same]

end MatchingRule

/-- Syntaxes have the same description only if they are the same, whatever text they describe
themselves with: it stands between a front and an end that are known. -/
theorem LdapSyntax.describe_eq_iff {first second : LdapSyntax} (hfirst : ' ' ∉ first.oid.toList)
    (hsecond : ' ' ∉ second.oid.toList) : first.describe = second.describe ↔ first = second := by
  have hwords (definition : LdapSyntax) : spaced definition.words =
      word "( " ++ (definition.oid.toList ++ ' ' ::
        (word "DESC '" ++ (definition.description.toList ++ word "' )"))) := by
    rw [words, spaced_cons, singleQuoted]
    simp [trailing, word]
  rw [describe, describe, String.ofList_inj, hwords, hwords, List.append_cancel_left_eq]
  constructor
  · intro same
    obtain ⟨hoid, hrest⟩ := append_cons_inj hfirst hsecond same
    have htext := List.append_cancel_right (List.append_cancel_left hrest)
    obtain ⟨oid, description⟩ := first
    obtain ⟨otherOid, other⟩ := second
    rw [mk.injEq]
    exact ⟨String.toList_inj.1 hoid, String.toList_inj.1 htext⟩
  · intro same
    rw [same]

/-- A description loses nothing of a definition whose identifiers, names and references have no
spaces and cannot be taken for the end of a list. Two attribute types or object classes have the
same description exactly if they agree in everything but the bits that have no keyword and the
difference between a superior `top` and none; two matching rules or syntaxes only if they are the
same, where the text of a syntax may be any. -/
theorem descriptions_lossless :
    (∀ first second : AttributeType, (∀ text ∈ first.texts ++ second.texts, IsPlain text) →
      (first.describe = second.describe ↔ first.Alike second)) ∧
    (∀ first second : ObjectClass, (∀ text ∈ first.texts ++ second.texts, IsPlain text) →
      (first.describe = second.describe ↔ first.Alike second)) ∧
    (∀ first second : MatchingRule, (∀ text ∈ first.texts ++ second.texts, IsPlain text) →
      (first.describe = second.describe ↔ first = second)) ∧
    ∀ first second : LdapSyntax, (∀ text ∈ [first.oid, second.oid], IsPlain text) →
      (first.describe = second.describe ↔ first = second) := by
  refine ⟨fun _ _ plain => AttributeType.describe_eq_iff plain,
    fun _ _ plain => ObjectClass.describe_eq_iff plain,
    fun _ _ plain => MatchingRule.describe_eq_iff plain, fun first second plain => ?_⟩
  obtain ⟨hfirst, hsecond⟩ := List.forall_mem_cons.1 plain
  exact LdapSyntax.describe_eq_iff hfirst.1 (List.forall_mem_singleton.1 hsecond).1

/-- A superior that is called like a keyword is not taken for one, nor a syntax for a longer one. -/
theorem descriptions_lossless_keywords :
    let subtype (superior equality : Option String) : AttributeType :=
      ⟨"1.2", "SUP", ["NAME"], superior, none, equality, none, none, .none, .userApplications⟩
    let first := subtype (some "EQUALITY") none
    let second := subtype none (some "EQUALITY")
    let short : LdapSyntax := ⟨"1.2", "a"⟩
    let long : LdapSyntax := ⟨"1.2", "a' ) ( 1.2 DESC 'a"⟩
    (∀ text ∈ first.texts ++ second.texts, IsPlain text) ∧ first.describe ≠ second.describe ∧
      (∀ text ∈ [short.oid, long.oid], IsPlain text) ∧ short.describe ≠ long.describe := by
  intro subtype first second short long
  obtain ⟨types, -, -, syntaxes⟩ := descriptions_lossless
  have htypes : ∀ text ∈ first.texts ++ second.texts, IsPlain text := by decide
  have hsyntaxes : ∀ text ∈ [short.oid, long.oid], IsPlain text := by decide
  refine ⟨htypes, fun same => ?_, hsyntaxes, fun same => ?_⟩
  · have hsuperior := ((types first second htypes).1 same).superior_eq
    cases hsuperior
  · have hsame := (syntaxes short long hsyntaxes).1 same
    exact absurd (congrArg LdapSyntax.description hsame) (by decide)

end DirectoryService
