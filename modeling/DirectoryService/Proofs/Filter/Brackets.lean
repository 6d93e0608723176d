import DirectoryService.Filter.Reader
import DirectoryService.Proofs.Filter.Escape
import Mathlib.Data.List.Count

/-!
# Parentheses in the text of a filter

Each component of a filter is written between parentheses, and assertion values are written without
any, whatever octets they hold. Names are written as they are. So the parentheses of a text are those
of its components and those of the names in it, and the text is bracketed as the filter is exactly if
no name holds a parenthesis. Nothing keeps a client from sending such a name.
-/

namespace DirectoryService

/-- A character is a parenthesis. -/
def IsBracket (c : Char) : Prop := c = '(' ∨ c = ')'

instance (c : Char) : Decidable (IsBracket c) := inferInstanceAs (Decidable (c = '(' ∨ c = ')'))

/-- A character that is no parenthesis differs from every parenthesis. -/
theorem IsBracket.ne {c other : Char} (bracket : IsBracket c) (plain : ¬ IsBracket other) :
    other ≠ c := by
  rintro rfl
  exact plain bracket

/-- A text in which every parenthesis belongs to a pair. -/
inductive Balanced : List Char → Prop where
  /-- Nothing. -/
  | nil : Balanced []
  /-- A character that is no parenthesis stands before such a text. -/
  | plain {c rest} (other : ¬ IsBracket c) (more : Balanced rest) : Balanced (c :: rest)
  /-- A pair with such a text inside stands before such a text. -/
  | pair {inner rest} (inside : Balanced inner) (behind : Balanced rest) :
    Balanced ('(' :: (inner ++ ')' :: rest))

namespace Balanced

variable {first second text : List Char}

/-- Texts in which every parenthesis belongs to a pair can follow each other. -/
theorem append (left : Balanced first) (right : Balanced second) : Balanced (first ++ second) := by
  induction left with
  | nil => exact right
  | plain other _ ih => exact .plain other ih
  | pair inside _ _ ih =>
    rw [List.cons_append, List.append_assoc, List.cons_append]
    exact .pair inside ih

/-- In a text without parentheses every one belongs to a pair. -/
theorem of_not_isBracket (clean : ∀ c ∈ text, ¬ IsBracket c) : Balanced text := by
  induction text with
  | nil => exact .nil
  | cons c text ih =>
    obtain ⟨first, rest⟩ := List.forall_mem_cons.1 clean
    exact .plain first (ih rest)

/-- Pairs have as many opening as closing parentheses. -/
theorem count_eq (balanced : Balanced text) : text.count '(' = text.count ')' := by
  induction balanced with
  | nil => rfl
  | plain other _ ih =>
    have hopen := IsBracket.ne (.inl rfl) other
    have hclose := IsBracket.ne (.inr rfl) other
    rw [List.count_cons_of_ne hopen, List.count_cons_of_ne hclose, ih]
  | @pair inner rest inside behind ihInside ihBehind =>
    have hopen : (')' : Char) ≠ '(' := by decide
    have hclose : ('(' : Char) ≠ ')' := by decide
    rw [List.count_cons_self, List.count_cons_of_ne hclose, List.count_append, List.count_append,
      List.count_cons_of_ne hopen, List.count_cons_self, ihInside, ihBehind]
    omega

end Balanced

/-- A text that starts with a parenthesis that is closed by the last character and by no other one;
inside, every parenthesis belongs to a pair. -/
def Bracketed (text : List Char) : Prop :=
  ∃ inner, text = '(' :: (inner ++ [')']) ∧ Balanced inner

namespace Bracketed

variable {text : List Char}

/-- The parentheses around a text are a pair. -/
theorem balanced (bracketed : Bracketed text) : Balanced text := by
  obtain ⟨inner, rfl, inside⟩ := bracketed
  exact .pair inside .nil

end Bracketed

namespace Filter

mutual

/-- The number of components of a filter, itself included. -/
def components : Filter → Nat
  | .conjunction parts => componentsAll parts + 1
  | .disjunction parts => componentsAll parts + 1
  | .negation inner => components inner + 1
  | .comparison .. => 1
  | .substrings .. => 1
  | .presence _ => 1
  | .extensible _ => 1

/-- The number of components of filters. -/
def componentsAll : List Filter → Nat
  | [] => 0
  | filter :: rest => components filter + componentsAll rest

end

mutual

/-- The attribute descriptions and rule names of a filter. -/
def names : Filter → List String
  | .conjunction parts => namesAll parts
  | .disjunction parts => namesAll parts
  | .negation inner => names inner
  | .comparison _ name _ => [name]
  | .substrings name _ => [name]
  | .presence name => [name]
  | .extensible assertion => assertion.name.toList ++ assertion.rule.toList

/-- The attribute descriptions and rule names of filters. -/
def namesAll : List Filter → List String
  | [] => []
  | filter :: rest => names filter ++ namesAll rest

end

/-- What stands between the parentheses of a filter. -/
def inside : Filter → List Char
  | .conjunction parts => '&' :: charsAll parts
  | .disjunction parts => '|' :: charsAll parts
  | .negation inner => '!' :: chars inner
  | .comparison relation name value => name.toList ++ (relationSign relation ++ escapeValue value)
  | .substrings name parts => name.toList ++ '=' :: substringChars parts
  | .presence name => name.toList ++ ['=', '*']
  | .extensible assertion => extensibleChars assertion

/-- A filter is written between parentheses. -/
theorem chars_eq (filter : Filter) : chars filter = '(' :: (inside filter ++ [')']) := by
  cases filter <;>
    simp only [chars, inside, List.cons_append, List.append_assoc, List.nil_append]

variable {c : Char}

/-- A pair of parentheses has one of each. -/
theorem count_pair (bracket : IsBracket c) (text : List Char) :
    ('(' :: (text ++ [')'])).count c = text.count c + 1 := by
  rw [List.count_cons, List.count_append, List.count_singleton]
  rcases bracket with rfl | rfl
  · rfl
  · rfl

/-- No parenthesis comes from an assertion value. -/
theorem count_escapeValue (bracket : IsBracket c) (value : List UInt8) :
    (escapeValue value).count c = 0 := by
  refine List.count_eq_zero_of_not_mem ?_
  rcases bracket with rfl | rfl
  · exact not_mem_escapeValue (by decide) (by decide)
  · exact not_mem_escapeValue (by decide) (by decide)

/-- No parenthesis comes from an assertion value that may be left out. -/
theorem count_part (bracket : IsBracket c) (part : Option (List UInt8)) :
    ((part.map escapeValue).getD []).count c = 0 := by
  cases part with
  | none => rfl
  | some value => exact count_escapeValue bracket value

/-- No parenthesis comes from the sign of a relation. -/
theorem count_relationSign (bracket : IsBracket c) (relation : Relation) :
    (relationSign relation).count c = 0 := by
  rcases bracket with rfl | rfl
  · cases relation <;> decide
  · cases relation <;> decide

/-- No parenthesis comes from the parts of a value. -/
theorem count_substringChars (bracket : IsBracket c) (parts : Substrings) :
    (substringChars parts).count c = 0 := by
  have hmark : ['*'].count c = 0 := by
    rcases bracket with rfl | rfl <;> decide
  have hinner (inner : List (List UInt8)) :
      (inner.flatMap fun part => escapeValue part ++ ['*']).count c = 0 := by
    induction inner with
    | nil => rfl
    | cons part inner ih =>
      rw [List.flatMap_cons, List.count_append, List.count_append, count_escapeValue bracket, hmark,
        ih]
  rw [substringChars, ← List.singleton_append, List.count_append, List.count_append,
    List.count_append, count_part bracket, hmark, hinner, count_part bracket]

/-- The parentheses of an extensible match are those of its names. -/
theorem count_extensibleChars (bracket : IsBracket c) (assertion : ExtensibleMatch) :
    (extensibleChars assertion).count c =
      ((names (.extensible assertion)).flatMap String.toList).count c := by
  have hparts : (if assertion.nameParts then ":dn".toList else []).count c = 0 := by
    rcases bracket with rfl | rfl <;> cases assertion.nameParts <;> decide
  have hsign : ":=".toList.count c = 0 := by
    rcases bracket with rfl | rfl <;> decide
  have hname : ((assertion.name.map String.toList).getD []).count c =
      (assertion.name.toList.flatMap String.toList).count c := by
    cases assertion.name with
    | none => rfl
    | some name => rw [Option.toList_some, List.flatMap_singleton]; rfl
  have hrule : ((assertion.rule.map fun rule => ':' :: rule.toList).getD []).count c =
      (assertion.rule.toList.flatMap String.toList).count c := by
    cases assertion.rule with
    | none => rfl
    | some rule =>
      have hcolon := bracket.ne (by decide : ¬ IsBracket ':')
      rw [Option.toList_some, List.flatMap_singleton, Option.map_some, Option.getD_some,
        List.count_cons_of_ne hcolon]
  rw [extensibleChars, names, List.flatMap_append]
  simp only [List.count_append, hname, hparts, hrule, hsign, count_escapeValue bracket, Nat.add_zero]

mutual

/-- The parentheses of a text are those around its components and those of the names. -/
theorem count_chars (bracket : IsBracket c) : ∀ filter : Filter,
    (chars filter).count c = components filter + (filter.names.flatMap String.toList).count c
  | .conjunction parts => by
    have hsign := bracket.ne (by decide : ¬ IsBracket '&')
    rw [chars_eq, count_pair bracket, inside, List.count_cons_of_ne hsign,
      count_charsAll bracket parts, components, names]
    omega
  | .disjunction parts => by
    have hsign := bracket.ne (by decide : ¬ IsBracket '|')
    rw [chars_eq, count_pair bracket, inside, List.count_cons_of_ne hsign,
      count_charsAll bracket parts, components, names]
    omega
  | .negation inner => by
    have hsign := bracket.ne (by decide : ¬ IsBracket '!')
    rw [chars_eq, count_pair bracket, inside, List.count_cons_of_ne hsign,
      count_chars bracket inner, components, names]
    omega
  | .comparison relation name value => by
    rw [chars_eq, count_pair bracket, inside, List.count_append, List.count_append,
      count_relationSign bracket, count_escapeValue bracket, components, names,
      List.flatMap_singleton]
    omega
  | .substrings name parts => by
    have hsign := bracket.ne (by decide : ¬ IsBracket '=')
    rw [chars_eq, count_pair bracket, inside, List.count_append, List.count_cons_of_ne hsign,
      count_substringChars bracket, components, names, List.flatMap_singleton]
    omega
  | .presence name => by
    have hsign : ['=', '*'].count c = 0 := by
      rcases bracket with rfl | rfl <;> decide
    rw [chars_eq, count_pair bracket, inside, List.count_append, hsign, components, names,
      List.flatMap_singleton]
    omega
  | .extensible assertion => by
    rw [chars_eq, count_pair bracket, inside, count_extensibleChars bracket, components]
    omega

/-- The parentheses of texts are those around their components and those of the names. -/
theorem count_charsAll (bracket : IsBracket c) : ∀ filters : List Filter,
    (charsAll filters).count c =
      componentsAll filters + ((namesAll filters).flatMap String.toList).count c
  | [] => rfl
  | filter :: rest => by
    rw [charsAll, componentsAll, namesAll, List.flatMap_append, List.count_append,
      List.count_append, count_chars bracket filter, count_charsAll bracket rest]
    omega

end

/-- Names without parentheses. -/
def Clean (names : List String) : Prop := ∀ name ∈ names, ∀ c ∈ name.toList, ¬ IsBracket c

/-- Names are without parentheses if none occurs in them. -/
theorem clean_iff {names : List String} :
    Clean names ↔ ∀ c, IsBracket c → (names.flatMap String.toList).count c = 0 := by
  simp only [List.count_eq_zero, List.mem_flatMap, not_exists, not_and]
  exact ⟨fun clean c bracket name member inside => clean name member c inside bracket,
    fun absent name member c inside bracket => absent c bracket name member inside⟩

/-- A filter of one component is bracketed if its names are without parentheses. -/
theorem bracketed_of_single {filter : Filter} (single : components filter = 1)
    (clean : Clean filter.names) : Bracketed (chars filter) := by
  refine ⟨inside filter, chars_eq filter, .of_not_isBracket fun c member bracket => ?_⟩
  have hcount := count_chars bracket filter
  rw [single, clean_iff.1 clean c bracket, chars_eq, count_pair bracket] at hcount
  have hpositive := List.count_pos_iff.2 member
  omega

mutual

/-- The text of a filter is bracketed if its names are without parentheses. -/
theorem bracketed_chars : ∀ filter : Filter, Clean filter.names → Bracketed (chars filter)
  | .conjunction parts, clean =>
    ⟨_, chars_eq _, .plain (by decide) (balanced_charsAll parts clean)⟩
  | .disjunction parts, clean =>
    ⟨_, chars_eq _, .plain (by decide) (balanced_charsAll parts clean)⟩
  | .negation inner, clean =>
    ⟨_, chars_eq _, .plain (by decide) (bracketed_chars inner clean).balanced⟩
  | .comparison .., clean => bracketed_of_single rfl clean
  | .substrings .., clean => bracketed_of_single rfl clean
  | .presence _, clean => bracketed_of_single rfl clean
  | .extensible _, clean => bracketed_of_single rfl clean

/-- Every parenthesis in the texts of filters belongs to a pair if their names are without
parentheses. -/
theorem balanced_charsAll : ∀ filters : List Filter, Clean (namesAll filters) →
    Balanced (charsAll filters)
  | [], _ => .nil
  | filter :: rest, clean => by
    obtain ⟨first, others⟩ := List.forall_mem_append.1 clean
    exact (bracketed_chars filter first).balanced.append (balanced_charsAll rest others)

end

/-- The text of a filter that is read from a packet starts with an opening and ends with a closing
parenthesis, and holds one of each for every component, besides those that stand in names; the octets
of assertion values add none. It is bracketed, with one opening parenthesis for every component and
no other, exactly if no attribute description and no rule name holds a parenthesis. -/
theorem describe_brackets {packet : Ber.Packet} {text : String}
    (described : describe packet = .ok text) :
    ∃ filter, ofPacket packet = .ok filter ∧
      (∃ between, text.toList = '(' :: (between ++ [')'])) ∧
      (∀ c, IsBracket c → text.toList.count c =
        filter.components + (filter.names.flatMap String.toList).count c) ∧
      ((Bracketed text.toList ∧ text.toList.count '(' = filter.components) ↔
        Clean filter.names) := by
  cases hread : ofPacket packet with
  | error fault =>
    rw [describe, hread] at described
    cases described
  | ok filter =>
    rw [describe, hread] at described
    obtain rfl := Except.ok.inj described
    have hopen := count_chars (.inl rfl) filter
    have hclose := count_chars (.inr rfl) filter
    rw [render, String.toList_ofList]
    refine ⟨filter, rfl, ⟨_, chars_eq filter⟩, fun c bracket => count_chars bracket filter, ?_, ?_⟩
    · rintro ⟨bracketed, count⟩
      have heven := bracketed.balanced.count_eq
      rw [clean_iff]
      rintro c (rfl | rfl)
      · omega
      · omega
    · intro clean
      refine ⟨bracketed_chars filter clean, ?_⟩
      rw [hopen, clean_iff.1 clean _ (.inl rfl), Nat.add_zero]

/-- Parentheses in an assertion value are not seen, and a parenthesis in a name is, deep inside a
filter. -/
theorem describe_brackets_nested :
    let packet : Ber.Packet := .constructed .context 0
      [.constructed .context 3 [.text "cn" "", .octets [0x29, 0x28, 0xFF] ""] "",
        .constructed .context 2 [.primitive .context 7 [0x61, 0x28] ""] ""] ""
    let text := "(&(cn=\\29\\28\\ff)(!(a(=*)))"
    describe packet = .ok text ∧ ∃ filter, ofPacket packet = .ok filter ∧
      (∃ between, text.toList = '(' :: (between ++ [')'])) ∧
      (∀ c, IsBracket c → text.toList.count c =
        filter.components + (filter.names.flatMap String.toList).count c) ∧
      ((Bracketed text.toList ∧ text.toList.count '(' = filter.components) ↔
        Clean filter.names) := by
  intro packet text
  have described : describe packet = .ok text := by decide +kernel
  exact ⟨described, describe_brackets described⟩

/-- A test for the presence of an attribute whose description ends with a parenthesis is written
without a pair for it. -/
theorem describe_unbracketed :
    ∃ text, describe (.primitive .context 7 [0x61, 0x29] "") = .ok text ∧
      ¬ Bracketed text.toList := by
  refine ⟨"(a)=*)", by decide +kernel, fun bracketed => ?_⟩
  exact absurd bracketed.balanced.count_eq (by decide)

end Filter

end DirectoryService
