import DirectoryService.Text.Ascii
import DirectoryService.Proofs.Text.Split
import Mathlib.Computability.Language
import Mathlib.Order.CompletePartialOrder

/-!
# The productions of schema descriptions

The grammar of RFC 4512 section 4.1 as languages: a product is one part behind the other, a sum is a
choice, and a star repeats. Literals that are names stand for their text in any case. Behind the
productions stands what they tell of their texts: which characters are in them, how they start and
how long they are at least.
-/

namespace DirectoryService.Production

open Computability

/-- A character that neither separates words nor closes a list. -/
def IsTight (c : Char) : Prop := c ≠ ' ' ∧ c ≠ ')'

instance (c : Char) : Decidable (IsTight c) := inferInstanceAs (Decidable (c ≠ ' ' ∧ c ≠ ')'))

/-- A name that neither has a space nor starts as that of an extension does. -/
def IsKeyword (name : String) : Prop :=
  (∀ c ∈ Ascii.fold name, IsTight c) ∧ Ascii.fold name ≠ [] ∧
    (Ascii.fold name).head? ≠ some 'x'

instance (name : String) : Decidable (IsKeyword name) :=
  letI := List.decidableBAll IsTight (Ascii.fold name)
  inferInstanceAs (Decidable (_ ∧ _ ∧ _))

/-- One character of a kind. -/
def one (kind : Char → Prop) : Language Char := {text | ∃ c, kind c ∧ text = [c]}

/-- A given character. -/
def sign (c : Char) : Language Char := {[c]}

/-- A given name in any case. -/
def keyword (name : String) : Language Char := {text | text.map Char.toLower = Ascii.fold name}

/-- What may be left out. -/
def optional (language : Language Char) : Language Char := 1 + language

/-- What stands at least once. -/
def many (language : Language Char) : Language Char := language * language∗

/-- Any spaces. -/
def wsp : Language Char := (sign ' ')∗

/-- At least one space. -/
def sp : Language Char := many (sign ' ')

/-- Items with a separator between each two. -/
def separated (item separator : Language Char) : Language Char := item * (separator * item)∗

/-- What stands between parentheses. -/
def parenthesised (language : Language Char) : Language Char :=
  sign '(' * (wsp * (language * (wsp * sign ')')))

/-- What stands between single quotes. -/
def quoted (language : Language Char) : Language Char := sign '\'' * (language * sign '\'')

/-- A decimal number. -/
def number : Language Char :=
  one (fun c => c.isDigit) + one (fun c => c.isDigit ∧ c ≠ '0') * many (one fun c => c.isDigit)

/-- A numeric object identifier: numbers with dots between them. -/
def numericOid : Language Char := number * many (sign '.' * number)

/-- A short name: a letter and then letters, digits and hyphens. -/
def descriptor : Language Char :=
  one (fun c => c.isAlpha) * (one fun c => c.isAlpha ∨ c.isDigit ∨ c = '-')∗

/-- An object identifier: a short name or a numeric one. -/
def oid : Language Char := descriptor + numericOid

/-- Object identifiers: one, or several with dollar signs between them. -/
def oids : Language Char := oid + parenthesised (separated oid (wsp * (sign '$' * wsp)))

/-- Short names between quotes: one, or a list of them. -/
def descriptors : Language Char :=
  quoted descriptor + parenthesised (optional (separated (quoted descriptor) sp))

/-- A character of a text between quotes: a quote and a backslash are escaped. -/
def escaped (c : Char) : Language Char :=
  if c = '\'' then keyword "\\27" else if c = '\\' then keyword "\\5C" else sign c

/-- A text with its quotes and backslashes escaped. -/
def escapedText (text : List Char) : Language Char := (text.map escaped).prod

/-- The escaped form of any character. -/
def textCharacter : Language Char := {text | ∃ c, text ∈ escaped c}

/-- A text that stands between quotes is not empty. -/
def textString : Language Char := many textCharacter

/-- Texts between quotes: one, or a list of them. -/
def textStrings : Language Char :=
  quoted textString + parenthesised (optional (separated (quoted textString) sp))

/-- The identifier of a syntax and the length that its values have at least. -/
def sizedOid : Language Char := numericOid * optional (sign '\x7b' * (number * sign '\x7d'))

/-- The keywords of the usages of an attribute type. -/
def usage : Language Char :=
  keyword "userApplications" + keyword "directoryOperation" + keyword "distributedOperation" +
    keyword "dSAOperation"

/-- The keywords of the kinds of an object class. -/
def kind : Language Char := keyword "ABSTRACT" + keyword "STRUCTURAL" + keyword "AUXILIARY"

/-- An extension: a name that starts with `X-` and texts. -/
def extension : Language Char :=
  sp * (keyword "X" * (sign '-' * (many (one fun c => c.isAlpha ∨ c = '-' ∨ c = '_') *
    (sp * textStrings))))

/-- The end of a description. -/
def ending : Language Char := extension∗ * (wsp * sign ')')

/-- A clause of a production: a keyword, and what stands behind it if anything does. -/
structure Slot where
  /-- The keyword. -/
  name : String
  /-- What stands behind it. -/
  argument : Option (Language Char)
  /-- The keyword is one. -/
  isKeyword : IsKeyword name := by decide

namespace Slot

/-- What stands behind the keyword, the spaces in front of it included. -/
def behind (slot : Slot) : Language Char := slot.argument.elim 1 (sp * ·)

/-- The texts of a clause. -/
def language (slot : Slot) : Language Char := keyword slot.name * slot.behind

end Slot

/-- Clauses in a fixed order, each of which may be left out. -/
def clauses : List (Language Char) → Language Char
  | [] => 1
  | clause :: rest => optional (sp * clause) * clauses rest

/-- A description: an object identifier and what follows it. -/
def description (rest : Language Char) : Language Char := sign '(' * (wsp * (numericOid * rest))

/-- The clauses that definitions of several kinds start with. -/
def leading : List Slot :=
  [.mk "NAME" (some descriptors), .mk "DESC" (some (quoted textString)), .mk "OBSOLETE" none]

/-- The clauses of an attribute type, in their order. -/
def attributeTypeSlots : List Slot :=
  leading ++ [.mk "SUP" (some oid), .mk "EQUALITY" (some oid), .mk "ORDERING" (some oid),
    .mk "SUBSTR" (some oid), .mk "SYNTAX" (some sizedOid), .mk "SINGLE-VALUE" none,
    .mk "COLLECTIVE" none, .mk "NO-USER-MODIFICATION" none, .mk "USAGE" (some usage)]

/-- The clauses of an object class, in their order. That of its kind has no keyword of its own. -/
def objectClassClauses : List (Language Char) :=
  leading.map Slot.language ++ [(Slot.mk "SUP" (some oids)).language, kind,
    (Slot.mk "MUST" (some oids)).language, (Slot.mk "MAY" (some oids)).language]

/-- Descriptions of syntaxes. -/
def syntaxDescription : Language Char :=
  description (clauses [(Slot.mk "DESC" (some (quoted textString))).language] * ending)

/-- Descriptions of matching rules. Their syntax is not left out. -/
def matchingRuleDescription : Language Char :=
  description (clauses (leading.map Slot.language) *
    (sp * (Slot.mk "SYNTAX" (some numericOid)).language * ending))

/-- Descriptions of attribute types. -/
def attributeTypeDescription : Language Char :=
  description (clauses (attributeTypeSlots.map Slot.language) * ending)

/-- Descriptions of object classes. -/
def objectClassDescription : Language Char := description (clauses objectClassClauses * ending)

section Texts

variable {first second : Language Char} {character : Char → Prop}

theorem mem_one {kind : Char → Prop} {text : List Char} :
    text ∈ one kind ↔ ∃ c, kind c ∧ text = [c] := Iff.rfl

theorem mem_sign {c : Char} {text : List Char} : text ∈ sign c ↔ text = [c] := Iff.rfl

theorem mem_keyword {name : String} {text : List Char} :
    text ∈ keyword name ↔ text.map Char.toLower = Ascii.fold name := Iff.rfl

/-- A keyword stands for itself. -/
theorem self_mem_keyword (name : String) : name.toList ∈ keyword name := rfl

theorem mem_optional {language : Language Char} {text : List Char} :
    text ∈ optional language ↔ text = [] ∨ text ∈ language := Iff.rfl

/-- What may be left out is left out. -/
theorem mem_optional_mul {text : List Char} (member : text ∈ second) :
    text ∈ optional first * second :=
  Language.append_mem_mul (mem_optional.2 (Or.inl rfl)) member

/-- What may be left out is there. -/
theorem append_mem_optional_mul {front back : List Char} (hfirst : front ∈ first)
    (hsecond : back ∈ second) : front ++ back ∈ optional first * second :=
  Language.append_mem_mul (mem_optional.2 (Or.inr hfirst)) hsecond

theorem many_le_kstar {language : Language Char} : many language ≤ language∗ := mul_kstar_le_kstar

/-- A text of one language in front of one of another. -/
theorem cons_mem_sign_mul {c : Char} {text : List Char} (member : text ∈ first) :
    c :: text ∈ sign c * first := Language.append_mem_mul (mem_sign.2 rfl) member

theorem of_cons_mem_sign_mul {c : Char} {text : List Char} (member : c :: text ∈ sign c * first) :
    text ∈ first := by
  obtain ⟨-, rfl, rest, hrest, same⟩ := Language.mem_mul.1 member
  rwa [← (List.cons.inj same).2]

/-- Texts of a language behind each other. -/
theorem flatMap_mem_kstar {α : Type} {items : List α} {text : α → List Char}
    (members : ∀ item ∈ items, text item ∈ first) : items.flatMap text ∈ first∗ := by
  rw [List.flatMap_def]
  exact Language.join_mem_kstar (List.forall_mem_map.2 members)

/-- Characters of a language behind each other. -/
theorem mem_kstar {text : List Char} (members : ∀ c ∈ text, [c] ∈ first) : text ∈ first∗ := by
  have hparts := flatMap_mem_kstar members
  rwa [List.flatMap_singleton'] at hparts

/-- Texts behind a sign each. -/
theorem exists_of_mem_kstar_sign_mul {c : Char} {text : List Char}
    (member : text ∈ (sign c * first)∗) :
    ∃ parts : List (List Char), (∀ part ∈ parts, part ∈ first) ∧
      text = parts.flatMap (c :: ·) := by
  obtain ⟨items, rfl, members⟩ := member
  induction items with
  | nil => exact ⟨[], List.forall_mem_nil _, rfl⟩
  | cons item items ih =>
    obtain ⟨hitem, hitems⟩ := List.forall_mem_cons.1 members
    obtain ⟨parts, hparts, same⟩ := ih hitems
    obtain ⟨-, rfl, part, hpart, rfl⟩ := Language.mem_mul.1 hitem
    refine ⟨part :: parts, List.forall_mem_cons.2 ⟨hpart, hparts⟩, ?_⟩
    rw [List.flatten_cons, same, List.flatMap_cons]
    rfl

/-- All characters of all texts of a language are of a kind. -/
def Over (character : Char → Prop) (language : Language Char) : Prop :=
  ∀ text ∈ language, ∀ c ∈ text, character c

theorem Over.mul (hfirst : Over character first) (hsecond : Over character second) :
    Over character (first * second) := by
  intro text member
  obtain ⟨front, hfront, back, hback, rfl⟩ := Language.mem_mul.1 member
  exact List.forall_mem_append.2 ⟨hfirst front hfront, hsecond back hback⟩

theorem Over.add (hfirst : Over character first) (hsecond : Over character second) :
    Over character (first + second) := fun text member => member.elim (hfirst text) (hsecond text)

theorem Over.kstar (limited : Over character first) : Over character first∗ := by
  rintro - ⟨parts, rfl, members⟩ c within
  obtain ⟨part, among, within⟩ := List.mem_flatten.1 within
  exact limited part (members part among) c within

theorem Over.many (limited : Over character first) : Over character (many first) :=
  limited.mul limited.kstar

theorem Over.optional (limited : Over character first) : Over character (optional first) := by
  intro text member
  rcases mem_optional.1 member with rfl | member
  · exact List.forall_mem_nil _
  · exact limited text member

theorem Over.one {kind : Char → Prop} (implies : ∀ c, kind c → character c) :
    Over character (one kind) := by
  rintro - ⟨c, hkind, rfl⟩
  exact List.forall_mem_singleton.2 (implies c hkind)

theorem Over.sign {c : Char} (holds : character c) : Over character (sign c) := by
  rintro - rfl
  exact List.forall_mem_singleton.2 holds

/-- A keyword has the characters of its name, in any case. -/
theorem Over.keyword {name : String} (named : ∀ c, c.toLower ∈ Ascii.fold name → character c) :
    Over character (keyword name) := by
  intro text member c within
  refine named c ?_
  rw [← mem_keyword.1 member]
  exact List.mem_map_of_mem within

/-- Every text of a language starts with a character of a kind. -/
def Starts (character : Char → Prop) (language : Language Char) : Prop :=
  ∀ text ∈ language, ∃ c ∈ text.head?, character c

theorem Starts.mono {other : Char → Prop} (starts : Starts character first)
    (implies : ∀ c, character c → other c) : Starts other first := by
  intro text member
  obtain ⟨c, head, holds⟩ := starts text member
  exact ⟨c, head, implies c holds⟩

theorem Starts.mul (starts : Starts character first) : Starts character (first * second) := by
  intro text member
  obtain ⟨front, hfront, back, -, rfl⟩ := Language.mem_mul.1 member
  obtain ⟨c, head, holds⟩ := starts front hfront
  exact ⟨c, List.mem_head?_append_of_mem_head? head, holds⟩

theorem Starts.add (hfirst : Starts character first) (hsecond : Starts character second) :
    Starts character (first + second) :=
  fun text member => member.elim (hfirst text) (hsecond text)

theorem Starts.optional_mul (hfirst : Starts character first)
    (hsecond : Starts character second) : Starts character (optional first * second) := by
  rw [optional, add_mul, one_mul]
  exact hsecond.add hfirst.mul

theorem Starts.kstar_mul (hfirst : Starts character first) (hsecond : Starts character second) :
    Starts character (first∗ * second) := by
  rw [← Language.one_add_self_mul_kstar_eq_kstar, add_mul, one_mul]
  exact hsecond.add hfirst.mul.mul

theorem Starts.one {kind : Char → Prop} (implies : ∀ c, kind c → character c) :
    Starts character (one kind) := by
  rintro - ⟨c, hkind, rfl⟩
  exact ⟨c, rfl, implies c hkind⟩

theorem Starts.sign {c : Char} (holds : character c) : Starts character (sign c) := by
  rintro - rfl
  exact ⟨c, rfl, holds⟩

/-- A keyword starts as its name does, in any case. -/
theorem Starts.keyword {name : String} (named : Ascii.fold name ≠ [])
    (implies : ∀ c, c.toLower ∈ (Ascii.fold name).head? → character c) :
    Starts character (keyword name) := by
  intro text member
  have hfold := mem_keyword.1 member
  cases text with
  | nil => exact absurd hfold.symm named
  | cons c text =>
    refine ⟨c, rfl, implies c ?_⟩
    rw [← hfold]
    rfl

/-- All texts of a language have a length at least. -/
def AtLeast (length : ℕ) (language : Language Char) : Prop :=
  ∀ text ∈ language, length ≤ text.length

theorem AtLeast.mul {m n : ℕ} (hfirst : AtLeast m first) (hsecond : AtLeast n second) :
    AtLeast (m + n) (first * second) := by
  intro text member
  obtain ⟨front, hfront, back, hback, rfl⟩ := Language.mem_mul.1 member
  rw [List.length_append]
  exact Nat.add_le_add (hfirst front hfront) (hsecond back hback)

theorem AtLeast.any : AtLeast 0 first := fun _ _ => Nat.zero_le _

theorem AtLeast.sign {c : Char} : AtLeast 1 (sign c) := by
  rintro - rfl
  exact le_rfl

theorem AtLeast.keyword (name : String) : AtLeast name.length (keyword name) := by
  intro text member
  have hlength := congrArg List.length (mem_keyword.1 member)
  rw [Ascii.fold, List.length_map, List.length_map, String.length_toList] at hlength
  exact hlength.ge

theorem AtLeast.mono {m n : ℕ} (bound : AtLeast n first) (below : m ≤ n) : AtLeast m first :=
  fun text member => below.trans (bound text member)

end Texts

/-- A keyword is one word in any case. -/
theorem IsKeyword.tight {name : String} (isKeyword : IsKeyword name) :
    Over IsTight (keyword name) := by
  refine Over.keyword fun c member => ?_
  obtain ⟨space, closing⟩ := isKeyword.1 _ member
  constructor
  · rintro rfl
    exact space rfl
  · rintro rfl
    exact closing rfl

/-- A keyword does not start as that of an extension does. -/
theorem IsKeyword.starts {name : String} (isKeyword : IsKeyword name) :
    Starts (fun c => IsTight c ∧ c.toLower ≠ 'x') (keyword name) := by
  have hover := isKeyword.tight
  obtain ⟨-, named, other⟩ := isKeyword
  intro text member
  obtain ⟨c, head, lower⟩ := Starts.keyword named (fun c head => head) text member
  refine ⟨c, head, hover text member c (List.mem_of_mem_head? head), fun cross => other ?_⟩
  rw [← cross]
  exact lower

theorem isTight_of_isAlpha {c : Char} (alpha : c.isAlpha) : IsTight c := by
  constructor <;> rintro rfl <;> exact absurd alpha (by decide)

theorem isTight_of_isDigit {c : Char} (digit : c.isDigit) : IsTight c := by
  constructor <;> rintro rfl <;> exact absurd digit (by decide)

theorem over_descriptor : Over IsTight descriptor := by
  refine (Over.one fun _ => isTight_of_isAlpha).mul (Over.one fun c => ?_).kstar
  rintro (alpha | digit | rfl)
  · exact isTight_of_isAlpha alpha
  · exact isTight_of_isDigit digit
  · decide

theorem over_number : Over IsTight number :=
  (Over.one fun _ => isTight_of_isDigit).add
    ((Over.one fun _ digit => isTight_of_isDigit digit.1).mul
      (Over.one fun _ => isTight_of_isDigit).many)

theorem over_numericOid : Over IsTight numericOid :=
  over_number.mul ((Over.sign (by decide)).mul over_number).many

theorem over_oid : Over IsTight oid := over_descriptor.add over_numericOid

theorem starts_descriptor : Starts (fun c => c.isAlpha) descriptor :=
  (Starts.one fun _ alpha => alpha).mul

theorem starts_numericOid : Starts (fun c => c.isDigit) numericOid :=
  ((Starts.one fun _ digit => digit).add (Starts.one fun _ digit => digit.1).mul).mul

theorem starts_oid : Starts IsTight oid :=
  (starts_descriptor.mono fun _ => isTight_of_isAlpha).add
    (starts_numericOid.mono fun _ => isTight_of_isDigit)

/-- A letter and then letters, digits and hyphens. -/
def IsDescriptor (text : List Char) : Prop :=
  text.head?.any Char.isAlpha ∧ ∀ c ∈ text, c.isAlpha ∨ c.isDigit ∨ c = '-'

instance (text : List Char) : Decidable (IsDescriptor text) :=
  letI := List.decidableBAll (fun c : Char => c.isAlpha ∨ c.isDigit ∨ c = '-') text
  inferInstanceAs (Decidable (_ ∧ _))

theorem mem_descriptor {text : List Char} : text ∈ descriptor ↔ IsDescriptor text := by
  constructor
  · intro member
    have hover : Over (fun c => c.isAlpha ∨ c.isDigit ∨ c = '-') descriptor :=
      (Over.one fun _ alpha => Or.inl alpha).mul (Over.one fun _ either => either).kstar
    obtain ⟨c, head, alpha⟩ := starts_descriptor text member
    refine ⟨?_, hover text member⟩
    rw [Option.mem_def.1 head]
    exact alpha
  · rintro ⟨first, all⟩
    match text with
    | [] => cases first
    | c :: rest =>
      have hrest : rest ∈ (one fun d => d.isAlpha ∨ d.isDigit ∨ d = '-')∗ :=
        mem_kstar fun d member => mem_one.2 ⟨d, all d (List.mem_cons_of_mem _ member), rfl⟩
      exact Language.append_mem_mul (mem_one.2 ⟨c, first, rfl⟩) hrest

/-- Digits without a zero in front of others. -/
def IsNumber (text : List Char) : Prop :=
  (∀ c ∈ text, c.isDigit) ∧ text ≠ [] ∧ (text.length = 1 ∨ text.head? ≠ some '0')

instance (text : List Char) : Decidable (IsNumber text) :=
  letI := List.decidableBAll (fun c : Char => c.isDigit) text
  inferInstanceAs (Decidable (_ ∧ _ ∧ _))

theorem mem_number {text : List Char} : text ∈ number ↔ IsNumber text := by
  constructor
  · have hdigits : Over (fun c => c.isDigit) (many (one fun c => c.isDigit)) :=
      (Over.one fun _ digit => digit).many
    rintro (⟨c, digit, rfl⟩ | ⟨-, ⟨c, ⟨digit, nonzero⟩, rfl⟩, more, hmore, rfl⟩)
    · exact ⟨List.forall_mem_singleton.2 digit, List.cons_ne_nil _ _, Or.inl rfl⟩
    · refine ⟨List.forall_mem_cons.2 ⟨digit, hdigits more hmore⟩, List.cons_ne_nil _ _, Or.inr ?_⟩
      exact fun head => nonzero (Option.some.inj head)
  · rintro ⟨digits, written, leads⟩
    match text with
    | [] => exact absurd rfl written
    | [c] => exact Or.inl ⟨c, digits c List.mem_cons_self, rfl⟩
    | c :: d :: more =>
      simp only [List.forall_mem_cons] at digits
      obtain ⟨hfirst, hsecond, hothers⟩ := digits
      have hnonzero : c ≠ '0' := by
        rintro rfl
        rcases leads with alone | leads
        · cases alone
        · exact leads rfl
      have hmore : more ∈ (one fun c => c.isDigit)∗ :=
        mem_kstar fun e member => mem_one.2 ⟨e, hothers e member, rfl⟩
      have hmany : d :: more ∈ many (one fun c => c.isDigit) :=
        Language.append_mem_mul (mem_one.2 ⟨d, hsecond, rfl⟩) hmore
      exact Or.inr (Language.append_mem_mul (mem_one.2 ⟨c, ⟨hfirst, hnonzero⟩, rfl⟩) hmany)

/-- At least two numbers with dots between them. -/
def IsNumericOid (text : List Char) : Prop :=
  1 < (text.splitOn '.').length ∧ ∀ part ∈ text.splitOn '.', IsNumber part

instance (text : List Char) : Decidable (IsNumericOid text) :=
  inferInstanceAs (Decidable (_ ∧ _))

/-- Parts with dots between them are the first one and the others behind a dot each. -/
theorem intercalate_dot (first : List Char) (rest : List (List Char)) :
    ['.'].intercalate (first :: rest) = first ++ rest.flatMap ('.' :: ·) := by
  induction rest generalizing first with
  | nil => simp [List.intercalate]
  | cons second rest ih =>
    rw [List.intercalate_cons_cons, ih, List.flatMap_cons, List.append_assoc]
    rfl

theorem mem_numericOid {text : List Char} : text ∈ numericOid ↔ IsNumericOid text := by
  constructor
  · intro member
    obtain ⟨first, hfirst, behind, hbehind, rfl⟩ := Language.mem_mul.1 member
    obtain ⟨item, hitem, rest, hrest, rfl⟩ := Language.mem_mul.1 hbehind
    obtain ⟨-, rfl, second, hsecond, rfl⟩ := Language.mem_mul.1 hitem
    obtain ⟨parts, hparts, rfl⟩ := exists_of_mem_kstar_sign_mul hrest
    have hnumbers : ∀ part ∈ first :: second :: parts, IsNumber part := by
      simp only [List.forall_mem_cons]
      exact ⟨mem_number.1 hfirst, mem_number.1 hsecond, fun part member =>
        mem_number.1 (hparts part member)⟩
    have hdots : ∀ part ∈ first :: second :: parts, '.' ∉ part := by
      intro part member dot
      exact absurd ((hnumbers part member).1 '.' dot) (by decide)
    have hsplit := List.splitOn_intercalate '.' hdots (List.cons_ne_nil _ _)
    rw [intercalate_dot, List.flatMap_cons, List.cons_append] at hsplit
    rw [IsNumericOid, List.singleton_append, List.cons_append, hsplit]
    exact ⟨by simp, hnumbers⟩
  · rintro ⟨several, numbers⟩
    have hparts : ['.'].intercalate (text.splitOn '.') = text := List.intercalate_splitOn '.'
    generalize text.splitOn '.' = parts at several numbers hparts
    match parts with
    | [] => cases several
    | [_] => exact absurd several (lt_irrefl 1)
    | first :: second :: rest =>
      rw [intercalate_dot] at hparts
      have hitem (part : List Char) (member : part ∈ first :: second :: rest) :
          '.' :: part ∈ sign '.' * number :=
        cons_mem_sign_mul (mem_number.2 (numbers part member))
      have hrest : rest.flatMap ('.' :: ·) ∈ (sign '.' * number)∗ :=
        flatMap_mem_kstar fun part member =>
          hitem part (List.mem_cons_of_mem _ (List.mem_cons_of_mem _ member))
      have hsecond := hitem second (List.mem_cons_of_mem _ List.mem_cons_self)
      rw [← hparts]
      exact Language.append_mem_mul (mem_number.2 (numbers first List.mem_cons_self))
        (Language.append_mem_mul hsecond hrest)

instance (text : List Char) : Decidable (text ∈ descriptor) := decidable_of_iff' _ mem_descriptor

instance (text : List Char) : Decidable (text ∈ numericOid) := decidable_of_iff' _ mem_numericOid

instance (text : List Char) : Decidable (text ∈ oid) :=
  inferInstanceAs (Decidable (text ∈ descriptor ∨ text ∈ numericOid))

/-- A text without quotes and backslashes is its own escaped form. -/
theorem self_mem_escapedText {text : List Char} (plain : ∀ c ∈ text, c ≠ '\'' ∧ c ≠ '\\') :
    text ∈ escapedText text := by
  induction text with
  | nil => exact Language.nil_mem_one
  | cons c text ih =>
    obtain ⟨⟨quote, backslash⟩, plain⟩ := List.forall_mem_cons.1 plain
    rw [escapedText, List.map_cons, List.prod_cons, escaped, if_neg quote, if_neg backslash]
    exact cons_mem_sign_mul (ih plain)

/-- The escaped form of a character has one more than the character. -/
theorem atLeast_escaped (c : Char) :
    AtLeast 1 (escaped c) ∧ (c = '\'' ∨ c = '\\' → AtLeast 3 (escaped c)) := by
  rw [escaped]
  split
  · exact ⟨(AtLeast.keyword _).mono (by decide), fun _ => AtLeast.keyword _⟩
  · split
    · exact ⟨(AtLeast.keyword _).mono (by decide), fun _ => AtLeast.keyword _⟩
    · rename_i quote backslash
      exact ⟨.sign, fun special => (special.elim quote backslash).elim⟩

/-- An escaped form is not shorter than the text. -/
theorem atLeast_escapedText (text : List Char) : AtLeast text.length (escapedText text) := by
  induction text with
  | nil => exact .any
  | cons c text ih =>
    rw [escapedText, List.map_cons, List.prod_cons, List.length_cons, Nat.add_comm]
    exact (atLeast_escaped c).1.mul ih

/-- An escaped form is longer than the text if there is anything to escape. -/
theorem atLeast_escapedText_of_special {text : List Char}
    (special : ∃ c ∈ text, c = '\'' ∨ c = '\\') :
    AtLeast (text.length + 2) (escapedText text) := by
  obtain ⟨c, within, sign⟩ := special
  obtain ⟨front, back, rfl⟩ := List.append_of_mem within
  have hfront := atLeast_escapedText front
  have hback := atLeast_escapedText back
  have hparts := hfront.mul (((atLeast_escaped c).2 sign).mul hback)
  rw [escapedText, List.map_append, List.prod_append, List.map_cons, List.prod_cons]
  refine hparts.mono ?_
  rw [List.length_append, List.length_cons]
  omega

/-- The escaped form of a text that is not empty is a text. -/
theorem escapedText_le {text : List Char} (described : text ≠ []) :
    escapedText text ≤ textString := by
  have hone (c : Char) : escaped c ≤ textCharacter := fun _ member => ⟨c, member⟩
  have hany (text : List Char) : escapedText text ≤ textCharacter∗ := by
    induction text with
    | nil => exact one_le_kstar
    | cons c text ih =>
      rw [escapedText, List.map_cons, List.prod_cons]
      exact (mul_le_mul' (hone c) ih).trans many_le_kstar
  obtain ⟨c, rest, rfl⟩ := List.exists_cons_of_ne_nil described
  rw [escapedText, List.map_cons, List.prod_cons]
  exact mul_le_mul' (hone c) (hany rest)

theorem over_sizedOid : Over IsTight sizedOid :=
  over_numericOid.mul
    ((Over.sign (by decide)).mul (over_number.mul (Over.sign (by decide)))).optional

theorem starts_sizedOid : Starts IsTight sizedOid :=
  (starts_numericOid.mono fun _ => isTight_of_isDigit).mul

/-- The keyword of a usage is one word. -/
theorem over_usage : Over IsTight usage := by
  have hword (name : String) (isKeyword : IsKeyword name) := isKeyword.tight
  exact (((hword _ (by decide)).add (hword _ (by decide))).add (hword _ (by decide))).add
    (hword _ (by decide))

theorem starts_usage : Starts IsTight usage := by
  have hword (name : String) (isKeyword : IsKeyword name) : Starts IsTight (keyword name) :=
    isKeyword.starts.mono fun c word => word.1
  exact (((hword _ (by decide)).add (hword _ (by decide))).add (hword _ (by decide))).add
    (hword _ (by decide))

end DirectoryService.Production
