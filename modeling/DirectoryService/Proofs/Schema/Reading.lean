import DirectoryService.Proofs.Schema.Description
import DirectoryService.Proofs.Schema.Production

/-!
# Reading a description by its production

A text is a list of clauses in the order of a production exactly if its clauses fill the places of
the production one after the other. A keyword ends in front of a space, and what stands behind it
ends where the parts of its language end, so there is only one way to read the text.
-/

namespace DirectoryService.Production

open Computability

theorem mem_wsp {text : List Char} : text ∈ wsp ↔ ∀ c ∈ text, c = ' ' := by
  constructor
  · have hspace : Over (· = ' ') (sign ' ') := Over.sign rfl
    exact fun member => hspace.kstar text member
  · intro spaces
    refine mem_kstar fun c member => ?_
    rw [spaces c member]
    exact mem_sign.2 rfl

/-- A space separates. -/
theorem space_mem_sp : [' '] ∈ sp := by
  have hnone : ([] : List Char) ∈ (sign ' ')∗ := Language.nil_mem_kstar _
  exact cons_mem_sign_mul hnone

theorem space_mem_wsp : [' '] ∈ wsp := many_le_kstar space_mem_sp

/-- What closes a list or a description. -/
theorem close_mem : [' ', ')'] ∈ wsp * sign ')' :=
  Language.append_mem_mul space_mem_wsp (mem_sign.2 rfl)

theorem close_mem_ending : [' ', ')'] ∈ ending :=
  Language.append_mem_mul (Language.nil_mem_kstar _) close_mem

theorem starts_sp {character : Char → Prop} (space : character ' ') : Starts character sp :=
  (Starts.sign space).mul

/-- Spaces end where the next part starts. -/
theorem mem_of_spaces_mul {language : Language Char} {spaces rest : List Char}
    (starts : Starts (· ≠ ' ') language) (hspaces : ∀ c ∈ spaces, c = ' ')
    (hrest : ∃ c ∈ rest.head?, c ≠ ' ') (member : spaces ++ rest ∈ wsp * language) :
    rest ∈ language := by
  obtain ⟨front, hfront, back, hback, same⟩ := Language.mem_mul.1 member
  have hstop {text : List Char} (starts : ∃ c ∈ text.head?, c ≠ ' ') :
      ∀ c ∈ text.head?, c ≠ ' ' := by
    obtain ⟨c, head, other⟩ := starts
    intro d first
    rwa [← Option.some.inj (head.symm.trans first)]
  obtain ⟨-, rfl⟩ := append_inj_of_kind _ (mem_wsp.1 hfront) hspaces (hstop (starts back hback))
    (hstop hrest) same
  exact hback

/-- Words end in front of the rest of a text. -/
def IsBreak (text : List Char) : Prop := ∀ c ∈ text.head?, ¬ IsTight c

theorem isBreak_cons {c : Char} {text : List Char} (loose : ¬ IsTight c) : IsBreak (c :: text) := by
  intro d head
  rwa [← Option.some.inj head]

theorem isBreak_close : IsBreak [' ', ')'] := isBreak_cons (by decide)

/-- Words end in front of other words. -/
theorem IsBreak.trailing_append {words : List (List Char)} {text : List Char}
    (stops : IsBreak text) : IsBreak (trailing words ++ text) := by
  cases words with
  | nil => exact stops
  | cons word words => exact isBreak_cons (by decide)

/-- A text of the language is told by any text that it is the front of, if words end behind it. -/
def IsDetermined (language : Language Char) : Prop :=
  ∀ first ∈ language, ∀ second ∈ language, ∀ front back, IsBreak front → IsBreak back →
    first ++ front = second ++ back → front = back

/-- Texts that words do not end in are told. -/
theorem isDetermined_of_over {language : Language Char} (limited : Over IsTight language) :
    IsDetermined language := fun first hfirst second hsecond _ _ hfront hback same =>
  (append_inj_of_kind _ (limited first hfirst) (limited second hsecond) hfront hback same).2

/-- What stands between parentheses is told if it has no closing one itself. -/
theorem isDetermined_add_parenthesised {alone list : Language Char} (limited : Over IsTight alone)
    (starts : Starts (· ≠ '(') alone) (plain : Over (· ≠ ')') list) :
    IsDetermined (alone + parenthesised list) := by
  have hopened (text : List Char) (member : text ∈ parenthesised list) :
      ∃ inner, text = '(' :: (inner ++ [')']) ∧ ')' ∉ inner := by
    obtain ⟨-, rfl, -, ⟨front, hfront, -, ⟨middle, hmiddle, -, ⟨back, hback, -, rfl, rfl⟩, rfl⟩,
      rfl⟩, rfl⟩ := member
    have hspaces (text : List Char) (member : text ∈ wsp) : ∀ c ∈ text, c ≠ ')' := by
      intro c within
      rw [mem_wsp.1 member c within]
      decide
    refine ⟨front ++ (middle ++ back), by simp, fun within => ?_⟩
    rcases List.mem_append.1 within with within | within
    · exact hspaces front hfront _ within rfl
    · rcases List.mem_append.1 within with within | within
      · exact plain middle hmiddle _ within rfl
      · exact hspaces back hback _ within rfl
  have hmixed {first inner front back : List Char} (member : first ∈ alone) :
      first ++ front ≠ '(' :: inner ++ back := by
    intro same
    obtain ⟨c, head, other⟩ := starts first member
    have hhead : c ∈ (first ++ front).head? := List.mem_head?_append_of_mem_head? head
    rw [same] at hhead
    exact other (Option.some.inj hhead).symm
  rintro first (hfirst | hfirst) second (hsecond | hsecond) front back hfront hback same
  · exact isDetermined_of_over limited first hfirst second hsecond front back hfront hback same
  · obtain ⟨inner, rfl, -⟩ := hopened second hsecond
    exact absurd same (hmixed hfirst)
  · obtain ⟨inner, rfl, -⟩ := hopened first hfirst
    exact absurd same.symm (hmixed hsecond)
  · obtain ⟨inner, rfl, hinner⟩ := hopened first hfirst
    obtain ⟨other, rfl, hother⟩ := hopened second hsecond
    simp only [List.cons_append, List.append_assoc, List.nil_append] at same
    exact (append_cons_inj hinner hother (List.cons.inj same).2).2

/-- A clause as a text. -/
def clauseText (clause : Clause) : List Char := clause.1.toList ++ trailing clause.2

theorem trailing_clauseWords_cons (clause : Clause) (rest : List Clause) :
    trailing (clauseWords (clause :: rest)) =
      ' ' :: (clauseText clause ++ trailing (clauseWords rest)) := by
  rw [clauseWords, List.flatMap_cons, List.cons_append, trailing_cons, trailing_append, clauseText,
    List.append_assoc]
  rfl

/-- Clauses fill places in their order, with texts of the places. -/
def Fill (present : List Clause) (places : List (Language Char)) : Prop :=
  List.SublistForall₂ (fun clause place => clauseText clause ∈ place) present places

/-- Clauses that fill the places of a production are a text of it. -/
theorem Fill.mem_clauses {present : List Clause} {places : List (Language Char)}
    (fills : Fill present places) : trailing (clauseWords present) ∈ clauses places := by
  induction fills with
  | @nil places =>
    induction places with
    | nil => exact Language.nil_mem_one
    | cons place places ih => exact mem_optional_mul ih
  | @cons clause place present places text _ ih =>
    rw [trailing_clauseWords_cons]
    have hclause : ' ' :: clauseText clause ∈ sp * place :=
      Language.append_mem_mul space_mem_sp text
    exact append_mem_optional_mul hclause ih
  | cons_right _ ih => exact mem_optional_mul ih

/-- What follows a clause starts with a space or closes the description. -/
theorem starts_ending : Starts (¬ IsTight ·) ending :=
  Starts.kstar_mul (starts_sp (by decide)).mul
    (Starts.kstar_mul (Starts.sign (by decide)) (Starts.sign (by decide)))

theorem starts_clauses_mul (places : List (Language Char)) :
    Starts (¬ IsTight ·) (clauses places * ending) := by
  induction places with
  | nil =>
    rw [clauses, one_mul]
    exact starts_ending
  | cons place places ih =>
    rw [clauses, mul_assoc]
    exact Starts.optional_mul (starts_sp (by decide)).mul ih

theorem Starts.isBreak {language : Language Char} (starts : Starts (¬ IsTight ·) language)
    {text : List Char} (member : text ∈ language) : IsBreak text := by
  obtain ⟨c, head, loose⟩ := starts text member
  intro d first
  rwa [← Option.some.inj (head.symm.trans first)]

/-- Behind a space, an end closes the description or is an extension. -/
theorem of_mem_ending {c : Char} {text : List Char} (word : c ≠ ' ')
    (member : ' ' :: c :: text ∈ ending) : c = ')' ∨ c.toLower = 'x' := by
  have hspace : ∀ d ∈ [' '], d = ' ' := List.forall_mem_singleton.2 rfl
  have hword : ∃ d ∈ (c :: text).head?, d ≠ ' ' := ⟨c, rfl, word⟩
  have hname : Starts (·.toLower = 'x') (keyword "X") := by
    refine Starts.keyword (by decide) fun d head => ?_
    exact (Option.some.inj head).symm
  rw [ending, ← Language.one_add_self_mul_kstar_eq_kstar, add_mul, one_mul] at member
  rcases member with closing | further
  · have hclose := mem_of_spaces_mul (Starts.sign (by decide)) hspace hword closing
    exact Or.inl (List.cons.inj (mem_sign.1 hclose)).1
  · rw [extension, mul_assoc, mul_assoc, mul_assoc] at further
    have hspaces : sp ≤ wsp := many_le_kstar
    have hstarts : Starts (· ≠ ' ') (keyword "X") := hname.mono fun d cross => by
      rintro rfl
      exact absurd cross (by decide)
    have hrest := mem_of_spaces_mul hstarts.mul hspace hword (mul_le_mul_left hspaces _ further)
    obtain ⟨d, head, cross⟩ := hname.mul _ hrest
    rw [Option.some.inj head]
    exact Or.inr cross

/-- Behind the keyword of a slot stands what it accepts. -/
def Slot.Accepts (slot : Slot) (clause : Clause) : Prop :=
  clause.1 = slot.name ∧ trailing clause.2 ∈ slot.behind

/-- What stands behind the keyword of a slot is told by any text that it is the front of. -/
def Slot.IsReadable (slot : Slot) : Prop :=
  ∀ argument ∈ slot.argument, IsDetermined argument ∧ Starts (· ≠ ' ') argument

namespace Slot

variable {slot : Slot} {clause : Clause}

/-- A clause that a slot accepts is a text of it. -/
theorem Accepts.mem_language (accepted : slot.Accepts clause) :
    clauseText clause ∈ slot.language := by
  rw [clauseText, accepted.1]
  exact Language.append_mem_mul (self_mem_keyword _) accepted.2

/-- Words end in front of what stands behind a keyword. -/
theorem starts_behind_mul {rest : Language Char} (starts : Starts (¬ IsTight ·) rest) :
    Starts (¬ IsTight ·) (slot.behind * rest) := by
  rw [behind]
  cases slot.argument with
  | none => exact (one_mul rest).symm ▸ starts
  | some argument => exact (starts_sp (by decide)).mul.mul

/-- A clause in front of what a slot's clause stands in front of is accepted by the slot, if any
slot of that keyword accepts it. -/
theorem accepts_of_mem {other : Slot} {rest : Language Char} {more : List Char}
    (starts : Starts (¬ IsTight ·) rest) (stops : IsBreak more) (accepted : other.Accepts clause)
    (readable : other.IsReadable)
    (same : Ascii.fold other.name = Ascii.fold slot.name → other = slot)
    (member : ' ' :: (clauseText clause ++ more) ∈ sp * slot.language * rest) :
    slot.Accepts clause ∧ more ∈ rest := by
  have hspaces : sp ≤ wsp := many_le_kstar
  have hkeyword := self_mem_keyword other.name
  obtain ⟨c, head, ⟨space, -⟩, -⟩ := other.isKeyword.starts _ hkeyword
  rw [mul_assoc, language, mul_assoc] at member
  rw [clauseText, accepted.1, List.append_assoc] at member
  have hclause := mem_of_spaces_mul (slot.isKeyword.starts.mono fun c word => word.1.1).mul
    (List.forall_mem_singleton.2 rfl) ⟨c, List.mem_head?_append_of_mem_head? head, space⟩
    (mul_le_mul_left hspaces _ member)
  obtain ⟨name, hname, tail, htail, split⟩ := Language.mem_mul.1 hclause
  obtain ⟨rfl, rfl⟩ := append_inj_of_kind _ (slot.isKeyword.tight name hname)
    (other.isKeyword.tight _ hkeyword) ((starts_behind_mul starts).isBreak htail)
    stops.trailing_append split
  obtain rfl := same (mem_keyword.1 hname)
  refine ⟨accepted, ?_⟩
  have haccepted := accepted.2
  rw [behind] at htail haccepted
  cases hargument : other.argument with
  | none =>
    rw [hargument, Option.elim_none] at htail haccepted
    rwa [one_mul, (Language.mem_one _).1 haccepted] at htail
  | some argument =>
    rw [hargument, Option.elim_some] at htail haccepted
    obtain ⟨determined, begins⟩ := readable argument hargument
    obtain ⟨spaces, hfront, text, htext, hwords⟩ := Language.mem_mul.1 haccepted
    obtain ⟨d, first, solid⟩ := begins text htext
    rw [mul_assoc, ← hwords, List.append_assoc] at htail
    have hrest := mem_of_spaces_mul begins.mul (mem_wsp.1 (hspaces hfront))
      ⟨d, List.mem_head?_append_of_mem_head? first, solid⟩ (mul_le_mul_left hspaces _ htail)
    obtain ⟨read, hread, back, hback, cut⟩ := Language.mem_mul.1 hrest
    rwa [determined text htext read hread more back stops (starts.isBreak hback) cut.symm]

end Slot

/-- A text is clauses of a production in front of its end only if they fill its places in order. -/
theorem sublistForall₂_of_mem {table slots : List Slot} {present : List Clause}
    (distinct : (table.map fun slot => Ascii.fold slot.name).Nodup) (within : slots ⊆ table)
    (readable : ∀ clause ∈ present, ∃ slot ∈ table, slot.Accepts clause ∧ slot.IsReadable)
    (member : trailing (clauseWords present) ++ [' ', ')'] ∈
      clauses (slots.map Slot.language) * ending) :
    List.SublistForall₂ (fun clause slot => slot.Accepts clause) present slots := by
  induction slots generalizing present with
  | nil =>
    cases present with
    | nil => exact .nil
    | cons clause present =>
      -- The keyword would have to be the end of the description or that of an extension.
      obtain ⟨slot, -, accepted, -⟩ := readable clause List.mem_cons_self
      obtain ⟨c, head, ⟨space, closing⟩, cross⟩ :=
        slot.isKeyword.starts _ (self_mem_keyword slot.name)
      obtain ⟨rest, hname⟩ := List.head?_eq_some_iff.1 head
      rw [List.map_nil, clauses, one_mul, trailing_clauseWords_cons, clauseText, accepted.1, hname]
        at member
      rcases of_mem_ending space member with close | other
      · exact absurd close closing
      · exact absurd other cross
  | cons slot slots ih =>
    obtain ⟨among, within⟩ := List.cons_subset.1 within
    cases present with
    | nil => exact .nil
    | cons clause present =>
      rw [List.map_cons, clauses, mul_assoc, optional, add_mul, one_mul] at member
      rcases member with skipped | taken
      · exact .cons_right (ih within readable skipped)
      · obtain ⟨other, listed, accepted, legible⟩ := readable clause List.mem_cons_self
        rw [trailing_clauseWords_cons, List.cons_append, List.append_assoc] at taken
        obtain ⟨haccepts, hrest⟩ := Slot.accepts_of_mem (starts_clauses_mul _)
          isBreak_close.trailing_append accepted legible
          (List.inj_on_of_nodup_map distinct listed among) taken
        exact .cons haccepts (ih within (fun one member =>
          readable one (List.mem_cons_of_mem _ member)) hrest)

/-- Clauses that slots accept in order have the keywords of these slots in order. -/
theorem keywords_sublist {slots : List Slot} {present : List Clause}
    (fills : List.SublistForall₂ (fun clause slot => slot.Accepts clause) present slots) :
    List.Sublist (present.map Prod.fst) (slots.map Slot.name) := by
  induction fills with
  | nil => exact List.nil_sublist _
  | cons accepted _ ih =>
    rw [List.map_cons, List.map_cons, accepted.1]
    exact ih.cons_cons _
  | cons_right _ ih => exact ih.cons _

end DirectoryService.Production
