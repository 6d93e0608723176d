import DirectoryService.Credential.Principal
import DirectoryService.Entry.Record
import DirectoryService.Proofs.Entry.Timestamp
import DirectoryService.Proofs.Json.RoundTrip
import DirectoryService.Proofs.NameMap
import DirectoryService.Schema.Record
import Mathlib.Data.List.Basic

/-!
# Reading kept records

Every record that is kept as JSON is read back from its text as it was. A way to write records and a
way to read them that fit together are called faithful; faithful ways for the parts of a record make
a faithful way for the whole.
-/

namespace DirectoryService

namespace Json

variable {α β : Type}

/-- Items that are read back one by one are read back one after the other. -/
theorem mapM_map {write : α → β} {read : β → Option α}
    (back : ∀ record, read (write record) = some record) (records : List α) :
    (records.map write).mapM read = some records := by
  induction records with
  | nil => rfl
  | cons record records ih =>
    rw [List.map_cons, List.mapM_cons, back, ih]
    rfl

/-- A way to write records from which a way to read them gets every record back. -/
structure Faithful (write : α → Json) (read : Json → Option α) : Prop where
  /-- What is written has no numbers but integers. -/
  exact : ∀ record, (write record).Exact
  /-- What is written is read as it was. -/
  back : ∀ record, read (write record) = some record

namespace Faithful

variable {write : α → Json} {read : Json → Option α}

/-- A record is read back from its text. -/
theorem parse (faithful : Faithful write read) (record : α) :
    (parse? (write record).render).bind read = some record := by
  rw [(faithful.exact record).parse?_render, Option.bind_some, faithful.back]

/-- A list of records is read back. -/
theorem list (faithful : Faithful write read) :
    Faithful (fun records => .list (records.map write)) (list? read) where
  exact records := .list fun item member => by
    obtain ⟨record, -, rfl⟩ := List.mem_map.1 member
    exact faithful.exact record
  back records := mapM_map faithful.back records

/-- A part that has to be there is read back. -/
theorem required (faithful : Faithful write read) (record : α) :
    Json.required read (some (write record)) = some record := faithful.back record

/-- A part with a value of its own is read back. -/
theorem defaulted (faithful : Faithful write read) (value record : α) :
    Json.defaulted value read (some (write record)) = some record := faithful.back record

end Faithful

/-- Fields of different names are found at their names. -/
theorem map_field? {fields : List (String × Json)} (distinct : (fields.map (·.1)).Nodup) :
    (fields.map (·.1)).map (field? · fields) = fields.map fun field => some field.2 := by
  rw [List.map_map]
  refine List.map_congr_left fun field member => ?_
  induction fields with
  | nil => cases member
  | cons first fields ih =>
    rw [List.map_cons, List.nodup_cons] at distinct
    rw [Function.comp_apply, field?]
    rcases List.mem_cons.1 member with rfl | member
    · rw [if_pos rfl]
    · have hne : first.1 ≠ field.1 := fun same => by
        rw [same] at distinct
        exact distinct.1 (List.mem_map_of_mem member)
      rw [if_neg hne]
      exact ih distinct.2 member

/-- An object has no numbers but integers if each of its fields has none. -/
theorem Exact.record {fields : List (String × Json)}
    (parts : fields.Forall fun field => field.2.Exact) : Exact (.object fields) :=
  .object (List.forall_iff_forall_mem.1 parts)

/-- An object with one field for each part has all its parts. -/
theorem parts?_object {names : List String} {needed : Nat} {fields : List (String × Json)}
    (named : fields.map (·.1) = names) (distinct : names.Nodup) :
    parts? names needed (.object fields) = some (fields.map fun field => some field.2) := by
  subst named
  have honce : ((fields.map (·.1)).all fun name =>
      decide ((fields.filter (·.1 == name)).length ≤ 1)) = true := by
    refine List.all_eq_true.2 fun name _ => decide_eq_true ?_
    have hc := List.nodup_iff_count.1 distinct name
    rw [List.count_eq_countP, List.countP_map, List.countP_eq_length_filter] at hc
    exact hc
  rw [parts?, if_pos honce, map_field? distinct]

/-- Texts are read back. -/
theorem faithful_text : Faithful .text text? where
  exact := .text
  back _ := rfl

/-- Lists of texts are read back. -/
theorem faithful_texts : Faithful texts texts? := faithful_text.list

/-- A text that may be absent is read back. -/
theorem optional?_optional (value : Option String) :
    optional? text? (some (optional value)) = some value := by
  cases value <;> rfl

/-- A text that may be absent has no numbers. -/
theorem exact_optional (value : Option String) : (optional value).Exact := by
  cases value with
  | none => exact .null
  | some content => exact .text content

end Json

/-- Attributes are read back. -/
theorem Attributes.faithful : Json.Faithful toJson ofJson? where
  exact attributes := by
    refine .object fun field member => ?_
    obtain ⟨pair, -, rfl⟩ := List.mem_map.1 member
    exact Json.faithful_texts.exact pair.2
  back attributes := by
    have hpair (pair : String × List String) :
        (Json.texts? (Json.texts pair.2)).map (pair.1, ·) = some pair :=
      congrArg (Option.map (pair.1, ·)) (Json.faithful_texts.back pair.2)
    rw [toJson, ofJson?]
    exact (congrArg (Option.map NameMap.ofList) (Json.mapM_map hpair attributes.pairs)).trans
      (congrArg some (NameMap.ofList_pairs attributes))

/-- Entries are read back. -/
theorem Entry.faithful : Json.Faithful toJson ofJson? where
  exact entry := by
    rw [toJson]
    exact .record ⟨.text _, Json.exact_optional _, .text _, Json.faithful_texts.exact _,
      Attributes.faithful.exact _, Attributes.faithful.exact _⟩
  back entry := by
    rw [ofJson?, toJson, Json.parts?_object]
    · simp only [List.map_cons, List.map_nil, Json.faithful_text.required,
        Json.optional?_optional, Json.faithful_texts.required, Attributes.faithful.required,
        Option.bind_eq_bind, Option.bind_some]
      rfl
    · rfl
    · decide

/-- Principals are read back. -/
theorem Principal.faithful : Json.Faithful toJson ofJson? where
  exact principal := by
    rw [toJson]
    exact .record ⟨.text _, .text _, .text _, .text _⟩
  back principal := by
    rw [ofJson?, toJson, Json.parts?_object]
    · simp only [List.map_cons, List.map_nil, Json.faithful_text.required,
        Timestamp.parse?_render, Option.bind_eq_bind, Option.bind_some]
      rfl
    · rfl
    · decide

/-- Syntaxes are read back. -/
theorem LdapSyntax.faithful : Json.Faithful toJson ofJson? where
  exact definition := by
    rw [toJson]
    exact .record ⟨.text _, .text _⟩
  back definition := by
    rw [ofJson?, toJson, Json.parts?_object]
    · simp only [List.map_cons, List.map_nil, Json.faithful_text.required, Option.bind_eq_bind,
        Option.bind_some]
      rfl
    · rfl
    · decide

/-- Matching rules are read back. -/
theorem MatchingRule.faithful : Json.Faithful toJson ofJson? where
  exact definition := by
    rw [toJson]
    exact .record ⟨.text _, .text _, Json.faithful_texts.exact _, .text _⟩
  back definition := by
    rw [ofJson?, toJson, Json.parts?_object]
    · simp only [List.map_cons, List.map_nil, Json.faithful_text.required,
        Json.faithful_texts.defaulted, Option.bind_eq_bind, Option.bind_some]
      rfl
    · rfl
    · decide

/-- Flags are read back. -/
theorem AttributeFlags.faithful : Json.Faithful toJson ofJson? where
  exact flags := .integer flags.bits.toNat
  back flags := by
    have hbits := flags.bits.toNat_lt
    have hrange : (0 : Int) ≤ flags.bits.toNat ∧ (flags.bits.toNat : Int) ≤ 255 := by omega
    rw [toJson, ofJson?, if_pos hrange, Int.toNat_natCast, UInt8.ofNat_toNat]

/-- Usages are read back. -/
theorem AttributeUsage.faithful :
    Json.Faithful (fun usage => .text usage.keyword) AttributeUsage.ofJson? where
  exact usage := .text usage.keyword
  back usage := by cases usage <;> decide

/-- Attribute types are read back. -/
theorem AttributeType.faithful : Json.Faithful toJson ofJson? where
  exact definition := by
    rw [toJson]
    exact .record ⟨.text _, .text _, Json.faithful_texts.exact _, Json.exact_optional _,
      Json.exact_optional _, Json.exact_optional _, Json.exact_optional _, Json.exact_optional _,
      AttributeFlags.faithful.exact _, .text _⟩
  back definition := by
    rw [ofJson?, toJson, Json.parts?_object]
    · simp only [List.map_cons, List.map_nil, Json.faithful_text.required,
        Json.faithful_texts.defaulted, Json.optional?_optional, AttributeFlags.faithful.defaulted,
        AttributeUsage.faithful.defaulted, Option.bind_eq_bind, Option.bind_some]
      rfl
    · rfl
    · decide

/-- Kinds of classes are read back. -/
theorem ClassKind.faithful : Json.Faithful (fun kind => .text kind.label) ClassKind.ofJson? where
  exact kind := .text kind.label
  back kind := by cases kind <;> decide

/-- Object classes are read back. -/
theorem ObjectClass.faithful : Json.Faithful toJson ofJson? where
  exact definition := by
    rw [toJson]
    exact .record ⟨.text _, .text _, Json.faithful_texts.exact _, Json.exact_optional _, .text _,
      Json.faithful_texts.exact _, Json.faithful_texts.exact _⟩
  back definition := by
    rw [ofJson?, toJson, Json.parts?_object]
    · simp only [List.map_cons, List.map_nil, Json.faithful_text.required,
        Json.faithful_texts.defaulted, Json.optional?_optional, ClassKind.faithful.required,
        Option.bind_eq_bind, Option.bind_some]
      rfl
    · rfl
    · decide

end DirectoryService
