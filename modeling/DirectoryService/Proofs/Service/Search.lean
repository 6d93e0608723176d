import DirectoryService.Proofs.Message.SearchEntry
import DirectoryService.Proofs.Request.Shape
import DirectoryService.Proofs.Service.Selection
import DirectoryService.Proofs.Store.Selection
import DirectoryService.Proofs.Text.Order
import DirectoryService.Service.Search

/-!
# What a search finds

A search of a store in memory is answered by a fact about the server, by the schema, or by exactly
the stored entries of its scope, in the order of their names and with all their attributes. Nothing
of a request has a part in its answer but the base, the scope and the attributes asked for.
-/

namespace DirectoryService

/-- An entry belongs to a scope of a base. -/
def SearchScope.Covers (base : String) (entry : Entry) : SearchScope → Prop
  | .base => entry.dn = base
  | .oneLevel => entry.parent = some base
  | .subtree => base.toList <:+ entry.dn.toList

/-- Found attributes are those of a map, in the order of their names. -/
structure FoundAttribute.Lists (found : List FoundAttribute) (attributes : Attributes) : Prop where
  /-- Their names increase. -/
  increasing : found.Pairwise fun left right => Order.OctetsBefore left.name right.name
  /-- An attribute is among them exactly if it has these values in the map. -/
  mem_iff : ∀ name values, ⟨name, values⟩ ∈ found ↔ attributes.get? name = some values

/-- An entry is shown: its name, and all attributes of users, then all of the server, then its
classes. -/
structure SearchEntry.Shows (entry : Entry) (found : SearchEntry) : Prop where
  /-- The name is the one of the entry. -/
  name_eq : found.name = entry.dn
  /-- The attributes are those of the entry. -/
  attributes_eq : ∃ user operational, found.attributes =
    user ++ operational ++ [⟨"objectClass", "top" :: entry.objectClasses⟩] ∧
      FoundAttribute.Lists user entry.userAttributes ∧
      FoundAttribute.Lists operational entry.operationalAttributes

namespace Search

/-- What a request is answered with: the entries that are found, and the result. -/
inductive Answers (memory : MemoryStore) (catalog : Catalog) (request : SearchRequest) :
    List SearchEntry → ResultCode → Prop where
  /-- The place of the schema is asked for. -/
  | subschema (asked : Selection.Asks request.attributes "subschemaSubentry") :
      Answers memory catalog request [⟨"", [⟨"subschemaSubentry", ["cn=schema"]⟩]⟩] .success
  /-- The roots of the directory are asked for: the names of the entries without parent. -/
  | namingContexts {roots} (unasked : ¬ Selection.Asks request.attributes "subschemaSubentry")
      (asked : Selection.Asks request.attributes "namingContexts")
      (increasing : roots.Pairwise Order.OctetsBefore)
      (mem_iff : ∀ dn, dn ∈ roots ↔
        ∃ entry, memory.entries.get? dn = some entry ∧ entry.parent = none) :
      Answers memory catalog request [⟨"", [⟨"namingContexts", roots⟩]⟩] .success
  /-- The base is the schema, which is shown with the sections that are listed without `1.1`. -/
  | schema (unasked : ¬ Selection.Asks request.attributes "subschemaSubentry" ∧
        ¬ Selection.Asks request.attributes "namingContexts")
      (base : Ascii.same request.base "cn=schema" = true) :
      Answers memory catalog request [⟨"cn=schema",
        [⟨"cn", ["schema"]⟩, ⟨"objectClass", ["top"]⟩, ⟨"objectClass", ["ldapSubentry"]⟩,
          ⟨"objectClass", ["subschema"]⟩] ++
          ((schemaSections catalog).filter fun shown =>
            "1.1" ∉ request.attributes ∧ shown.1 ∈ request.attributes).map
              fun shown => ⟨shown.1, shown.2⟩⟩] .success
  /-- The stored entries of the scope are shown, in the order of their names. -/
  | directory {entries found} (unasked : ¬ Selection.Asks request.attributes "subschemaSubentry" ∧
        ¬ Selection.Asks request.attributes "namingContexts")
      (base : Ascii.same request.base "cn=schema" = false)
      (increasing : entries.Pairwise fun left right => Order.OctetsBefore left.dn right.dn)
      (mem_iff : ∀ entry, entry ∈ entries ↔ memory.entries.get? entry.dn = some entry ∧
        request.scope.Covers request.base entry)
      (shows : List.Forall₂ SearchEntry.Shows entries found) :
      Answers memory catalog request found
        (if request.scope = .base ∧ entries = [] then .noSuchObject else .success)

variable {memory : MemoryStore} {catalog : Catalog} {request : SearchRequest}

/-- Attributes are listed as they are kept. -/
theorem lists_pairs (attributes : Attributes) :
    FoundAttribute.Lists (attributes.pairs.map fun pair => ⟨pair.1, pair.2⟩) attributes where
  increasing := by
    refine List.pairwise_map.2 (attributes.ordered.imp fun before => ?_)
    exact Order.octetsBefore_iff.2 before
  mem_iff name values := by
    rw [← NameMap.mem_pairs_iff, List.mem_map]
    constructor
    · intro listed
      obtain ⟨⟨key, kept⟩, member, same⟩ := listed
      cases same
      exact member
    · intro member
      exact ⟨(name, values), member, rfl⟩

/-- An entry of the directory is shown as it is stored. -/
theorem shows_directoryEntry (entry : Entry) : SearchEntry.Shows entry (directoryEntry entry) where
  name_eq := rfl
  attributes_eq := by
    refine ⟨_, _, ?_, lists_pairs entry.userAttributes, lists_pairs entry.operationalAttributes⟩
    rw [← List.map_append]
    rfl

/-- The sections of the schema that are shown are those that are listed without `1.1`. -/
theorem schemaEntry_ofNames (catalog : Catalog) (names : List String) :
    schemaEntry catalog (.ofNames names) = bareSchemaEntry.addAll ((schemaSections catalog).filter
      fun shown => noAttributes ∉ names ∧ shown.1 ∈ names) := by
  rw [schemaEntry]
  refine congrArg bareSchemaEntry.addAll (List.filter_congr fun shown member => ?_)
  -- No section has the name of a fact about the server.
  have hnames : ∀ name ∈ ["ldapSyntaxes", "objectClasses", "matchingRules", "attributeTypes"],
      Selection.isFact name = false := by decide +kernel
  have hplain : Selection.isFact shown.1 = false :=
    hnames shown.1 (List.mem_map_of_mem member : shown.1 ∈ (schemaSections catalog).map (·.1))
  rw [Bool.eq_iff_iff, Selection.contains_ofNames, decide_eq_true_iff]
  simp only [hplain, and_true]

/-- The names of the entries without parent, in their order. -/
theorem answers_namingContexts (tidy : memory.IsTidy)
    (unasked : ¬ Selection.Asks request.attributes subschemaAttribute)
    (asked : Selection.Asks request.attributes namingContextsAttribute) :
    Answers memory catalog request [namingContextsEntry (memory.select Entry.isRoot)] .success := by
  have hroot (entry : Entry) : entry.isRoot = true ↔ entry.parent = none := Option.isNone_iff_eq_none
  refine .namingContexts unasked asked ?_ fun dn => ?_
  · refine List.pairwise_map.2 ((tidy.select_ordered Entry.isRoot).imp fun before => ?_)
    exact Order.octetsBefore_iff.2 before
  · rw [List.mem_map]
    constructor
    · intro listed
      obtain ⟨entry, member, rfl⟩ := listed
      obtain ⟨found, root⟩ := tidy.mem_select_iff.1 member
      exact ⟨entry, found, (hroot entry).1 root⟩
    · intro stored
      obtain ⟨entry, found, root⟩ := stored
      have hdn := tidy.named dn entry found
      subst hdn
      exact ⟨entry, tidy.mem_select_iff.2 ⟨found, (hroot entry).2 root⟩, rfl⟩

/-- What a store in memory answers to a search of a scope. -/
def inScope (memory : MemoryStore) (base : String) : SearchScope → List Entry
  | .base => (memory.entries.get? base).toList
  | .oneLevel => memory.select fun entry => entry.parent == some base
  | .subtree => memory.select (·.inSubtreeOf base)

/-- The entries of a scope come in the order of their names. -/
theorem inScope_increasing (tidy : memory.IsTidy) (base : String) (scope : SearchScope) :
    (inScope memory base scope).Pairwise fun left right => Order.OctetsBefore left.dn right.dn := by
  have hselect (condition : Entry → Bool) : (memory.select condition).Pairwise
      fun left right => Order.OctetsBefore left.dn right.dn :=
    (tidy.select_ordered condition).imp fun before => Order.octetsBefore_iff.2 before
  cases scope with
  | base =>
    rw [inScope]
    cases memory.entries.get? base with
    | none => exact .nil
    | some entry => exact List.pairwise_singleton _ _
  | oneLevel => exact hselect _
  | subtree => exact hselect _

/-- The entries of a scope are the stored ones that belong to it. -/
theorem mem_inScope_iff (tidy : memory.IsTidy) {base : String} {scope : SearchScope}
    {entry : Entry} : entry ∈ inScope memory base scope ↔
      memory.entries.get? entry.dn = some entry ∧ scope.Covers base entry := by
  cases scope with
  | base =>
    rw [inScope, Option.mem_toList, SearchScope.Covers]
    constructor
    · intro found
      have hdn := tidy.named base entry found
      rw [hdn]
      exact ⟨found, rfl⟩
    · intro stored
      obtain ⟨found, rfl⟩ := stored
      exact found
  | oneLevel => rw [inScope, tidy.mem_select_iff, SearchScope.Covers, beq_iff_eq]
  | subtree =>
    rw [inScope, tidy.mem_select_iff, SearchScope.Covers, Entry.inSubtreeOf,
      List.isSuffixOf_iff_suffix]

/-- No other entries than those of the scope come in this order. -/
theorem eq_inScope (tidy : memory.IsTidy) {base : String} {scope : SearchScope}
    {entries : List Entry}
    (increasing : entries.Pairwise fun left right => Order.OctetsBefore left.dn right.dn)
    (mem_iff : ∀ entry, entry ∈ entries ↔ memory.entries.get? entry.dn = some entry ∧
      scope.Covers base entry) : entries = inScope memory base scope := by
  have hentries := increasing.imp Order.octetsBefore_iff.1
  have hscope := (inScope_increasing tidy base scope).imp Order.octetsBefore_iff.1
  refine Order.eq_of_increasing hentries hscope fun entry => ?_
  rw [mem_iff, mem_inScope_iff tidy]

/-- The entries of a scope are shown, and the result tells whether the base is missing. -/
theorem answers_directory (tidy : memory.IsTidy)
    (unasked : ¬ Selection.Asks request.attributes subschemaAttribute ∧
      ¬ Selection.Asks request.attributes namingContextsAttribute)
    (base : Ascii.same request.base schemaName = false) :
    Answers memory catalog request
      ((inScope memory request.base request.scope).map directoryEntry)
      (if request.scope = .base ∧ inScope memory request.base request.scope = [] then .noSuchObject
        else .success) := by
  refine .directory unasked base (inScope_increasing tidy _ _) (fun entry => mem_inScope_iff tidy) ?_
  rw [List.forall₂_map_right_iff, List.forall₂_same]
  exact fun entry _ => shows_directoryEntry entry

/-- A search of the directory is answered on the path of its scope. -/
theorem exists_answers_directory (tidy : memory.IsTidy)
    (unasked : ¬ Selection.Asks request.attributes subschemaAttribute ∧
      ¬ Selection.Asks request.attributes namingContextsAttribute)
    (base : Ascii.same request.base schemaName = false) (selection : Selection) :
    let path : SearchPath := match request.scope with
      | .base => .base
      | .oneLevel => .oneLevel
      | .subtree => .subtree
    ∃ found, (entriesOn path ⟨memory.toStore, catalog⟩ request.base selection).value = .ok found ∧
      Answers memory catalog request found (resultOf path found) := by
  have hanswers := @answers_directory memory catalog request tidy unasked base
  refine ⟨(inScope memory request.base request.scope).map directoryEntry, ?_, ?_⟩
  · cases request.scope with
    | base => rfl
    | oneLevel => rfl
    | subtree => rfl
  · cases scope : request.scope with
    | base =>
      rw [scope] at hanswers
      simpa only [resultOf, List.map_eq_nil_iff] using hanswers
    | oneLevel =>
      rw [scope] at hanswers
      exact hanswers
    | subtree =>
      rw [scope] at hanswers
      exact hanswers

/-- Every request is answered by a store in memory. -/
theorem exists_answers (tidy : memory.IsTidy) (catalog : Catalog) (request : SearchRequest) :
    ∃ found, (entriesOn (pathOf request (.ofNames request.attributes)) ⟨memory.toStore, catalog⟩
        request.base (.ofNames request.attributes)).value = .ok found ∧
      Answers memory catalog request found
        (resultOf (pathOf request (.ofNames request.attributes)) found) := by
  have hsubschema := Selection.subschema_ofNames request.attributes
  have hcontexts := Selection.namingContexts_ofNames request.attributes
  unfold pathOf
  by_cases first : (Selection.ofNames request.attributes).subschema = true
  · rw [if_pos first]
    exact ⟨_, rfl, .subschema (hsubschema.1 first)⟩
  · rw [if_neg first]
    have unfirst := mt hsubschema.2 first
    by_cases second : (Selection.ofNames request.attributes).namingContexts = true
    · rw [if_pos second]
      exact ⟨_, rfl, answers_namingContexts tidy unfirst (hcontexts.1 second)⟩
    · rw [if_neg second]
      have unasked := And.intro unfirst (mt hcontexts.2 second)
      by_cases base : Ascii.same request.base schemaName = true
      · rw [if_pos base]
        refine ⟨_, rfl, ?_⟩
        rw [schemaEntry_ofNames]
        exact .schema unasked base
      · rw [if_neg base]
        exact exists_answers_directory tidy unasked (Bool.eq_false_iff.2 base) _

/-- A search request is always answered from a store in memory, however it was filled, with a
message for each entry that it is to be answered with, in their order, and one message that tells
the result; and no part of it but the base, the scope and the attributes has an influence on the
answer of any store. -/
theorem handler_answers (initial catalog : Catalog) (changes : List MemoryStore.Change)
    (messageId : Int) {operation : Ber.Packet} {request : SearchRequest}
    (read : SearchRequest.ofPacket operation = .ok request) :
    (∃ found messages done code,
      (handler ⟨((MemoryStore.empty initial).provision changes).toStore, catalog⟩ messageId
        operation).value = .ok ⟨messages ++ [done], false⟩ ∧
      List.Forall₂ (SearchEntry.IsIn messageId) messages found ∧
      Message.IsResult messageId 5 code "Search Result Done" done ∧
      Answers ((MemoryStore.empty initial).provision changes) catalog request found code) ∧
    ∀ context other same, SearchRequest.ofPacket other = .ok same →
      same.base = request.base → same.scope = request.scope →
      same.attributes = request.attributes →
        handler context messageId other = handler context messageId operation := by
  have tidy : ((MemoryStore.empty initial).provision changes).IsTidy :=
    .provision initial changes
  constructor
  · obtain ⟨found, hfound, hanswers⟩ := exists_answers tidy catalog request
    refine ⟨found, found.map (SearchEntry.toPacket messageId), _, _, ?_,
      SearchEntry.forall₂_isIn_toPacket messageId found,
      Message.isResult_searchDone_iff.2 rfl, hanswers⟩
    simp only [handler, read, answer, Counted.andThen, hfound, replyTo]
  · intro context other same reads base scope attributes
    simp only [handler, read, reads, answer, pathOf, base, scope, attributes]

/-- The entries at and below a name are found in the order of their names, here the deepest one
first, and none beside it; a name behind `1.1` is not asked for, and neither a size limit nor a
filter has an influence. -/
theorem handler_answers_subtree :
    let catalog : Catalog := ⟨[], [], [], [⟨"0", "unit", [], none, .structural, [], []⟩]⟩
    let root := (Entry.bare "c" none).declaring "unit"
    let beside := (Entry.bare "d" none).declaring "unit"
    let child := ((Entry.bare "b" (some "c")).declaring "unit").adding "cn" ["b"]
    let grandchild := (Entry.bare "a" (some "b,c")).declaring "unit"
    let changes : List MemoryStore.Change :=
      [.entry root, .entry beside, .entry child, .entry grandchild]
    let store := ((MemoryStore.empty catalog).provision changes).toStore
    let text (value : String) : Ber.Packet := .primitive .universal 4 (Utf8.encode value) ""
    let operation (limit : UInt8) (filter : Ber.Packet) : Ber.Packet :=
      .constructed .application searchRequestTag
        [text "c", .primitive .universal 10 [2] "", .primitive .universal 10 [3] "",
          .primitive .universal 2 [limit] "", .primitive .universal 2 [0] "",
          .primitive .universal 1 [0xFF] "", filter,
          .constructed .universal 16 [text "1.1", text "namingContexts"] ""] ""
    let plain := operation 0 (.constructed .context 0 [] "")
    ∃ found messages done,
      (handler ⟨store, catalog⟩ 7 plain).value = .ok ⟨messages ++ [done], false⟩ ∧
      List.Forall₂ (SearchEntry.IsIn 7) messages found ∧
      List.Forall₂ SearchEntry.Shows [grandchild, child, root] found ∧
      Message.IsResult 7 5 .success "Search Result Done" done ∧
      ∀ context limit filter,
        handler context 7 (operation limit filter) = handler context 7 plain := by
  intro catalog root beside child grandchild changes store text operation plain
  have named (value : String) : (text value).HoldsText value := ⟨"", rfl⟩
  have counted (tag : UInt32) (octet : UInt8) :
      (Ber.Packet.primitive .universal tag [octet] "").HoldsNumber tag
        (Ber.Integer.twosComplement [octet]) :=
    ⟨_, _, rfl, Nat.le_refl 1, Nat.le_add_left 1 7, rfl⟩
  have scope : (Ber.Integer.twosComplement [2], SearchScope.subtree) ∈ SearchScope.numbers := by
    decide
  have aliases :
      (Ber.Integer.twosComplement [3], AliasTreatment.always) ∈ AliasTreatment.numbers := by
    decide
  have reads (limit : UInt8) (filter : Ber.Packet) :
      SearchRequest.ofPacket (operation limit filter) =
        .ok ⟨"c", .subtree, .always, Ber.Integer.twosComplement [limit],
          Ber.Integer.twosComplement [0], true, (Filter.ofPacket filter).toOption,
          ["1.1", "namingContexts"]⟩ :=
    SearchRequest.ofPacket_eq_ok_iff.2
      { base := ⟨_, rfl, named "c"⟩
        scope := ⟨_, rfl, _, counted 10 2, scope⟩
        aliases := ⟨_, rfl, _, counted 10 3, aliases⟩
        sizeLimit := ⟨_, rfl, counted 2 limit⟩
        timeLimit := ⟨_, rfl, counted 2 0⟩
        typesOnly := ⟨_, rfl, _, _, rfl, rfl⟩
        filter := ⟨_, rfl, rfl⟩
        attributes := ⟨_, rfl, _, _, rfl, .cons (named _) (.cons (named _) .nil)⟩ }
  obtain ⟨⟨found, messages, done, code, value, shown, ends, answers⟩, alike⟩ :=
    handler_answers catalog catalog changes 7 (reads 0 (.constructed .context 0 [] ""))
  refine ⟨found, messages, done, value, shown, ?_⟩
  have tidy : ((MemoryStore.empty catalog).provision changes).IsTidy := .provision catalog changes
  cases answers with
  | subschema asked => exact absurd asked (by decide +kernel)
  | namingContexts _ asked => exact absurd asked (by decide +kernel)
  | schema _ base => exact absurd base (by decide +kernel)
  | directory _ _ increasing mem_iff shows =>
    have hentries : inScope ((MemoryStore.empty catalog).provision changes) "c" .subtree =
        [grandchild, child, root] := by decide +kernel
    rw [eq_inScope tidy increasing mem_iff, hentries] at shows
    rw [if_neg fun missing => nomatch missing.1] at ends
    exact ⟨shows, ends, fun context limit filter =>
      alike context _ _ (reads limit filter) rfl rfl rfl⟩

end Search

end DirectoryService
