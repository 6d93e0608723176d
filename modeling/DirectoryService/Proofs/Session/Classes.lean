import DirectoryService.Proofs.Message.SearchEntry
import DirectoryService.Proofs.Request.Field
import DirectoryService.Proofs.Session.Run
import DirectoryService.Proofs.Store.KeyValue.Nesting

/-!
# The classes of an entry in an answer

The attribute for the classes of an entry is made when the entry is shown, and nothing is checked
then. It is the only one of its name, and `top` stands in it once, because no store keeps an entry
that has such an attribute or declares `top`: not in memory, not on a server, and not while entries
are kept at the same time.
-/

namespace DirectoryService

/-- A found entry lists the classes of an entry of the directory. -/
structure SearchEntry.ListsClasses (entry : Entry) (found : SearchEntry) : Prop where
  /-- The name is the one of the entry. -/
  name_eq : found.name = entry.dn
  /-- The last attribute lists `top`, and then the classes that the entry declares. -/
  last_eq : found.attributes.getLast? =
    some ⟨objectClassAttribute, topClass :: entry.objectClasses⟩
  /-- One attribute has that name, in any case. -/
  once : found.attributes.countP (fun listed => Ascii.same listed.name objectClassAttribute) = 1
  /-- One class is `top`, in any case. -/
  top_once : (topClass :: entry.objectClasses).countP (Ascii.same · topClass) = 1

namespace Entry.Proper

variable {entry : Entry}

/-- No attribute that an entry has itself is for its classes. -/
theorem countP_attributes (proper : entry.Proper) :
    ((entry.userAttributes.pairs ++ entry.operationalAttributes.pairs).map
      fun pair => (⟨pair.1, pair.2⟩ : FoundAttribute)).countP
        (fun listed => Ascii.same listed.name objectClassAttribute) = 0 := by
  have hkept (attributes : Attributes) {name : String} {values : List String}
      (member : (name, values) ∈ attributes.pairs) : attributes.contains name = true :=
    NameMap.contains_iff.2 ⟨values, NameMap.mem_pairs_iff.1 member⟩
  refine List.countP_eq_zero.2 fun listed member => Bool.not_eq_true _ ▸ ?_
  obtain ⟨⟨name, values⟩, either, rfl⟩ := List.mem_map.1 member
  refine proper.not_classes name ?_
  rcases List.mem_append.1 either with user | operational
  · exact Or.inl (hkept _ user)
  · exact Or.inr (hkept _ operational)

/-- A proper entry is shown with its classes listed. -/
theorem listsClasses (proper : entry.Proper) : (directoryEntry entry).ListsClasses entry where
  name_eq := rfl
  last_eq := List.getLast?_concat
  once := by
    have hshown : (directoryEntry entry).attributes =
        (entry.userAttributes.pairs ++ entry.operationalAttributes.pairs).map
          (fun pair => ⟨pair.1, pair.2⟩) ++
        [⟨objectClassAttribute, topClass :: entry.objectClasses⟩] := rfl
    rw [hshown, List.countP_append, proper.countP_attributes, Nat.zero_add, List.countP_singleton,
      if_pos (Ascii.same_refl _)]
  top_once := by
    have hdeclared : entry.objectClasses.countP (Ascii.same · topClass) = 0 :=
      List.countP_eq_zero.2 fun className member =>
        Bool.not_eq_true _ ▸ proper.not_top className member
    rw [List.countP_cons, hdeclared, Nat.zero_add, if_pos (Ascii.same_refl _)]

end Entry.Proper

open KeyValue in
/-- A store that was filled by calls that provision it. -/
inductive Store.Provisioned : Store → Prop where
  /-- Calls were made to a store in memory. -/
  | memory (catalog : Catalog) (changes : List MemoryStore.Change) :
      Provisioned ((MemoryStore.empty catalog).provision changes).toStore
  /-- Calls were made to a server. -/
  | server (calls : List Server.Call) : Provisioned (Server.empty.afterCalls calls).toStore
  /-- Further entries are being kept on a server by calls at the same time. -/
  | concurrent (calls : List Server.Call) (entries : List Entry) (order : List ℕ) :
      Provisioned ((Concurrent.inserting (Server.empty.afterCalls calls)
        entries).turns order).server.toStore

open KeyValue in
/-- A store that was filled by calls finds the entries of a tidy store in memory. -/
theorem Store.Provisioned.exists_finds {store : Store} (provisioned : store.Provisioned) :
    ∃ memory, store.Finds memory := by
  cases provisioned with
  | memory catalog changes => exact ⟨_, (MemoryStore.IsTidy.provision catalog changes).finds⟩
  | server calls =>
    obtain ⟨memory, carries⟩ := Server.exists_carries_afterCalls calls
    exact ⟨memory, carries.finds⟩
  | concurrent calls entries order =>
    obtain ⟨memory, carries⟩ :=
      Concurrent.exists_carries_turns (Server.exists_carries_afterCalls calls) entries order
    exact ⟨memory, carries.finds⟩

/-- What is found in a scope of such a store is held and proper. -/
theorem Store.Provisioned.exists_within {store : Store} (provisioned : store.Provisioned)
    (base : String) (scope : SearchScope) : ∃ entries, store.within base scope = .ok entries ∧
      ∀ entry ∈ entries, store.Holds entry ∧ entry.Proper := by
  obtain ⟨memory, finds⟩ := provisioned.exists_finds
  obtain ⟨entries, hentries, stored⟩ := finds.exists_within base scope
  refine ⟨entries, hentries, fun entry member => ?_⟩
  obtain ⟨kept, -⟩ := stored entry member
  exact ⟨finds.holds_iff.2 kept, finds.tidy.proper entry.dn entry kept⟩

/-- A text is read from its field. -/
theorem Request.text_primitive (field : Field) (given description : String) :
    text field (.primitive .universal Ber.octetStringTag (Utf8.encode given) description) =
      .ok given :=
  text_eq_ok_iff.2 ⟨description, rfl⟩

namespace SearchRequest

variable {request : SearchRequest}

/-- A search is answered with entries of the directory. -/
def AsksDirectory (request : SearchRequest) : Prop :=
  request.path ∈ [SearchPath.base, .oneLevel, .subtree]

instance (request : SearchRequest) : Decidable request.AsksDirectory :=
  inferInstanceAs (Decidable (_ ∈ [SearchPath.base, .oneLevel, .subtree]))

/-- The way of such a search is that of its scope. -/
theorem AsksDirectory.path_eq (asks : request.AsksDirectory) :
    request.path = match request.scope with
      | .base => .base
      | .oneLevel => .oneLevel
      | .subtree => .subtree := by
  rw [AsksDirectory, path, Search.pathOf] at asks
  rw [path, Search.pathOf]
  split at asks
  · exact absurd asks (by decide)
  · split at asks
    · exact absurd asks (by decide)
    · split at asks
      · exact absurd asks (by decide)
      · rename_i subschema contexts schema
        exact (if_neg subschema).trans ((if_neg contexts).trans (if_neg schema))

/-- Such a search finds what the store finds in its scope, as it is shown. -/
theorem AsksDirectory.found_eq (asks : request.AsksDirectory) (context : Context) :
    (request.found context).value =
      (context.store.within request.base request.scope).map (·.map directoryEntry) := by
  rw [found, asks.path_eq]
  cases request.scope <;> rfl

end SearchRequest

namespace Session

/-- Every search of a session that is answered with entries of the directory is answered with one
message for each entry that the store finds in its scope, and its result. If the store was filled by
calls that provision it, the message lists the classes of the entry: in the last attribute and no
other one, with `top` in front and nowhere else. -/
theorem serveStandard_lists_classes (contexts : Nat → Context) (stop : Ber.Stop)
    (octets : List UInt8) {place : Nat} {exchange : Exchange} {packet : Ber.Packet}
    {rest : List UInt8} {envelope : Envelope} {request : SearchRequest}
    (provisioned : (contexts place).store.Provisioned)
    (at_place : (serveStandard contexts stop octets).exchanges[place]? = some exchange)
    (reading : exchange.reading = .got (some packet) rest)
    (asks : Asks packet searchRequestTag envelope)
    (read : SearchRequest.ofPacket envelope.operation = .ok request)
    (directory : request.AsksDirectory) :
    ∃ entries messages code,
      (contexts place).store.within request.base request.scope = .ok entries ∧
      (∀ entry ∈ entries, (contexts place).store.Holds entry) ∧
      exchange.messages = messages ++ [Message.searchDone envelope.messageId code] ∧
      List.Forall₂ (fun entry message => ∃ found : SearchEntry,
        SearchEntry.IsIn envelope.messageId message found ∧ found.ListsClasses entry)
          entries messages := by
  obtain ⟨entries, hentries, hproper⟩ :=
    provisioned.exists_within request.base request.scope
  obtain ⟨hmessages, -⟩ := (runs_serveStandard contexts stop octets).turn_at at_place
  have hfound := directory.found_eq (contexts place)
  rw [hentries] at hfound
  rw [reading, turn_of_search asks read] at hmessages
  simp only [hfound, Except.map] at hmessages
  refine ⟨entries, _, _, hentries, fun entry member => (hproper entry member).1, hmessages, ?_⟩
  rw [List.forall₂_map_right_iff, List.forall₂_map_right_iff, List.forall₂_same]
  intro entry member
  exact ⟨directoryEntry entry, SearchEntry.isIn_toPacket _ _, (hproper entry member).2.listsClasses⟩

/-- A search for the only entry of a directory is answered with it and its two classes. -/
theorem serveStandard_lists_classes_unit :
    let catalog : Catalog := ⟨[], [], [], [⟨"0", "unit", [], none, .structural, [], []⟩]⟩
    let root := (Entry.bare "c" none).declaring "unit"
    let contexts (_ : Nat) : Context :=
      ⟨((MemoryStore.empty catalog).provision [.entry root]).toStore, catalog⟩
    let octets : List UInt8 :=
      [0x30, 0x1B, 0x02, 0x01, 0x08, 0x63, 0x16, 0x04, 0x01, 0x63, 0x0A, 0x01, 0x00, 0x0A, 0x01,
        0x00, 0x02, 0x01, 0x00, 0x02, 0x01, 0x00, 0x01, 0x01, 0x00, 0xA0, 0x00, 0x30, 0x00]
    ∃ exchange message code found,
      (serveStandard contexts .closed octets).exchanges[0]? = some exchange ∧
      exchange.messages = [message, Message.searchDone 8 code] ∧
      SearchEntry.IsIn 8 message found ∧ found.ListsClasses root := by
  intro catalog root contexts octets
  let base : Ber.Packet := .primitive .universal Ber.octetStringTag (Utf8.encode "c") ""
  let operation : Ber.Packet := .constructed .application searchRequestTag
    [base, .primitive .universal 10 [0] "", .primitive .universal 10 [0] "",
      .primitive .universal 2 [0] "", .primitive .universal 2 [0] "",
      .primitive .universal 1 [0] "", .constructed .context 0 [] "",
      .constructed .universal Ber.sequenceTag [] ""] ""
  let packet : Ber.Packet :=
    .constructed .universal Ber.sequenceTag [.primitive .universal 2 [8] "", operation] ""
  have hfirst : (serveStandard contexts .closed octets).exchanges[0]? =
      some (exchangeOn (contexts 0) .closed octets) := by
    obtain ⟨report, run⟩ := exists_runs .closed contexts octets
    rw [run.eq_serveStandard]
    cases run <;> rfl
  have reading : (exchangeOn (contexts 0) .closed octets).reading = .got (some packet) [] := by
    have hencoded : packet.encode = octets := by decide +kernel
    have hdepth : packet.depth ≤ Ber.depthLimit := by decide +kernel
    have hsmall : packet.contents.length ≤ Ber.contentLimit := by decide +kernel
    have hframe := Ber.readFrame_encode .closed [] hdepth hsmall
    rw [hencoded, List.append_nil] at hframe
    exact hframe
  have asks : Asks packet searchRequestTag ⟨8, operation⟩ :=
    .of_routable (by rfl) (by rfl) (by rfl)
  have read : SearchRequest.ofPacket operation =
      .ok ⟨"c", .base, .never, 0, 0, false, some (.conjunction []), []⟩ := by
    have hbase : Request.require operation 0 .baseObject = .ok base := rfl
    rw [SearchRequest.ofPacket, hbase]
    change Request.text .baseObject base >>= _ = _
    rw [Request.text_primitive]
    rfl
  obtain ⟨entries, messages, code, hentries, -, hmessages, hlisted⟩ := serveStandard_lists_classes
    contexts .closed octets (.memory catalog [.entry root]) hfirst reading asks read
    (by decide +kernel)
  have hstored : ((MemoryStore.empty catalog).provision [.entry root]).entries.get? "c" =
      some root := by decide +kernel
  have hfound : (contexts 0).store.within "c" .base = .ok [root] := by
    refine ((MemoryStore.IsTidy.provision catalog [.entry root]).finds.byName "c").trans ?_
    rw [hstored]
    rfl
  rw [hfound] at hentries
  obtain rfl := Except.ok.inj hentries
  obtain ⟨message, later, ⟨found, hfits, hlists⟩, hnone, rfl⟩ :=
    List.forall₂_cons_left_iff.1 hlisted
  rw [List.forall₂_nil_left_iff.1 hnone] at hmessages
  exact ⟨_, message, code, found, hfirst, hmessages, hfits, hlists⟩

end Session

end DirectoryService
