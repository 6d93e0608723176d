import DirectoryService.Proofs.Metrics
import DirectoryService.Proofs.Session.Run
import Mathlib.Data.List.Count

/-!
# What a session counts

A session counts the answer to a bind, the end of a search and every error that it reports, each
once and when it happens. So its counters tell what it wrote and what it could not answer.
-/

namespace DirectoryService

/-- What is counted apart from the calls of a store. -/
def Sample.apart (samples : List Sample) : List Sample :=
  samples.filter fun sample => !sample.isStoreCall

namespace Sample

/-- What is counted one after the other is counted apart from the calls one after the other. -/
theorem apart_append (first second : List Sample) :
    apart (first ++ second) = apart first ++ apart second := List.filter_append _ _

/-- Whatever is no call is counted as often apart from the calls. -/
theorem countP_apart {p : Sample → Bool}
    (noCall : ∀ sample, p sample = true → sample.isStoreCall = false) (samples : List Sample) :
    (apart samples).countP p = samples.countP p := by
  rw [apart, List.countP_filter]
  refine List.countP_congr fun sample _ => ?_
  rw [Bool.and_eq_true, Bool.not_eq_true', and_iff_left_iff_imp]
  exact noCall sample

/-- A sample that is no call is counted as often apart from the calls. -/
theorem count_apart {sample : Sample} (noCall : sample.isStoreCall = false)
    (samples : List Sample) : (apart samples).count sample = samples.count sample := by
  refine countP_apart (fun other h => ?_) samples
  rw [beq_iff_eq.1 h]
  exact noCall

/-- A sample that is no call is counted apart from the calls. -/
theorem mem_apart {sample : Sample} {samples : List Sample} (counted : sample ∈ samples)
    (noCall : sample.isStoreCall = false) : sample ∈ apart samples :=
  List.mem_filter.2 ⟨counted, by rw [noCall]; rfl⟩

/-- Asking a store and making something of its answer counts the call and nothing else. -/
theorem apart_counted {α β : Type} (store : Store) (call : StoreCall) (answer : Except Error α)
    (next : Except Error α → β) :
    apart ((store.counted call answer).andThen fun answer => .of (next answer)).samples = [] := by
  simp only [Counted.andThen, Counted.of, Store.counted, List.append_nil]
  cases store.measured <;> rfl

/-- Finding entries counts calls only. -/
theorem apart_found (request : SearchRequest) (context : Context) :
    apart (request.found context).samples = [] := by
  rw [SearchRequest.found]
  cases request.path with
  | subschema => rfl
  | schema => rfl
  | namingContexts => exact apart_counted context.store .roots _ _
  | base => exact apart_counted context.store .entriesByName _ _
  | oneLevel => exact apart_counted context.store .entriesByParent _ _
  | subtree => exact apart_counted context.store .subtree _ _

/-- Looking up a user counts calls only. -/
theorem apart_resultOf (store : Store) (request : BindRequest) :
    apart (Bind.resultOf store request).samples = [] := by
  rw [Bind.resultOf]
  cases request.authentication with
  | unsupported tag => rfl
  | simple password => exact apart_counted store .principals _ _

end Sample

/-- A search that is answered does not end in another way. -/
theorem Search.resultOf_ne_other (path : SearchPath) (entries : List SearchEntry) :
    resultOf path entries ≠ .other := by
  rw [resultOf]
  split <;> decide

namespace Session

/-- A search was read and the store fails to answer it. -/
inductive SearchFails (context : Context) :
    Ber.Reading (Option Ber.Packet) → SearchPath → Error → Prop where
  /-- The search asks the store, which fails. -/
  | store {packet rest envelope request error} (asks : Asks packet searchRequestTag envelope)
      (read : SearchRequest.ofPacket envelope.operation = .ok request)
      (fails : request.storeAnswer context.store = some (.error error)) :
      SearchFails context (.got (some packet) rest) request.path error

/-- A search that fails is reported. -/
theorem SearchFails.reported {context : Context} {reading : Ber.Reading (Option Ber.Packet)}
    {path : SearchPath} {error : Error} (failed : SearchFails context reading path error) :
    Reported context reading error := by
  cases failed with
  | store asks read fails => exact .searchStore asks read fails

/-- What is counted for what was read and written, apart from the calls of the store. -/
inductive Books (context : Context) (reading : Ber.Reading (Option Ber.Packet)) :
    List Ber.Packet → List Sample → Prop where
  /-- Nothing is counted. -/
  | nothing : Books context reading [] []
  /-- An error is counted where it is reported. -/
  | error {error} (reported : Reported context reading error) :
      Books context reading [] [.connectionError error.kind]
  /-- A search that fails is counted, and its error too. -/
  | failure {path error} (failed : SearchFails context reading path error) :
      Books context reading [] [.search path .other, .connectionError error.kind]
  /-- A bind is counted with the code that it is answered with. -/
  | bind {messageId code message}
      (answer : Message.IsResult messageId 1 code "Bind Response" message) :
      Books context reading [message] [.bind code]
  /-- A search is counted with the code that it is answered with. -/
  | search {messageId path code entries messages done} (answered : code ≠ .other)
      (shown : List.Forall₂ (SearchEntry.IsIn messageId) messages entries)
      (ends : Message.IsResult messageId 5 code "Search Result Done" done) :
      Books context reading (messages ++ [done]) [.search path code]

section

variable {context : Context} {packet : Ber.Packet} {rest : List UInt8} {envelope : Envelope}

/-- The books of a bind. -/
theorem books_of_bind (asks : Asks packet bindRequestTag envelope) :
    let turn := (standard context).turn (.got (some packet) rest)
    Books context (.got (some packet) rest) turn.messages (Sample.apart turn.samples) := by
  cases hq : BindRequest.ofPacket envelope.operation with
  | error cause =>
    rw [turn_of_handler asks rfl]
    simp only [Bind.handler, hq, Counted.of]
    exact .error (.bindRequest asks hq)
  | ok request =>
    rw [turn_of_bind asks hq]
    cases hv : (Bind.resultOf context.store request).value with
    | ok code =>
      simp only [hv, turnOfReply, Sample.apart_append, Sample.apart_resultOf, List.nil_append]
      exact .bind (Message.isResult_bindResponse_iff.2 rfl)
    | error error =>
      simp only [hv, Sample.apart_append, Sample.apart_resultOf, List.nil_append]
      obtain ⟨password, hp, hs | ⟨principals, hs, hf⟩⟩ := Bind.resultOf_eq_error_iff.1 hv
      · exact .error (.bindStore asks hq hp hs)
      · obtain ⟨principal, cause, rfl, he, rfl⟩ := Bind.compare_eq_error_iff.1 hf
        exact .error (.credential asks hq hp hs he)

/-- The books of a search. -/
theorem books_of_search (asks : Asks packet searchRequestTag envelope) :
    let turn := (standard context).turn (.got (some packet) rest)
    Books context (.got (some packet) rest) turn.messages (Sample.apart turn.samples) := by
  cases hq : SearchRequest.ofPacket envelope.operation with
  | error cause =>
    rw [turn_of_handler asks rfl]
    simp only [Search.handler, hq, Counted.of]
    exact .error (.searchRequest asks hq)
  | ok request =>
    rw [turn_of_search asks hq]
    cases hv : (request.found context).value with
    | ok entries =>
      simp only [hv, turnOfReply, Sample.apart_append, Sample.apart_found, List.nil_append]
      exact .search (Search.resultOf_ne_other request.path entries)
        (SearchEntry.forall₂_isIn_toPacket _ entries) (Message.isResult_searchDone_iff.2 rfl)
    | error error =>
      simp only [hv, Sample.apart_append, Sample.apart_found, List.nil_append]
      exact .failure (.store asks hq (SearchRequest.found_eq_error_iff.1 hv))

end

/-- The books are kept in every turn. -/
theorem books_turn (context : Context) (stop : Ber.Stop) (octets : List UInt8) :
    let reading := Ber.readFrame stop octets
    let turn := (standard context).turn reading
    Books context reading turn.messages (Sample.apart turn.samples) := by
  have reads := reads_readFrame stop octets
  generalize Ber.readFrame stop octets = reading at reads
  cases reads with
  | departed => exact .nothing
  | lost framing => cases framing <;> exact .nothing
  | interrupted fails => exact .nothing
  | malformed => exact .error .frame
  | childless childless =>
    simp only [turn, turnOfPacket, List.isEmpty_iff, if_pos childless]
    exact .nothing
  | unread children fault =>
    simp only [turn, turnOfPacket, List.isEmpty_iff, if_neg children, fault]
    exact .error (.of_ofPacket children fault)
  | ignored ignored =>
    simp only [turn_of_ignored ignored]
    exact .nothing
  | bind asks => exact books_of_bind asks
  | search asks => exact books_of_search asks

open Classical in
/-- The number of messages that carry a result code under a tag number of operations. -/
noncomputable def results (tag : UInt32) (code : ResultCode) (messages : List Ber.Packet) : Nat :=
  messages.countP fun message => Message.Carries tag code message

open Classical in
/-- The number of exchanges of which something holds at their place. -/
noncomputable def occurrences (holds : Nat → Exchange → Prop) (exchanges : List Exchange) : Nat :=
  exchanges.zipIdx.countP fun (exchange, place) => holds place exchange

/-- The results of messages one after the other. -/
theorem results_append (tag : UInt32) (code : ResultCode) (first second : List Ber.Packet) :
    results tag code (first ++ second) = results tag code first + results tag code second :=
  List.countP_append

/-- No message of an entry is a result. -/
theorem results_entries {tag : UInt32} {messageId : Int} {messages : List Ber.Packet}
    {entries : List SearchEntry} (apart : tag ≠ 4) (code : ResultCode)
    (shown : List.Forall₂ (SearchEntry.IsIn messageId) messages entries) :
    results tag code messages = 0 := by
  have hnone : ∀ message ∈ messages, ¬ Message.Carries tag code message :=
    forall_mem_of_forall₂ (fun _ _ isIn => isIn.not_carries apart) shown
  rw [results, List.countP_eq_zero]
  intro message hm
  simp only [hnone message hm, decide_false, Bool.false_eq_true, not_false_eq_true]

/-- A result is one for its own tag number and code. -/
theorem results_singleton {other : UInt32} {own : ResultCode} {messageId : Int}
    {description : String} {message : Ber.Packet} (tag : UInt32) (code : ResultCode)
    (result : Message.IsResult messageId other own description message) :
    results tag code [message] = if other = tag ∧ own = code then 1 else 0 := by
  simp only [results, List.countP_singleton, decide_eq_true_eq, result.carries_iff]

namespace Books

variable {context : Context} {reading : Ber.Reading (Option Ber.Packet)}
  {messages : List Ber.Packet} {samples : List Sample}

/-- A bind is counted where it is answered. -/
theorem count_bind (books : Books context reading messages samples) (code : ResultCode) :
    samples.count (.bind code) = results 1 code messages := by
  cases books with
  | nothing => rfl
  | error reported => rfl
  | failure failed => rfl
  | bind answer =>
    rw [results_singleton 1 code answer, List.count_singleton]
    simp only [beq_iff_eq, Sample.bind.injEq, true_and]
  | search answered shown ends =>
    rw [results_append, results_entries (by decide) code shown, results_singleton 1 code ends]
    rfl

/-- A search is counted where it is answered. -/
theorem countP_search (books : Books context reading messages samples) {code : ResultCode}
    (answered : code ≠ .other) :
    samples.countP (Sample.endsSearch code) = results 5 code messages := by
  cases books with
  | nothing => rfl
  | error reported => rfl
  | failure failed =>
    simp only [List.countP_cons, List.countP_nil, Sample.endsSearch, decide_eq_true_eq,
      if_neg answered.symm, Bool.false_eq_true, if_false]
    rfl
  | bind answer =>
    rw [results_singleton 5 code answer]
    rfl
  | search _ shown ends =>
    rw [results_append, results_entries (by decide) code shown, results_singleton 5 code ends,
      List.countP_singleton, Nat.zero_add]
    simp only [Sample.endsSearch, decide_eq_true_eq, true_and]

/-- Nothing is counted twice. -/
theorem nodup (books : Books context reading messages samples) : samples.Nodup := by
  cases books with
  | nothing => simp
  | error reported => simp
  | failure failed => simp
  | bind answer => simp
  | search answered shown ends => simp

/-- An error is counted only where one is reported. -/
theorem exists_reported (books : Books context reading messages samples) {kind : ErrorKind}
    (counted : .connectionError kind ∈ samples) :
    ∃ error, Reported context reading error ∧ error.kind = kind := by
  cases books with
  | nothing => simp at counted
  | error reported =>
    simp only [List.mem_singleton, Sample.connectionError.injEq] at counted
    exact ⟨_, reported, counted.symm⟩
  | failure failed =>
    simp only [List.mem_cons, List.not_mem_nil, reduceCtorEq, false_or, or_false,
      Sample.connectionError.injEq] at counted
    exact ⟨_, failed.reported, counted.symm⟩
  | bind answer => simp at counted
  | search answered shown ends => simp at counted

/-- A search that fails is counted only where one does, and once. -/
theorem countP_search_other (books : Books context reading messages samples)
    (counted : samples.countP (Sample.endsSearch .other) ≠ 0) :
    samples.countP (Sample.endsSearch .other) = 1 ∧
      ∃ path error, SearchFails context reading path error := by
  cases books with
  | nothing => exact absurd rfl counted
  | error reported => exact absurd rfl counted
  | failure failed => exact ⟨rfl, _, _, failed⟩
  | bind answer => exact absurd rfl counted
  | search answered shown ends => simp [Sample.endsSearch, answered] at counted

end Books

/-- What is reported is counted. -/
theorem Reported.mem_samples {context : Context} {reading : Ber.Reading (Option Ber.Packet)}
    {error : Error} (reported : Reported context reading error) :
    .connectionError error.kind ∈ ((standard context).turn reading).samples := by
  obtain ⟨samples, ht⟩ := turn_of_reported reported
  rw [ht]
  exact List.mem_append_right _ (List.mem_singleton.2 rfl)

/-- A search that fails is counted. -/
theorem SearchFails.mem_samples {context : Context} {reading : Ber.Reading (Option Ber.Packet)}
    {path : SearchPath} {error : Error} (failed : SearchFails context reading path error) :
    .search path .other ∈ ((standard context).turn reading).samples := by
  cases failed with
  | store asks read fails =>
    rw [turn_of_search asks read]
    simp only [SearchRequest.found_eq_error_iff.2 fails]
    exact List.mem_append_left _ (List.mem_append_right _ (List.mem_singleton.2 rfl))

open Classical in
/-- In a turn an error of a kind is counted once if one is reported, and not at all otherwise. -/
theorem count_connectionError (context : Context) (stop : Ber.Stop) (octets : List UInt8)
    (kind : ErrorKind) :
    let reading := Ber.readFrame stop octets
    ((standard context).turn reading).samples.count (.connectionError kind) =
      if ∃ error, Reported context reading error ∧ error.kind = kind then 1 else 0 := by
  intro reading
  have books := books_turn context stop octets
  rw [← Sample.count_apart rfl, books.nodup.count]
  refine if_congr ⟨books.exists_reported, ?_⟩ rfl rfl
  intro ⟨error, reported, hk⟩
  rw [← hk]
  exact Sample.mem_apart reported.mem_samples rfl

open Classical in
/-- In a turn a search that fails is counted once if one does, and not at all otherwise. -/
theorem countP_search_other (context : Context) (stop : Ber.Stop) (octets : List UInt8) :
    let reading := Ber.readFrame stop octets
    ((standard context).turn reading).samples.countP (Sample.endsSearch .other) =
      if ∃ path error, SearchFails context reading path error then 1 else 0 := by
  intro reading
  have books := books_turn context stop octets
  rw [← Sample.countP_apart Sample.isStoreCall_of_endsSearch]
  split
  case isTrue h =>
    obtain ⟨path, error, failed⟩ := h
    have hm := Sample.mem_apart failed.mem_samples rfl
    have hpos : 0 < (Sample.apart ((standard context).turn reading).samples).countP
        (Sample.endsSearch .other) := List.countP_pos_iff.2 ⟨_, hm, rfl⟩
    exact (books.countP_search_other (Nat.ne_of_gt hpos)).1
  case isFalse h =>
    by_contra counted
    exact h (books.countP_search_other counted).2

open Classical in
/-- If every exchange counts something once where it holds, it is counted as often as it holds. -/
theorem countP_eq_occurrences {p : Sample → Bool} {holds : Nat → Exchange → Prop}
    (exchanges : List Exchange)
    (each : ∀ place exchange, exchanges[place]? = some exchange →
      exchange.samples.countP p = if holds place exchange then 1 else 0) :
    (exchanges.flatMap (·.samples)).countP p = occurrences holds exchanges := by
  suffices h : ∀ start, (∀ place exchange, exchanges[place]? = some exchange →
      exchange.samples.countP p = if holds (start + place) exchange then 1 else 0) →
      (exchanges.flatMap (·.samples)).countP p =
        (exchanges.zipIdx start).countP fun (exchange, place) => holds place exchange by
    refine h 0 fun place exchange at_place => ?_
    rw [each place exchange at_place, Nat.zero_add]
  clear each
  induction exchanges with
  | nil => exact fun start each => rfl
  | cons exchange exchanges ih =>
    intro start each
    have hone := each 0 exchange rfl
    have hrest := ih (start + 1) fun place other at_place => by
      rw [each (place + 1) other at_place, Nat.add_assoc, Nat.add_comm 1]
    rw [List.flatMap_cons, List.countP_append, hone, hrest, List.zipIdx_cons, List.countP_cons,
      Nat.add_comm]
    simp only [Nat.add_zero, decide_eq_true_eq]

/-- If every exchange counts what it writes, the session does. -/
theorem countP_samples_eq_results {p : Sample → Bool} {tag : UInt32} {code : ResultCode}
    (exchanges : List Exchange)
    (each : ∀ exchange ∈ exchanges, exchange.samples.countP p = results tag code exchange.messages) :
    (exchanges.flatMap (·.samples)).countP p =
      results tag code (exchanges.flatMap (·.messages)) := by
  rw [results, List.countP_flatMap, List.countP_flatMap]
  exact congrArg List.sum (List.map_congr_left each)

end Session

namespace Report

/-- The counter of a sample shows how often it was counted. -/
theorem counter_name (report : Report) (sample : Sample) :
    report.counter sample.name = report.samples.count sample :=
  List.count_map_of_injective _ _ Sample.name_injective sample

/-- What the counters of searches with a result show, all ways of answering them together. -/
def searches (report : Report) (code : ResultCode) : Nat :=
  (SearchPath.all.map fun path => report.counter (Sample.search path code).name).sum

/-- The counters of searches with a result show how many were counted. -/
theorem searches_eq (report : Report) (code : ResultCode) :
    report.searches code = report.samples.countP (Sample.endsSearch code) := by
  simp only [searches, counter_name, sum_count_search]

end Report

namespace Session

/-- The counters of a session agree with what it reads and writes up to the frame that ends it. A
bind is counted with the code of the answer that is written to it, and so is a search that is
answered. A search whose store fails is counted as one that ended in another way. An error is counted
with its kind where it is reported: for a frame that was read whole but is no packet, for a packet
that is no message, and for a bind or a search that is no such request or that the store or the
stored password fails. No error is counted for anything else that a session reads. -/
theorem serveStandard_counters (contexts : Nat → Context) (stop : Ber.Stop)
    (octets : List UInt8) :
    let report := serveStandard contexts stop octets
    Covers stop contexts octets report ∧
    (∀ code, report.counter (Sample.bind code).name = results 1 code report.messages) ∧
    report.searches .success = results 5 .success report.messages ∧
    report.searches .noSuchObject = results 5 .noSuchObject report.messages ∧
    report.searches .other = occurrences (fun place exchange =>
      ∃ path error, SearchFails (contexts place) exchange.reading path error) report.exchanges ∧
    ∀ kind, report.counter (Sample.connectionError kind).name = occurrences (fun place exchange =>
      ∃ error, Reported (contexts place) exchange.reading error ∧ error.kind = kind)
        report.exchanges := by
  intro report
  have run : Runs stop contexts octets report := runs_serveStandard contexts stop octets
  -- Every exchange keeps its books, so each counter adds up over the exchanges.
  have books : ∀ exchange ∈ report.exchanges,
      ∃ context, Books context exchange.reading exchange.messages
        (Sample.apart exchange.samples) := by
    intro exchange he
    obtain ⟨place, at_place⟩ := List.mem_iff_getElem?.1 he
    obtain ⟨left, rfl⟩ := run.exchange_at at_place
    exact ⟨contexts place, books_turn (contexts place) stop left⟩
  have hsearches : ∀ code, code ≠ .other →
      report.searches code = results 5 code report.messages := by
    intro code hc
    rw [report.searches_eq]
    refine countP_samples_eq_results report.exchanges fun exchange he => ?_
    obtain ⟨context, hb⟩ := books exchange he
    rw [← Sample.countP_apart Sample.isStoreCall_of_endsSearch, hb.countP_search hc]
  refine ⟨run.covers, fun code => ?_, hsearches _ (by decide), hsearches _ (by decide),
    ?_, fun kind => ?_⟩
  · rw [report.counter_name]
    refine countP_samples_eq_results report.exchanges fun exchange he => ?_
    obtain ⟨context, hb⟩ := books exchange he
    rw [← hb.count_bind code]
    exact (Sample.count_apart rfl _).symm
  · rw [report.searches_eq]
    refine countP_eq_occurrences report.exchanges fun place exchange at_place => ?_
    obtain ⟨left, rfl⟩ := run.exchange_at at_place
    exact countP_search_other (contexts place) stop left
  · rw [report.counter_name]
    refine countP_eq_occurrences report.exchanges fun place exchange at_place => ?_
    obtain ⟨left, rfl⟩ := run.exchange_at at_place
    exact count_connectionError (contexts place) stop left kind

end Session

end DirectoryService
