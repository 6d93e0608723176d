import DirectoryService.Service.Session
import DirectoryService.Proofs.Ber.Boundary
import DirectoryService.Proofs.Message.SearchEntry
import DirectoryService.Proofs.Request.Envelope

/-!
# What follows from what is read

Everything that a session with the standard handlers can read from a stream is of one of four kinds:
it is passed over, it is reported as an error, it is answered, or it ends the session. What is
written and how the session goes on is told once for each kind; statements about whole sessions
only look at the kinds.
-/

namespace DirectoryService

/-- The way in which a search is answered. -/
def SearchRequest.path (request : SearchRequest) : SearchPath :=
  Search.pathOf request (Selection.ofNames request.attributes)

/-- The entries that a search finds. -/
def SearchRequest.found (request : SearchRequest) (context : Context) :
    Counted (Except Error (List SearchEntry)) :=
  Search.entriesOn request.path context request.base (Selection.ofNames request.attributes)

/-- What the store answers to a search, if the search asks it. -/
def SearchRequest.storeAnswer (request : SearchRequest) (store : Store) :
    Option (Except Error (List Entry)) :=
  match request.path with
  | .subschema => none
  | .namingContexts => some store.roots
  | .schema => none
  | .base => some (store.entriesByName request.base)
  | .oneLevel => some (store.entriesByParent request.base)
  | .subtree => some (store.subtree request.base)

/-- A search fails where the store does, and nowhere else. -/
theorem SearchRequest.found_eq_error_iff {request : SearchRequest} {context : Context}
    {error : Error} :
    (request.found context).value = .error error ↔
      request.storeAnswer context.store = some (.error error) := by
  rw [found, storeAnswer]
  cases request.path with
  | subschema => simp [Search.entriesOn, Counted.of]
  | schema => simp [Search.entriesOn, Counted.of]
  | namingContexts =>
    cases hs : context.store.roots <;>
      simp [Search.entriesOn, Counted.of, Counted.andThen, Store.counted, hs, Except.map]
  | base =>
    cases hs : context.store.entriesByName request.base <;>
      simp [Search.entriesOn, Counted.of, Counted.andThen, Store.counted, hs, Except.map]
  | oneLevel =>
    cases hs : context.store.entriesByParent request.base <;>
      simp [Search.entriesOn, Counted.of, Counted.andThen, Store.counted, hs, Except.map]
  | subtree =>
    cases hs : context.store.subtree request.base <;>
      simp [Search.entriesOn, Counted.of, Counted.andThen, Store.counted, hs, Except.map]

/-- A comparison fails where the salt of the only principal cannot be read, and nowhere else. -/
theorem Bind.compare_eq_error_iff {principals : List Principal} {password : List UInt8}
    {error : Error} :
    Bind.compare principals password = .error error ↔
      ∃ principal cause, principals = [principal] ∧ principal.verify password = .error cause ∧
        error = .credential cause := by
  constructor
  · intro h
    unfold Bind.compare at h
    split at h
    · rename_i principal
      split at h
      · rename_i cause hv
        cases h
        exact ⟨principal, cause, rfl, hv, rfl⟩
      · cases h
      · cases h
    · cases h
  · rintro ⟨principal, cause, rfl, hv, rfl⟩
    simp only [Bind.compare, hv]

/-- A bind fails where the store or the comparison does, and nowhere else. -/
theorem Bind.resultOf_eq_error_iff {store : Store} {request : BindRequest} {error : Error} :
    (Bind.resultOf store request).value = .error error ↔
      ∃ password, request.authentication = .simple password ∧
        (store.principals request.name = .error error ∨
          ∃ principals, store.principals request.name = .ok principals ∧
            Bind.compare principals password = .error error) := by
  rw [Bind.resultOf]
  cases request.authentication with
  | unsupported tag => simp [Counted.of]
  | simple password =>
    cases hs : store.principals request.name <;>
      simp [Bind.authenticate, Counted.andThen, Counted.of, Store.counted, hs, Except.bind]

/-- Nothing but binds and searches has a handler. -/
theorem Dispatcher.handlersFor_standard_of_ne {tag : UInt32} (noBind : tag ≠ bindRequestTag)
    (noSearch : tag ≠ searchRequestTag) : Dispatcher.standard.handlersFor tag = [] := by
  simp [standard, handlersFor, register, empty, noBind.symm, noSearch.symm]

namespace Session

/-- A packet is a message whose operation goes to the handlers of a tag number. -/
structure Asks (packet : Ber.Packet) (tag : UInt32) (envelope : Envelope) : Prop where
  /-- The packet is the message. -/
  isIn : envelope.IsIn packet
  /-- The operation is constructed, of the application class, and has the tag number. -/
  operation_eq : ∃ fields description,
    envelope.operation = .constructed .application tag fields description

namespace Asks

variable {packet : Ber.Packet} {tag : UInt32} {envelope : Envelope}

/-- A message that is routed is one. -/
theorem of_routable (message : Envelope.ofPacket packet = .ok envelope)
    (routable : envelope.isRoutable = true) (tag_eq : envelope.operation.tag = tag) :
    Asks packet tag envelope where
  isIn := Envelope.ofPacket_eq_ok_iff.1 message
  operation_eq := by
    obtain ⟨found, fields, description, h⟩ := Envelope.isRoutable_iff.1 routable
    rw [h, Ber.Packet.tag] at tag_eq
    exact ⟨fields, description, tag_eq ▸ h⟩

/-- The message is read off the packet. -/
theorem message (asks : Asks packet tag envelope) : Envelope.ofPacket packet = .ok envelope :=
  Envelope.ofPacket_eq_ok_iff.2 asks.isIn

/-- The operation has the tag number. -/
theorem tag_eq (asks : Asks packet tag envelope) : envelope.operation.tag = tag := by
  obtain ⟨fields, description, h⟩ := asks.operation_eq
  rw [h, Ber.Packet.tag]

/-- The operation is routed. -/
theorem routable (asks : Asks packet tag envelope) : envelope.isRoutable = true :=
  Envelope.isRoutable_iff.2 ⟨tag, asks.operation_eq⟩

end Asks

/-- What is passed over without a word: messages whose operation no handler answers. -/
inductive Ignored : Ber.Reading (Option Ber.Packet) → Prop where
  /-- The operation is primitive or of another class than that of operations. -/
  | unroutable {packet rest envelope} (message : Envelope.IsIn packet envelope)
      (unroutable : ∀ tag fields description,
        envelope.operation ≠ .constructed .application tag fields description) :
      Ignored (.got (some packet) rest)
  /-- The operation is neither a bind nor a search. -/
  | unregistered {packet rest tag envelope} (asks : Asks packet tag envelope)
      (noBind : tag ≠ bindRequestTag) (noSearch : tag ≠ searchRequestTag) :
      Ignored (.got (some packet) rest)

/-- A message whose operation is not routed is passed over. -/
theorem Ignored.of_not_routable {packet : Ber.Packet} {rest : List UInt8} {envelope : Envelope}
    (message : Envelope.ofPacket packet = .ok envelope)
    (unroutable : ¬ envelope.isRoutable = true) : Ignored (.got (some packet) rest) :=
  .unroutable (Envelope.ofPacket_eq_ok_iff.1 message) fun tag fields description same =>
    unroutable (Envelope.isRoutable_iff.2 ⟨tag, fields, description, same⟩)

/-- What is reported as an error and not answered. -/
inductive Reported (context : Context) : Ber.Reading (Option Ber.Packet) → Error → Prop where
  /-- A frame was read whole, but is no packet. -/
  | frame {cause rest} :
      Reported context (.failed (.malformed cause) rest) (.packet (.malformed cause))
  /-- A packet is no message. -/
  | message {packet rest cause} (children : packet.children ≠ [])
      (noMessage : ∀ envelope, ¬ Envelope.IsIn packet envelope)
      (fault : Envelope.ofPacket packet = .error cause) :
      Reported context (.got (some packet) rest) (.request cause)
  /-- A bind is no bind request. -/
  | bindRequest {packet rest envelope cause} (asks : Asks packet bindRequestTag envelope)
      (fault : BindRequest.ofPacket envelope.operation = .error cause) :
      Reported context (.got (some packet) rest) (.request cause)
  /-- The store does not find the principals of a user. -/
  | bindStore {packet rest envelope request password error}
      (asks : Asks packet bindRequestTag envelope)
      (read : BindRequest.ofPacket envelope.operation = .ok request)
      (simple : request.authentication = .simple password)
      (fails : context.store.principals request.name = .error error) :
      Reported context (.got (some packet) rest) error
  /-- The stored salt of the only principal of a user cannot be read. -/
  | credential {packet rest envelope request password principal cause}
      (asks : Asks packet bindRequestTag envelope)
      (read : BindRequest.ofPacket envelope.operation = .ok request)
      (simple : request.authentication = .simple password)
      (found : context.store.principals request.name = .ok [principal])
      (fails : principal.verify password = .error cause) :
      Reported context (.got (some packet) rest) (.credential cause)
  /-- A search is no search request. -/
  | searchRequest {packet rest envelope cause} (asks : Asks packet searchRequestTag envelope)
      (fault : SearchRequest.ofPacket envelope.operation = .error cause) :
      Reported context (.got (some packet) rest) (.request cause)
  /-- The store does not find the entries of a search. -/
  | searchStore {packet rest envelope request error}
      (asks : Asks packet searchRequestTag envelope)
      (read : SearchRequest.ofPacket envelope.operation = .ok request)
      (fails : request.storeAnswer context.store = some (.error error)) :
      Reported context (.got (some packet) rest) error

/-- A packet that no message is read off is reported. -/
theorem Reported.of_ofPacket {context : Context} {packet : Ber.Packet} {rest : List UInt8}
    {cause : Request.Fault} (children : packet.children ≠ [])
    (fault : Envelope.ofPacket packet = .error cause) :
    Reported context (.got (some packet) rest) (.request cause) :=
  .message children (fun _ => Envelope.not_isIn_of_ofPacket fault) fault

/-- What is answered without ending the session, and the answer. -/
inductive Answered (context : Context) :
    Ber.Reading (Option Ber.Packet) → List Ber.Packet → Prop where
  /-- A user is let in. -/
  | bind {packet rest envelope request message} (asks : Asks packet bindRequestTag envelope)
      (read : BindRequest.ofPacket envelope.operation = .ok request)
      (success : (Bind.resultOf context.store request).value = .ok .success)
      (answer : Message.IsResult envelope.messageId 1 .success "Bind Response" message) :
      Answered context (.got (some packet) rest) [message]
  /-- A search finds entries. -/
  | search {packet rest envelope request entries messages done}
      (asks : Asks packet searchRequestTag envelope)
      (read : SearchRequest.ofPacket envelope.operation = .ok request)
      (found : (request.found context).value = .ok entries)
      (shown : List.Forall₂ (SearchEntry.IsIn envelope.messageId) messages entries)
      (ends : Message.IsResult envelope.messageId 5 (Search.resultOf request.path entries)
        "Search Result Done" done) :
      Answered context (.got (some packet) rest) (messages ++ [done])

/-- What ends a session on a stream, with what is written last and how the session ends. -/
inductive Ends (stop : Ber.Stop) (context : Context) :
    Ber.Reading (Option Ber.Packet) → List Ber.Packet → Ending → Prop where
  /-- The stream ends where a packet could start. -/
  | departed {rest} : Ends stop context (.got none rest) [] .departed
  /-- A packet has no children. -/
  | childless {packet rest} (childless : packet.children = []) :
      Ends stop context (.got (some packet) rest) [] (.failed .wrongProtocol)
  /-- The place of the next packet is lost. -/
  | lost {fault rest} (framing : Ber.Fault.IsFraming fault) :
      Ends stop context (.failed fault rest) [] (.failed (.packet fault))
  /-- A user is refused. -/
  | refused {packet rest envelope request code message}
      (asks : Asks packet bindRequestTag envelope)
      (read : BindRequest.ofPacket envelope.operation = .ok request)
      (result : (Bind.resultOf context.store request).value = .ok code)
      (refused : code ≠ .success)
      (answer : Message.IsResult envelope.messageId 1 code "Bind Response" message) :
      Ends stop context (.got (some packet) rest) [message] .closed
  /-- The stream itself fails. -/
  | interrupted {failure rest} (fails : stop = .failed failure) :
      Ends stop context (.failed (.io failure) rest) []
        (if failure.isDeparture then .departed else .failed (.io failure))

section

variable {context : Context} {packet : Ber.Packet} {rest : List UInt8} {envelope : Envelope}

/-- A bind is reported, answered or refused. -/
theorem kind_of_bind (stop : Ber.Stop) (asks : Asks packet bindRequestTag envelope) :
    (∃ error, Reported context (.got (some packet) rest) error) ∨
      (∃ messages, Answered context (.got (some packet) rest) messages) ∨
      ∃ messages ending, Ends stop context (.got (some packet) rest) messages ending := by
  cases hq : BindRequest.ofPacket envelope.operation with
  | error cause => exact .inl ⟨_, .bindRequest asks hq⟩
  | ok request =>
    cases hv : (Bind.resultOf context.store request).value with
    | ok code =>
      by_cases hc : code = .success
      · exact .inr (.inl ⟨_, .bind asks hq (hc ▸ hv) (Message.isResult_bindResponse_iff.2 rfl)⟩)
      · exact .inr (.inr
          ⟨_, _, .refused asks hq hv hc (Message.isResult_bindResponse_iff.2 rfl)⟩)
    | error error =>
      obtain ⟨password, hp, hs | ⟨principals, hs, hf⟩⟩ := Bind.resultOf_eq_error_iff.1 hv
      · exact .inl ⟨_, .bindStore asks hq hp hs⟩
      · obtain ⟨principal, cause, rfl, he, rfl⟩ := Bind.compare_eq_error_iff.1 hf
        exact .inl ⟨_, .credential asks hq hp hs he⟩

/-- A search is reported or answered. -/
theorem kind_of_search (asks : Asks packet searchRequestTag envelope) :
    (∃ error, Reported context (.got (some packet) rest) error) ∨
      ∃ messages, Answered context (.got (some packet) rest) messages := by
  cases hq : SearchRequest.ofPacket envelope.operation with
  | error cause => exact .inl ⟨_, .searchRequest asks hq⟩
  | ok request =>
    cases hv : (request.found context).value with
    | ok entries =>
      exact .inr ⟨_, .search asks hq hv (SearchEntry.forall₂_isIn_toPacket _ entries)
        (Message.isResult_searchDone_iff.2 rfl)⟩
    | error error =>
      exact .inl ⟨_, .searchStore asks hq (SearchRequest.found_eq_error_iff.1 hv)⟩

end

/-- What can be read from a stream, as far as it is told before a handler is asked. -/
inductive Reads (stop : Ber.Stop) : Ber.Reading (Option Ber.Packet) → Prop where
  /-- The stream ends. -/
  | departed {rest} : Reads stop (.got none rest)
  /-- The place of the next packet is lost. -/
  | lost {fault rest} (framing : Ber.Fault.IsFraming fault) : Reads stop (.failed fault rest)
  /-- The stream fails. -/
  | interrupted {failure rest} (fails : stop = .failed failure) :
      Reads stop (.failed (.io failure) rest)
  /-- A frame is no packet. -/
  | malformed {cause rest} : Reads stop (.failed (.malformed cause) rest)
  /-- A packet has no children. -/
  | childless {packet rest} (childless : packet.children = []) :
      Reads stop (.got (some packet) rest)
  /-- A packet with children is no message. -/
  | unread {packet rest cause} (children : packet.children ≠ [])
      (fault : Envelope.ofPacket packet = .error cause) : Reads stop (.got (some packet) rest)
  /-- No handler answers. -/
  | ignored {packet rest} (ignored : Ignored (.got (some packet) rest)) :
      Reads stop (.got (some packet) rest)
  /-- A bind is asked for. -/
  | bind {packet rest envelope} (asks : Asks packet bindRequestTag envelope) :
      Reads stop (.got (some packet) rest)
  /-- A search is asked for. -/
  | search {packet rest envelope} (asks : Asks packet searchRequestTag envelope) :
      Reads stop (.got (some packet) rest)

/-- Nothing else can be read. -/
theorem reads_readFrame (stop : Ber.Stop) (octets : List UInt8) :
    Reads stop (Ber.readFrame stop octets) := by
  cases hr : Ber.readFrame stop octets with
  | failed fault rest =>
    rcases Ber.fault_of_readFrame hr with ⟨cause, rfl⟩ | framing | fails
    · exact .malformed
    · exact .lost framing
    · exact .interrupted fails
  | got item rest =>
    cases item with
    | none => exact .departed
    | some packet =>
      by_cases hc : packet.children = []
      · exact .childless hc
      · cases hm : Envelope.ofPacket packet with
        | error cause => exact .unread hc hm
        | ok envelope =>
          by_cases hro : envelope.isRoutable = true
          · by_cases hb : envelope.operation.tag = bindRequestTag
            · exact .bind (.of_routable hm hro hb)
            · by_cases hs : envelope.operation.tag = searchRequestTag
              · exact .search (.of_routable hm hro hs)
              · exact .ignored (.unregistered (.of_routable hm hro rfl) hb hs)
          · exact .ignored (.of_not_routable hm hro)

/-- What is read from a stream is of one of the four kinds. -/
theorem kind_of_readFrame (context : Context) (stop : Ber.Stop) (octets : List UInt8) :
    Ignored (Ber.readFrame stop octets) ∨
      (∃ error, Reported context (Ber.readFrame stop octets) error) ∨
      (∃ messages, Answered context (Ber.readFrame stop octets) messages) ∨
      ∃ messages ending, Ends stop context (Ber.readFrame stop octets) messages ending := by
  have reads := reads_readFrame stop octets
  generalize Ber.readFrame stop octets = reading at reads
  cases reads with
  | departed => exact .inr (.inr (.inr ⟨_, _, .departed⟩))
  | lost framing => exact .inr (.inr (.inr ⟨_, _, .lost framing⟩))
  | interrupted fails => exact .inr (.inr (.inr ⟨_, _, .interrupted fails⟩))
  | malformed => exact .inr (.inl ⟨_, .frame⟩)
  | childless childless => exact .inr (.inr (.inr ⟨_, _, .childless childless⟩))
  | unread children fault => exact .inr (.inl ⟨_, .of_ofPacket children fault⟩)
  | ignored ignored => exact .inl ignored
  | bind asks => exact .inr (kind_of_bind stop asks)
  | search asks =>
    rcases kind_of_search asks with reported | answered
    · exact .inr (.inl reported)
    · exact .inr (.inr (.inl answered))

section

variable {context : Context} {packet : Ber.Packet} {rest : List UInt8} {envelope : Envelope}

/-- A message has children. -/
theorem children_isEmpty_of_message (message : Envelope.ofPacket packet = .ok envelope) :
    packet.children.isEmpty = false := by
  cases hc : packet.children with
  | cons child children => rfl
  | nil =>
    simp [Envelope.ofPacket, Request.require, Ber.Packet.child?, hc, bind, Except.bind] at message

/-- What follows from a message whose operation is routed. -/
theorem turn_of_routed {session : Session} (message : Envelope.ofPacket packet = .ok envelope)
    (routable : envelope.isRoutable = true) :
    session.turn (.got (some packet) rest) = session.turnOfOperation envelope := by
  simp only [turn, turnOfPacket, children_isEmpty_of_message message, Bool.false_eq_true, if_false,
    message, if_pos routable]

/-- What follows from a message whose operation has one handler is what the handler says. -/
theorem turn_of_handler {tag : UInt32} {handler : Handler} (asks : Asks packet tag envelope)
    (handlers : Dispatcher.standard.handlersFor tag = [handler]) :
    (standard context).turn (.got (some packet) rest) =
      let answer := handler context envelope.messageId envelope.operation
      match answer.value with
      | .error error => ⟨[], answer.samples ++ [.connectionError error.kind], none⟩
      | .ok reply => turnOfReply reply answer.samples := by
  rw [turn_of_routed asks.message asks.routable, turnOfOperation, standard, asks.tag_eq]
  simp only [Dispatcher.dispatch, handlers, Dispatcher.runAll, Counted.andThen, Counted.of]
  cases (handler context envelope.messageId envelope.operation).value with
  | error error => simp only [List.append_nil]; rfl
  | ok reply => simp only [List.append_nil]; rfl

/-- What follows from a bind request is what its result says. -/
theorem turn_of_bind {request : BindRequest} (asks : Asks packet bindRequestTag envelope)
    (read : BindRequest.ofPacket envelope.operation = .ok request) :
    (standard context).turn (.got (some packet) rest) =
      let answer := Bind.resultOf context.store request
      match answer.value with
      | .error error => ⟨[], answer.samples ++ [.connectionError error.kind], none⟩
      | .ok code =>
        turnOfReply (Bind.replyTo envelope.messageId code) (answer.samples ++ [.bind code]) := by
  rw [turn_of_handler asks rfl]
  simp only [Bind.handler, read, Counted.andThen]
  cases (Bind.resultOf context.store request).value with
  | error error => simp only [Counted.of, List.append_nil]
  | ok code => rfl

/-- What follows from a search request is what the store says. -/
theorem turn_of_search {request : SearchRequest} (asks : Asks packet searchRequestTag envelope)
    (read : SearchRequest.ofPacket envelope.operation = .ok request) :
    (standard context).turn (.got (some packet) rest) =
      let answer := request.found context
      match answer.value with
      | .error error =>
        ⟨[], answer.samples ++ [.search request.path .other] ++ [.connectionError error.kind], none⟩
      | .ok entries =>
        let code := Search.resultOf request.path entries
        turnOfReply (Search.replyTo envelope.messageId entries code)
          (answer.samples ++ [.search request.path code]) := by
  rw [turn_of_handler asks rfl]
  simp only [Search.handler, read, Search.answer, Counted.andThen]
  rw [← SearchRequest.path, ← SearchRequest.found]
  cases (request.found context).value with
  | error error => rfl
  | ok entries => rfl

/-- What is passed over leaves no trace. -/
theorem turn_of_ignored {reading : Ber.Reading (Option Ber.Packet)} (ignored : Ignored reading) :
    (standard context).turn reading = ⟨[], [], none⟩ := by
  cases ignored with
  | @unroutable packet rest envelope isIn unroutable =>
    have message := Envelope.ofPacket_eq_ok_iff.2 isIn
    have hunroutable : ¬ envelope.isRoutable = true := by
      intro routable
      obtain ⟨tag, fields, description, same⟩ := Envelope.isRoutable_iff.1 routable
      exact unroutable tag fields description same
    simp only [turn, turnOfPacket, children_isEmpty_of_message message, Bool.false_eq_true,
      if_false, message, hunroutable]
  | unregistered asks noBind noSearch =>
    have hn := Dispatcher.handlersFor_standard_of_ne noBind noSearch
    rw [turn_of_routed asks.message asks.routable, turnOfOperation, standard, asks.tag_eq]
    simp only [Dispatcher.dispatch, hn, Counted.of]

/-- What is reported is counted by the kind of its error, and nothing is written. -/
theorem turn_of_reported {reading : Ber.Reading (Option Ber.Packet)} {error : Error}
    (reported : Reported context reading error) :
    ∃ samples, (standard context).turn reading =
      ⟨[], samples ++ [.connectionError error.kind], none⟩ := by
  cases reported with
  | frame => exact ⟨[], rfl⟩
  | message children noMessage fault =>
    refine ⟨[], ?_⟩
    simp only [turn, turnOfPacket, List.isEmpty_iff, if_neg children, fault, List.nil_append]
  | bindRequest asks fault =>
    refine ⟨[], ?_⟩
    rw [turn_of_handler asks rfl]
    simp only [Bind.handler, fault, Counted.of]
  | bindStore asks read simple fails =>
    rw [turn_of_bind asks read]
    simp only [Bind.resultOf_eq_error_iff.2 ⟨_, simple, .inl fails⟩]
    exact ⟨_, rfl⟩
  | credential asks read simple found fails =>
    have hc := Bind.compare_eq_error_iff.2 ⟨_, _, rfl, fails, rfl⟩
    rw [turn_of_bind asks read]
    simp only [Bind.resultOf_eq_error_iff.2 ⟨_, simple, .inr ⟨_, found, hc⟩⟩]
    exact ⟨_, rfl⟩
  | searchRequest asks fault =>
    refine ⟨[], ?_⟩
    rw [turn_of_handler asks rfl]
    simp only [Search.handler, fault, Counted.of]
  | searchStore asks read fails =>
    rw [turn_of_search asks read]
    simp only [SearchRequest.found_eq_error_iff.2 fails]
    exact ⟨_, rfl⟩

/-- What is answered is answered in its turn, and the session goes on. -/
theorem turn_of_answered {reading : Ber.Reading (Option Ber.Packet)}
    {messages : List Ber.Packet} (answered : Answered context reading messages) :
    ∃ written samples, (standard context).turn reading = ⟨written, samples, none⟩ ∧
      Answered context reading written := by
  cases answered with
  | bind asks read success answer =>
    rw [turn_of_bind asks read]
    simp only [success]
    exact ⟨_, _, rfl, .bind asks read success (Message.isResult_bindResponse_iff.2 rfl)⟩
  | search asks read found shown ends =>
    rw [turn_of_search asks read]
    simp only [found]
    exact ⟨_, _, rfl, .search asks read found (SearchEntry.forall₂_isIn_toPacket _ _)
      (Message.isResult_searchDone_iff.2 rfl)⟩

/-- What ends a session ends it in its turn. -/
theorem turn_of_ends {stop : Ber.Stop} {reading : Ber.Reading (Option Ber.Packet)}
    {messages : List Ber.Packet} {ending : Ending}
    (ends : Ends stop context reading messages ending) :
    ∃ samples, (standard context).turn reading = ⟨messages, samples, some ending⟩ := by
  cases ends with
  | departed => exact ⟨[], rfl⟩
  | childless childless =>
    refine ⟨[], ?_⟩
    simp only [turn, turnOfPacket, List.isEmpty_iff, if_pos childless]
  | lost framing => cases framing <;> exact ⟨[], rfl⟩
  | refused asks read result refused answer =>
    rw [turn_of_bind asks read, Message.isResult_bindResponse_iff.1 answer]
    simp only [result, turnOfReply, Bind.replyTo, bne_iff_ne, ne_eq, refused, not_false_eq_true,
      if_true]
    exact ⟨_, rfl⟩
  | interrupted fails => exact ⟨[], rfl⟩

end

/-- What is written in a turn and whether it is the last one, by the kind of what was read. -/
theorem turn_cases (context : Context) (stop : Ber.Stop) (octets : List UInt8) :
    let reading := Ber.readFrame stop octets
    let turn := (standard context).turn reading
    (Ignored reading ∧ turn.messages = [] ∧ turn.ending = none) ∨
      (∃ error, Reported context reading error ∧ turn.messages = [] ∧ turn.ending = none) ∨
      (Answered context reading turn.messages ∧ turn.ending = none) ∨
      ∃ ending, Ends stop context reading turn.messages ending ∧ turn.ending = some ending := by
  intro reading turn
  rcases kind_of_readFrame context stop octets with
    ignored | ⟨error, reported⟩ | ⟨messages, answered⟩ | ⟨messages, ending, ends⟩
  · have ht : turn = _ := turn_of_ignored ignored
    rw [ht]
    exact .inl ⟨ignored, rfl, rfl⟩
  · obtain ⟨samples, ht⟩ := turn_of_reported reported
    have ht : turn = _ := ht
    rw [ht]
    exact .inr (.inl ⟨error, reported, rfl, rfl⟩)
  · obtain ⟨written, samples, ht, answered⟩ := turn_of_answered answered
    have ht : turn = _ := ht
    rw [ht]
    exact .inr (.inr (.inl ⟨answered, rfl⟩))
  · obtain ⟨samples, ht⟩ := turn_of_ends ends
    have ht : turn = _ := ht
    rw [ht]
    exact .inr (.inr (.inr ⟨ending, ends, rfl⟩))

/-- A turn ends a session exactly where something ends it. -/
theorem ends_iff_turn {context : Context} {stop : Ber.Stop} {octets : List UInt8}
    {messages : List Ber.Packet} {ending : Ending} :
    Ends stop context (Ber.readFrame stop octets) messages ending ↔
      ((standard context).turn (Ber.readFrame stop octets)).messages = messages ∧
        ((standard context).turn (Ber.readFrame stop octets)).ending = some ending := by
  constructor
  · intro ends
    obtain ⟨samples, ht⟩ := turn_of_ends ends
    rw [ht]
    exact ⟨rfl, rfl⟩
  · rintro ⟨rfl, he⟩
    rcases turn_cases context stop octets with
      ⟨_, _, hn⟩ | ⟨_, _, _, hn⟩ | ⟨_, hn⟩ | ⟨found, ends, hs⟩
    · rw [hn] at he; cases he
    · rw [hn] at he; cases he
    · rw [hn] at he; cases he
    · rw [hs] at he; cases he; exact ends

/-- A session only goes on where the stream does. -/
theorem goesOn_of_turn {session : Session} {reading : Ber.Reading (Option Ber.Packet)}
    (h : (session.turn reading).ending = none) : reading.goesOn = true := by
  cases reading with
  | got item rest =>
    cases item with
    | none => cases h
    | some packet => rfl
  | failed fault rest =>
    cases fault with
    | malformed cause => rfl
    | unexpectedValue cause => rfl
    | io failure => cases h
    | indefiniteLength => cases h
    | wideLength octets => cases h
    | tooLarge length => cases h
    | unexpectedEnd => cases h

/-- What follows from a reading does not depend on the octets that it leaves. -/
theorem turn_leaving (session : Session) (reading : Ber.Reading (Option Ber.Packet))
    (rest : List UInt8) : session.turn (reading.leaving rest) = session.turn reading := by
  cases reading with
  | got item left => cases item <;> rfl
  | failed fault left => rfl

end Session

end DirectoryService
