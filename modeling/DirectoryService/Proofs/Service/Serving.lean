import DirectoryService.Proofs.Service.Admission
import DirectoryService.Proofs.Session.Run
import DirectoryService.Proofs.Store.Provisioning

/-!
# Which schema is served

A service serves one schema to all of its sessions, and this is not the one that its store holds at
the moment: sessions and calls that change the store leave it alone, and so does every request but
one that is let in and has the schema read again. What is served is therefore always the schema of
the last such request, as the store held it then, and the schema of the start before there was one.
-/

namespace DirectoryService

namespace Session

/-- A search whose base is the schema was read, with the number of its message and what it selects. -/
inductive AsksSchema : Ber.Reading (Option Ber.Packet) → Int → Selection → Prop where
  /-- The search is not about the server, and its base is the schema. -/
  | search {packet rest envelope request} (asks : Asks packet searchRequestTag envelope)
      (read : SearchRequest.ofPacket envelope.operation = .ok request)
      (path : request.path = .schema) :
      AsksSchema (.got (some packet) rest) envelope.messageId
        (Selection.ofNames request.attributes)

/-- The answer to a search for a schema. -/
def schemaAnswer (catalog : Catalog) (messageId : Int) (selection : Selection) :
    List Ber.Packet :=
  [(schemaEntry catalog selection).toPacket messageId, Message.searchDone messageId .success]

/-- A search for the schema is answered by the schema of the moment. -/
theorem AsksSchema.messages_turn {reading : Ber.Reading (Option Ber.Packet)} {messageId : Int}
    {selection : Selection} (asks : AsksSchema reading messageId selection) (context : Context) :
    ((standard context).turn reading).messages =
      schemaAnswer context.catalog messageId selection := by
  cases asks with
  | search asks read path =>
    rw [turn_of_search asks read]
    simp only [SearchRequest.found, path, Search.entriesOn, Counted.of]
    rfl

/-- Some of the messages of a turn are written, from the first on, and all of them if writing does
not fail. -/
theorem deliver_isPrefix (session : Session) (written : Nat) (messages : List Ber.Packet) :
    (session.deliver written messages).1 <+: messages ∧
      (session.limit = none → (session.deliver written messages).1 = messages) := by
  rw [deliver]
  cases session.limit with
  | none => exact ⟨List.prefix_rfl, fun _ => rfl⟩
  | some limit =>
    refine ⟨?_, fun unlimited => absurd unlimited (Option.some_ne_none limit)⟩
    simp only
    split
    · exact List.prefix_rfl
    · exact List.take_prefix _ _

/-- What is written in an exchange is delivered of what follows from what is read. -/
theorem messages_exchange (session : Session) (written size : Nat)
    (reading : Ber.Reading (Option Ber.Packet)) :
    (session.exchange written size reading).1.messages =
      (session.deliver written (session.turn reading).messages).1 := rfl

/-- Whether writing fails has no part in what follows from what is read. -/
theorem turn_withLimit (context : Context) (limit : Option WriteLimit)
    (reading : Ber.Reading (Option Ber.Packet)) :
    turn ⟨.standard, context, limit⟩ reading = (standard context).turn reading := by
  cases reading with
  | failed fault rest => rfl
  | got item rest => cases item <;> rfl

/-- Every exchange of a session is about a part of the stream. -/
theorem exists_of_mem_exchanges {session : Session} {stop : Ber.Stop} {octets : List UInt8}
    {exchange : Exchange} (written : Nat)
    (held : exchange ∈ (serveFrom (fun _ => session) stop written octets).exchanges) :
    ∃ before left, exchange =
      (session.exchange before left.length (Ber.readFrame stop left)).1 := by
  obtain ⟨place, at_place⟩ := List.mem_iff_getElem?.1 held
  obtain ⟨⟨left, part⟩, -⟩ := serveFrom_exchange_at at_place
  exact ⟨_, left, part⟩

end Session

/-- Something that a service stores its directory in, and the calls that change it. -/
structure Storage (σ κ : Type) where
  /-- The store that a state shows. -/
  view : σ → Store
  /-- The state after a call, whether it was accepted or not. -/
  perform : σ → κ → σ

/-- A store in memory that is provisioned. -/
def MemoryStore.storage : Storage MemoryStore MemoryStore.Change := ⟨toStore, after⟩

/-- A service at some moment. -/
structure Service (σ : Type) where
  /-- What is stored. -/
  stored : σ
  /-- The schema that is served. -/
  served : Catalog

/-- What happens to a service. -/
inductive ServiceEvent (κ : Type) where
  /-- A session is held, on a side that may fail to take messages. -/
  | session (limit : Option WriteLimit) (stop : Ber.Stop) (octets : List UInt8)
  /-- A request is answered, at some time and with some counters. -/
  | request (request : HttpRequest) (now counters : String)
  /-- The store is provisioned. -/
  | call (call : κ)

namespace Storage

variable {σ κ : Type} (storage : Storage σ κ) (token : Option String)

/-- A session that the service holds. -/
def session (service : Service σ) (limit : Option WriteLimit) : Session :=
  ⟨.standard, ⟨storage.view service.stored, service.served⟩, limit⟩

/-- The interface over which the service is administered. -/
def api (service : Service σ) (now counters : String) : Api :=
  ⟨storage.view service.stored, service.served, token, now, counters⟩

/-- The service after an event. Sessions see the service and leave it as it is. -/
def step (service : Service σ) : ServiceEvent κ → Service σ
  | .session _ _ _ => service
  | .request request now counters =>
    { service with served := ((storage.api token service now counters).respond request).2 }
  | .call call => { service with stored := storage.perform service.stored call }

/-- The service after events one after the other. -/
def run (service : Service σ) (events : List (ServiceEvent κ)) : Service σ :=
  events.foldl (storage.step token) service

/-- An event has a schema read again. -/
inductive Installs (service : Service σ) : ServiceEvent κ → Catalog → Prop where
  /-- A request is let in, and the schema can be read. -/
  | request {request now counters catalog}
      (reloads : Api.Reloads token (storage.view service.stored) request catalog) :
      Installs service (.request request now counters) catalog

/-- No event has a schema read again. -/
def Quiet (service : Service σ) : List (ServiceEvent κ) → Prop
  | [] => True
  | event :: events =>
    (∀ catalog, ¬ storage.Installs token service event catalog) ∧
      Quiet (storage.step token service event) events

variable {storage token} {service : Service σ} {event : ServiceEvent κ}

/-- A schema that is read again is served. -/
theorem served_step_of_installs {catalog : Catalog}
    (installs : storage.Installs token service event catalog) :
    (storage.step token service event).served = catalog := by
  cases installs with
  | @request request now counters _ reloads =>
    have hreloads : Api.Reloads (storage.api token service now counters).token
      (storage.api token service now counters).store request catalog := reloads
    exact Api.served_of_reloads hreloads

/-- Nothing else changes what is served. -/
theorem served_step_of_not_installs
    (silent : ∀ catalog, ¬ storage.Installs token service event catalog) :
    (storage.step token service event).served = service.served := by
  cases event with
  | session limit stop octets => rfl
  | call call => rfl
  | request request now counters =>
    have unread : ∀ catalog, ¬ Api.Reloads (storage.api token service now counters).token
        (storage.api token service now counters).store request catalog :=
      fun catalog reloads => silent catalog (.request reloads)
    exact Api.served_of_not_reloads unread

/-- What is served after events is the schema that the last of them to have one read again came to,
or what was served before if none has. -/
theorem served_run (service : Service σ) (events : List (ServiceEvent κ)) :
    (storage.Quiet token service events ∧
      (storage.run token service events).served = service.served) ∨
    ∃ earlier event later, events = earlier ++ event :: later ∧
      storage.Installs token (storage.run token service earlier) event
        (storage.run token service events).served ∧
      storage.Quiet token (storage.run token service (earlier ++ [event])) later := by
  induction events generalizing service with
  | nil => exact .inl ⟨trivial, rfl⟩
  | cons event events ih =>
    rcases ih (storage.step token service event) with ⟨quiet, same⟩ | ⟨earlier, last, later, rfl, rest⟩
    · by_cases silent : ∀ catalog, ¬ storage.Installs token service event catalog
      · exact .inl ⟨⟨silent, quiet⟩, same.trans (served_step_of_not_installs silent)⟩
      · obtain ⟨catalog, installs⟩ : ∃ catalog, storage.Installs token service event catalog := by
          simpa using silent
        have hserved : (storage.run token service (event :: events)).served = catalog :=
          same.trans (served_step_of_installs installs)
        exact .inr ⟨[], event, events, rfl, hserved ▸ installs, quiet⟩
    · exact .inr ⟨event :: earlier, last, later, rfl, rest⟩

/-- In a session a search for the schema is answered by the schema that is served. -/
theorem messages_of_asksSchema (service : Service σ) {limit : Option WriteLimit} {stop : Ber.Stop}
    {octets : List UInt8} {exchange : Exchange} {messageId : Int} {selection : Selection}
    (held : exchange ∈ ((storage.session service limit).serve stop octets).exchanges)
    (asks : Session.AsksSchema exchange.reading messageId selection) :
    let answer := Session.schemaAnswer service.served messageId selection
    exchange.messages <+: answer ∧ (limit = none → exchange.messages = answer) := by
  obtain ⟨before, left, rfl⟩ := Session.exists_of_mem_exchanges 0 held
  have hturn : ((storage.session service limit).turn (Ber.readFrame stop left)).messages =
      Session.schemaAnswer service.served messageId selection := by
    rw [session, Session.turn_withLimit]
    exact asks.messages_turn _
  intro answer
  rw [Session.messages_exchange, hturn]
  exact (storage.session service limit).deliver_isPrefix before answer

/-- A service serves the schema of the last request that had it read again, and the schema of the
start before there was one. An event replaces it exactly if it is such a request: one with the right
method and path that gives the token, which is there and is not empty, while the store holds four
sections that can be read and together pass the checks; then these sections are what is served. No
session, no call of the store and no other request changes it. A search for the schema is answered
by the schema that is served when its session is held. -/
theorem serves_last_reload (storage : Storage σ κ) (token : Option String) (start : Service σ)
    (events : List (ServiceEvent κ)) :
    let service := storage.run token start events
    ((storage.Quiet token start events ∧ service.served = start.served) ∨
      ∃ earlier event later, events = earlier ++ event :: later ∧
        storage.Installs token (storage.run token start earlier) event service.served ∧
        storage.Quiet token (storage.run token start (earlier ++ [event])) later) ∧
    (∀ event catalog, storage.Installs token service event catalog →
      (storage.step token service event).served = catalog) ∧
    (∀ event, (∀ catalog, ¬ storage.Installs token service event catalog) →
      (storage.step token service event).served = service.served) ∧
    ∀ limit stop octets, ∀ exchange ∈ ((storage.session service limit).serve stop octets).exchanges,
      ∀ messageId selection, Session.AsksSchema exchange.reading messageId selection →
        let answer := Session.schemaAnswer service.served messageId selection
        exchange.messages <+: answer ∧ (limit = none → exchange.messages = answer) :=
  ⟨served_run start events, fun _ _ => served_step_of_installs,
    fun _ => served_step_of_not_installs, fun _ _ _ _ held _ _ asks =>
      messages_of_asksSchema _ held asks⟩

/-- A schema is stored, asked for with a wrong token, and asked for with the right one. -/
example :
    let next : Catalog := ⟨[⟨"1.2.3", "letters"⟩], [], [], []⟩
    let reload (authorization : String) : ServiceEvent MemoryStore.Change :=
      .request ⟨"POST", "/admin/schema/reload", [("Authorization", Utf8.encode authorization)]⟩ "" ""
    let after (events : List (ServiceEvent MemoryStore.Change)) : Catalog :=
      (MemoryStore.storage.run (some "key") ⟨.empty .empty, .empty⟩ events).served
    after [.call (.schema next)] = .empty ∧
      after [.call (.schema next), reload "bearer key"] = .empty ∧
      after [.call (.schema next), reload "Bearer key"] = next := by
  decide +kernel

end Storage

end DirectoryService
