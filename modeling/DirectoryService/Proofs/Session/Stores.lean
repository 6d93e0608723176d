import DirectoryService.Proofs.Session.Run

/-!
# Sessions over stores that answer alike

What a session writes and how it ends depends on its store only through the answers of the store.
Over stores with the same answers the same messages are written after the same frames; the sessions
may differ in what they count, since only the calls of some stores are counted.
-/

namespace DirectoryService

/-- Stores that give the same answer to every question. -/
structure Store.Agrees (left right : Store) : Prop where
  /-- The entries of each name are the same. -/
  entriesByName : ∀ dn, left.entriesByName dn = right.entriesByName dn
  /-- The entries below each name are the same. -/
  entriesByParent : ∀ parent, left.entriesByParent parent = right.entriesByParent parent
  /-- The entries of each subtree are the same. -/
  subtree : ∀ base, left.subtree base = right.subtree base
  /-- The entries without parent are the same. -/
  roots : left.roots = right.roots
  /-- The principals of each user name are the same. -/
  principals : ∀ username, left.principals username = right.principals username
  /-- The syntaxes are the same. -/
  syntaxes : left.syntaxes = right.syntaxes
  /-- The matching rules are the same. -/
  matchingRules : left.matchingRules = right.matchingRules
  /-- The attribute types are the same. -/
  attributeTypes : left.attributeTypes = right.attributeTypes
  /-- The object classes are the same. -/
  objectClasses : left.objectClasses = right.objectClasses
  /-- They are in the same order. -/
  healthy : left.healthy = right.healthy

/-- Stores that agree hold the same schema. -/
theorem Store.Agrees.load_eq {left right : Store} (agrees : left.Agrees right) :
    Catalog.load left = Catalog.load right := by
  rw [Catalog.load, Catalog.load, agrees.syntaxes, agrees.matchingRules, agrees.attributeTypes,
    agrees.objectClasses]

/-- A handler that comes to the same with either of two contexts. -/
def Handler.AnswersAlike (handler : Handler) (left right : Context) : Prop :=
  ∀ messageId operation,
    (handler left messageId operation).value = (handler right messageId operation).value

/-- Binds come to the same over stores that agree. -/
theorem Bind.answersAlike {left right : Store} (agrees : left.Agrees right) (catalog : Catalog) :
    Bind.handler.AnswersAlike ⟨left, catalog⟩ ⟨right, catalog⟩ := by
  intro messageId operation
  rw [Bind.handler, Bind.handler]
  cases BindRequest.ofPacket operation with
  | error cause => rfl
  | ok request =>
    have hresult : (Bind.resultOf left request).value = (Bind.resultOf right request).value := by
      rw [Bind.resultOf, Bind.resultOf]
      cases request.authentication with
      | simple password =>
        have hp := agrees.principals request.name
        simp only [Bind.authenticate, Counted.andThen, Store.counted, Counted.of, hp]
      | unsupported _ => rfl
    simp only [Counted.andThen, hresult]

/-- Searches come to the same over stores that agree. -/
theorem Search.answersAlike {left right : Store} (agrees : left.Agrees right) (catalog : Catalog) :
    Search.handler.AnswersAlike ⟨left, catalog⟩ ⟨right, catalog⟩ := by
  intro messageId operation
  rw [Search.handler, Search.handler]
  cases SearchRequest.ofPacket operation with
  | error cause => rfl
  | ok request =>
    have hfound (path : SearchPath) (selection : Selection) :
        (Search.entriesOn path ⟨left, catalog⟩ request.base selection).value =
          (Search.entriesOn path ⟨right, catalog⟩ request.base selection).value := by
      cases path with
      | subschema => rfl
      | namingContexts =>
        simp only [Search.entriesOn, Counted.andThen, Store.counted, Counted.of, agrees.roots]
      | schema => rfl
      | base =>
        simp only [Search.entriesOn, Counted.andThen, Store.counted, agrees.entriesByName]
      | oneLevel =>
        simp only [Search.entriesOn, Counted.andThen, Store.counted, agrees.entriesByParent]
      | subtree =>
        simp only [Search.entriesOn, Counted.andThen, Store.counted, agrees.subtree]
    simp only [Search.answer, Counted.andThen, hfound]

namespace Dispatcher

/-- Handlers that come to the same one by one come to the same together. -/
theorem value_runAll_eq {left right : Context} {handlers : List Handler}
    (alike : ∀ handler ∈ handlers, handler.AnswersAlike left right) (messageId : Int)
    (operation : Ber.Packet) (before : Reply) :
    (runAll left messageId operation before handlers).value =
      (runAll right messageId operation before handlers).value := by
  induction handlers generalizing before with
  | nil => rfl
  | cons handler handlers ih =>
    obtain ⟨first, rest⟩ := List.forall_mem_cons.1 alike
    simp only [runAll, Counted.andThen, first messageId operation]
    cases (handler right messageId operation).value with
    | error error => rfl
    | ok reply => exact ih rest _

/-- Operations come to the same over stores that agree. -/
theorem value_dispatch_standard_eq {left right : Store} (agrees : left.Agrees right)
    (catalog : Catalog) (tag : UInt32) (messageId : Int) (operation : Ber.Packet) :
    (standard.dispatch ⟨left, catalog⟩ tag messageId operation).value =
      (standard.dispatch ⟨right, catalog⟩ tag messageId operation).value := by
  have halike : ∀ handler ∈ standard.handlersFor tag,
      handler.AnswersAlike ⟨left, catalog⟩ ⟨right, catalog⟩ := by
    intro handler member
    obtain ⟨route, kept, rfl⟩ := List.mem_map.1 member
    have hroute : route = (bindRequestTag, Bind.handler) ∨
        route = (searchRequestTag, Search.handler) := by
      simpa [standard, empty, register] using (List.mem_filter.1 kept).1
    rcases hroute with rfl | rfl
    · exact Bind.answersAlike agrees catalog
    · exact Search.answersAlike agrees catalog
  rw [dispatch, dispatch]
  split
  · rfl
  · exact value_runAll_eq halike messageId operation .empty

end Dispatcher

/-- What was read and done, whatever was counted. -/
def Exchange.uncounted (exchange : Exchange) : Exchange := { exchange with samples := [] }

/-- Reports that differ in what was counted at most. -/
structure Report.Alike (left right : Report) : Prop where
  /-- The same was read and written, in the same order. -/
  exchanges : left.exchanges.map Exchange.uncounted = right.exchanges.map Exchange.uncounted
  /-- The sessions ended in the same way. -/
  ending : left.ending = right.ending
  /-- The same was left of the stream. -/
  drained : left.drained = right.drained

namespace Report.Alike

variable {left right : Report}

/-- The same messages were written. -/
theorem messages (alike : left.Alike right) : left.messages = right.messages := by
  have hwritten (report : Report) :
      report.messages = (report.exchanges.map Exchange.uncounted).flatMap (·.messages) := by
    rw [List.flatMap_map]
    rfl
  rw [hwritten, hwritten, alike.exchanges]

/-- The same octets were written. -/
theorem output (alike : left.Alike right) : left.output = right.output :=
  congrArg Ber.Packet.encodeAll alike.messages

end Report.Alike

namespace Session

/-- Sessions that do the same about everything that they read. -/
structure Mimics (left right : Session) : Prop where
  /-- The same messages are written. -/
  messages : ∀ reading, (left.turn reading).messages = (right.turn reading).messages
  /-- The sessions end in the same way. -/
  ending : ∀ reading, (left.turn reading).ending = (right.turn reading).ending
  /-- Writing fails in the same way. -/
  limit : left.limit = right.limit

/-- Standard sessions over stores that agree do the same. -/
theorem mimics_of_agrees {left right : Store} (agrees : left.Agrees right) (catalog : Catalog)
    (limit : Option WriteLimit) :
    Mimics ⟨.standard, ⟨left, catalog⟩, limit⟩ ⟨.standard, ⟨right, catalog⟩, limit⟩ := by
  have hturn (reading : Ber.Reading (Option Ber.Packet)) :
      (turn ⟨.standard, ⟨left, catalog⟩, limit⟩ reading).messages =
        (turn ⟨.standard, ⟨right, catalog⟩, limit⟩ reading).messages ∧
      (turn ⟨.standard, ⟨left, catalog⟩, limit⟩ reading).ending =
        (turn ⟨.standard, ⟨right, catalog⟩, limit⟩ reading).ending := by
    cases reading with
    | failed fault rest => exact ⟨rfl, rfl⟩
    | got packet rest =>
      cases packet with
      | none => exact ⟨rfl, rfl⟩
      | some packet =>
        simp only [turn, turnOfPacket]
        split
        · exact ⟨rfl, rfl⟩
        · split
          · exact ⟨rfl, rfl⟩
          · rename_i envelope _
            split
            · have hrouted := Dispatcher.value_dispatch_standard_eq agrees catalog
                envelope.operation.tag envelope.messageId envelope.operation
              simp only [turnOfOperation, hrouted]
              cases (Dispatcher.standard.dispatch ⟨right, catalog⟩ envelope.operation.tag
                envelope.messageId envelope.operation).value <;> exact ⟨rfl, rfl⟩
            · exact ⟨rfl, rfl⟩
  exact ⟨fun reading => (hturn reading).1, fun reading => (hturn reading).2, rfl⟩

namespace Mimics

variable {left right : Session}

/-- The same is done about what is read, and the session ends here or goes on alike. -/
theorem exchange (mimics : left.Mimics right) (written size : Nat)
    (reading : Ber.Reading (Option Ber.Packet)) :
    (left.exchange written size reading).1.uncounted =
        (right.exchange written size reading).1.uncounted ∧
      (left.exchange written size reading).2 = (right.exchange written size reading).2 := by
  have hdeliver (messages : List Ber.Packet) :
      left.deliver written messages = right.deliver written messages := by
    rw [deliver, deliver, mimics.limit]
  simp only [Session.exchange, Exchange.uncounted, mimics.messages, mimics.ending, hdeliver,
    and_self]

end Mimics

/-- Sessions that do the same about everything that they read do the same on every stream. -/
theorem serveFrom_alike {left right : Nat → Session}
    (mimics : ∀ place, (left place).Mimics (right place)) (stop : Ber.Stop) (written : Nat)
    (octets : List UInt8) :
    (serveFrom left stop written octets).Alike (serveFrom right stop written octets) := by
  -- Every frame after which a session goes on takes an octet at least.
  induction hn : octets.length using Nat.strongRecOn generalizing octets left right written with
  | ind n ih =>
    obtain ⟨hdone, hend⟩ := (mimics 0).exchange written octets.length (Ber.readFrame stop octets)
    cases hleft : (left 0).endingAfter written ((left 0).turn (Ber.readFrame stop octets)) with
    | some ending =>
      rw [serveFrom_of_ended hleft, serveFrom_of_ended (hend.symm.trans hleft)]
      exact ⟨congrArg (fun exchange => [exchange]) hdone, rfl, rfl⟩
    | none =>
      have hwritten := congrArg Exchange.messages hdone
      have hshorter := Ber.rest_lt_of_goesOn (goesOn_of_endingAfter hleft)
      have hrest := ih _ (hn ▸ hshorter) (fun place => mimics (place + 1))
        (written + ((right 0).exchange written octets.length
          (Ber.readFrame stop octets)).1.messages.length) _ rfl
      rw [serveFrom_of_goesOn hleft, serveFrom_of_goesOn (hend.symm.trans hleft)]
      simp only [Exchange.uncounted] at hwritten
      simp only [hwritten]
      refine ⟨?_, hrest.ending, hrest.drained⟩
      rw [List.map_cons, List.map_cons, hdone, hrest.exchanges]

/-- Sessions that do the same about everything that they read write the same on every stream. -/
theorem Mimics.serve_alike {left right : Session} (mimics : left.Mimics right) (stop : Ber.Stop)
    (octets : List UInt8) : (left.serve stop octets).Alike (right.serve stop octets) :=
  serveFrom_alike (fun _ => mimics) stop 0 octets

end Session

end DirectoryService
