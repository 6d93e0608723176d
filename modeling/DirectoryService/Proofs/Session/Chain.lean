import DirectoryService.Proofs.Service.Chain
import DirectoryService.Proofs.Session.Run
import DirectoryService.Store.Memory

/-!
# Sessions with any handlers

A session gives every operation to the handlers that are registered for its tag number. A chain of
handlers that fails is reported, but what the handlers before the failure replied counts as much as
if all had succeeded: it is written, and the session ends if they asked for it.
-/

namespace DirectoryService

/-- The number of messages that were written before a place. -/
def Report.writtenBefore (report : Report) (place : Nat) : Nat :=
  ((report.exchanges.take place).flatMap (·.messages)).length

namespace Session

/-- Messages that fit the other side are all written, and writing does not fail. -/
theorem deliver_of_fits {session : Session} {written : Nat} {messages : List Ber.Packet}
    (fits : ∀ limit, session.limit = some limit → written + messages.length ≤ limit.after) :
    session.deliver written messages = (messages, none) := by
  rw [deliver]
  cases hl : session.limit with
  | none => rfl
  | some limit => exact if_pos (fits limit hl)

/-- Of messages that do not fit the other side the first are written until writing fails. -/
theorem deliver_of_not_fits {session : Session} {written : Nat} {messages : List Ber.Packet}
    {limit : WriteLimit} (limited : session.limit = some limit)
    (short : limit.after < written + messages.length) :
    session.deliver written messages =
      (messages.take (limit.after - written), some limit.failure) := by
  rw [deliver, limited]
  exact if_neg (Nat.not_le_of_lt short)

/-- What follows from a message whose operation a chain of handlers fails at is what was replied
before the failure, and one more error. -/
theorem turn_of_failed {session : Session} {packet : Ber.Packet} {tag : UInt32}
    {envelope : Envelope} {reply : Reply} {error : Error} {samples : List Sample}
    (asks : Asks packet tag envelope)
    (failed : session.dispatcher.dispatch session.context tag envelope.messageId
      envelope.operation = ⟨.failed reply error, samples⟩) (rest : List UInt8) :
    session.turn (.got (some packet) rest) =
      turnOfReply reply (samples ++ [.connectionError error.kind]) := by
  rw [turn_of_routed asks.message asks.routable, turnOfOperation, asks.tag_eq]
  simp only [failed]

/-- A reply is honoured at a place of a session: its messages are what is written there, and the
session goes on behind them unless the reply asks for its end or writing fails. -/
structure Honoured (session : Session) (report : Report) (place : Nat)
    (messages : List Ber.Packet) (reply : Reply) : Prop where
  /-- If the other side takes all messages, all are written and the reply says how to go on. -/
  whole : (∀ limit, session.limit = some limit →
      report.writtenBefore place + reply.messages.length ≤ limit.after) →
    messages = reply.messages ∧
      (reply.close = true → place + 1 = report.exchanges.length ∧ report.ending = .closed) ∧
      (reply.close = false → place + 1 < report.exchanges.length)
  /-- Otherwise all that the other side takes is written, and the session ends. -/
  cut : ∀ limit, session.limit = some limit →
    limit.after < report.writtenBefore place + reply.messages.length →
      messages = reply.messages.take (limit.after - report.writtenBefore place) ∧
        place + 1 = report.exchanges.length ∧ report.ending = .failed (.io limit.failure)

/-- A session honours what is replied in a turn. -/
theorem honoured_of_turn {moments : Nat → Session} {stop : Ber.Stop} {octets : List UInt8}
    {place : Nat} {exchange : Exchange} {reply : Reply} {samples : List Sample}
    (at_place : (serveThrough moments stop octets).exchanges[place]? = some exchange)
    (hturn : (moments place).turn exchange.reading = turnOfReply reply samples) :
    exchange.samples = samples ∧
      Honoured (moments place) (serveThrough moments stop octets) place exchange.messages
        reply := by
  let written := (serveThrough moments stop octets).writtenBefore place
  have hplace := serveFrom_exchange_at at_place
  simp only [Nat.zero_add] at hplace
  obtain ⟨⟨left, rfl⟩, hgoes, hends⟩ := hplace
  have hmessages : ((moments place).exchange written left.length
      (Ber.readFrame stop left)).1.messages =
        ((moments place).deliver written reply.messages).1 :=
    congrArg (fun turn : Turn => ((moments place).deliver written turn.messages).1) hturn
  -- Only the reply and how writing it goes tell whether the session ends here.
  have hending : (moments place).endingAfter written
      ((moments place).turn (Ber.readFrame stop left)) =
        (((moments place).deliver written reply.messages).2.map fun failure =>
          Ending.failed (.io failure)).or (if reply.close then some .closed else none) :=
    congrArg ((moments place).endingAfter written) hturn
  refine ⟨congrArg Turn.samples hturn, fun fits => ?_, fun limit limited short => ?_⟩
  · rw [deliver_of_fits fits] at hmessages hending
    rw [Option.map_none, Option.none_or] at hending
    refine ⟨hmessages, fun close => hends .closed ?_, fun stays => hgoes ?_⟩
    · exact hending.trans (if_pos close)
    · exact hending.trans (by rw [stays]; rfl)
  · rw [deliver_of_not_fits limited short] at hmessages hending
    exact ⟨hmessages, hends _ hending⟩

/-- After handlers were registered in any order and for any tag numbers, an operation is unhandled
exactly if no handler was registered for its tag number; otherwise it comes to what these handlers
come to in the order of their registration, and registrations for other tag numbers do not matter.
In a session the messages of a chain that failed are written as those of any other, and behind them
the session ends exactly if a handler before the failure asked for it or writing fails. The store,
the schema and the handlers may be others elsewhere in the stream. -/
theorem dispatch_registerAll (registrations : List (UInt32 × Handler)) :
    let dispatcher := Dispatcher.registerAll registrations
    (∀ context tag messageId operation,
      let handlers := Dispatcher.registeredFor tag registrations
      let routed := dispatcher.dispatch context tag messageId operation
      (routed.value = .unhandled ↔ ∀ registration ∈ registrations, registration.1 ≠ tag) ∧
      (∀ outcome, routed = outcome ↔
        Dispatcher.Chained context messageId operation handlers outcome) ∧
      ∀ others, Dispatcher.registeredFor tag others = handlers →
        (Dispatcher.registerAll others).dispatch context tag messageId operation = routed) ∧
    ∀ (moments : Nat → Session) (stop : Ber.Stop) (octets : List UInt8) (place : Nat)
      (exchange : Exchange) (packet : Ber.Packet) (rest : List UInt8) (tag : UInt32)
      (envelope : Envelope) (reply : Reply) (error : Error) (samples : List Sample),
      let report := serveThrough moments stop octets
      let session := moments place
      report.exchanges[place]? = some exchange →
      exchange.reading = .got (some packet) rest →
      Asks packet tag envelope →
      session.dispatcher = dispatcher →
      dispatcher.dispatch session.context tag envelope.messageId envelope.operation =
        ⟨.failed reply error, samples⟩ →
      exchange.samples = samples ++ [.connectionError error.kind] ∧
        Honoured session report place exchange.messages reply := by
  intro dispatcher
  constructor
  · intro context tag messageId operation handlers routed
    refine ⟨Dispatcher.dispatch_registerAll_eq_unhandled_iff,
      fun outcome => Dispatcher.dispatch_registerAll_eq_iff, fun others same => ?_⟩
    rw [Dispatcher.dispatch_registerAll_eq_iff, same]
    exact Dispatcher.dispatch_registerAll_eq_iff.1 rfl
  · intro moments stop octets place exchange packet rest tag envelope reply error samples report
      session at_place reading asks routes failed
    rw [← routes] at failed
    exact honoured_of_turn at_place (reading ▸ turn_of_failed asks failed rest)

/-- A handler that asks for the end is followed by one that fails and by one that is not run: what
the first one replied is written, and the session ends. -/
theorem dispatch_registerAll_closed :
    let lastWord : Handler := fun _ messageId _ =>
      .of (.ok ⟨[Message.bindResponse messageId .success], true⟩)
    let fails : Handler := fun _ _ _ => .of (.error .wrongProtocol)
    let registrations : List (UInt32 × Handler) := [(searchRequestTag, fails),
      (bindRequestTag, lastWord), (bindRequestTag, fails), (bindRequestTag, lastWord)]
    let session : Session := ⟨Dispatcher.registerAll registrations,
      ⟨(MemoryStore.empty .empty).toStore, .empty⟩, none⟩
    let octets : List UInt8 := [0x30, 0x05, 0x02, 0x01, 0x08, 0x60, 0x00]
    let report := session.serve .closed octets
    ∃ exchange, report.exchanges[0]? = some exchange ∧
      exchange.messages = [Message.bindResponse 8 .success] ∧
      report.exchanges.length = 1 ∧ report.ending = .closed := by
  intro lastWord fails registrations session octets report
  let operation : Ber.Packet := .constructed .application bindRequestTag [] ""
  let packet : Ber.Packet :=
    .constructed .universal Ber.sequenceTag [.primitive .universal 2 [8] "", operation] ""
  have hfirst := serveFrom_first (fun _ => session) .closed 0 octets
  have reading : Ber.readFrame .closed octets = .got (some packet) [] := by rfl
  have asks : Asks packet bindRequestTag ⟨8, operation⟩ :=
    .of_routable (by rfl) (by rfl) (by rfl)
  obtain ⟨routed, honoured⟩ := dispatch_registerAll registrations
  have first : Dispatcher.AllReply session.context 8 operation [lastWord]
      [⟨[Message.bindResponse 8 .success], true⟩] := .cons rfl .nil
  have failed : (Dispatcher.registerAll registrations).dispatch session.context bindRequestTag 8
      operation = _ := ((routed _ _ _ _).2.1 _).2 (.failed first rfl)
  obtain ⟨-, hreply⟩ := honoured (fun _ => session) .closed octets 0 _ packet [] bindRequestTag
    ⟨8, operation⟩ _ _ _ hfirst reading asks rfl failed
  obtain ⟨hmessages, hcloses, -⟩ := hreply.whole fun limit limited => by cases limited
  obtain ⟨hlast, hending⟩ := hcloses rfl
  exact ⟨_, hfirst, hmessages, hlast.symm, hending⟩

end Session

end DirectoryService
