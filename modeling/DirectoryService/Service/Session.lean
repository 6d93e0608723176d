import DirectoryService.Ber.Encoding
import DirectoryService.Ber.Frame
import DirectoryService.Request.Envelope
import DirectoryService.Service.Dispatch

/-!
# Sessions

A session reads one frame after the other and answers each before it reads the next. A frame that
was read whole never ends the session because it cannot be understood: that is reported, and the
session goes on. A session ends when the other side leaves, when the place of the next frame is
lost, when a frame holds nothing at all, when a handler asks for it, or when a message cannot be
written.
-/

namespace DirectoryService

/-- Whether a failure only means that the other side went away, as many do without a word. -/
def IoFailure.isDeparture (failure : IoFailure) : Bool :=
  match failure.kind with
  | .unexpectedEnd => true
  | .connectionReset => true
  | .brokenPipe => true
  | .other =>
    let text := Ascii.fold failure.text
    Ascii.occurs "closenotify".toList text || Ascii.occurs "close_notify".toList text

/-- How a session ends. -/
inductive Ending where
  /-- The other side left. -/
  | departed
  /-- A handler asked for the end. -/
  | closed
  /-- An error ended the session. -/
  | failed (error : Error)
deriving DecidableEq

/-- The result of a session that ends in a way. -/
def Ending.result : Ending → Except Error Unit
  | .departed => .ok ()
  | .closed => .ok ()
  | .failed error => .error error

/-- What follows from a frame. -/
structure Turn where
  /-- The messages to write. -/
  messages : List Ber.Packet
  /-- What is counted. -/
  samples : List Sample
  /-- How the session ends, if it ends here. -/
  ending : Option Ending

/-- A side that takes some messages and then fails. -/
structure WriteLimit where
  /-- The number of messages that it takes. -/
  after : Nat
  /-- How it fails. -/
  failure : IoFailure

/-- What a session works with. -/
structure Session where
  /-- The handlers. -/
  dispatcher : Dispatcher
  /-- What the handlers see. -/
  context : Context
  /-- When writing fails, if it does. -/
  limit : Option WriteLimit

/-- What was read and what was done about it. -/
structure Exchange where
  /-- What was read. -/
  reading : Ber.Reading (Option Ber.Packet)
  /-- The number of octets that were read. -/
  taken : Nat
  /-- The messages that were written. -/
  messages : List Ber.Packet
  /-- What was counted. -/
  samples : List Sample

/-- What happened in a session. -/
structure Report where
  /-- The exchanges, in order. -/
  exchanges : List Exchange
  /-- How the session ended. -/
  ending : Ending
  /-- Whether the octets of the stream were used up when it ended. -/
  drained : Bool

namespace Session

/-- A session with the standard handlers, on a side that takes every message. -/
def standard (context : Context) : Session := ⟨.standard, context, none⟩

/-- What follows from a reply. -/
def turnOfReply (reply : Reply) (samples : List Sample) : Turn :=
  ⟨reply.messages, samples, if reply.close then some .closed else none⟩

/-- What follows from an operation that is routed. -/
def turnOfOperation (session : Session) (envelope : Envelope) : Turn :=
  let routed := session.dispatcher.dispatch session.context envelope.operation.tag
    envelope.messageId envelope.operation
  match routed.value with
  | .unhandled => ⟨[], routed.samples, none⟩
  | .handled reply => turnOfReply reply routed.samples
  | .failed reply error => turnOfReply reply (routed.samples ++ [.connectionError error.kind])

/-- What follows from a packet. -/
def turnOfPacket (session : Session) (packet : Ber.Packet) : Turn :=
  if packet.children.isEmpty then ⟨[], [], some (.failed .wrongProtocol)⟩
  else match Envelope.ofPacket packet with
    | .error cause => ⟨[], [.connectionError (Error.request cause).kind], none⟩
    | .ok envelope =>
      if envelope.isRoutable then session.turnOfOperation envelope else ⟨[], [], none⟩

/-- What follows from a fault of the stream. -/
def turnOfFault (fault : Ber.Fault) : Turn :=
  match fault with
  | .io failure =>
    ⟨[], [], some (if failure.isDeparture then .departed else .failed (.io failure))⟩
  | fault =>
    if fault.isRecoverable then ⟨[], [.connectionError (Error.packet fault).kind], none⟩
    else ⟨[], [], some (.failed (.packet fault))⟩

/-- What follows from reading a frame. -/
def turn (session : Session) : Ber.Reading (Option Ber.Packet) → Turn
  | .got none _ => ⟨[], [], some .departed⟩
  | .got (some packet) _ => session.turnOfPacket packet
  | .failed fault _ => turnOfFault fault

/-- Whether a reading used the stream up. -/
def drains : Ber.Reading (Option Ber.Packet) → Bool
  | .got none _ => true
  | .failed .unexpectedEnd _ => true
  | _ => false

/-- The messages that are written after `written` earlier ones, and how writing fails, if it
does. -/
def deliver (session : Session) (written : Nat) (messages : List Ber.Packet) :
    List Ber.Packet × Option IoFailure :=
  match session.limit with
  | none => (messages, none)
  | some limit =>
    if written + messages.length ≤ limit.after then (messages, none)
    else (messages.take (limit.after - written), some limit.failure)

/-- The exchange that a reading from `size` octets leads to after `written` messages, and how the
session ends, if it ends here. -/
def exchange (session : Session) (written size : Nat)
    (reading : Ber.Reading (Option Ber.Packet)) : Exchange × Option Ending :=
  let turn := session.turn reading
  let (sent, failure) := session.deliver written turn.messages
  (⟨reading, size - reading.rest.length, sent, turn.samples⟩,
    (failure.map fun failure => .failed (.io failure)).or turn.ending)

/-- Serves a stream of which `written` messages were answered already. The store and the schema may
be replaced while the stream is served: `moments` holds the session as it stands at each of the
frames to come. -/
def serveFrom (moments : Nat → Session) (stop : Ber.Stop) (written : Nat) : List UInt8 → Report
  | [] =>
    let reading := Ber.readFrame stop []
    let (exchange, ending) := (moments 0).exchange written 0 reading
    ⟨[exchange], ending.getD .departed, drains reading⟩
  | leading :: more =>
    let reading := Ber.readFrame stop (leading :: more)
    match (moments 0).exchange written (more.length + 1) reading with
    | (exchange, some ending) => ⟨[exchange], ending, drains reading⟩
    | (exchange, none) =>
      let report := serveFrom (fun place => moments (place + 1)) stop
        (written + exchange.messages.length) reading.rest
      { report with exchanges := exchange :: report.exchanges }
termination_by octets => octets.length
decreasing_by exact Ber.rest_readFrame_lt stop leading more

/-- Serves a stream while the store and the schema change from frame to frame. -/
def serveThrough (moments : Nat → Session) (stop : Ber.Stop) (octets : List UInt8) : Report :=
  serveFrom moments stop 0 octets

/-- Serves a stream. -/
def serve (session : Session) (stop : Ber.Stop) (octets : List UInt8) : Report :=
  serveThrough (fun _ => session) stop octets

end Session

namespace Report

/-- The messages that were written, in order. -/
def messages (report : Report) : List Ber.Packet := report.exchanges.flatMap (·.messages)

/-- The octets that were written. -/
def output (report : Report) : List UInt8 := Ber.Packet.encodeAll report.messages

/-- What was counted, in order. -/
def samples (report : Report) : List Sample := report.exchanges.flatMap (·.samples)

/-- How often the counter of a name went up. -/
def counter (report : Report) (name : String) : Nat := (report.samples.map Sample.name).count name

/-- The number of octets that were read. -/
def taken (report : Report) : Nat :=
  report.exchanges.foldl (fun sum exchange => sum + exchange.taken) 0

/-- The result of the session. -/
def result (report : Report) : Except Error Unit := report.ending.result

/-- The messages of exchanges with the place in the stream after which each was written. -/
def placed (place : Nat) : List Exchange → List (Nat × List Ber.Packet)
  | [] => []
  | exchange :: rest =>
    (place + exchange.taken, exchange.messages) :: placed (place + exchange.taken) rest

/-- The messages that were written while each chunk was the last one that had been read from, for
chunks of the given sizes from the place `start` on. -/
def chunksFrom (report : Report) (start : Nat) : List Nat → List (List Ber.Packet)
  | [] => []
  | size :: rest =>
    if start < report.taken then
      ((placed 0 report.exchanges).filter fun item =>
        start < item.1 && item.1 ≤ start + size).flatMap (·.2) ::
          chunksFrom report (start + size) rest
    else []

/-- The messages that were written while each chunk of the stream was the last one that had been
read from; chunks that were not read from are left out. -/
def perChunk (report : Report) (sizes : List Nat) : List (List Ber.Packet) :=
  report.chunksFrom 0 sizes

end Report

end DirectoryService
