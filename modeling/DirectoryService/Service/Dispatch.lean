import DirectoryService.Service.Bind
import DirectoryService.Service.Search

/-!
# Dispatch

Handlers are registered for tag numbers. An operation goes to all handlers of its tag number, in the
order of their registration, until one fails; what the handlers before it replied is kept.
-/

namespace DirectoryService

/-- What became of an operation. -/
inductive Dispatch where
  /-- There is no handler for it. -/
  | unhandled
  /-- Every handler succeeded. -/
  | handled (reply : Reply)
  /-- A handler failed after others had replied. -/
  | failed (reply : Reply) (error : Error)

/-- Handlers by the tag numbers that they are registered for, in the order of registration. -/
structure Dispatcher where
  /-- The registrations. -/
  routes : List (UInt32 × Handler)

namespace Dispatcher

/-- No handlers. -/
def empty : Dispatcher := ⟨[]⟩

/-- The dispatcher with one more registration. -/
def register (dispatcher : Dispatcher) (tag : UInt32) (handler : Handler) : Dispatcher :=
  ⟨dispatcher.routes ++ [(tag, handler)]⟩

/-- The handlers of a tag number. -/
def handlersFor (dispatcher : Dispatcher) (tag : UInt32) : List Handler :=
  (dispatcher.routes.filter (·.1 == tag)).map (·.2)

/-- Whether there is a handler for a tag number. -/
def handles (dispatcher : Dispatcher) (tag : UInt32) : Bool :=
  dispatcher.routes.any (·.1 == tag)

/-- Runs handlers one after the other, after what was replied before. -/
def runAll (context : Context) (messageId : Int) (operation : Ber.Packet) (before : Reply) :
    List Handler → Counted Dispatch
  | [] => .of (.handled before)
  | handler :: rest =>
    (handler context messageId operation).andThen fun result =>
      match result with
      | .error error => .of (.failed before error)
      | .ok reply => runAll context messageId operation (before.append reply) rest

/-- Routes an operation of a tag number to its handlers. -/
def dispatch (dispatcher : Dispatcher) (context : Context) (tag : UInt32) (messageId : Int)
    (operation : Ber.Packet) : Counted Dispatch :=
  match dispatcher.handlersFor tag with
  | [] => .of .unhandled
  | handlers => runAll context messageId operation .empty handlers

/-- The operations that the service answers: binds and searches. -/
def standard : Dispatcher :=
  (empty.register bindRequestTag Bind.handler).register searchRequestTag Search.handler

end Dispatcher

end DirectoryService
