import DirectoryService.Service.Dispatch
import Mathlib.Data.List.Forall2

/-!
# Chains of handlers

The handlers of a tag number are run one after the other until one fails. How far a chain comes, what
it replies and what it counts is told by its handlers one by one; registrations for other tag numbers
do not show.
-/

namespace DirectoryService

/-- All that was replied one after the other; the connection is closed if any reply asks for it. -/
def Reply.joined (replies : List Reply) : Reply :=
  ⟨replies.flatMap (·.messages), replies.any (·.close)⟩

/-- A reply and what is replied after it are replied together. -/
theorem Reply.append_joined_cons (start reply : Reply) (replies : List Reply) :
    (start.append reply).append (joined replies) = start.append (joined (reply :: replies)) := by
  simp only [append, joined, List.flatMap_cons, List.any_cons, List.append_assoc, Bool.or_assoc]

namespace Dispatcher

/-- The dispatcher after registrations in order. -/
def registerAll (registrations : List (UInt32 × Handler)) : Dispatcher :=
  registrations.foldl (fun dispatcher registration =>
    dispatcher.register registration.1 registration.2) .empty

/-- The handlers among registrations that are for a tag number, in order. -/
def registeredFor (tag : UInt32) (registrations : List (UInt32 × Handler)) : List Handler :=
  registrations.filterMap fun registration =>
    if registration.1 = tag then some registration.2 else none

/-- One more registration is seen by its own tag number only, and behind the earlier ones. -/
theorem handlersFor_register (dispatcher : Dispatcher) (registration : UInt32 × Handler)
    (tag : UInt32) :
    (dispatcher.register registration.1 registration.2).handlersFor tag =
      dispatcher.handlersFor tag ++ registeredFor tag [registration] := by
  rw [handlersFor, register, List.filter_append, List.map_append, ← handlersFor]
  by_cases same : registration.1 = tag
  · simp only [registeredFor, List.filter_cons, List.filter_nil, List.filterMap_cons,
      List.filterMap_nil, same, beq_self_eq_true, if_true, List.map_cons, List.map_nil]
  · simp only [registeredFor, List.filter_cons, List.filter_nil, List.filterMap_cons,
      List.filterMap_nil, same, beq_iff_eq, if_false, List.map_nil]

/-- The handlers of a tag number are those registered for it, in order. -/
theorem handlersFor_registerAll (registrations : List (UInt32 × Handler)) (tag : UInt32) :
    (registerAll registrations).handlersFor tag = registeredFor tag registrations := by
  -- Registrations come behind whatever was registered before.
  have behind (start : Dispatcher) :
      (registrations.foldl (fun dispatcher registration =>
        dispatcher.register registration.1 registration.2) start).handlersFor tag =
          start.handlersFor tag ++ registeredFor tag registrations := by
    induction registrations generalizing start with
    | nil => exact (List.append_nil _).symm
    | cons registration registrations ih =>
      rw [List.foldl_cons, ih, handlersFor_register, List.append_assoc, registeredFor,
        registeredFor, ← List.filterMap_append, List.singleton_append, ← registeredFor]
  exact behind .empty

/-- There is a handler for a tag number exactly if one was registered for it. -/
theorem registeredFor_eq_nil_iff {tag : UInt32} {registrations : List (UInt32 × Handler)} :
    registeredFor tag registrations = [] ↔
      ∀ registration ∈ registrations, registration.1 ≠ tag := by
  rw [registeredFor, List.filterMap_eq_nil_iff]
  simp only [ite_eq_right_iff, reduceCtorEq, imp_false, ne_eq]

section

variable (context : Context) (messageId : Int) (operation : Ber.Packet)

/-- Handlers that all succeed, with the replies that they give. -/
def AllReply (handlers : List Handler) (replies : List Reply) : Prop :=
  List.Forall₂ (fun handler reply => (handler context messageId operation).value = .ok reply)
    handlers replies

/-- What handlers count that are run one after the other. -/
def samplesOf (handlers : List Handler) : List Sample :=
  handlers.flatMap fun handler => (handler context messageId operation).samples

/-- What becomes of an operation that goes to a chain of handlers, and what is counted for it. -/
inductive Chained : List Handler → Counted Dispatch → Prop where
  /-- There is no handler. -/
  | unhandled : Chained [] ⟨.unhandled, []⟩
  /-- All handlers succeed. -/
  | handled {handlers replies} (registered : handlers ≠ [])
      (all : AllReply context messageId operation handlers replies) :
      Chained handlers
        ⟨.handled (.joined replies), samplesOf context messageId operation handlers⟩
  /-- A handler is the first to fail; none of the handlers behind it is run. -/
  | failed {before failing after replies error}
      (all : AllReply context messageId operation before replies)
      (fails : (failing context messageId operation).value = .error error) :
      Chained (before ++ failing :: after)
        ⟨.failed (.joined replies) error,
          samplesOf context messageId operation (before ++ [failing])⟩

end

variable {context : Context} {messageId : Int} {operation : Ber.Packet}

/-- A handler that succeeds adds to what was replied before. -/
theorem runAll_of_ok {handler : Handler} {reply : Reply}
    (replies : (handler context messageId operation).value = .ok reply) (start : Reply)
    (rest : List Handler) :
    runAll context messageId operation start (handler :: rest) =
      let later := runAll context messageId operation (start.append reply) rest
      ⟨later.value, (handler context messageId operation).samples ++ later.samples⟩ := by
  simp only [runAll, Counted.andThen, replies]

/-- A handler that fails ends its chain, whatever comes behind it. -/
theorem runAll_of_error {handler : Handler} {error : Error}
    (fails : (handler context messageId operation).value = .error error) (start : Reply)
    (rest : List Handler) :
    runAll context messageId operation start (handler :: rest) =
      ⟨.failed start error, (handler context messageId operation).samples⟩ := by
  simp only [runAll, Counted.andThen, fails, Counted.of, List.append_nil]

/-- Handlers that all succeed add their replies to what was replied before, and what they count
comes before what the others count. -/
theorem runAll_of_allReply {handlers : List Handler} {replies : List Reply}
    (all : AllReply context messageId operation handlers replies) (start : Reply)
    (rest : List Handler) :
    runAll context messageId operation start (handlers ++ rest) =
      let later := runAll context messageId operation (start.append (.joined replies)) rest
      ⟨later.value, samplesOf context messageId operation handlers ++ later.samples⟩ := by
  induction all generalizing start with
  | nil =>
    have hstart : start.append (.joined []) = start := by
      simp only [Reply.append, Reply.joined, List.flatMap_nil, List.append_nil, List.any_nil,
        Bool.or_false]
    rw [hstart]
    rfl
  | cons first _ ih =>
    rw [List.cons_append, runAll_of_ok first, ih, Reply.append_joined_cons]
    simp only [samplesOf, List.flatMap_cons, List.append_assoc]

/-- A dispatcher runs the chain of a tag number. -/
theorem dispatch_of_chained {dispatcher : Dispatcher} {tag : UInt32} {outcome : Counted Dispatch}
    (chained : Chained context messageId operation (dispatcher.handlersFor tag) outcome) :
    dispatcher.dispatch context tag messageId operation = outcome := by
  have empty_append (reply : Reply) : Reply.empty.append reply = reply := by
    simp only [Reply.append, Reply.empty, List.nil_append, Bool.false_or]
  rw [dispatch]
  generalize dispatcher.handlersFor tag = handlers at chained
  cases chained with
  | unhandled => rfl
  | @handled handlers replies registered all =>
    have hrun := runAll_of_allReply all .empty []
    rw [List.append_nil, empty_append] at hrun
    simp only [runAll, Counted.of, List.append_nil] at hrun
    cases handlers with
    | nil => exact absurd rfl registered
    | cons handler handlers => exact hrun
  | @failed before failing after replies error all fails =>
    have hrun := runAll_of_allReply all .empty (failing :: after)
    rw [empty_append, runAll_of_error fails] at hrun
    have hsamples : samplesOf context messageId operation (before ++ [failing]) =
        samplesOf context messageId operation before ++
          (failing context messageId operation).samples := by
      simp only [samplesOf, List.flatMap_append, List.flatMap_singleton]
    rw [hsamples, ← hrun]
    cases before <;> rfl

/-- Handlers either all succeed or one of them is the first to fail. -/
theorem allReply_or_first_fails (context : Context) (messageId : Int) (operation : Ber.Packet)
    (handlers : List Handler) :
    (∃ replies, AllReply context messageId operation handlers replies) ∨
      ∃ before failing after replies error, handlers = before ++ failing :: after ∧
        AllReply context messageId operation before replies ∧
        (failing context messageId operation).value = .error error := by
  induction handlers with
  | nil => exact .inl ⟨[], .nil⟩
  | cons handler handlers ih =>
    cases first : (handler context messageId operation).value with
    | error error => exact .inr ⟨[], handler, handlers, [], error, rfl, .nil, first⟩
    | ok reply =>
      rcases ih with ⟨replies, all⟩ | ⟨before, failing, after, replies, error, rfl, all, fails⟩
      · exact .inl ⟨reply :: replies, .cons first all⟩
      · exact .inr ⟨handler :: before, failing, after, reply :: replies, error, rfl,
          .cons first all, fails⟩

/-- Every chain of handlers comes to something. -/
theorem exists_chained (context : Context) (messageId : Int) (operation : Ber.Packet)
    (handlers : List Handler) :
    ∃ outcome, Chained context messageId operation handlers outcome := by
  rcases allReply_or_first_fails context messageId operation handlers with
    ⟨replies, all⟩ | ⟨before, failing, after, replies, error, rfl, all, fails⟩
  · by_cases unregistered : handlers = []
    · rw [unregistered]
      exact ⟨_, .unhandled⟩
    · exact ⟨_, .handled unregistered all⟩
  · exact ⟨_, .failed all fails⟩

/-- What a dispatcher makes of an operation is what the handlers registered for its tag number come
to. -/
theorem dispatch_registerAll_eq_iff {registrations : List (UInt32 × Handler)} {tag : UInt32}
    {outcome : Counted Dispatch} :
    (registerAll registrations).dispatch context tag messageId operation = outcome ↔
      Chained context messageId operation (registeredFor tag registrations) outcome := by
  rw [← handlersFor_registerAll]
  constructor
  · intro routed
    obtain ⟨other, chained⟩ := exists_chained context messageId operation
      ((registerAll registrations).handlersFor tag)
    rw [← routed, dispatch_of_chained chained]
    exact chained
  · exact dispatch_of_chained

/-- An operation is unhandled exactly if no handler was registered for its tag number. -/
theorem dispatch_registerAll_eq_unhandled_iff {registrations : List (UInt32 × Handler)}
    {tag : UInt32} :
    ((registerAll registrations).dispatch context tag messageId operation).value = .unhandled ↔
      ∀ registration ∈ registrations, registration.1 ≠ tag := by
  rw [← registeredFor_eq_nil_iff]
  generalize hrouted : (registerAll registrations).dispatch context tag messageId operation = routed
  have chained := dispatch_registerAll_eq_iff.1 hrouted
  generalize registeredFor tag registrations = handlers at chained
  cases chained with
  | unhandled => simp only
  | handled registered all => simp only [reduceCtorEq, registered]
  | failed all fails => simp only [reduceCtorEq, List.append_eq_nil_iff, and_false]

end Dispatcher

end DirectoryService
