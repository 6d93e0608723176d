import DirectoryService.Proofs.Session.Run

/-!
# What a session writes

For each frame a session writes nothing, the answer to a bind, or entries followed by the end of
their search, and it writes the messages of one frame before it reads the next. What was written
can be read back message by message.
-/

namespace DirectoryService

namespace Session

/-- The forms of what is written for what was read. Every message repeats the number of the message
that it answers. -/
inductive Replies : Ber.Reading (Option Ber.Packet) → List Ber.Packet → Prop where
  /-- Nothing is written. -/
  | nothing {reading} : Replies reading []
  /-- A bind is answered by one message. -/
  | bind {packet rest envelope code message} (asks : Asks packet 0 envelope)
      (answer : Message.IsResult envelope.messageId 1 code "Bind Response" message) :
      Replies (.got (some packet) rest) [message]
  /-- A search is answered by its entries and one message that ends it. -/
  | search {packet rest envelope entries code messages done} (asks : Asks packet 3 envelope)
      (shown : List.Forall₂ (SearchEntry.IsIn envelope.messageId) messages entries)
      (ends : Message.IsResult envelope.messageId 5 code "Search Result Done" done) :
      Replies (.got (some packet) rest) (messages ++ [done])

/-- No message is too deep to be read. -/
theorem Replies.depth_le {reading : Ber.Reading (Option Ber.Packet)} {messages : List Ber.Packet}
    (replies : Replies reading messages) :
    ∀ message ∈ messages, message.depth ≤ Ber.depthLimit := by
  have hresult : 2 ≤ Ber.depthLimit := by decide
  have hentry : 5 ≤ Ber.depthLimit := by decide
  cases replies with
  | nothing => exact List.forall_mem_nil _
  | bind asks answer =>
    rw [List.forall_mem_singleton, answer.depth_eq]
    exact hresult
  | search asks shown ends =>
    rw [List.forall_mem_append, List.forall_mem_singleton, ends.depth_eq]
    exact ⟨forall_mem_of_forall₂ (fun _ _ isIn => Nat.le_trans isIn.depth_le hentry) shown,
      hresult⟩

section

variable {stop : Ber.Stop} {context : Context} {reading : Ber.Reading (Option Ber.Packet)}
  {messages : List Ber.Packet}

/-- An answer has one of the forms. -/
theorem Answered.replies (answered : Answered context reading messages) :
    Replies reading messages := by
  cases answered with
  | bind asks read success answer => exact .bind asks answer
  | search asks read found shown ends => exact .search asks shown ends

/-- An answer is more than nothing. -/
theorem Answered.messages_ne_nil (answered : Answered context reading messages) :
    messages ≠ [] := by
  cases answered with
  | bind asks read success answer => exact List.cons_ne_nil _ _
  | search asks read found shown ends =>
    exact List.append_ne_nil_of_right_ne_nil _ (List.cons_ne_nil _ _)

/-- What is written last has one of the forms. -/
theorem Ends.replies {ending : Ending} (ends : Ends stop context reading messages ending) :
    Replies reading messages := by
  cases ends with
  | departed => exact .nothing
  | childless childless => exact .nothing
  | lost framing => exact .nothing
  | refused asks read result refused answer => exact .bind asks answer
  | interrupted fails => exact .nothing

end

/-- The messages of an exchange have one of the forms. -/
theorem replies_exchangeOn (context : Context) (stop : Ber.Stop) (octets : List UInt8) :
    Replies (exchangeOn context stop octets).reading (exchangeOn context stop octets).messages := by
  simp only [exchangeOn]
  rcases turn_cases context stop octets with
    ⟨_, hm, _⟩ | ⟨_, _, hm, _⟩ | ⟨answered, _⟩ | ⟨_, ends, _⟩
  · rw [hm]
    exact .nothing
  · rw [hm]
    exact .nothing
  · exact answered.replies
  · exact ends.replies

/-- Nothing is written for what is passed over, for what is reported, and where the session ends
without an answer; everything else is answered. -/
theorem messages_exchangeOn_eq_nil_iff (context : Context) (stop : Ber.Stop)
    (octets : List UInt8) :
    (exchangeOn context stop octets).messages = [] ↔
      Ignored (exchangeOn context stop octets).reading ∨
        (∃ error, Reported context (exchangeOn context stop octets).reading error) ∨
        ∃ ending, Ends stop context (exchangeOn context stop octets).reading [] ending := by
  simp only [exchangeOn]
  constructor
  · intro silent
    rcases turn_cases context stop octets with
      ⟨ignored, _⟩ | ⟨error, reported, _⟩ | ⟨answered, _⟩ | ⟨ending, ends, _⟩
    · exact .inl ignored
    · exact .inr (.inl ⟨error, reported⟩)
    · exact absurd silent answered.messages_ne_nil
    · rw [silent] at ends
      exact .inr (.inr ⟨ending, ends⟩)
  · rintro (ignored | ⟨error, reported⟩ | ⟨ending, ends⟩)
    · rw [turn_of_ignored ignored]
    · obtain ⟨samples, ht⟩ := turn_of_reported reported
      rw [ht]
    · exact (ends_iff_turn.1 ends).1

/-- A session answers the frames of its stream one by one and in their order, up to the first frame
that ends it. For each it writes nothing, the answer to a bind, or entries and the end of their
search; nothing is written exactly for what is passed over, for what is reported, and where the
session ends without an answer. All that it writes can be read back message by message, unless one
of them is too large to be read. -/
theorem serveStandard_replies (contexts : Nat → Context) (stop : Ber.Stop) (octets : List UInt8) :
    let report := serveStandard contexts stop octets
    Covers stop contexts octets report ∧
    report.output = Ber.Packet.encodeAll (report.exchanges.flatMap (·.messages)) ∧
    (∀ place exchange, report.exchanges[place]? = some exchange →
      Replies exchange.reading exchange.messages ∧
      (exchange.messages = [] ↔
        Ignored exchange.reading ∨ (∃ error, Reported (contexts place) exchange.reading error) ∨
          ∃ ending, Ends stop (contexts place) exchange.reading [] ending)) ∧
    ((∀ message ∈ report.messages, message.contents.length ≤ Ber.contentLimit) →
      (Ber.readStream .closed report.output).map Ber.Reading.outcome =
        report.messages.map (fun message => .ok (some message.undescribed)) ++ [.ok none]) := by
  intro report
  have run : Runs stop contexts octets report := runs_serveStandard contexts stop octets
  refine ⟨run.covers, rfl, ?_, ?_⟩
  · intro place exchange at_place
    obtain ⟨left, rfl⟩ := run.exchange_at at_place
    exact ⟨replies_exchangeOn _ stop left, messages_exchangeOn_eq_nil_iff _ stop left⟩
  · intro small
    refine Ber.outcomes_readStream_encodeAll ?_ small
    intro message hm
    obtain ⟨exchange, he, hm⟩ := List.mem_flatMap.1 hm
    obtain ⟨place, at_place⟩ := List.mem_iff_getElem?.1 he
    obtain ⟨left, rfl⟩ := run.exchange_at at_place
    exact (replies_exchangeOn _ stop left).depth_le message hm

end Session

end DirectoryService
