import DirectoryService.Proofs.Session.Run

/-!
# Where a session ends

A session ends with the first of its frames that ends it and with no other. A refused bind is such a
frame, so its answer is the last message of the session, and nothing that stands behind the bind has
an influence on what is written.
-/

namespace DirectoryService

namespace Session

variable {stop : Ber.Stop} {context : Context} {reading : Ber.Reading (Option Ber.Packet)}
  {messages : List Ber.Packet}

/-- An answer that does not end the session refuses nothing. -/
theorem Answered.not_refuses (answered : Answered context reading messages) :
    ∀ message ∈ messages, ¬ Message.Refuses message := by
  cases answered with
  | bind asks read success answer =>
    exact List.forall_mem_singleton.2 (answer.not_refuses fun _ => rfl)
  | search asks read found shown ends =>
    have hentries := forall_mem_of_forall₂ (fun _ _ isIn => SearchEntry.IsIn.not_refuses isIn) shown
    have hdone := ends.not_refuses fun same => absurd same (by decide)
    exact List.forall_mem_append.2 ⟨hentries, List.forall_mem_singleton.2 hdone⟩

/-- An exchange after which the session goes on refuses nothing. -/
theorem not_refuses_of_goesOn {octets : List UInt8}
    (goesOn : ((standard context).turn (Ber.readFrame stop octets)).ending = none) :
    ∀ message ∈ (exchangeOn context stop octets).messages, ¬ Message.Refuses message := by
  intro message hm
  simp only [exchangeOn] at hm
  rcases turn_cases context stop octets with
    ⟨_, hn, _⟩ | ⟨_, _, hn, _⟩ | ⟨answered, _⟩ | ⟨_, _, hs⟩
  · rw [hn] at hm
    cases hm
  · rw [hn] at hm
    cases hm
  · exact answered.not_refuses message hm
  · rw [hs] at goesOn
    cases goesOn

/-- Nothing is refused before the last exchange. -/
theorem Leads.not_refuses {contexts : Nat → Context} {front : List UInt8}
    {earlier : List Exchange} (leads : Leads contexts front earlier) :
    ∀ message ∈ earlier.flatMap (·.messages), ¬ Message.Refuses message := by
  intro message hm
  obtain ⟨exchange, he, hm⟩ := List.mem_flatMap.1 hm
  obtain ⟨place, hp⟩ := List.mem_iff_getElem?.1 he
  obtain ⟨other, left, rfl, goesOn⟩ := leads.goesOn place exchange hp
  exact not_refuses_of_goesOn goesOn message hm

/-- The octets that were read are those of the exchanges. -/
theorem taken_eq_sum (report : Report) :
    report.taken = (report.exchanges.map (·.taken)).sum := by
  rw [Report.taken, List.sum_eq_foldl_nat, List.foldl_map]

variable {contexts : Nat → Context} {octets : List UInt8} {report : Report}

/-- A session that ends with a whole frame does the same on every stream that starts with the octets
that it has read. -/
theorem Runs.cut (run : Runs stop contexts octets report)
    (whole : ∀ last, report.exchanges.getLast? = some last → last.reading.goesOn = true)
    (other : Ber.Stop) (more : List UInt8) :
    ∃ same, Runs other contexts (octets.take report.taken ++ more) same ∧
      same.messages = report.messages ∧ same.ending = report.ending := by
  obtain ⟨front, left, earlier, rfl, leads, hx, hend⟩ := run.exists_leads
  have hgoes : (Ber.readFrame stop left).goesOn = true :=
    whole _ (by rw [hx, List.getLast?_concat])
  obtain ⟨frame, hf, htaken, hcopy⟩ := exchangeOn_of_goesOn (contexts earlier.length) hgoes
  have hcount : report.taken = (front ++ frame).length := by
    rw [taken_eq_sum, hx, List.map_append, List.sum_append_nat, List.map_singleton,
      List.sum_singleton, List.length_append, leads.length_eq, htaken]
  have hcut : (front ++ left).take report.taken = front ++ frame := by
    rw [hf, ← List.append_assoc, hcount, List.take_left]
  have hc := hcopy other more
  have hread : Ber.readFrame other (frame ++ more) =
      (Ber.readFrame stop left).leaving more := congrArg (·.reading) hc
  have hends : ((standard (contexts (0 + earlier.length))).turn
      (Ber.readFrame other (frame ++ more))).ending = some report.ending := by
    rw [hread, turn_leaving, Nat.zero_add, hend]
  obtain ⟨same, hrun, hm, _, he⟩ := leads.followed other (frame ++ more) _ (.last hends)
  rw [hcut, List.append_assoc]
  refine ⟨same, hrun, ?_, he⟩
  rw [hm, Report.messages, List.flatMap_singleton, Nat.zero_add, hc, Report.messages, hx,
    List.flatMap_append, List.flatMap_singleton]

end Session

end DirectoryService
