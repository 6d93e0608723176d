import DirectoryService.Proofs.Session.Turn
import Mathlib.Algebra.Ring.Nat

/-!
# Runs of sessions

A session does one exchange for each frame of its stream, until something ends it. For a session with
the standard handlers a run says so step by step: every statement about such a session as a whole is
an induction on it.
-/

namespace DirectoryService.Session

/-- How a turn of a session ends it after `written` messages, if it ends it: writing fails, or
something else does. -/
def endingAfter (session : Session) (written : Nat) (turn : Turn) : Option Ending :=
  ((session.deliver written turn.messages).2.map fun failure => .failed (.io failure)).or
    turn.ending

/-- A session only goes on where its turn and the stream do. -/
theorem goesOn_of_endingAfter {session : Session} {written : Nat}
    {reading : Ber.Reading (Option Ber.Packet)}
    (h : session.endingAfter written (session.turn reading) = none) : reading.goesOn = true :=
  goesOn_of_turn (Option.or_eq_none_iff.1 h).2

section

variable {moments : Nat → Session} {stop : Ber.Stop} {written : Nat} {octets : List UInt8}

/-- A session is over where its turn ends it. -/
theorem serveFrom_of_ended {ending : Ending}
    (ended : (moments 0).endingAfter written ((moments 0).turn (Ber.readFrame stop octets)) =
      some ending) :
    serveFrom moments stop written octets =
      ⟨[((moments 0).exchange written octets.length (Ber.readFrame stop octets)).1], ending,
        drains (Ber.readFrame stop octets)⟩ := by
  have hdone : ((moments 0).exchange written octets.length (Ber.readFrame stop octets)).2 =
      some ending := ended
  cases octets with
  | nil =>
    rw [serveFrom]
    exact congrArg (fun ending => Report.mk _ (ending.getD .departed) _) hdone
  | cons leading more =>
    rw [List.length_cons] at hdone ⊢
    rw [serveFrom]
    generalize (moments 0).exchange written (more.length + 1)
      (Ber.readFrame stop (leading :: more)) = done at hdone
    obtain ⟨exchange, ended⟩ := done
    cases hdone
    rfl

/-- A session goes on with what its turn leaves of the stream. -/
theorem serveFrom_of_goesOn
    (goesOn : (moments 0).endingAfter written ((moments 0).turn (Ber.readFrame stop octets)) =
      none) :
    serveFrom moments stop written octets =
      let exchange := ((moments 0).exchange written octets.length (Ber.readFrame stop octets)).1
      let report := serveFrom (fun place => moments (place + 1)) stop
        (written + exchange.messages.length) (Ber.readFrame stop octets).rest
      { report with exchanges := exchange :: report.exchanges } := by
  have hdone : ((moments 0).exchange written octets.length (Ber.readFrame stop octets)).2 =
      none := goesOn
  have hg := goesOn_of_endingAfter goesOn
  cases octets with
  | nil => rw [Ber.goesOn_readFrame_nil] at hg; cases hg
  | cons leading more =>
    rw [List.length_cons] at hdone ⊢
    rw [serveFrom]
    generalize (moments 0).exchange written (more.length + 1)
      (Ber.readFrame stop (leading :: more)) = done at hdone
    obtain ⟨exchange, ended⟩ := done
    cases hdone
    rfl

end

/-- The first exchange of a session is about the first frame of its stream, or about its end. -/
theorem serveFrom_first (moments : Nat → Session) (stop : Ber.Stop) (written : Nat)
    (octets : List UInt8) :
    (serveFrom moments stop written octets).exchanges[0]? =
      some ((moments 0).exchange written octets.length (Ber.readFrame stop octets)).1 := by
  cases hend : (moments 0).endingAfter written ((moments 0).turn (Ber.readFrame stop octets)) with
  | some ending => rw [serveFrom_of_ended hend]; rfl
  | none => rw [serveFrom_of_goesOn hend]; rfl

/-- Each exchange of a session is about a part of the stream, and the session goes on behind it
exactly if nothing in it ends the session. -/
theorem serveFrom_exchange_at {moments : Nat → Session} {stop : Ber.Stop} {written : Nat}
    {octets : List UInt8} {place : Nat} {exchange : Exchange}
    (at_place : (serveFrom moments stop written octets).exchanges[place]? = some exchange) :
    let report := serveFrom moments stop written octets
    let session := moments place
    let earlier := written + ((report.exchanges.take place).flatMap (·.messages)).length
    let ending := session.endingAfter earlier (session.turn exchange.reading)
    (∃ left, exchange = (session.exchange earlier left.length (Ber.readFrame stop left)).1) ∧
      (ending = none → place + 1 < report.exchanges.length) ∧
      ∀ last, ending = some last → place + 1 = report.exchanges.length ∧ report.ending = last := by
  induction place generalizing moments written octets with
  | zero =>
    obtain rfl : _ = exchange :=
      Option.some.inj ((serveFrom_first moments stop written octets).symm.trans at_place)
    cases hend : (moments 0).endingAfter written
        ((moments 0).turn (Ber.readFrame stop octets)) with
    | some ending =>
      rw [serveFrom_of_ended hend]
      refine ⟨⟨octets, rfl⟩, fun silent => ?_, fun last ended => ⟨rfl, ?_⟩⟩
      · exact absurd (hend.symm.trans silent) (Option.some_ne_none ending)
      · exact Option.some.inj (hend.symm.trans ended)
    | none =>
      rw [serveFrom_of_goesOn hend]
      refine ⟨⟨octets, rfl⟩, fun _ => Nat.succ_lt_succ ?_, fun last ended => ?_⟩
      · exact List.length_pos_of_mem (List.mem_of_getElem? (serveFrom_first _ _ _ _))
      · exact absurd (ended.symm.trans hend) (Option.some_ne_none last)
  | succ place ih =>
    cases hend : (moments 0).endingAfter written
        ((moments 0).turn (Ber.readFrame stop octets)) with
    | some ending =>
      rw [serveFrom_of_ended hend] at at_place
      cases at_place
    | none =>
      rw [serveFrom_of_goesOn hend] at at_place ⊢
      obtain ⟨hpart, hgoes, hends⟩ := ih at_place
      simp only [List.take_succ_cons, List.flatMap_cons, List.length_append, ← Nat.add_assoc]
      exact ⟨hpart, fun silent => Nat.succ_lt_succ (hgoes silent),
        fun last ended => ⟨congrArg Nat.succ (hends last ended).1, (hends last ended).2⟩⟩

/-- A session with the standard handlers. The store and the schema may change from frame to frame;
no handler asks the store twice, so this is as often as a change could be seen. -/
def serveStandard (contexts : Nat → Context) (stop : Ber.Stop) (octets : List UInt8) : Report :=
  serveThrough (fun place => standard (contexts place)) stop octets

/-- What is done about the next frame of a stream. -/
def exchangeOn (context : Context) (stop : Ber.Stop) (octets : List UInt8) : Exchange :=
  let reading := Ber.readFrame stop octets
  let turn := (standard context).turn reading
  ⟨reading, octets.length - reading.rest.length, turn.messages, turn.samples⟩

/-- What happens in a session on a stream. -/
inductive Runs (stop : Ber.Stop) : (Nat → Context) → List UInt8 → Report → Prop where
  /-- The next frame ends the session. -/
  | last {contexts octets ending}
      (ends : ((standard (contexts 0)).turn (Ber.readFrame stop octets)).ending = some ending) :
      Runs stop contexts octets
        ⟨[exchangeOn (contexts 0) stop octets], ending, drains (Ber.readFrame stop octets)⟩
  /-- The session goes on behind the next frame. -/
  | more {contexts octets report}
      (goesOn : ((standard (contexts 0)).turn (Ber.readFrame stop octets)).ending = none)
      (run : Runs stop (fun place => contexts (place + 1)) (Ber.readFrame stop octets).rest
        report) :
      Runs stop contexts octets
        { report with exchanges := exchangeOn (contexts 0) stop octets :: report.exchanges }

/-- On a side that takes every message only a turn itself ends a session. -/
theorem endingAfter_standard (context : Context) (written : Nat) (turn : Turn) :
    (standard context).endingAfter written turn = turn.ending := by
  simp only [endingAfter, deliver, standard, Option.map_none, Option.none_or]

/-- A side that takes every message is given every message of a turn. -/
theorem exchange_standard (context : Context) (stop : Ber.Stop) (written : Nat)
    (octets : List UInt8) :
    (standard context).exchange written octets.length (Ber.readFrame stop octets) =
      (exchangeOn context stop octets,
        ((standard context).turn (Ber.readFrame stop octets)).ending) := by
  simp only [exchange, deliver, standard, exchangeOn, Option.map_none, Option.none_or]

/-- A frame after which the stream goes on is dealt with in the same way whatever follows it. -/
theorem exchangeOn_of_goesOn {stop : Ber.Stop} {octets : List UInt8} (context : Context)
    (goesOn : (Ber.readFrame stop octets).goesOn = true) :
    ∃ front, octets = front ++ (Ber.readFrame stop octets).rest ∧
      (exchangeOn context stop octets).taken = front.length ∧
      ∀ other more, exchangeOn context other (front ++ more) =
        { exchangeOn context stop octets with
          reading := (Ber.readFrame stop octets).leaving more } := by
  obtain ⟨front, he, hr⟩ := Ber.readFrame_of_goesOn goesOn
  have hlen : (front ++ (Ber.readFrame stop octets).rest).length -
      (Ber.readFrame stop octets).rest.length = front.length := by
    rw [List.length_append, Nat.add_sub_cancel]
  have htaken : (exchangeOn context stop octets).taken = front.length := by
    rw [← hlen, ← he]
    rfl
  refine ⟨front, he, htaken, fun other more => ?_⟩
  have hmore : (front ++ more).length - more.length = front.length := by
    rw [List.length_append, Nat.add_sub_cancel]
  rw [exchangeOn, hr other more, Ber.Reading.rest_leaving, turn_leaving, hmore, ← htaken]
  rfl

/-- A run is what serving the stream gives. -/
theorem Runs.serveFrom_eq {stop : Ber.Stop} {contexts : Nat → Context} {octets : List UInt8}
    {report : Report} (run : Runs stop contexts octets report) (written : Nat) :
    serveFrom (fun place => standard (contexts place)) stop written octets = report := by
  induction run generalizing written with
  | last ends =>
    rw [serveFrom_of_ended ((endingAfter_standard _ written _).trans ends), exchange_standard]
  | more goesOn run ih =>
    rw [serveFrom_of_goesOn ((endingAfter_standard _ written _).trans goesOn), exchange_standard]
    simp only [ih]

/-- Every stream has a run. -/
theorem exists_runs (stop : Ber.Stop) (contexts : Nat → Context) (octets : List UInt8) :
    ∃ report, Runs stop contexts octets report := by
  -- A frame after which the session goes on takes an octet at least, so fewer and fewer are left.
  induction hn : octets.length using Nat.strongRecOn generalizing octets contexts with
  | ind n ih =>
    cases ht : ((standard (contexts 0)).turn (Ber.readFrame stop octets)).ending with
    | some ending => exact ⟨_, .last ht⟩
    | none =>
      have hl := Ber.rest_lt_of_goesOn (goesOn_of_turn ht)
      obtain ⟨report, run⟩ := ih _ (hn ▸ hl) (fun place => contexts (place + 1)) _ rfl
      exact ⟨_, .more ht run⟩

/-- Serving a stream is its run. -/
theorem runs_serveStandard (contexts : Nat → Context) (stop : Ber.Stop) (octets : List UInt8) :
    Runs stop contexts octets (serveStandard contexts stop octets) := by
  obtain ⟨report, run⟩ := exists_runs stop contexts octets
  have he : serveStandard contexts stop octets = report := run.serveFrom_eq 0
  rw [he]
  exact run

namespace Runs

variable {stop : Ber.Stop} {contexts : Nat → Context} {octets : List UInt8} {report : Report}

/-- A run is the only one on its stream. -/
theorem eq_serveStandard (run : Runs stop contexts octets report) :
    serveStandard contexts stop octets = report := run.serveFrom_eq 0

/-- Each exchange is about a part of the stream, with the store and the schema of its moment. -/
theorem exchange_at (run : Runs stop contexts octets report) {place : Nat} {exchange : Exchange}
    (at_place : report.exchanges[place]? = some exchange) :
    ∃ left, exchange = exchangeOn (contexts place) stop left := by
  obtain rfl := run.eq_serveStandard
  obtain ⟨⟨left, rfl⟩, -⟩ := serveFrom_exchange_at at_place
  rw [exchange_standard]
  exact ⟨left, rfl⟩

/-- An exchange does what its turn says, and is the last one exactly if the turn ends the session. -/
theorem turn_at (run : Runs stop contexts octets report) {place : Nat} {exchange : Exchange}
    (at_place : report.exchanges[place]? = some exchange) :
    let turn := (standard (contexts place)).turn exchange.reading
    exchange.messages = turn.messages ∧ exchange.samples = turn.samples ∧
      (turn.ending = none → place + 1 < report.exchanges.length) ∧
      ∀ ending, turn.ending = some ending →
        place + 1 = report.exchanges.length ∧ report.ending = ending := by
  obtain rfl := run.eq_serveStandard
  obtain ⟨hpart, hends⟩ := serveFrom_exchange_at at_place
  simp only [endingAfter_standard] at hends
  obtain ⟨left, rfl⟩ := run.exchange_at at_place
  exact ⟨rfl, rfl, hends⟩

/-- The exchanges are about the frames of the stream, in order and from the first on. -/
theorem readings_isPrefix (run : Runs stop contexts octets report) :
    report.exchanges.map (·.reading) <+: Ber.readStream stop octets := by
  induction run with
  | @last contexts octets ending ends =>
    rw [Ber.readStream_eq]
    split
    · exact ⟨_, rfl⟩
    · exact ⟨[], rfl⟩
  | @more contexts octets report goesOn run ih =>
    obtain ⟨later, hl⟩ := ih
    rw [Ber.readStream_eq, if_pos (goesOn_of_turn goesOn)]
    exact ⟨later, congrArg _ hl⟩

end Runs

/-- What a session does on the front of a stream, whatever stands behind it: it does the same
exchanges first and then what a session does on the rest alone. -/
structure Leads (contexts : Nat → Context) (front : List UInt8) (earlier : List Exchange) :
    Prop where
  /-- None of the exchanges ends the session. -/
  goesOn : ∀ place exchange, earlier[place]? = some exchange →
    ∃ stop left, exchange = exchangeOn (contexts place) stop left ∧
      ((standard (contexts place)).turn (Ber.readFrame stop left)).ending = none
  /-- The front is what the exchanges take. -/
  length_eq : front.length = (earlier.map (·.taken)).sum
  /-- What is written and counted on the rest follows what is written and counted on the front. -/
  followed : ∀ stop more later,
    Runs stop (fun place => contexts (place + earlier.length)) more later →
      ∃ whole, Runs stop contexts (front ++ more) whole ∧
        whole.messages = earlier.flatMap (·.messages) ++ later.messages ∧
        whole.samples = earlier.flatMap (·.samples) ++ later.samples ∧
        whole.ending = later.ending

namespace Leads

/-- Nothing is done on nothing. -/
theorem nil (contexts : Nat → Context) : Leads contexts [] [] where
  goesOn := fun _ _ at_place => nomatch at_place
  length_eq := rfl
  followed := fun _ _ later run => ⟨later, run, rfl, rfl, rfl⟩

/-- A frame after which the session goes on can stand before a front. -/
theorem cons {stop : Ber.Stop} {contexts : Nat → Context} {octets front : List UInt8}
    {earlier : List Exchange}
    (goesOn : ((standard (contexts 0)).turn (Ber.readFrame stop octets)).ending = none)
    (leads : Leads (fun place => contexts (place + 1)) front earlier) :
    ∃ frame, octets = frame ++ (Ber.readFrame stop octets).rest ∧
      Leads contexts (frame ++ front) (exchangeOn (contexts 0) stop octets :: earlier) := by
  obtain ⟨frame, he, htaken, hcopy⟩ :=
    exchangeOn_of_goesOn (contexts 0) (goesOn_of_turn goesOn)
  refine ⟨frame, he, ?_, ?_, ?_⟩
  · intro place exchange at_place
    cases place with
    | zero => cases at_place; exact ⟨stop, octets, rfl, goesOn⟩
    | succ place => exact leads.goesOn place exchange at_place
  · rw [List.length_append, List.map_cons, List.sum_cons, htaken, leads.length_eq]
  · intro other more later behind
    obtain ⟨whole, run, hm, hs, hw⟩ := leads.followed other more later behind
    have hc := hcopy other (front ++ more)
    have hread : Ber.readFrame other (frame ++ (front ++ more)) =
        (Ber.readFrame stop octets).leaving (front ++ more) := congrArg (·.reading) hc
    have hrest : (Ber.readFrame other (frame ++ (front ++ more))).rest = front ++ more := by
      rw [hread, Ber.Reading.rest_leaving]
    have hgoes : ((standard (contexts 0)).turn
        (Ber.readFrame other (frame ++ (front ++ more)))).ending = none := by
      rw [hread, turn_leaving, goesOn]
    -- Behind the copy of the frame the other stream holds the front and what follows it.
    rw [← hrest] at run
    rw [List.append_assoc frame front more]
    refine ⟨_, Runs.more hgoes run, ?_, ?_, hw⟩
    · rw [Report.messages, List.flatMap_cons, List.flatMap_cons, hc, List.append_assoc]
      exact congrArg _ hm
    · rw [Report.samples, List.flatMap_cons, List.flatMap_cons, hc, List.append_assoc]
      exact congrArg _ hs

end Leads

namespace Runs

variable {stop : Ber.Stop} {contexts : Nat → Context} {octets : List UInt8} {report : Report}

/-- A run is led by all of its exchanges but the last one. -/
theorem exists_leads (run : Runs stop contexts octets report) :
    ∃ front left earlier, octets = front ++ left ∧ Leads contexts front earlier ∧
      report.exchanges = earlier ++ [exchangeOn (contexts earlier.length) stop left] ∧
      ((standard (contexts earlier.length)).turn (Ber.readFrame stop left)).ending =
        some report.ending := by
  induction run with
  | @last contexts octets ending ends => exact ⟨[], octets, [], rfl, .nil contexts, rfl, ends⟩
  | @more contexts octets report goesOn run ih =>
    obtain ⟨front, left, earlier, he, leads, hx, hend⟩ := ih
    obtain ⟨frame, hf, hl⟩ := Leads.cons goesOn leads
    refine ⟨frame ++ front, left, _, ?_, hl, ?_, hend⟩
    · rw [List.append_assoc, ← he, ← hf]
    · rw [hx]
      rfl

/-- A session ends with its last exchange and not before. -/
theorem ends_last (run : Runs stop contexts octets report) :
    ∃ earlier last, report.exchanges = earlier ++ [last] ∧
      (∀ place exchange, earlier[place]? = some exchange →
        ∀ messages ending, ¬ Ends stop (contexts place) exchange.reading messages ending) ∧
      Ends stop (contexts earlier.length) last.reading last.messages report.ending := by
  obtain ⟨front, left, earlier, _, leads, hx, hend⟩ := run.exists_leads
  refine ⟨earlier, _, hx, ?_, ends_iff_turn.2 ⟨rfl, hend⟩⟩
  intro place exchange at_place messages ending ends
  obtain ⟨other, part, rfl, hg⟩ := leads.goesOn place exchange at_place
  obtain ⟨samples, ht⟩ := turn_of_ends ends
  have ht : (standard (contexts place)).turn (Ber.readFrame other part) = _ := ht
  rw [ht] at hg
  cases hg

end Runs

/-- The exchanges of a session are about the frames of its stream, from the first one up to the
first that ends the session, and the session ends as this one says. -/
structure Covers (stop : Ber.Stop) (contexts : Nat → Context) (octets : List UInt8)
    (report : Report) : Prop where
  /-- The exchanges are about frames of the stream, in their order and from the first on. -/
  readings_isPrefix : report.exchanges.map (·.reading) <+: Ber.readStream stop octets
  /-- The last exchange ends the session, and no earlier one does. -/
  ends_last : ∃ earlier last, report.exchanges = earlier ++ [last] ∧
    (∀ place exchange, earlier[place]? = some exchange →
      ∀ messages ending, ¬ Ends stop (contexts place) exchange.reading messages ending) ∧
    Ends stop (contexts earlier.length) last.reading last.messages report.ending

/-- A run covers its stream. -/
theorem Runs.covers {stop : Ber.Stop} {contexts : Nat → Context} {octets : List UInt8}
    {report : Report} (run : Runs stop contexts octets report) :
    Covers stop contexts octets report where
  readings_isPrefix := run.readings_isPrefix
  ends_last := run.ends_last

end DirectoryService.Session
