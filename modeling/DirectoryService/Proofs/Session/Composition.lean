import DirectoryService.Proofs.Session.Run
import DirectoryService.Store.Memory

/-!
# Sessions one after the other

A session keeps nothing from frame to frame. On a stream that could have ended between two frames
it writes and counts what two sessions on the two parts write and count, and it ends as the second
of them.
-/

namespace DirectoryService

namespace Session

variable {stop : Ber.Stop} {context : Context}

/-- The other side of a stream that does not fail leaves at the end of the stream only. -/
theorem Ends.reading_of_departed {reading : Ber.Reading (Option Ber.Packet)}
    {messages : List Ber.Packet} {ending : Ending}
    (ends : Ends .closed context reading messages ending) (departed : ending = .departed) :
    ∃ rest, reading = .got none rest := by
  cases ends with
  | @departed rest => exact ⟨rest, rfl⟩
  | childless childless => cases departed
  | lost framing => cases departed
  | refused asks read result refused answer => cases departed
  | interrupted fails => cases fails

/-- On a stream that does not fail, a session that the other side leaves has nothing more to do. -/
theorem exchangeOn_of_departed {octets : List UInt8}
    (departed : ((standard context).turn (Ber.readFrame .closed octets)).ending =
      some .departed) :
    octets = [] ∧ (exchangeOn context .closed octets).messages = [] ∧
      (exchangeOn context .closed octets).samples = [] := by
  have ends := ends_iff_turn.2 ⟨rfl, departed⟩
  obtain ⟨rest, hr⟩ := ends.reading_of_departed rfl
  have hn : octets = [] := Ber.readFrame_eq_none hr
  subst hn
  exact ⟨rfl, rfl, rfl⟩

/-- Two runs one after the other are one run, if the first part of the stream could have been all
of it. -/
theorem Runs.append {contexts : Nat → Context} {first second : List UInt8} {front back : Report}
    (here : Runs .closed contexts first front) (departed : front.ending = .departed)
    (later : Runs stop (fun place => contexts (place + (front.exchanges.length - 1))) second back) :
    ∃ whole, Runs stop contexts (first ++ second) whole ∧
      whole.messages = front.messages ++ back.messages ∧
      whole.samples = front.samples ++ back.samples ∧ whole.ending = back.ending := by
  obtain ⟨taken, left, earlier, rfl, leads, hx, hend⟩ := here.exists_leads
  rw [departed] at hend
  obtain ⟨rfl, hm, hs⟩ := exchangeOn_of_departed hend
  have hlen : front.exchanges.length - 1 = earlier.length := by
    rw [hx, List.length_append, List.length_singleton, Nat.add_sub_cancel]
  have hmessages : front.messages = earlier.flatMap (·.messages) := by
    rw [Report.messages, hx, List.flatMap_append, List.flatMap_singleton, hm, List.append_nil]
  have hsamples : front.samples = earlier.flatMap (·.samples) := by
    rw [Report.samples, hx, List.flatMap_append, List.flatMap_singleton, hs, List.append_nil]
  rw [hlen] at later
  rw [List.append_nil, hmessages, hsamples]
  exact leads.followed stop second back later

/-- A session on a stream whose first part could have been all of it writes what sessions on the two
parts write, counts what they count and ends as the second of them. So no frame changes what is
answered to a later one, however it was dealt with itself. -/
theorem serve_append (context : Context) (stop : Ber.Stop) (first second : List UInt8)
    (departed : ((standard context).serve .closed first).ending = .departed) :
    let front := (standard context).serve .closed first
    let back := (standard context).serve stop second
    let whole := (standard context).serve stop (first ++ second)
    whole.output = front.output ++ back.output ∧ whole.result = back.result ∧
      ∀ name, whole.counter name = front.counter name + back.counter name := by
  intro front back whole
  have here : Runs .closed (fun _ => context) first front := runs_serveStandard _ _ _
  have later : Runs stop (fun _ => context) second back := runs_serveStandard _ _ _
  obtain ⟨report, run, hm, hs, he⟩ := here.append departed later
  obtain rfl : whole = report := run.eq_serveStandard
  refine ⟨?_, ?_, fun name => ?_⟩
  · rw [Report.output, hm, Ber.Packet.encodeAll_append]
    rfl
  · rw [Report.result, he]
    rfl
  · rw [Report.counter, hs, List.map_append, List.count_append]
    rfl

/-- A frame that is no packet and a message that nothing answers stand before a bind that is
refused. -/
theorem serve_append_refused :
    let context : Context := ⟨(MemoryStore.empty .standard).toStore, .standard⟩
    let first : List UInt8 :=
      [0x30, 0x03, 0x02, 0x05, 0x01, 0x30, 0x05, 0x02, 0x01, 0x07, 0x42, 0x00]
    let second : List UInt8 :=
      [0x30, 0x0C, 0x02, 0x01, 0x08, 0x60, 0x07, 0x02, 0x01, 0x03, 0x04, 0x00, 0xA3, 0x00]
    let front := (standard context).serve .closed first
    let back := (standard context).serve .closed second
    let whole := (standard context).serve .closed (first ++ second)
    front.ending = .departed ∧ whole.output = front.output ++ back.output ∧
      whole.result = back.result ∧
      ∀ name, whole.counter name = front.counter name + back.counter name :=
  ⟨by decide +kernel, serve_append _ .closed _ _ (by decide +kernel)⟩

end Session

end DirectoryService
