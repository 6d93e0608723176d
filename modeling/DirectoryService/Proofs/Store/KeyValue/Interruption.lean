import DirectoryService.Proofs.Store.KeyValue.Provisioning

/-!
# Tasks that are interrupted

A server can get out of reach at any moment, from which on it refuses every command. A task that is
interrupted in this way ends with an error and leaves the server in one of the states that the task
passes through when nothing interrupts it.
-/

namespace DirectoryService.KeyValue

variable {α β : Type}

/-- A server that gets out of reach after some more commands. -/
structure Failing where
  /-- The server. -/
  server : Server
  /-- The number of commands that are still carried out. -/
  left : Nat

/-- Carries a command out, or refuses it without any effect. -/
def Failing.answer (state : Failing) (command : Command) :
    Except Failure command.Answer × Failing :=
  match state.left with
  | 0 => ((({ state.server with reachable := false } : Server).answer command).1, state)
  | left + 1 => ((state.server.answer command).1, ⟨(state.server.answer command).2, left⟩)

namespace Server

/-- Runs a task alone, which is interrupted after a number of commands. What is left is the server
as it is when it is reached again. -/
def interrupted (server : Server) (limit : Nat) (task : Task α) : Except Error α × Server :=
  let (answer, state) := task.run.run Failing.answer ⟨server, limit⟩
  (answer, state.server)

/-- A task ends with a value and leaves a server, after a command on each of the servers that it
passes through. If it is interrupted it leaves the one that it has come to. -/
structure Takes (server : Server) (task : Task α) (stops : List Server) (value : α)
    (later : Server) : Prop where
  /-- Without an interruption the task ends with the value. -/
  whole : server.perform task = (.ok value, later)
  /-- So it does if enough commands are carried out. -/
  done : ∀ extra, task.run.run Failing.answer ⟨server, stops.length + extra⟩ =
    (.ok value, ⟨later, extra⟩)
  /-- Otherwise it ends with an error. -/
  cut : ∀ limit stop, stops[limit]? = some stop → ∃ error,
    task.run.run Failing.answer ⟨server, limit⟩ = (.error error, ⟨stop, 0⟩)

section Rules

variable {server later : Server} {task : Task α} {stops : List Server} {value : α}

/-- A task that is interrupted ends with an error at one of its stops. -/
theorem Takes.interrupted_lt (takes : server.Takes task stops value later) {limit : Nat}
    (early : limit < stops.length) : ∃ error, server.interrupted limit task =
      (.error error, stops[limit]) := by
  obtain ⟨error, hcut⟩ := takes.cut limit stops[limit] (List.getElem?_eq_getElem early)
  refine ⟨error, ?_⟩
  rw [interrupted, hcut]

/-- A task that is not interrupted before its end is done. -/
theorem Takes.interrupted_ge (takes : server.Takes task stops value later) {limit : Nat}
    (late : stops.length ≤ limit) : server.interrupted limit task = (.ok value, later) := by
  have hdone := takes.done (limit - stops.length)
  rw [Nat.add_sub_cancel' late] at hdone
  rw [interrupted, hdone]

/-- A result that is at hand takes no command. -/
theorem takes_liftM (server : Server) (value : α) :
    server.Takes (liftM (Except.ok value : Except Error α)) [] value server where
  whole := rfl
  done extra := by
    rw [List.length_nil, Nat.zero_add]
    rfl
  cut := nofun

/-- A command takes one command. -/
theorem takes_ask {command : Command} {value : command.Answer}
    (asked : server.perform (Task.ask command) = (.ok value, later)) :
    server.Takes (Task.ask command) [server] value later where
  whole := asked
  done extra := by
    have hasked : ((server.answer command).1.mapError Error.database,
        (server.answer command).2) = (.ok value, later) := asked
    obtain ⟨hvalue, hlater⟩ := Prod.mk.inj hasked
    rw [List.length_singleton, Nat.add_comm]
    change ((server.answer command).1.mapError Error.database,
      (⟨(server.answer command).2, extra⟩ : Failing)) = _
    rw [hvalue, hlater]
  cut limit stop found := by
    obtain ⟨rfl, rfl⟩ : limit = 0 ∧ server = stop := by
      cases limit with
      | zero => exact ⟨rfl, Option.some.inj found⟩
      | succ limit => cases found
    exact ⟨_, rfl⟩

/-- A task and what follows it take the commands of both. -/
theorem takes_bind {next : α → Task β} {result : β} {more : List Server} {last : Server}
    (first : server.Takes task stops value later)
    (rest : later.Takes (next value) more result last) :
    server.Takes (task >>= next) (stops ++ more) result last where
  whole := (perform_bind_ok first.whole).trans rest.whole
  done extra := by
    change (task.run >>= ExceptT.bindCont next).run Failing.answer _ = _
    rw [Program.run_bind, List.length_append, Nat.add_assoc, first.done]
    exact rest.done extra
  cut limit stop found := by
    change ∃ error, (task.run >>= ExceptT.bindCont next).run Failing.answer _ = _
    rw [Program.run_bind]
    rcases Nat.lt_or_ge limit stops.length with early | late
    · rw [List.getElem?_append_left early] at found
      obtain ⟨error, hcut⟩ := first.cut limit stop found
      rw [hcut]
      exact ⟨error, rfl⟩
    · rw [List.getElem?_append_right late] at found
      have hdone := first.done (limit - stops.length)
      rw [Nat.add_sub_cancel' late] at hdone
      rw [hdone]
      exact rest.cut _ stop found

end Rules

section Calls

variable {server : Server} {memory : MemoryStore}

/-- To read a section of the schema takes one command. -/
theorem takes_fetchSection (reached : server.reachable = true) {write : α → Json}
    {read : Json → Option α} (faithful : Json.Faithful write read) {place : Place}
    {records : List α} (kept : server.Keeps place write records) :
    server.Takes (fetchSection read place.key) [server] records server := by
  rcases kept with kept | ⟨absent, rfl⟩
  · have hget : server.perform (Task.get place.key) =
        (.ok (some (Json.render (.list (records.map write)))), server) := by
      rw [perform_get reached, Database.text?, kept]
      rfl
    have hread : server.Takes
        (liftM (readRecord (Json.list? read) (Json.render (.list (records.map write))))) []
        records server := by
      have hrecords := readRecord_render faithful.list records
      rw [hrecords]
      exact takes_liftM server records
    exact takes_bind (takes_ask hget) hread
  · have hget : server.perform (Task.get place.key) = (.ok none, server) := by
      rw [perform_get reached, Database.text?, absent]
      rfl
    exact takes_bind (takes_ask hget) (takes_liftM server [])

/-- To read the schema takes four commands. -/
theorem Mirrors.takes_loadCatalog (mirrors : server.Mirrors memory) :
    server.Takes loadCatalog [server, server, server, server] memory.catalog server := by
  have hsyntaxes := takes_fetchSection mirrors.reached LdapSyntax.faithful mirrors.syntaxes
  have hrules := takes_fetchSection mirrors.reached MatchingRule.faithful mirrors.matchingRules
  have htypes := takes_fetchSection mirrors.reached AttributeType.faithful mirrors.attributeTypes
  have hclasses := takes_fetchSection mirrors.reached ObjectClass.faithful mirrors.objectClasses
  have hassemble := takes_liftM server memory.catalog
  rw [← mirrors.assemble_eq] at hassemble
  exact takes_bind hsyntaxes (takes_bind hrules (takes_bind htypes (takes_bind hclasses hassemble)))

/-- To find where an entry is listed takes a command if it has a parent. -/
theorem Mirrors.takes_listingKey (mirrors : server.Mirrors memory) {entry : Entry}
    (parented : ∀ parent, entry.parent = some parent → memory.entries.contains parent = true) :
    server.Takes (listingKey entry) (entry.parent.toList.map fun _ => server)
      (Place.listing entry.parent).key server := by
  unfold listingKey
  cases below : entry.parent with
  | none => exact takes_liftM server rootsKey
  | some parent =>
    have hholds := perform_holds mirrors.reached (entryKey parent)
    rw [mirrors.contains_entryKey, parented parent below] at hholds
    exact takes_bind (takes_ask hholds) (takes_liftM server (childrenKey parent))

/-- To keep an entry that is accepted takes six commands for one without parent and seven for one
below another. All of them but the last only look, and the last one makes all changes. -/
theorem Mirrors.takes_insertEntry (mirrors : server.Mirrors memory) {entry : Entry}
    (accepts : memory.Accepts entry) : ∃ later,
      server.Takes (insertEntry entry) (List.replicate (6 + entry.parent.toList.length) server) ()
        later ∧
      later.Mirrors { memory with entries := memory.entries.insert entry.dn entry } := by
  obtain ⟨members, hset, hmembers⟩ := mirrors.listed entry.parent
  obtain ⟨names, hordered, hnames⟩ := mirrors.tree
  refine ⟨_, ?_, mirrors.withEntry_mirrors accepts hmembers hnames⟩
  have hvalid : server.Takes (liftM (entry.validate.mapError Error.rejected)) [] () server := by
    rw [entry.validate_eq_ok_iff.2 accepts.proper]
    exact takes_liftM server ()
  have hfits : server.Takes (liftM ((memory.catalog.checkEntry entry).mapError Error.rejected)) []
      () server := by
    rw [accepts.fits]
    exact takes_liftM server ()
  have hholds := perform_holds mirrors.reached (entryKey entry.dn)
  rw [mirrors.contains_entryKey, NameMap.contains, accepts.fresh] at hholds
  have hcommit := perform_commit mirrors.reached (commit_entryWrites hset hordered)
  have htakes : server.Takes (insertEntry entry) _ () _ :=
    takes_bind hvalid (takes_bind mirrors.takes_loadCatalog (takes_bind hfits
      (takes_bind (takes_ask hholds) (takes_bind (mirrors.takes_listingKey accepts.parented)
        (takes_ask hcommit)))))
  have hstops : [] ++ ([server, server, server, server] ++ ([] ++ ([server] ++
      ((entry.parent.toList.map fun _ => server) ++ [server])))) =
      List.replicate (6 + entry.parent.toList.length) server := by
    cases entry.parent <;> rfl
  rw [hstops] at htakes
  exact htakes

end Calls

end Server

end DirectoryService.KeyValue
