import DirectoryService.Proofs.Store.KeyValue.Principals

/-!
# Calls at the same time

Several programs can share a server. Whose turn it is has its next command carried out, in whatever
order the turns come. No command takes anything away, and that is all that a program can rely on
while others have their turns. A call that settles is one that only looks until its last command,
which either changes nothing or is the one change by which the call succeeds.
-/

namespace DirectoryService.KeyValue

variable {α β : Type}

namespace Database

variable {database changed : Database} {key : String}

/-- What is under a key stays there when several changes are made. -/
theorem contains_commit {writes : List Write} (accepted : database.commit writes = .ok changed)
    (there : database.contains key = true) : NameMap.contains changed key = true := by
  induction writes generalizing database with
  | nil =>
    cases accepted
    exact there
  | cons write writes ih =>
    rw [commit, List.foldlM_cons] at accepted
    cases first : database.write write with
    | error failure =>
      rw [first] at accepted
      cases accepted
    | ok next =>
      rw [first] at accepted
      obtain ⟨content, rfl⟩ := exists_insert_of_write first
      refine ih accepted ?_
      rw [NameMap.contains_insert, there, Bool.or_true]

end Database

namespace Server

/-- A server from which nothing was taken away. -/
structure Grows (server later : Server) : Prop where
  /-- It is reached as it was before. -/
  reached : later.reachable = server.reachable
  /-- What was under a key is still there, or something else is. -/
  stays : ∀ key, server.database.contains key = true → later.database.contains key = true

namespace Grows

/-- Nothing is taken away while nothing happens. -/
theorem refl (server : Server) : server.Grows server := ⟨rfl, fun _ there => there⟩

/-- Nothing is taken away by one step after the other. -/
theorem trans {first second third : Server} (earlier : first.Grows second)
    (later : second.Grows third) : first.Grows third :=
  ⟨later.reached.trans earlier.reached, fun key there => later.stays key (earlier.stays key there)⟩

end Grows

/-- No command takes anything away. -/
theorem grows_answer (server : Server) (command : Command) :
    server.Grows (server.answer command).2 := by
  by_cases reads : command.OnlyReads
  · rw [server.answer_of_onlyReads reads]
    exact .refl server
  · rw [answer]
    split
    · refine ⟨rfl, fun key there => ?_⟩
      cases command with
      | putNew place value =>
        simp only [Database.execute]
        split
        · exact there
        · rw [NameMap.contains_insert, there, Bool.or_true]
      | commit writes =>
        simp only [Database.execute]
        split
        · rename_i accepted
          exact Database.contains_commit accepted there
        · exact there
      | _ => exact absurd trivial reads
    · exact .refl server

end Server

namespace Program

/-- A program that changes nothing, whatever else happens; of the value that it ends with it is
known how it fits the server at that moment. -/
def Reads (known : α → Server → Prop) : Program (Except Error α) → Server → Prop
  | .done answer, server => ∀ value, answer = .ok value → known value server
  | .ask command next, server => ∀ later, server.Grows later →
      (later.answer command).2 = later ∧ (next (later.answer command).1).Reads known later

/-- A call of which every command, whatever happened before it, leaves the server as it is and has
not made the call succeed, or makes the change by which the call succeeds at once. -/
def Settles (change : Server → Server → Prop) : Program (Except Error Unit) → Server → Prop
  | .done answer, _ => answer ≠ .ok ()
  | .ask command next, server => ∀ later, server.Grows later →
      ((later.answer command).2 = later ∧ (next (later.answer command).1).Settles change later) ∨
      (change later (later.answer command).2 ∧ next (later.answer command).1 = .done (.ok ()))

/-- A call still settles after others had their turns. -/
theorem Settles.later {change : Server → Server → Prop} {program : Program (Except Error Unit)}
    {server later : Server} (settles : program.Settles change server)
    (grows : server.Grows later) : program.Settles change later := by
  cases program with
  | done answer => exact settles
  | ask command next => exact fun last after => settles last (grows.trans after)

/-- A call that settles by a change settles by every change that this one comes to. -/
theorem Settles.imp {change other : Server → Server → Prop}
    {program : Program (Except Error Unit)} {server : Server}
    (settles : program.Settles change server)
    (comes : ∀ before after, change before after → other before after) :
    program.Settles other server := by
  induction program generalizing server with
  | done answer => exact settles
  | ask command next ih =>
    intro later grows
    rcases settles later grows with ⟨same, goesOn⟩ | ⟨changed, ended⟩
    · exact .inl ⟨same, ih _ goesOn⟩
    · exact .inr ⟨comes _ _ changed, ended⟩

end Program

namespace Task

variable {known : α → Server → Prop} {task : Task α} {server : Server}

/-- A result that is at hand is known to be what it is. -/
theorem reads_liftM {answer : Except Error α}
    (valued : ∀ value, answer = .ok value → known value server) :
    (liftM answer : Task α).run.Reads known server := valued

/-- Of the answer of a command that only reads it is known that the server gives it. -/
theorem reads_ask {command : Command} (reads : command.OnlyReads) (server : Server) :
    (Task.ask command).run.Reads (fun value later => (later.answer command).1 = .ok value)
      server := by
  intro later _
  refine ⟨later.answer_of_onlyReads reads, fun value same => ?_⟩
  cases hanswer : (later.answer command).1 with
  | error failure =>
    rw [hanswer] at same
    cases same
  | ok given =>
    rw [hanswer] at same
    cases same
    exact hanswer

/-- Of the answer whether there is anything under a key it is known that it is right. -/
theorem reads_holds (key : String) (server : Server) :
    (Task.holds key).run.Reads (fun there later => later.database.contains key = there) server := by
  intro later grows
  have reads : (Command.holds key).OnlyReads := trivial
  obtain ⟨same, given⟩ := reads_ask reads server later grows
  refine ⟨same, fun there answered => ?_⟩
  have hanswer : (later.answer (.holds key)).1 = .ok there := given there answered
  unfold Server.answer at hanswer
  split at hanswer
  · exact Except.ok.inj hanswer
  · cases hanswer

/-- A task that reads, followed by one that reads, reads. -/
theorem reads_bind {next : α → Task β} {fact : β → Server → Prop}
    (first : task.run.Reads known server)
    (rest : ∀ value later, server.Grows later → known value later →
      (next value).run.Reads fact later) :
    (task >>= next).run.Reads fact server := by
  change (task.run.bind (ExceptT.bindCont next)).Reads fact server
  generalize task.run = program at first
  induction program generalizing server with
  | done answer =>
    cases answer with
    | error error => exact nofun
    | ok value => exact rest value server (.refl server) (first value rfl)
  | ask command more ih =>
    intro later grows
    obtain ⟨same, goesOn⟩ := first later grows
    exact ⟨same, ih _ (fun value last after => rest value last (grows.trans after)) goesOn⟩

/-- A task that reads, followed by a call that settles, settles. -/
theorem settles_bind {change : Server → Server → Prop} {next : α → Task Unit}
    (first : task.run.Reads known server)
    (rest : ∀ value later, server.Grows later → known value later →
      (next value).run.Settles change later) :
    (task >>= next).run.Settles change server := by
  change (task.run.bind (ExceptT.bindCont next)).Settles change server
  generalize task.run = program at first
  induction program generalizing server with
  | done answer =>
    cases answer with
    | error error => exact nofun
    | ok value => exact rest value server (.refl server) (first value rfl)
  | ask command more ih =>
    intro later grows
    obtain ⟨same, goesOn⟩ := first later grows
    exact .inl ⟨same, ih _ (fun value last after => rest value last (grows.trans after)) goesOn⟩

/-- A call that settles and is made alone leaves the server as it is, or succeeds with its
change. -/
theorem perform_of_settles {change : Server → Server → Prop} {call : Task Unit}
    (settles : call.run.Settles change server) :
    (∃ error, server.perform call = (.error error, server)) ∨
      ∃ later, change server later ∧ server.perform call = (.ok (), later) := by
  change (∃ error, call.run.run Server.answer server = (.error error, server)) ∨
    ∃ later, change server later ∧ call.run.run Server.answer server = (.ok (), later)
  generalize call.run = program at settles
  induction program with
  | done answer =>
    cases answer with
    | error error => exact .inl ⟨error, rfl⟩
    | ok value => exact absurd rfl settles
  | ask command next ih =>
    rw [Program.run]
    rcases settles server (.refl server) with ⟨same, goesOn⟩ | ⟨changed, ended⟩
    · simp only
      rw [same]
      exact ih _ goesOn
    · simp only
      rw [ended]
      exact .inr ⟨_, changed, rfl⟩

end Task

/-- Programs that share a server. -/
structure Concurrent (α : Type) where
  /-- The server. -/
  server : Server
  /-- The programs of the clients, as far as they are still to be carried out. -/
  programs : List (Program α)

namespace Concurrent

/-- The next command of a client is carried out; a client that has ended has no turn any more. -/
def turn (state : Concurrent α) (client : Nat) : Concurrent α :=
  match state.programs[client]? with
  | some (.ask command next) =>
    ⟨(state.server.answer command).2,
      state.programs.set client (next (state.server.answer command).1)⟩
  | _ => state

/-- Clients have their turns in a given order. -/
def turns (state : Concurrent α) (order : List Nat) : Concurrent α := order.foldl turn state

/-- A client has ended with a value. -/
def Ended (state : Concurrent α) (client : Nat) (value : α) : Prop :=
  state.programs[client]? = some (.done value)

/-- The call of a client has succeeded. -/
def Succeeded (state : Concurrent (Except Error Unit)) (client : Nat) : Prop :=
  state.Ended client (.ok ())

/-- A client that has no turn stays where it is. -/
theorem getElem?_programs_turns {state : Concurrent α} {client : Nat} {order : List Nat}
    (idle : client ∉ order) : (state.turns order).programs[client]? = state.programs[client]? := by
  induction order generalizing state with
  | nil => rfl
  | cons other order ih =>
    rw [List.mem_cons, not_or] at idle
    refine (ih idle.2 : ((state.turn other).turns order).programs[client]? = _).trans ?_
    rw [turn]
    split
    · exact List.getElem?_set_ne (Ne.symm idle.1)
    · rfl

/-- What has ended stays as it is. -/
theorem Ended.turns {state : Concurrent α} {client : Nat} {value : α}
    (ended : state.Ended client value) (order : List Nat) :
    (state.turns order).Ended client value := by
  induction order generalizing state with
  | nil => exact ended
  | cons other order ih =>
    refine ih (?_ : (state.turn other).Ended client value)
    rw [turn]
    split
    · rename_i command next running
      have hne : other ≠ client := by
        rintro rfl
        rw [Ended, running] at ended
        cases ended
      rw [Ended, List.getElem?_set_ne hne]
      exact ended
    · exact ended

instance (state : Concurrent (Except Error Unit)) (client : Nat) :
    Decidable (state.Succeeded client) :=
  match found : state.programs[client]? with
  | some (.done (.ok ())) => .isTrue found
  | some (.done (.error _)) => .isFalse fun succeeded => nomatch found.symm.trans succeeded
  | some (.ask _ _) => .isFalse fun succeeded => nomatch found.symm.trans succeeded
  | none => .isFalse fun succeeded => nomatch found.symm.trans succeeded

/-- Turns come after each other. -/
theorem turns_append (state : Concurrent α) (order later : List Nat) :
    state.turns (order ++ later) = (state.turns order).turns later :=
  List.foldl_append

/-- Every call has succeeded, or is still to settle by a change of its own. -/
def Follows (change : Nat → Server → Server → Prop) (state : Concurrent (Except Error Unit)) :
    Prop :=
  ∀ client (program : Program (Except Error Unit)),
    state.programs[client]? = some program →
      program = .done (.ok ()) ∨ program.Settles (change client) state.server

/-- What the turn of a client does to calls that settle. -/
inductive Turn (change : Server → Server → Prop) (client : Nat)
    (state next : Concurrent (Except Error Unit)) : Prop where
  /-- The server stays as it is, and no further call succeeds. -/
  | quiet (same : next.server = state.server)
    (succeeded : ∀ other, next.Succeeded other ↔ state.Succeeded other)
  /-- The call of the client makes its change and succeeds. -/
  | settled (changed : change state.server next.server) (pending : ¬ state.Succeeded client)
    (succeeded : ∀ other, next.Succeeded other ↔ other = client ∨ state.Succeeded other)

section Calls

variable {change : Nat → Server → Server → Prop} {state : Concurrent (Except Error Unit)}

/-- A turn does nothing else, and afterwards every call still settles. -/
theorem turn_cases (follows : state.Follows change) (client : Nat) :
    Turn (change client) client state (state.turn client) ∧ (state.turn client).Follows change := by
  rw [turn]
  split
  · rename_i command next running
    have hcalled : client < state.programs.length := (List.getElem?_eq_some_iff.1 running).1
    have grows := state.server.grows_answer command
    have hpending : ¬ state.Succeeded client := by
      intro succeeded
      rw [Succeeded, Ended, running] at succeeded
      cases succeeded
    have settles : (Program.ask command next).Settles (change client) state.server :=
      (follows client _ running).resolve_left nofun
    -- The programs of the others are what they were, on a server that may have grown.
    have hothers (goesOn : next (state.server.answer command).1 = .done (.ok ()) ∨
        (next (state.server.answer command).1).Settles (change client)
          (state.server.answer command).2) :
        Follows change ⟨(state.server.answer command).2,
          state.programs.set client (next (state.server.answer command).1)⟩ := by
      intro other program found
      by_cases same : client = other
      · subst same
        rw [List.getElem?_set_self hcalled] at found
        cases found
        exact goesOn
      · rw [List.getElem?_set_ne same] at found
        exact (follows other program found).imp_right (·.later grows)
    rcases settles state.server (.refl state.server) with ⟨same, goesOn⟩ | ⟨changed, ended⟩
    · refine ⟨.quiet same fun other => ?_, hothers (.inr (goesOn.later grows))⟩
      by_cases here : client = other
      · subst here
        refine iff_of_false (fun succeeded => ?_) hpending
        rw [Succeeded, Ended, List.getElem?_set_self hcalled] at succeeded
        rw [Option.some.inj succeeded] at goesOn
        exact goesOn rfl
      · rw [Succeeded, Ended, List.getElem?_set_ne here, Succeeded, Ended]
    · refine ⟨.settled changed hpending fun other => ?_, hothers (.inl ended)⟩
      by_cases here : client = other
      · subst here
        refine iff_of_true ?_ (.inl rfl)
        rw [Succeeded, Ended, List.getElem?_set_self hcalled, ended]
      · rw [Succeeded, Ended, List.getElem?_set_ne here]
        exact ⟨.inr, fun h => h.resolve_left (Ne.symm here)⟩
  · exact ⟨.quiet rfl fun _ => Iff.rfl, follows⟩

/-- What holds of calls that share a server and is kept by every turn holds in whatever order the
turns come. -/
theorem turns_induction {motive : Concurrent (Except Error Unit) → Prop}
    (follows : state.Follows change) (start : motive state)
    (kept : ∀ {state client next}, motive state → Turn (change client) client state next →
      motive next) (order : List Nat) : motive (state.turns order) := by
  induction order generalizing state with
  | nil => exact start
  | cons client order ih =>
    obtain ⟨turned, goesOn⟩ := turn_cases follows client
    exact ih goesOn (kept start turned)

/-- Calls settle in whatever order the turns come. -/
theorem follows_turns (follows : state.Follows change) (order : List Nat) :
    (state.turns order).Follows change := by
  induction order generalizing state with
  | nil => exact follows
  | cons client order ih => exact ih (turn_cases follows client).2

/-- A call that is not to settle by any change never succeeds. -/
theorem not_succeeded_turns (follows : state.Follows change) {client : Nat}
    (never : ∀ before after, ¬ change client before after) (pending : ¬ state.Succeeded client)
    (order : List Nat) : ¬ (state.turns order).Succeeded client := by
  refine turns_induction follows (motive := fun state => ¬ state.Succeeded client) pending ?_
    order
  intro state other next pending turn
  cases turn with
  | quiet same succeeded => exact fun h => pending ((succeeded client).1 h)
  | settled changed _ succeeded =>
    intro h
    rcases (succeeded client).1 h with rfl | before
    · exact never _ _ changed
    · exact pending before

end Calls

end Concurrent

end DirectoryService.KeyValue
