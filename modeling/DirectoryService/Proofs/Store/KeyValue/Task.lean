import DirectoryService.Proofs.NameMap
import DirectoryService.Store.KeyValue.Directory

/-!
# Tasks and keys

A task that a server carries out alone is done step by step: each command sees what the commands
before it left. No two places of the directory share a key, so a change at one of them is not seen
at any other.
-/

namespace DirectoryService.KeyValue

section Tasks

variable {α β σ : Type}

/-- A program goes on where the one before it ended. -/
theorem Program.run_bind (answer : σ → (command : Command) → Except Failure command.Answer × σ)
    (program : Program α) (next : α → Program β) (state : σ) :
    (program >>= next).run answer state =
      (next (program.run answer state).1).run answer (program.run answer state).2 := by
  induction program generalizing state with
  | done value => rfl
  | ask command more ih => exact ih _ _

/-- A command that changes nothing. -/
def Command.OnlyReads : Command → Prop
  | .putNew _ _ => False
  | .commit _ => False
  | _ => True

namespace Server

variable {server later : Server} {task : Task α} {next : α → Task β}

/-- A command that only reads leaves the server as it is. -/
theorem answer_of_onlyReads (server : Server) {command : Command} (reads : command.OnlyReads) :
    (server.answer command).2 = server := by
  rw [answer]
  split
  · cases command with
    | putNew key value => exact reads.elim
    | commit writes => exact reads.elim
    | get key => rfl
    | getAll keys => rfl
    | holds key => rfl
    | members key => rfl
    | size key => rfl
    | range key low high => rfl
    | ping => rfl
  · rfl

/-- A result is at hand without a command. -/
@[simp] theorem perform_liftM (server : Server) (result : Except Error α) :
    server.perform (liftM result : Task α) = (result, server) := rfl

/-- A task goes on where the one before it succeeded. -/
theorem perform_bind_ok {value : α} (done : server.perform task = (.ok value, later)) :
    server.perform (task >>= next) = later.perform (next value) := by
  have hrun : task.run.run answer server = (.ok value, later) := done
  change (task.run >>= ExceptT.bindCont next).run answer server = _
  rw [Program.run_bind, hrun]
  rfl

/-- A task does not go on after an error. -/
theorem perform_bind_error {error : Error} (failed : server.perform task = (.error error, later)) :
    server.perform (task >>= next) = (.error error, later) := by
  have hrun : task.run.run answer server = (.error error, later) := failed
  change (task.run >>= ExceptT.bindCont next).run answer server = _
  rw [Program.run_bind, hrun]
  rfl

/-- A command is carried out by a server that is reached. -/
theorem perform_ask (reached : server.reachable = true) (command : Command) :
    server.perform (Task.ask command) =
      ((server.database.execute command).1.mapError .database,
        { server with database := (server.database.execute command).2 }) := by
  have ha : server.answer command = ((server.database.execute command).1,
      { server with database := (server.database.execute command).2 }) := by
    rw [answer, if_pos reached]
  change Program.run answer (.ask command _) server = _
  rw [Program.run, ha]
  rfl

/-- A text is looked up. -/
theorem perform_get (reached : server.reachable = true) (key : String) :
    server.perform (Task.get key) = ((server.database.text? key).mapError .database, server) :=
  perform_ask reached (.get key)

/-- Texts are looked up, and nothing is found where there is no text. -/
theorem perform_getAll (reached : server.reachable = true) (keys : List String) :
    server.perform (Task.getAll keys) =
      (.ok (keys.map fun key => (server.database.text? key).toOption.getD none), server) :=
  perform_ask reached (.getAll keys)

/-- It is told whether there is anything. -/
theorem perform_holds (reached : server.reachable = true) (key : String) :
    server.perform (Task.holds key) = (.ok (server.database.contains key), server) :=
  perform_ask reached (.holds key)

/-- The members of a set are listed. -/
theorem perform_members (reached : server.reachable = true) (key : String) :
    server.perform (Task.members key) =
      (((server.database.set? key).map NameMap.keys).mapError .database, server) :=
  perform_ask reached (.members key)

/-- The members of a set are counted. -/
theorem perform_size (reached : server.reachable = true) (key : String) :
    server.perform (Task.size key) =
      (((server.database.set? key).map fun members => members.keys.length).mapError .database,
        server) :=
  perform_ask reached (.size key)

/-- The members of an ordered set in a range are listed. -/
theorem perform_range (reached : server.reachable = true) (key : String) (low high : Bound) :
    server.perform (Task.range key low high) =
      (((server.database.ordered? key).map fun members =>
        members.keys.filter fun member => low.startsAt member && high.endsAt member).mapError
          .database, server) :=
  perform_ask reached (.range key low high)

/-- Changes that none of them is refused are all made. -/
theorem perform_commit (reached : server.reachable = true) {writes : List Write}
    {changed : Database} (accepted : server.database.commit writes = .ok changed) :
    server.perform (Task.commit writes) = (.ok (), { server with database := changed }) := by
  have hask := perform_ask reached (.commit writes)
  rw [Database.execute, accepted] at hask
  exact hask

/-- A text is not kept where there is something already. -/
theorem perform_putNew_taken (reached : server.reachable = true) {key : String}
    (taken : server.database.contains key = true) (value : String) :
    server.perform (Task.putNew key value) = (.ok false, server) := by
  have hask := perform_ask reached (.putNew key value)
  rw [Database.execute, if_pos taken] at hask
  exact hask

/-- A text is kept where there is nothing. -/
theorem perform_putNew_free (reached : server.reachable = true) {key : String}
    (free : server.database.contains key = false) (value : String) :
    server.perform (Task.putNew key value) =
      (.ok true, { server with database := server.database.insert key (.text value) }) := by
  have hask := perform_ask reached (.putNew key value)
  rw [Database.execute, if_neg (Bool.not_eq_true _ ▸ free)] at hask
  exact hask

end Server

end Tasks

/-- A place of the directory in a database. -/
inductive Place where
  /-- An entry. -/
  | entry (dn : String)
  /-- The names below a parent, or those without one. -/
  | listing (parent : Option String)
  /-- All names read backwards. -/
  | tree
  /-- A principal. -/
  | principal (username : String)
  /-- The syntaxes. -/
  | syntaxes
  /-- The matching rules. -/
  | matchingRules
  /-- The attribute types. -/
  | attributeTypes
  /-- The object classes. -/
  | objectClasses
deriving DecidableEq

namespace Place

/-- The key of a place. -/
def key : Place → String
  | entry dn => entryKey dn
  | listing none => rootsKey
  | listing (some parent) => childrenKey parent
  | tree => treeKey
  | principal username => principalKey username
  | syntaxes => syntaxesKey
  | matchingRules => matchingRulesKey
  | attributeTypes => attributeTypesKey
  | objectClasses => objectClassesKey

/-- The place of a key. -/
def ofKey? (key : List Char) : Option Place :=
  if "entry:".toList <+: key then some (.entry (String.ofList (key.drop 6)))
  else if "entries:children:".toList <+: key then
    some (.listing (some (String.ofList (key.drop 17))))
  else if "principal:".toList <+: key then some (.principal (String.ofList (key.drop 10)))
  else if key = rootsKey.toList then some (.listing none)
  else if key = treeKey.toList then some .tree
  else if key = syntaxesKey.toList then some .syntaxes
  else if key = matchingRulesKey.toList then some .matchingRules
  else if key = attributeTypesKey.toList then some .attributeTypes
  else if key = objectClassesKey.toList then some .objectClasses
  else none

/-- What starts with one text does not start with another, unless one of the two starts with the
other. -/
theorem not_isPrefix_append {front other : List Char} (noPrefix : ¬ front <+: other)
    (noLonger : ¬ other <+: front) (rest : List Char) : ¬ front <+: other ++ rest := by
  intro h
  rcases List.prefix_or_prefix_of_prefix h (List.prefix_append other rest) with h | h
  · exact noPrefix h
  · exact noLonger h

/-- The place of a key is the one that it is the key of. -/
theorem ofKey?_key (place : Place) : ofKey? place.key.toList = some place := by
  cases place with
  | entry dn =>
    change ofKey? ("entry:" ++ dn).toList = _
    rw [String.toList_append, ofKey?, if_pos (List.prefix_append _ _)]
    exact congrArg (fun name => some (entry name)) String.ofList_toList
  | listing parent =>
    cases parent with
    | none => decide
    | some parent =>
      change ofKey? ("entries:children:" ++ parent).toList = _
      rw [String.toList_append, ofKey?,
        if_neg (not_isPrefix_append (by decide) (by decide) _),
        if_pos (List.prefix_append _ _)]
      exact congrArg (fun name => some (listing (some name))) String.ofList_toList
  | principal username =>
    change ofKey? ("principal:" ++ username).toList = _
    rw [String.toList_append, ofKey?,
      if_neg (not_isPrefix_append (by decide) (by decide) _),
      if_neg (not_isPrefix_append (by decide) (by decide) _),
      if_pos (List.prefix_append _ _)]
    exact congrArg (fun name => some (principal name)) String.ofList_toList
  | tree => decide
  | syntaxes => decide
  | matchingRules => decide
  | attributeTypes => decide
  | objectClasses => decide

/-- Different places have different keys. -/
theorem key_inj {left right : Place} : left.key = right.key ↔ left = right := by
  refine ⟨fun same => ?_, congrArg key⟩
  have hleft := ofKey?_key left
  rw [same, ofKey?_key right] at hleft
  exact (Option.some.inj hleft).symm

end Place

namespace Database

variable {database : Database} {place other : Place}

/-- A change at a place is seen at this place only. -/
theorem get?_insert_key (database : Database) (place : Place) (content : Content) (other : Place) :
    NameMap.get? (database.insert place.key content) other.key =
      if other = place then some content else database.get? other.key := by
  simp only [NameMap.get?_insert, Place.key_inj]

/-- What is changed at a place is found there. -/
theorem get?_insert_self (database : Database) (place : Place) (content : Content) :
    NameMap.get? (database.insert place.key content) place.key = some content := by
  rw [get?_insert_key, if_pos rfl]

/-- A change at another place leaves what is found as it is. -/
theorem get?_insert_ne (content : Content) (ne : other ≠ place) :
    NameMap.get? (database.insert place.key content) other.key = database.get? other.key := by
  rw [get?_insert_key, if_neg ne]

/-- A change at another place leaves a set as it is. -/
theorem set?_insert_ne (content : Content) (ne : other ≠ place) :
    set? (database.insert place.key content) other.key = database.set? other.key := by
  rw [set?, get?_insert_ne content ne]
  rfl

/-- A change at another place leaves an ordered set as it is. -/
theorem ordered?_insert_ne (content : Content) (ne : other ≠ place) :
    ordered? (database.insert place.key content) other.key = database.ordered? other.key := by
  rw [ordered?, get?_insert_ne content ne]
  rfl

/-- A member is added to a set. -/
theorem write_addMember {key : String} {members : Members} (kept : database.set? key = .ok members)
    (member : String) : database.write (.addMember key member) =
      .ok (database.insert key (.set (members.insert member ()))) := by
  rw [write, kept]
  rfl

/-- A member is added to an ordered set. -/
theorem write_addOrdered {key : String} {members : Members}
    (kept : database.ordered? key = .ok members) (member : String) :
    database.write (.addOrdered key member) =
      .ok (database.insert key (.ordered (members.insert member ()))) := by
  rw [write, kept]
  rfl

end Database

end DirectoryService.KeyValue
