import DirectoryService.Proofs.Store.KeyValue.Mirror
import DirectoryService.Proofs.Store.KeyValue.Provisioning
import DirectoryService.Proofs.Store.Principals

/-!
# Principals stay on a server

A principal that is kept on a server stays as it is, whatever is provisioned after it. Each command
of a provisioning task leaves an occupied place of a principal alone, and so do the tasks: what is
kept by the parts of a task is kept by the task. Hence a password with which a principal was kept
lets its user in from then on, on a server as well as in memory.
-/

namespace DirectoryService.KeyValue

/-- The key that a change is made under. -/
def Write.key : Write → String
  | .put key _ => key
  | .addMember key _ => key
  | .addOrdered key _ => key

/-- A command makes no change under a key that is occupied. -/
def Command.Spares (key : String) : Command → Prop
  | .commit writes => ∀ write ∈ writes, write.key ≠ key
  | _ => True

namespace Database

variable {database changed : Database} {key : String}

/-- A change puts something under its key. -/
theorem exists_insert_of_write {write : Write} (accepted : database.write write = .ok changed) :
    ∃ content, changed = NameMap.insert database write.key content := by
  cases write with
  | put at_key value => exact ⟨_, (Except.ok.inj accepted).symm⟩
  | addMember at_key member =>
    rw [Database.write] at accepted
    cases kept : database.set? at_key with
    | error failure =>
      rw [kept] at accepted
      cases accepted
    | ok members =>
      rw [kept] at accepted
      exact ⟨_, (Except.ok.inj accepted).symm⟩
  | addOrdered at_key member =>
    rw [Database.write] at accepted
    cases kept : database.ordered? at_key with
    | error failure =>
      rw [kept] at accepted
      cases accepted
    | ok members =>
      rw [kept] at accepted
      exact ⟨_, (Except.ok.inj accepted).symm⟩

/-- Several changes are not seen under other keys. -/
theorem get?_commit {writes : List Write} (accepted : database.commit writes = .ok changed)
    (others : ∀ write ∈ writes, write.key ≠ key) :
    NameMap.get? changed key = database.get? key := by
  induction writes generalizing database with
  | nil =>
    cases accepted
    rfl
  | cons write writes ih =>
    obtain ⟨here, rest⟩ := List.forall_mem_cons.1 others
    rw [commit, List.foldlM_cons] at accepted
    cases first : database.write write with
    | error failure =>
      rw [first] at accepted
      cases accepted
    | ok next =>
      rw [first] at accepted
      have hrest : NameMap.get? changed key = next.get? key := ih accepted rest
      obtain ⟨content, rfl⟩ := exists_insert_of_write first
      rw [hrest, NameMap.get?_insert, if_neg (Ne.symm here)]

/-- A command that spares a key leaves what is under it. -/
theorem get?_execute {command : Command} {content : Content} (spares : command.Spares key)
    (there : database.get? key = some content) :
    NameMap.get? (database.execute command).2 key = some content := by
  cases command with
  | putNew at_key value =>
    rw [execute]
    split
    · exact there
    · rename_i free
      have hne : key ≠ at_key := by
        intro same
        rw [← same, NameMap.contains, there] at free
        exact free rfl
      rw [NameMap.get?_insert, if_neg hne, there]
  | commit writes =>
    rw [execute]
    split
    · rename_i changed accepted
      rw [get?_commit accepted spares, there]
    · exact there
  | get at_key => exact there
  | getAll keys => exact there
  | holds at_key => exact there
  | members at_key => exact there
  | size at_key => exact there
  | range at_key low high => exact there
  | ping => exact there

end Database

section Tasks

variable {α β : Type} {invariant : Server → Prop}

/-- A task that leaves a property of a server as it is, and whose value, if it ends with one, is of
a certain kind. -/
def Task.Keeps (invariant : Server → Prop) (task : Task α) (kind : α → Prop) : Prop :=
  ∀ server, invariant server → invariant (server.perform task).2 ∧
    ∀ value, (server.perform task).1 = .ok value → kind value

namespace Task.Keeps

/-- A result that is at hand changes nothing. -/
theorem result {answer : Except Error α} {kind : α → Prop}
    (valued : ∀ value, answer = .ok value → kind value) :
    Task.Keeps invariant (liftM answer : Task α) kind :=
  fun _ holds => ⟨holds, valued⟩

/-- What is kept by a task and by what follows it is kept by both together. -/
theorem bind {task : Task α} {next : α → Task β} {middle : α → Prop} {kind : β → Prop}
    (first : Task.Keeps invariant task middle)
    (second : ∀ value, middle value → Task.Keeps invariant (next value) kind) :
    Task.Keeps invariant (task >>= next) kind := by
  intro server holds
  obtain ⟨after, valued⟩ := first server holds
  cases done : server.perform task with
  | mk answer later =>
    rw [done] at after valued
    cases answer with
    | error error =>
      rw [Server.perform_bind_error done]
      exact ⟨after, nofun⟩
    | ok value =>
      rw [Server.perform_bind_ok done]
      exact second value (valued value rfl) later after

/-- A command that only reads keeps whatever there is. -/
theorem ask {command : Command} (reads : command.OnlyReads) :
    Task.Keeps invariant (Task.ask command) fun _ => True := by
  intro server holds
  have hasked : (server.perform (Task.ask command)).2 = (server.answer command).2 := rfl
  rw [hasked, server.answer_of_onlyReads reads]
  exact ⟨holds, fun _ _ => trivial⟩

/-- What every task of a list keeps is kept by all of them, one after the other. -/
theorem forM {items : List α} {task : α → Task Unit}
    (each : ∀ item, Task.Keeps invariant (task item) fun _ => True) :
    Task.Keeps invariant (items.forM task) fun _ => True := by
  induction items with
  | nil => exact .result fun _ _ => trivial
  | cons item items ih => exact .bind (each item) fun _ _ => ih

end Task.Keeps

end Tasks

namespace Server

/-- A server that is reached and has a certain content at the place of a principal. -/
def ShowsPrincipal (username : String) (content : Content) (server : Server) : Prop :=
  server.reachable = true ∧
    server.database.get? (Place.principal username).key = some content

section Frame

variable {α : Type} {username : String} {content : Content}

/-- A command that spares the place of a principal keeps what is there. -/
theorem keeps_ask {command : Command} (spares : command.Spares (Place.principal username).key) :
    Task.Keeps (ShowsPrincipal username content) (Task.ask command) fun _ => True := by
  intro server shows
  obtain ⟨reached, there⟩ := shows
  rw [perform_ask reached]
  exact ⟨⟨reached, Database.get?_execute spares there⟩, fun _ _ => trivial⟩

/-- To look whether there is anything keeps it. -/
theorem keeps_holds (key : String) :
    Task.Keeps (ShowsPrincipal username content) (Task.holds key) fun _ => True :=
  keeps_ask trivial

/-- To read a section of the schema keeps it. -/
theorem keeps_fetchSection (read : Json → Option α) (key : String) :
    Task.Keeps (ShowsPrincipal username content) (fetchSection read key) fun _ => True := by
  have hget : Task.Keeps (ShowsPrincipal username content) (Task.get key) fun _ => True :=
    keeps_ask trivial
  refine hget.bind fun text _ => ?_
  cases text with
  | none => exact .result fun _ _ => trivial
  | some text => exact .result fun _ _ => trivial

/-- To read the schema keeps it. -/
theorem keeps_loadCatalog :
    Task.Keeps (ShowsPrincipal username content) loadCatalog fun _ => True := by
  refine (keeps_fetchSection _ _).bind fun syntaxes _ => ?_
  refine (keeps_fetchSection _ _).bind fun matchingRules _ => ?_
  refine (keeps_fetchSection _ _).bind fun attributeTypes _ => ?_
  refine (keeps_fetchSection _ _).bind fun objectClasses _ => ?_
  exact .result fun _ _ => trivial

/-- To find where an entry is listed keeps it, and the key that is found is the one of a list. -/
theorem keeps_listingKey (entry : Entry) :
    Task.Keeps (ShowsPrincipal username content) (listingKey entry)
      fun listing => ∃ parent, listing = (Place.listing parent).key := by
  unfold listingKey
  cases entry.parent with
  | none => exact .result fun _ same => ⟨none, (Except.ok.inj same).symm⟩
  | some parent =>
    refine (keeps_holds (entryKey parent)).bind fun there _ => ?_
    cases there with
    | true => exact .result fun _ same => ⟨some parent, (Except.ok.inj same).symm⟩
    | false => exact .result nofun

/-- The key of another place is not the one of a principal. -/
theorem key_ne_principal (place : Place) (other : place ≠ .principal username) :
    place.key ≠ (Place.principal username).key :=
  fun same => other (Place.key_inj.1 same)

/-- To keep a schema keeps it. -/
theorem keeps_storeCatalog (catalog : Catalog) :
    Task.Keeps (ShowsPrincipal username content) (storeCatalog catalog) fun _ => True := by
  refine keeps_ask fun write member => ?_
  simp only [catalogWrites, List.mem_cons, List.not_mem_nil, or_false] at member
  rcases member with rfl | rfl | rfl | rfl
  · exact key_ne_principal .syntaxes nofun
  · exact key_ne_principal .matchingRules nofun
  · exact key_ne_principal .attributeTypes nofun
  · exact key_ne_principal .objectClasses nofun

/-- To keep an entry keeps it. -/
theorem keeps_insertEntry (entry : Entry) :
    Task.Keeps (ShowsPrincipal username content) (insertEntry entry) fun _ => True := by
  unfold insertEntry
  refine .bind (.result fun _ _ => trivial) fun (_ : Unit) (_ : True) => ?_
  refine keeps_loadCatalog.bind fun catalog _ => ?_
  refine .bind (.result fun _ _ => trivial) fun (_ : Unit) (_ : True) => ?_
  refine (keeps_holds (entryKey entry.dn)).bind fun there _ => ?_
  cases there with
  | true => exact .result fun _ _ => trivial
  | false =>
    refine (keeps_listingKey entry).bind fun listing listed => ?_
    obtain ⟨parent, rfl⟩ := listed
    refine keeps_ask fun write member => ?_
    simp only [entryWrites, List.mem_cons, List.not_mem_nil, or_false] at member
    rcases member with rfl | rfl | rfl
    · exact key_ne_principal (.entry entry.dn) nofun
    · exact key_ne_principal (.listing parent) nofun
    · exact key_ne_principal .tree nofun

/-- To keep a principal keeps it, whatever the name of the other one is. -/
theorem keeps_insertPrincipal (principal : Principal) :
    Task.Keeps (ShowsPrincipal username content) (insertPrincipal principal) fun _ => True := by
  have hput : Task.Keeps (ShowsPrincipal username content)
      (Task.putNew (principalKey principal.username) principal.toJson.render) fun _ => True :=
    keeps_ask trivial
  refine hput.bind fun added _ => ?_
  cases added with
  | true => exact .result fun _ _ => trivial
  | false => exact .result fun _ _ => trivial

end Frame

/-- A command is refused by a server that is out of reach. -/
theorem perform_ask_unreached {server : Server} (unreached : server.reachable = false)
    (command : Command) : server.perform (Task.ask command) =
      (.error (.database "Connection refused"), server) := by
  have ha : server.answer command = (.error "Connection refused", server) := by
    rw [answer, if_neg (Bool.not_eq_true _ ▸ unreached)]
  change Program.run answer (.ask command _) server = _
  rw [Program.run, ha]
  rfl

/-- A principal that was accepted is what a server that is reached has at its place. -/
theorem showsPrincipal_of_accepted {server next : Server} {principal : Principal}
    (accepted : server.perform (insertPrincipal principal) = (.ok (), next)) :
    ShowsPrincipal principal.username (.text principal.toJson.render) next := by
  unfold insertPrincipal at accepted
  cases reached : server.reachable with
  | false =>
    have hput : server.perform
        (Task.putNew (principalKey principal.username) principal.toJson.render) = _ :=
      perform_ask_unreached reached (.putNew _ _)
    rw [perform_bind_error hput] at accepted
    cases accepted
  | true =>
    cases taken : server.database.contains (principalKey principal.username) with
    | true =>
      rw [perform_bind_ok (perform_putNew_taken reached taken _)] at accepted
      cases accepted
    | false =>
      rw [perform_bind_ok (perform_putNew_free reached taken _)] at accepted
      cases accepted
      exact ⟨reached, Database.get?_insert_self _ (.principal principal.username) _⟩

/-- A principal that a server has at its place is the one that is found by its name. -/
theorem ShowsPrincipal.principals_eq {server : Server} {username : String} {principal : Principal}
    (shows : ShowsPrincipal username (.text principal.toJson.render) server) :
    server.toStore.principals username = .ok [principal] := by
  obtain ⟨reached, there⟩ := shows
  have hfetch : server.perform (fetch Principal.ofJson? (principalKey username)) =
      (.ok (some principal).toList, server) :=
    perform_fetch reached Principal.faithful there
  exact congrArg Prod.fst hfetch

/-- A call that provisions a server. -/
inductive Call where
  /-- A call that can be made to a store in memory as well. -/
  | change (change : MemoryStore.Change)
  /-- The standard schema, the example tree and the administrator are kept, if there is nothing. -/
  | seed (created : String) (administrator : Principal)

/-- The server after a call. -/
def afterCall (server : Server) : Call → Server
  | .change change => (server.attempt change).2
  | .seed created administrator => (server.perform (seedIfEmpty created administrator)).2

/-- The server after calls one after the other. -/
def afterCalls (server : Server) (calls : List Call) : Server := calls.foldl afterCall server

/-- A property of servers that is kept by the calls that make one change each. -/
structure IsKept (invariant : Server → Prop) : Prop where
  /-- To keep an entry keeps it. -/
  entry : ∀ entry, Task.Keeps invariant (insertEntry entry) fun _ => True
  /-- To keep a principal keeps it. -/
  principal : ∀ principal, Task.Keeps invariant (insertPrincipal principal) fun _ => True
  /-- To keep a schema keeps it. -/
  schema : ∀ catalog, Task.Keeps invariant (storeCatalog catalog) fun _ => True

namespace IsKept

variable {invariant : Server → Prop}

/-- To provision an empty directory keeps it. -/
theorem seed (kept : IsKept invariant) (created : String) (administrator : Principal) :
    Task.Keeps invariant (seedIfEmpty created administrator) fun _ => True := by
  have hsize : Task.Keeps invariant (Task.size rootsKey) fun _ => True := .ask trivial
  have hholds : Task.Keeps invariant (Task.holds (principalKey administrator.username))
      fun _ => True := .ask trivial
  unfold seedIfEmpty
  refine hsize.bind fun (count : Nat) _ => ?_
  by_cases some_root : 0 < count
  · rw [if_pos some_root]
    exact .result fun _ _ => trivial
  · rw [if_neg some_root]
    refine (kept.schema .standard).bind fun _ _ => ?_
    refine (Task.Keeps.forM kept.entry).bind fun _ _ => ?_
    refine hholds.bind fun (there : Bool) _ => ?_
    cases there with
    | true => exact .result fun _ _ => trivial
    | false => exact (kept.principal administrator).bind fun _ _ => .result fun _ _ => trivial

/-- So does every call. -/
theorem afterCall (kept : IsKept invariant) {server : Server} (holds : invariant server)
    (call : Call) : invariant (server.afterCall call) := by
  cases call with
  | change change =>
    cases change with
    | entry entry => exact (kept.entry entry server holds).1
    | principal principal => exact (kept.principal principal server holds).1
    | schema catalog => exact (kept.schema catalog server holds).1
  | seed created administrator => exact (kept.seed created administrator server holds).1

/-- So does every history of calls. -/
theorem afterCalls (kept : IsKept invariant) {server : Server} (holds : invariant server)
    (calls : List Call) : invariant (server.afterCalls calls) := by
  induction calls generalizing server with
  | nil => exact holds
  | cons call calls ih => exact ih (kept.afterCall holds call)

end IsKept

/-- Every call leaves the place of a principal as it is. -/
theorem isKept_showsPrincipal (username : String) (content : Content) :
    IsKept (ShowsPrincipal username content) where
  entry := keeps_insertEntry
  principal := keeps_insertPrincipal
  schema := keeps_storeCatalog

/-- So does every history of calls. -/
theorem ShowsPrincipal.afterCalls {server : Server} {username : String} {content : Content}
    (shows : ShowsPrincipal username content server) (calls : List Call) :
    ShowsPrincipal username content (server.afterCalls calls) :=
  (isKept_showsPrincipal username content).afterCalls shows calls

end Server

/-- A password is accepted where it was stored, under every salt. A user who was accepted with a
password, in memory or on a server, is let in by it after every further history, whatever else is
tried with the same name. -/
theorem authenticate_after_provisioning (username password : String) (salt : List UInt8)
    (created : Timestamp) :
    let principal := Principal.withPassword username (Utf8.encode password) salt created
    let LetsIn (store : Store) : Prop :=
      (Bind.authenticate store username (Utf8.encode password)).value = .ok .success
    (∀ octets salt,
      Password.verify octets (Password.hash octets salt) (Base64.encode salt) = .ok true) ∧
    (∀ memory next : MemoryStore, memory.insertPrincipal principal = .ok next →
      ∀ changes, LetsIn (next.provision changes).toStore) ∧
    (∀ server next : Server, server.perform (insertPrincipal principal) = (.ok (), next) →
      ∀ calls, LetsIn (next.afterCalls calls).toStore) := by
  intro principal LetsIn
  have opens : principal.IsOpenedBy (Utf8.encode password) :=
    Principal.isOpenedBy_withPassword username (Utf8.encode password) salt created
  refine ⟨Password.verify_hash, fun memory next accepted changes => ?_,
    fun server next accepted calls => ?_⟩
  · have found := MemoryStore.principals_provision accepted changes
    exact Bind.authenticate_eq_success found opens
  · have shows := (Server.showsPrincipal_of_accepted accepted).afterCalls calls
    exact Bind.authenticate_eq_success shows.principals_eq opens

/-- The administrator is let in after another password was tried for the name. -/
theorem authenticate_after_second_attempt :
    let created : Timestamp := ⟨2024, 1, 1, 0, 0, 0, 0, by decide, by decide⟩
    let principal := Principal.withPassword "admin" (Utf8.encode "secret") [1, 2, 3] created
    let other := Principal.withPassword "admin" (Utf8.encode "guess") [4] created
    ∃ memory server, (MemoryStore.empty .empty).insertPrincipal principal = .ok memory ∧
      Server.empty.perform (insertPrincipal principal) = (.ok (), server) ∧
      (Bind.authenticate (memory.provision [.principal other]).toStore "admin"
        (Utf8.encode "secret")).value = .ok .success ∧
      (Bind.authenticate (server.afterCalls [.change (.principal other)]).toStore "admin"
        (Utf8.encode "secret")).value = .ok .success := by
  intro created principal other
  obtain ⟨-, memory, server⟩ :=
    authenticate_after_provisioning "admin" "secret" [1, 2, 3] created
  exact ⟨_, _, rfl, rfl, memory (.empty .empty) _ rfl _, server .empty _ rfl _⟩

end DirectoryService.KeyValue
