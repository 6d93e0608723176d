import DirectoryService.Proofs.Store.KeyValue.Interleaving

/-!
# Entries on a server

However a server is filled, its entries can be searched: they are where they belong, what is listed
below a parent is there and has a name that ends with the one of the parent, and no entry is missing
from its list. To keep an entry is to look and then to make one change, which leaves all of this as
it is, even if there is another entry of the name by then.
-/

namespace DirectoryService.KeyValue

/-- A place of the entries and their lists. -/
def Place.OfEntries : Place → Prop
  | .entry _ => True
  | .listing _ => True
  | .tree => True
  | _ => False

namespace Server

variable {server later : Server} {memory : MemoryStore} {entry : Entry}

/-- A name is listed below a parent, or without one. -/
def IsListed (server : Server) (parent : Option String) (dn : String) : Prop :=
  ∃ members, server.database.set? (Place.listing parent).key = .ok members ∧
    members.contains dn = true

instance (server : Server) (parent : Option String) (dn : String) :
    Decidable (server.IsListed parent dn) :=
  match found : server.database.set? (Place.listing parent).key with
  | .ok members => decidable_of_iff (members.contains dn = true)
      ⟨fun there => ⟨members, found, there⟩, fun ⟨_, same, there⟩ =>
        Except.ok.inj (found.symm.trans same) ▸ there⟩
  | .error _ => .isFalse fun ⟨_, same, _⟩ => nomatch found.symm.trans same

/-- A server that has the entries of a store in memory, and lists them. -/
structure Carries (server : Server) (memory : MemoryStore) : Prop
    extends HasEntries server memory where
  /-- The names below each parent, and those without one, can be read. -/
  readable : ∀ parent, ∃ members, server.database.set? (Place.listing parent).key = .ok members
  /-- A name that is listed is the one of an entry, and ends with the one of the parent. -/
  placed : ∀ parent dn, server.IsListed parent dn →
    memory.entries.contains dn = true ∧ ∃ rdn, dn = Entry.distinguishedName rdn parent
  /-- Every entry is listed where it belongs. -/
  complete : ∀ dn entry, memory.entries.get? dn = some entry → server.IsListed entry.parent dn

/-- A mirror carries the entries of its store. -/
theorem Mirrors.carries (mirrors : server.Mirrors memory) : server.Carries memory where
  toHasEntries := mirrors.hasEntries
  readable parent := by
    obtain ⟨members, hset, -⟩ := mirrors.listed parent
    exact ⟨members, hset⟩
  placed := by
    rintro parent dn ⟨members, hset, there⟩
    obtain ⟨others, hothers, hlists⟩ := mirrors.listed parent
    obtain rfl := Except.ok.inj (hset.symm.trans hothers)
    obtain ⟨entry, found, rfl⟩ := (hlists dn).1 there
    refine ⟨NameMap.contains_iff.2 ⟨entry, found⟩, entry.rdn, ?_⟩
    rw [← mirrors.tidy.named dn entry found]
    exact (mirrors.tidy.proper dn entry found).dn_eq
  complete dn entry found := by
    obtain ⟨members, hset, hlists⟩ := mirrors.listed entry.parent
    exact ⟨members, hset, (hlists dn).2 ⟨entry, found, rfl⟩⟩

/-- Lists that an entry does not belong to stay as they are. -/
theorem get?_withEntry_listing (database : Database) (members names : Members)
    {parent : Option String} (other : parent ≠ entry.parent) :
    NameMap.get? (Mirrors.withEntry database entry members names) (Place.listing parent).key =
      database.get? (Place.listing parent).key := by
  refine Mirrors.get?_withEntry database members names (by simp) ?_ (by simp)
  rw [ne_eq, Place.listing.injEq]
  exact other

/-- An entry is added to its own list and to no other. -/
theorem isListed_withEntry_iff {members : Members} (names : Members)
    (hset : server.database.set? (Place.listing entry.parent).key = .ok members)
    (parent : Option String) (dn : String) :
    IsListed { server with database := Mirrors.withEntry server.database entry members names }
        parent dn ↔
      server.IsListed parent dn ∨ (parent = entry.parent ∧ dn = entry.dn) := by
  by_cases same : parent = entry.parent
  · subst same
    have hadded : Database.set? (Mirrors.withEntry server.database entry members names)
        (Place.listing entry.parent).key = .ok (members.insert entry.dn ()) := by
      rw [Mirrors.withEntry, Database.set?_insert_ne _ (by simp), Database.set?,
        Database.get?_insert_self]
    simp only [IsListed, hadded, hset, Except.ok.injEq, exists_eq_left', NameMap.contains_insert,
      Bool.or_eq_true, decide_eq_true_eq, true_and]
    exact or_comm
  · have hsame := get?_withEntry_listing server.database members names same
    simp only [IsListed, Database.set?, hsame, same, false_and, or_false]

namespace Carries

/-- A server that holds nothing carries no entries. -/
theorem empty : Server.empty.Carries (.empty .empty) := Mirrors.empty.carries

/-- What is changed at other places does not concern the entries. -/
theorem congr (carries : server.Carries memory) (reached : later.reachable = true)
    (same : ∀ place : Place, place.OfEntries →
      later.database.get? place.key = server.database.get? place.key) : later.Carries memory := by
  have hset (parent : Option String) : later.database.set? (Place.listing parent).key =
      server.database.set? (Place.listing parent).key := by
    rw [Database.set?, same (.listing parent) trivial]
    rfl
  have hlisted (parent : Option String) (dn : String) :
      later.IsListed parent dn ↔ server.IsListed parent dn := by
    rw [IsListed, hset]
    rfl
  have hordered : later.database.ordered? Place.tree.key =
      server.database.ordered? Place.tree.key := by
    rw [Database.ordered?, same .tree trivial]
    rfl
  exact {
    reached := reached
    entries := fun dn => (same (.entry dn) trivial).trans (carries.entries dn)
    tree := by
      rw [hordered]
      exact carries.tree
    tidy := carries.tidy
    readable := fun parent => by
      rw [hset]
      exact carries.readable parent
    placed := fun parent dn listed => carries.placed parent dn ((hlisted parent dn).1 listed)
    complete := fun dn entry found =>
      (hlisted entry.parent dn).2 (carries.complete dn entry found) }

/-- A proper entry below one that is there, or below none, is kept at once: the server carries it
from then on, in the place of an entry of its name if there is one, and lists it where it
belongs. -/
theorem put (carries : server.Carries memory) (proper : entry.Proper)
    (parented : ∀ parent, entry.parent = some parent → memory.entries.contains parent = true) :
    ∃ next, server.answer (.commit (entryWrites entry (Place.listing entry.parent).key)) =
        (.ok (), next) ∧
      next.Carries { memory with entries := memory.entries.insert entry.dn entry } ∧
      ∀ parent dn, next.IsListed parent dn ↔
        server.IsListed parent dn ∨ (parent = entry.parent ∧ dn = entry.dn) := by
  obtain ⟨members, hset⟩ := carries.readable entry.parent
  obtain ⟨names, hordered, hnames⟩ := carries.tree
  have holds := Mirrors.hasEntries_withEntry carries.toHasEntries proper parented members hnames
  have hlisted := isListed_withEntry_iff names hset
  have hcommit : server.answer (.commit (entryWrites entry (Place.listing entry.parent).key)) =
      (.ok (), { server with
        database := Mirrors.withEntry server.database entry members names }) := by
    rw [answer, if_pos carries.reached]
    simp only [Database.execute, Mirrors.commit_entryWrites hset hordered]
  refine ⟨_, hcommit, ⟨holds, fun parent => ?_, fun parent dn listed => ?_,
    fun dn other found => ?_⟩, hlisted⟩
  · by_cases same : parent = entry.parent
    · obtain ⟨members, there, -⟩ := (hlisted parent entry.dn).2 (.inr ⟨same, rfl⟩)
      exact ⟨members, there⟩
    · have hsame := get?_withEntry_listing server.database members names same
      obtain ⟨others, hothers⟩ := carries.readable parent
      refine ⟨others, ?_⟩
      rw [Database.set?, hsame]
      exact hothers
  · rw [NameMap.contains_insert, Bool.or_eq_true, decide_eq_true_eq]
    rcases (hlisted parent dn).1 listed with before | ⟨rfl, rfl⟩
    · exact (carries.placed parent dn before).imp_left .inr
    · exact ⟨.inl rfl, entry.rdn, proper.dn_eq⟩
  · rw [NameMap.get?_insert] at found
    split at found
    · rename_i same
      cases found
      exact (hlisted entry.parent dn).2 (.inr ⟨rfl, same⟩)
    · exact (hlisted other.parent dn).2 (.inl (carries.complete dn other found))

end Carries

/-- The one change by which a call that was begun on a server keeps an entry. -/
structure Keeping (start : Server) (entry : Entry) (before after : Server) : Prop where
  /-- The entry is valid on its own. -/
  proper : entry.Proper
  /-- There was no entry of its name when the call was begun. -/
  fresh : start.database.contains (entryKey entry.dn) = false
  /-- Its parent is there. -/
  parented : ∀ parent, entry.parent = some parent →
    before.database.contains (entryKey parent) = true
  /-- The changes were made together. -/
  kept : before.answer (.commit (entryWrites entry (Place.listing entry.parent).key)) =
    (.ok (), after)

/-- Changes that are refused are not made. -/
theorem answer_commit_error {writes : List Write} {failure : Failure}
    (refused : (server.answer (.commit writes)).1 = .error failure) :
    (server.answer (.commit writes)).2 = server := by
  unfold answer at refused ⊢
  split
  · rename_i reached
    rw [if_pos reached] at refused
    simp only [Database.execute] at refused ⊢
    split
    · rename_i accepted
      rw [accepted] at refused
      cases refused
    · rfl
  · rfl

end Server

namespace Task

open Server

/-- To read a section of the schema changes nothing. -/
theorem reads_fetchSection {α : Type} (read : Json → Option α) (key : String) (server : Server) :
    (fetchSection read key).run.Reads (fun _ _ => True) server := by
  have reads : (Command.get key).OnlyReads := trivial
  refine reads_bind (reads_ask reads server) fun text later _ _ => ?_
  cases text with
  | none => exact reads_liftM fun _ _ => trivial
  | some text => exact reads_liftM fun _ _ => trivial

/-- To read the schema changes nothing. -/
theorem reads_loadCatalog (server : Server) :
    loadCatalog.run.Reads (fun _ _ => True) server := by
  refine reads_bind (reads_fetchSection _ _ _) fun syntaxes _ _ _ => ?_
  refine reads_bind (reads_fetchSection _ _ _) fun matchingRules _ _ _ => ?_
  refine reads_bind (reads_fetchSection _ _ _) fun attributeTypes _ _ _ => ?_
  refine reads_bind (reads_fetchSection _ _ _) fun objectClasses _ _ _ => ?_
  exact reads_liftM fun _ _ => trivial

/-- To find where an entry is listed changes nothing; it is found if the parent is there. -/
theorem reads_listingKey (entry : Entry) (server : Server) :
    (listingKey entry).run.Reads (fun listing later =>
      listing = (Place.listing entry.parent).key ∧ ∀ parent, entry.parent = some parent →
        later.database.contains (entryKey parent) = true) server := by
  unfold listingKey
  cases entry.parent with
  | none => exact reads_liftM fun _ same => ⟨(Except.ok.inj same).symm, nofun⟩
  | some parent =>
    refine reads_bind (reads_holds (entryKey parent) server) fun there later _ known => ?_
    cases there with
    | true =>
      refine reads_liftM fun _ same => ⟨(Except.ok.inj same).symm, fun other below => ?_⟩
      cases below
      exact known
    | false => exact reads_liftM nofun

/-- A call that keeps an entry settles by keeping it, if there was no entry of the name when the
call was begun. -/
theorem settles_insertEntry (start : Server) (entry : Entry) :
    (insertEntry entry).run.Settles (Keeping start entry) start := by
  unfold insertEntry
  have hvalid : (liftM (entry.validate.mapError Error.rejected) : Task Unit).run.Reads
      (fun _ _ => entry.Proper) start := by
    refine reads_liftM fun answer valid => ?_
    cases hanswer : entry.validate with
    | error cause =>
      rw [hanswer] at valid
      cases valid
    | ok => exact entry.validate_eq_ok_iff.1 hanswer
  refine settles_bind hvalid fun (_ : Unit) first toFirst proper => ?_
  refine settles_bind (reads_loadCatalog first) fun catalog second toSecond _ => ?_
  have hfits : (liftM ((catalog.checkEntry entry).mapError Error.rejected) : Task Unit).run.Reads
      (fun _ _ => True) second := reads_liftM fun _ _ => trivial
  refine settles_bind hfits fun (_ : Unit) third toThird _ => ?_
  refine settles_bind (reads_holds (entryKey entry.dn) third) fun there fourth toFourth known => ?_
  cases there with
  | true => exact nofun
  | false =>
    -- What is not there now was not there before.
    have fresh : start.database.contains (entryKey entry.dn) = false := by
      have grows := ((toFirst.trans toSecond).trans toThird).trans toFourth
      by_contra there
      rw [grows.stays _ (Bool.not_eq_false _ ▸ there)] at known
      cases known
    refine settles_bind (reads_listingKey entry fourth) fun listing fifth _ listed => ?_
    obtain ⟨rfl, parented⟩ := listed
    intro later grows
    cases hanswer : (later.answer
        (.commit (entryWrites entry (Place.listing entry.parent).key))).1 with
    | error failure => exact .inl ⟨answer_commit_error hanswer, nofun⟩
    | ok =>
      exact .inr ⟨⟨proper, fresh, fun parent below => grows.stays _ (parented parent below),
        Prod.ext hanswer rfl⟩, rfl⟩

end Task

namespace Server

variable {server : Server} {memory : MemoryStore}

/-- A call that keeps an entry leaves the server as it is, or keeps the entry. -/
theorem perform_insertEntry_cases (server : Server) (entry : Entry) :
    (server.perform (insertEntry entry)).2 = server ∨
      Keeping server entry server (server.perform (insertEntry entry)).2 := by
  rcases Task.perform_of_settles (Task.settles_insertEntry server entry) with
    ⟨error, done⟩ | ⟨next, keeping, done⟩
  · rw [done]
    exact .inl rfl
  · rw [done]
    exact .inr keeping

/-- A server that carries entries carries them after one more was kept. -/
theorem Carries.keeping (carries : server.Carries memory) {start next : Server} {entry : Entry}
    (keeping : Keeping start entry server next) :
    next.Carries { memory with entries := memory.entries.insert entry.dn entry } ∧
      ∀ parent dn, next.IsListed parent dn ↔
        server.IsListed parent dn ∨ (parent = entry.parent ∧ dn = entry.dn) := by
  have parented (parent : String) (below : entry.parent = some parent) :
      memory.entries.contains parent = true := by
    rw [← carries.contains_entryKey]
    exact keeping.parented parent below
  obtain ⟨other, hanswer, after⟩ := carries.put keeping.proper parented
  rw [keeping.kept] at hanswer
  obtain rfl := (Prod.mk.inj hanswer).2
  exact after

/-- Whatever call is made to a server, it carries entries afterwards if it did before. -/
theorem isKept_carries : IsKept fun server => ∃ memory, server.Carries memory where
  entry entry server carried := by
    obtain ⟨memory, carries⟩ := carried
    refine ⟨?_, fun _ _ => trivial⟩
    rcases perform_insertEntry_cases server entry with same | keeping
    · rw [same]
      exact ⟨memory, carries⟩
    · exact ⟨_, (carries.keeping keeping).1⟩
  principal principal server carried := by
    obtain ⟨memory, carries⟩ := carried
    refine ⟨?_, fun _ _ => trivial⟩
    obtain ⟨reached, same⟩ := Mirrors.perform_insertPrincipal_frame carries.reached principal
    refine ⟨memory, carries.congr reached fun place ofEntries => same place ?_⟩
    rintro rfl
    exact ofEntries
  schema catalog server carried := by
    obtain ⟨memory, carries⟩ := carried
    refine ⟨?_, fun _ _ => trivial⟩
    rw [Mirrors.perform_storeCatalog carries.reached catalog]
    refine ⟨memory, carries.congr carries.reached fun place ofEntries => ?_⟩
    have hne (other : Place) (outside : ¬ other.OfEntries) : place ≠ other := by
      rintro rfl
      exact outside ofEntries
    exact Mirrors.get?_withCatalog server.database catalog (hne _ id) (hne _ id) (hne _ id)
      (hne _ id)

/-- However a server is filled, it carries entries. -/
theorem exists_carries_afterCalls (calls : List Call) :
    ∃ memory, (empty.afterCalls calls).Carries memory :=
  isKept_carries.afterCalls ⟨_, Carries.empty⟩ calls

end Server

namespace Concurrent

open Server

/-- Calls that keep entries and share a server, on which all of them were just begun. -/
def inserting (server : Server) (entries : List Entry) : Concurrent (Except Error Unit) :=
  ⟨server, entries.map fun entry => (insertEntry entry).run⟩

/-- The change of a call is to keep its entry. -/
def KeepsOwn (start : Server) (entries : List Entry) (client : Nat) (before after : Server) :
    Prop :=
  ∃ entry, entries[client]? = some entry ∧ Keeping start entry before after

variable {start : Server} {entries : List Entry}

/-- Calls that keep entries settle by keeping them. -/
theorem follows_inserting (start : Server) (entries : List Entry) :
    (inserting start entries).Follows (KeepsOwn start entries) := by
  intro client program running
  rw [inserting, List.getElem?_map, Option.map_eq_some_iff] at running
  obtain ⟨entry, given, rfl⟩ := running
  exact .inr ((Task.settles_insertEntry start entry).imp fun _ _ keeping => ⟨entry, given, keeping⟩)

/-- A server carries entries at every moment while calls keep more of them. -/
theorem exists_carries_turns (carried : ∃ memory, start.Carries memory) (entries : List Entry)
    (order : List Nat) :
    ∃ memory, ((inserting start entries).turns order).server.Carries memory := by
  refine turns_induction (follows_inserting start entries)
    (motive := fun state => ∃ memory, state.server.Carries memory) carried ?_ order
  intro state client next carried turn
  cases turn with
  | quiet same succeeded =>
    rw [same]
    exact carried
  | settled changed pending succeeded =>
    obtain ⟨memory, carries⟩ := carried
    obtain ⟨entry, -, keeping⟩ := changed
    exact ⟨_, (carries.keeping keeping).1⟩

end Concurrent

end DirectoryService.KeyValue
