import DirectoryService.Proofs.Store.KeyValue.Entries

/-!
# Entries that are kept at the same time

A call that keeps an entry first looks whether there is one of its name and makes its changes later.
Between the two another call may keep an entry of the same name. Then both succeed, the later one
takes the place of the earlier one, and the name stays listed below both parents. Nothing else can
go wrong: what was there before stays, a name that is found and its lists come from calls that
succeeded, and a call whose name no other call is about to take keeps its entry for good.
-/

namespace DirectoryService.KeyValue

/-- An entry is the one that is found by its name, and is listed at its own parent only. -/
structure Server.KeepsOnly (server : Server) (entry : Entry) : Prop where
  /-- It is found by its name. -/
  found : server.toStore.entriesByName entry.dn = .ok [entry]
  /-- It is listed below its parent, or without one, and nowhere else. -/
  listed : ∀ parent, server.IsListed parent entry.dn ↔ parent = entry.parent

namespace Concurrent

/-- A client has kept an entry. -/
def HasKept (state : Concurrent (Except Error Unit)) (entries : List Entry) (client : Nat)
    (entry : Entry) : Prop :=
  entries[client]? = some entry ∧ state.Succeeded client

/-- A client that is to keep an entry has not looked at the server yet, or has failed already. -/
def IsOutside (state : Concurrent (Except Error Unit)) (client : Nat) (entry : Entry) : Prop :=
  state.programs[client]? = some (insertEntry entry).run ∨
    ∃ error, state.Ended client (.error error)

/-- What a server carries while calls keep entries: what it carried when they were begun, and
entries of calls that have succeeded. -/
structure Accounted (start : Server) (first : MemoryStore) (entries : List Entry)
    (state : Concurrent (Except Error Unit)) (memory : MemoryStore) : Prop where
  /-- The server carries the entries of the store. -/
  carries : state.server.Carries memory
  /-- What was there stays as it is. -/
  stays : ∀ dn, first.entries.contains dn = true →
    memory.entries.get? dn = first.entries.get? dn
  /-- What is there was there before, or was kept by a call. -/
  found : ∀ dn entry, memory.entries.get? dn = some entry →
    first.entries.get? dn = some entry ∨ ∃ client, state.HasKept entries client entry
  /-- A call succeeds only with a new name, which is there from then on. -/
  kept : ∀ client entry, state.HasKept entries client entry →
    first.entries.contains entry.dn = false ∧ memory.entries.contains entry.dn = true
  /-- What is listed was listed before, or was kept by a call at this parent. -/
  listed : ∀ parent dn, state.server.IsListed parent dn ↔ start.IsListed parent dn ∨
    ∃ client entry, state.HasKept entries client entry ∧ entry.parent = parent ∧ entry.dn = dn

section Account

variable {start : Server} {first : MemoryStore} {entries : List Entry}

/-- The account holds when the calls are begun. -/
theorem accounted_inserting (carries : start.Carries first) (entries : List Entry) :
    Accounted start first entries (inserting start entries) first := by
  have hnone (client : Nat) (entry : Entry) :
      ¬ (inserting start entries).HasKept entries client entry := by
    rintro ⟨given, succeeded⟩
    have running : (inserting start entries).programs[client]? = some (insertEntry entry).run := by
      rw [inserting, List.getElem?_map, given]
      rfl
    have settles := Task.settles_insertEntry start entry
    rw [Option.some.inj (running.symm.trans succeeded)] at settles
    exact settles rfl
  exact {
    carries := carries
    stays := fun _ _ => rfl
    found := fun _ _ there => .inl there
    kept := fun client entry kept => absurd kept (hnone client entry)
    listed := fun parent dn => by
      refine ⟨.inl, ?_⟩
      rintro (before | ⟨client, entry, kept, -⟩)
      · exact before
      · exact absurd kept (hnone client entry) }

/-- Every turn keeps the account. -/
theorem Accounted.turn {state next : Concurrent (Except Error Unit)} {memory : MemoryStore}
    {client : Nat} (accounted : Accounted start first entries state memory)
    (initial : start.Carries first)
    (turn : Turn (KeepsOwn start entries client) client state next) :
    ∃ memory, Accounted start first entries next memory := by
  cases turn with
  | quiet same succeeded =>
    have hkept (other : Nat) (entry : Entry) : next.HasKept entries other entry ↔
        state.HasKept entries other entry := and_congr_right' (succeeded other)
    refine ⟨memory, same ▸ accounted.carries, accounted.stays, ?_, ?_, ?_⟩
    · simp only [hkept]
      exact accounted.found
    · simp only [hkept]
      exact accounted.kept
    · simp only [hkept, same]
      exact accounted.listed
  | settled changed pending succeeded =>
    obtain ⟨added, given, keeping⟩ := changed
    obtain ⟨carries, lists⟩ := accounted.carries.keeping keeping
    have fresh : first.entries.contains added.dn = false := by
      rw [← initial.contains_entryKey]
      exact keeping.fresh
    have hkept (other : Nat) (entry : Entry) : next.HasKept entries other entry ↔
        (other = client ∧ entry = added) ∨ state.HasKept entries other entry := by
      rw [HasKept, succeeded, HasKept, and_or_left]
      refine or_congr_left ⟨?_, ?_⟩
      · rintro ⟨same, rfl⟩
        exact ⟨rfl, Option.some.inj (same.symm.trans given)⟩
      · rintro ⟨rfl, rfl⟩
        exact ⟨given, rfl⟩
    refine ⟨_, carries, fun dn there => ?_, fun dn entry there => ?_, fun other entry kept => ?_,
      fun parent dn => ?_⟩
    · have hne : dn ≠ added.dn := by
        rintro rfl
        rw [fresh] at there
        cases there
      rw [NameMap.get?_insert, if_neg hne]
      exact accounted.stays dn there
    · rw [NameMap.get?_insert] at there
      split at there
      · cases there
        exact .inr ⟨client, (hkept client added).2 (.inl ⟨rfl, rfl⟩)⟩
      · refine (accounted.found dn entry there).imp_right fun ⟨other, kept⟩ => ?_
        exact ⟨other, (hkept other entry).2 (.inr kept)⟩
    · rw [NameMap.contains_insert, Bool.or_eq_true, decide_eq_true_eq]
      rcases (hkept other entry).1 kept with ⟨rfl, rfl⟩ | before
      · exact ⟨fresh, .inl rfl⟩
      · exact (accounted.kept other entry before).imp_right .inr
    · rw [lists, accounted.listed, or_assoc]
      refine or_congr_right ⟨?_, ?_⟩
      · rintro (⟨other, entry, kept, below, named⟩ | ⟨rfl, rfl⟩)
        · exact ⟨other, entry, (hkept other entry).2 (.inr kept), below, named⟩
        · exact ⟨client, added, (hkept client added).2 (.inl ⟨rfl, rfl⟩), rfl, rfl⟩
      · rintro ⟨other, entry, kept, rfl, rfl⟩
        rcases (hkept other entry).1 kept with ⟨rfl, rfl⟩ | before
        · exact .inr ⟨rfl, rfl⟩
        · exact .inl ⟨other, entry, before, rfl, rfl⟩

/-- The account holds in whatever order the turns come. -/
theorem exists_accounted_turns (carries : start.Carries first) (entries : List Entry)
    (order : List Nat) :
    ∃ memory, Accounted start first entries ((inserting start entries).turns order) memory :=
  turns_induction (follows_inserting start entries)
    (motive := fun state => ∃ memory, Accounted start first entries state memory)
    ⟨first, accounted_inserting carries entries⟩
    (fun ⟨_, accounted⟩ turn => accounted.turn carries turn) order

namespace Accounted

variable {state : Concurrent (Except Error Unit)} {memory : MemoryStore} {client : Nat}
  {entry : Entry}

/-- What is found by the name of a kept entry was kept by a call that has succeeded. -/
theorem exists_entriesByName_eq (accounted : Accounted start first entries state memory)
    (kept : state.HasKept entries client entry) :
    ∃ last other, state.HasKept entries last other ∧ other.dn = entry.dn ∧
      state.server.toStore.entriesByName entry.dn = .ok [other] := by
  obtain ⟨fresh, there⟩ := accounted.kept client entry kept
  obtain ⟨other, hother⟩ := NameMap.contains_iff.1 there
  have named := accounted.carries.tidy.named entry.dn other hother
  have hfound : state.server.toStore.entriesByName entry.dn =
      .ok (memory.entries.get? entry.dn).toList := accounted.carries.entriesByName_eq entry.dn
  rw [hother] at hfound
  rcases accounted.found entry.dn other hother with before | ⟨last, hlast⟩
  · rw [NameMap.contains, before] at fresh
    cases fresh
  · exact ⟨last, other, hlast, named, hfound⟩

/-- The name of a kept entry is listed exactly at the parents of entries of this name that were kept
by calls that have succeeded. -/
theorem isListed_iff (accounted : Accounted start first entries state memory)
    (initial : start.Carries first) (kept : state.HasKept entries client entry)
    (parent : Option String) :
    state.server.IsListed parent entry.dn ↔ ∃ other added, state.HasKept entries other added ∧
      added.dn = entry.dn ∧ added.parent = parent := by
  obtain ⟨fresh, -⟩ := accounted.kept client entry kept
  have hnew : ¬ start.IsListed parent entry.dn := by
    intro listed
    rw [(initial.placed parent entry.dn listed).1] at fresh
    cases fresh
  rw [accounted.listed, or_iff_right hnew]
  simp only [and_comm]

/-- An entry of a name that no other call has kept is the only one, for now. -/
theorem keepsOnly (accounted : Accounted start first entries state memory)
    (initial : start.Carries first) (kept : state.HasKept entries client entry)
    (alone : ∀ other added, state.HasKept entries other added → added.dn = entry.dn →
      other = client) : state.server.KeepsOnly entry := by
  have hsame (other : Nat) (added : Entry) (also : state.HasKept entries other added)
      (named : added.dn = entry.dn) : added = entry := by
    obtain rfl := alone other added also named
    exact Option.some.inj (also.1.symm.trans kept.1)
  refine ⟨?_, fun parent => ?_⟩
  · obtain ⟨last, other, hlast, named, hfound⟩ := accounted.exists_entriesByName_eq kept
    rw [hfound, hsame last other hlast named]
  · rw [accounted.isListed_iff initial kept]
    constructor
    · rintro ⟨other, added, also, named, rfl⟩
      rw [hsame other added also named]
    · rintro rfl
      exact ⟨client, entry, kept, rfl, rfl⟩

end Accounted

/-- A call that is outside when there is an entry of its name never succeeds. -/
theorem not_succeeded_of_isOutside {state : Concurrent (Except Error Unit)} {client : Nat}
    {entry : Entry} (follows : state.Follows (KeepsOwn start entries))
    (outside : state.IsOutside client entry)
    (taken : state.server.database.contains (entryKey entry.dn) = true) (order : List Nat) :
    ¬ (state.turns order).Succeeded client := by
  -- The call settles by keeping a new name, which there is none of any more.
  have settles : (insertEntry entry).run.Settles (fun _ _ => False) state.server := by
    refine (Task.settles_insertEntry state.server entry).imp fun _ _ keeping => ?_
    rw [keeping.fresh] at taken
    cases taken
  have never : state.Follows fun other before after =>
      other ≠ client ∧ KeepsOwn start entries other before after := by
    intro other program running
    by_cases same : other = client
    · subst same
      rcases outside with unbegun | ⟨error, failed⟩
      · obtain rfl := Option.some.inj (running.symm.trans unbegun)
        exact .inr (settles.imp fun _ _ => False.elim)
      · obtain rfl := Option.some.inj (running.symm.trans failed)
        exact .inr fun succeeded => by cases succeeded
    · exact (follows other program running).imp_right
        (·.imp fun _ _ keeps => ⟨same, keeps⟩)
  refine not_succeeded_turns never (fun _ _ changed => changed.1 rfl) (fun succeeded => ?_) order
  rcases outside with unbegun | ⟨error, failed⟩
  · rw [Option.some.inj (unbegun.symm.trans succeeded)] at settles
    exact settles rfl
  · cases failed.symm.trans succeeded

end Account

/-- Any number of calls keep entries on a server that was filled somehow, and their commands are
carried out in any order. What was there stays, and what is new was kept by a call that has
succeeded. A call succeeds only with a name that there was no entry of; the entry that is found by
the name, and the lists that the name is in, are then those of calls that have succeeded with it. A
call that has succeeded while no other call with its name is on its way is the only one to succeed
with the name, and its entry is found from then on, unchanged and listed at its own parent only. -/
theorem insertions_accounted (calls : List Server.Call) (entries : List Entry)
    (order : List Nat) :
    let start := Server.empty.afterCalls calls
    let state := (inserting start entries).turns order
    (∀ dn entry, start.toStore.entriesByName dn = .ok [entry] →
      state.server.toStore.entriesByName dn = .ok [entry]) ∧
    (∀ dn entry, state.server.toStore.entriesByName dn = .ok [entry] →
      start.toStore.entriesByName dn = .ok [entry] ∨
        ∃ client, state.HasKept entries client entry) ∧
    (∀ client entry, state.HasKept entries client entry →
      start.toStore.entriesByName entry.dn = .ok [] ∧
      (∃ last other, state.HasKept entries last other ∧ other.dn = entry.dn ∧
        state.server.toStore.entriesByName entry.dn = .ok [other]) ∧
      ∀ parent, state.server.IsListed parent entry.dn ↔
        ∃ other added, state.HasKept entries other added ∧ added.dn = entry.dn ∧
          added.parent = parent) ∧
    ∀ client entry, state.HasKept entries client entry →
      (∀ other added, entries[other]? = some added → added.dn = entry.dn → other ≠ client →
        state.IsOutside other added) →
      ∀ later, (state.turns later).server.KeepsOnly entry ∧
        ∀ other added, (state.turns later).HasKept entries other added → added.dn = entry.dn →
          other = client := by
  intro start state
  obtain ⟨first, initial⟩ := Server.exists_carries_afterCalls calls
  obtain ⟨memory, accounted⟩ := exists_accounted_turns initial entries order
  have hstart (dn : String) : start.toStore.entriesByName dn =
      .ok (first.entries.get? dn).toList := initial.entriesByName_eq dn
  have hstate (dn : String) : state.server.toStore.entriesByName dn =
      .ok (memory.entries.get? dn).toList := accounted.carries.entriesByName_eq dn
  simp only [hstart, hstate, Except.ok.injEq, Option.toList_eq_singleton_iff]
  refine ⟨fun dn entry there => ?_, accounted.found, fun client entry kept => ⟨?_, ?_, ?_⟩,
    fun client entry kept others later => ?_⟩
  · rw [accounted.stays dn (NameMap.contains_iff.2 ⟨entry, there⟩), there]
  · have fresh := (accounted.kept client entry kept).1
    rw [Option.toList_eq_nil_iff, ← Option.isNone_iff_eq_none]
    exact Option.isSome_eq_false_iff.1 fresh
  · obtain ⟨last, other, hlast, named, hfound⟩ := accounted.exists_entriesByName_eq kept
    rw [hstate, Except.ok.injEq, Option.toList_eq_singleton_iff] at hfound
    exact ⟨last, other, hlast, named, hfound⟩
  · exact accounted.isListed_iff initial kept
  · have follows : state.Follows (KeepsOwn start entries) :=
      follows_turns (follows_inserting start entries) order
    obtain ⟨final, account⟩ := exists_accounted_turns initial entries (order ++ later)
    rw [turns_append] at account
    have alone (other : Nat) (added : Entry)
        (also : (state.turns later).HasKept entries other added)
        (named : added.dn = entry.dn) : other = client := by
      by_contra ne
      have taken : state.server.database.contains (entryKey added.dn) = true := by
        rw [accounted.carries.contains_entryKey, named]
        exact (accounted.kept client entry kept).2
      exact not_succeeded_of_isOutside follows (others other added also.1 named ne) taken later
        also.2
    exact ⟨account.keepsOnly initial ⟨kept.1, Ended.turns kept.2 later⟩ alone, alone⟩

/-- The first of two calls with one name is carried out before the other one is begun. It keeps its
entry for good. -/
theorem first_kept_for_good :
    let unit : ObjectClass := ⟨"0", "top", ["unit"], none, .structural, [], []⟩
    let calls := [.change (.schema ⟨[], [], [], [unit]⟩)]
    let first := (Entry.bare "a,b" none).declaring "unit"
    let second := (Entry.bare "a" (some "b")).declaring "unit"
    let state := (inserting (Server.empty.afterCalls calls) [first, second]).turns
      [0, 0, 0, 0, 0, 0]
    state.HasKept [first, second] 0 first ∧
      ∀ later, (state.turns later).server.KeepsOnly first ∧ ¬ (state.turns later).Succeeded 1 := by
  intro unit calls first second state
  have kept : state.HasKept [first, second] 0 first := ⟨rfl, by decide +kernel⟩
  have running : state.programs[1]? = some (insertEntry second).run :=
    getElem?_programs_turns (by decide)
  have others (other : Nat) (added : Entry) (given : [first, second][other]? = some added)
      (_ : added.dn = first.dn) (ne : other ≠ 0) : state.IsOutside other added := by
    match other, ne with
    | 1, _ =>
      cases given
      exact .inl running
  obtain ⟨-, -, -, forGood⟩ := insertions_accounted calls [first, second] [0, 0, 0, 0, 0, 0]
  refine ⟨kept, fun later => ?_⟩
  obtain ⟨keeps, alone⟩ := forGood 0 first kept others later
  exact ⟨keeps, fun succeeded => nomatch alone 1 second ⟨rfl, succeeded⟩ rfl⟩

/-- Two calls with one name both succeed if each of them looks before the other one makes its
changes. The entry of the one that was first is lost, and the name stays in both lists. -/
theorem both_succeed_with_one_name :
    let unit : ObjectClass := ⟨"0", "top", ["unit"], none, .structural, [], []⟩
    let root := (Entry.bare "c" none).declaring "unit"
    let middle := (Entry.bare "b" (some "c")).declaring "unit"
    let first := (Entry.bare "a,b" (some "c")).declaring "unit"
    let second := (Entry.bare "a" (some "b,c")).declaring "unit"
    let start := Server.empty.afterCalls [.change (.schema ⟨[], [], [], [unit]⟩),
      .change (.entry root), .change (.entry middle)]
    let state := (inserting start [second, first]).turns [0, 0, 0, 0, 0, 0, 1, 1, 1, 1, 1, 1, 1, 0]
    first.dn = second.dn ∧ state.Succeeded 0 ∧ state.Succeeded 1 ∧
      state.server.toStore.entriesByName first.dn = .ok [second] ∧
      state.server.IsListed (some "c") second.dn ∧ state.server.IsListed (some "b,c") first.dn := by
  decide +kernel

end Concurrent

end DirectoryService.KeyValue
