import DirectoryService.Proofs.Store.KeyValue.Interruption
import DirectoryService.Proofs.Store.KeyValue.Refinement
import DirectoryService.Proofs.Store.Seeding

/-!
# Provisioning that is interrupted

A directory without roots is provisioned by 31 commands: one to look, one for the schema, six for
the root of the example tree, seven for each of the three entries below it, and two for the
administrator. From the eighth command on there is a root, and a directory with a root is left as it
is. So provisioning that was interrupted before the root was kept can be done again, and is then
complete; provisioning that was interrupted later cannot, and the administrator stays missing.
-/

namespace DirectoryService

/-- A store has the example tree, the standard schema and an administrator. -/
structure Store.IsSeeded (store : Store) (created : String) (administrator : Principal) : Prop where
  /-- The entries of the tree are there. -/
  entries : ∀ entry ∈ Seed.entries created, store.entriesByName entry.dn = .ok [entry]
  /-- The schema is the standard one. -/
  catalog : Catalog.load store = .ok .standard
  /-- The administrator is there. -/
  principals : store.principals administrator.username = .ok [administrator]

namespace KeyValue.Server

variable {server : Server} {memory : MemoryStore}

/-- A server that has a schema and nothing else. -/
def IsVacant (server : Server) : Prop := ∃ catalog, server.Mirrors (.empty catalog)

/-- A server that has a root. -/
def IsRooted (server : Server) : Prop := ∃ memory, server.Mirrors memory ∧ memory.HasRoot

/-- A server that has a root, but nobody to administer it. -/
def IsUnattended (server : Server) : Prop :=
  ∃ memory, server.Mirrors memory ∧ memory.HasRoot ∧ memory.principals = .empty

/-- A directory with a root is not provisioned again. -/
theorem IsRooted.perform_seedIfEmpty (rooted : server.IsRooted) (created : String)
    (administrator : Principal) :
    server.perform (seedIfEmpty created administrator) = (.ok false, server) := by
  obtain ⟨memory, mirrors, dn, root, found, top⟩ := rooted
  obtain ⟨members, hset, hmembers⟩ := mirrors.listed none
  have member : dn ∈ members.keys := NameMap.mem_keys_iff.2 ((hmembers dn).2 ⟨root, found, top⟩)
  have hsize := perform_size mirrors.reached rootsKey
  rw [show server.database.set? rootsKey = _ from hset] at hsize
  rw [seedIfEmpty, perform_bind_ok hsize, if_pos (List.length_pos_of_mem member)]
  rfl

namespace IsUnattended

/-- A server that has a root and nobody to administer it has a root. -/
theorem isRooted (unattended : server.IsUnattended) : server.IsRooted := by
  obtain ⟨memory, mirrors, rooted, -⟩ := unattended
  exact ⟨memory, mirrors, rooted⟩

/-- Nobody is found on it. -/
theorem principals_eq (unattended : server.IsUnattended) (username : String) :
    server.toStore.principals username = .ok [] := by
  obtain ⟨memory, mirrors, -, empty⟩ := unattended
  rw [mirrors.principals_eq]
  change Except.ok (memory.principals.get? username).toList = _
  rw [empty]
  rfl

end IsUnattended

/-- A server without entries counts no roots. -/
theorem Mirrors.perform_size_roots (mirrors : server.Mirrors memory)
    (empty : memory.entries = .empty) :
    server.perform (Task.size rootsKey) = (.ok (0 : Nat), server) := by
  obtain ⟨members, hset, hmembers⟩ := mirrors.listed none
  have hkeys : members.keys = [] := by
    refine List.eq_nil_iff_forall_not_mem.2 fun dn member => ?_
    obtain ⟨entry, found, -⟩ := (hmembers dn).1 (NameMap.mem_keys_iff.1 member)
    rw [empty] at found
    cases found
  rw [perform_size mirrors.reached, show server.database.set? rootsKey = _ from hset, Except.map,
    hkeys]
  rfl

/-- To keep entries that are accepted one after the other takes the commands of all of them, and
nothing is lost on the way. -/
theorem Mirrors.takes_forM (mirrors : server.Mirrors memory) {entries : List Entry}
    {final : MemoryStore} (accepted : entries.foldlM MemoryStore.insertEntry memory = .ok final) :
    ∃ stops later, server.Takes (entries.forM insertEntry) stops () later ∧ later.Mirrors final ∧
      stops.length = (entries.map fun entry => 6 + entry.parent.toList.length).sum ∧
      ∀ stop ∈ stops, ∃ between, stop.Mirrors between ∧ memory.Precedes between := by
  induction entries generalizing server memory with
  | nil =>
    cases accepted
    exact ⟨[], server, takes_liftM server (), mirrors, rfl, nofun⟩
  | cons entry entries ih =>
    obtain ⟨accepts, further⟩ := MemoryStore.accepts_of_foldlM_cons accepted
    obtain ⟨middle, first, middleMirrors⟩ := mirrors.takes_insertEntry accepts
    obtain ⟨stops, later, rest, laterMirrors, count, between⟩ := ih middleMirrors further
    refine ⟨_, later, takes_bind first rest, laterMirrors, ?_, fun stop member => ?_⟩
    · rw [List.length_append, List.length_replicate, count, List.map_cons, List.sum_cons]
    · rcases List.mem_append.1 member with early | late
      · rw [List.eq_of_mem_replicate early]
        exact ⟨memory, mirrors, .refl memory⟩
      · obtain ⟨other, otherMirrors, precedes⟩ := between stop late
        exact ⟨other, otherMirrors, (MemoryStore.Precedes.of_accepts accepts).trans precedes⟩

/-- A server without principals takes the administrator with two commands. -/
theorem Mirrors.takes_administrator (mirrors : server.Mirrors memory)
    (empty : memory.principals = .empty) (administrator : Principal) : ∃ later,
      server.Takes (do
        if !(← Task.holds (principalKey administrator.username)) then insertPrincipal administrator
        return true) [server, server] true later ∧
      later.Mirrors { memory with
        principals := memory.principals.insert administrator.username administrator } := by
  have free : server.database.contains (principalKey administrator.username) = false := by
    rw [mirrors.contains_principalKey, empty]
    rfl
  have hholds := perform_holds mirrors.reached (principalKey administrator.username)
  rw [free] at hholds
  have hput := perform_putNew_free mirrors.reached free administrator.toJson.render
  have hinsert : server.Takes (insertPrincipal administrator) [server] () _ :=
    takes_bind (takes_ask hput) (takes_liftM _ ())
  refine ⟨_, ?_, mirrors.withPrincipal_mirrors administrator⟩
  exact takes_bind (takes_ask hholds) (takes_bind hinsert (takes_liftM _ true))

/-- The example tree is kept by 27 commands on a server that has the standard schema and no entries.
The first six of them keep the root, and nobody is there to administer it in the end. -/
theorem Mirrors.takes_tree (mirrors : server.Mirrors (.empty .standard)) (created : String) :
    ∃ stops later final,
      server.Takes ((Seed.entries created).forM insertEntry) (List.replicate 6 server ++ stops) ()
        later ∧
      stops.length = 21 ∧ (∀ stop ∈ stops, stop.IsUnattended) ∧ later.Mirrors final ∧
      (Seed.entries created).foldlM MemoryStore.insertEntry (.empty .standard) = .ok final := by
  obtain ⟨final, accepted⟩ := Seed.exists_foldlM_entries created
  -- The root comes first, and each of the three other entries has a parent.
  obtain ⟨root, rest, hentries, top, hcount⟩ : ∃ root rest, Seed.entries created = root :: rest ∧
      root.parent = none ∧ (rest.map fun entry => 6 + entry.parent.toList.length).sum = 21 :=
    ⟨_, _, rfl, rfl, rfl⟩
  rw [hentries] at accepted ⊢
  obtain ⟨accepts, further⟩ := MemoryStore.accepts_of_foldlM_cons accepted
  obtain ⟨middle, first, middleMirrors⟩ := mirrors.takes_insertEntry accepts
  rw [top] at first
  obtain ⟨stops, later, others, laterMirrors, count, between⟩ := middleMirrors.takes_forM further
  refine ⟨stops, later, final, takes_bind first others, count.trans hcount, fun stop member => ?_,
    laterMirrors, accepted⟩
  obtain ⟨other, otherMirrors, precedes⟩ := between stop member
  refine ⟨other, otherMirrors, precedes.hasRoot ⟨root.dn, root, ?_, top⟩, precedes.principals⟩
  rw [NameMap.get?_insert, if_pos rfl]

/-- A mirror of a store that has the tree, the standard schema and an administrator has them. -/
theorem Mirrors.isSeeded (mirrors : server.Mirrors memory) {created : String}
    {administrator : Principal} (standard : memory.catalog = .standard)
    (entries : ∀ entry ∈ Seed.entries created, memory.entries.get? entry.dn = some entry)
    (principal : memory.principals.get? administrator.username = some administrator) :
    server.toStore.IsSeeded created administrator where
  entries entry member := by
    rw [mirrors.hasEntries.entriesByName_eq]
    change Except.ok (memory.entries.get? entry.dn).toList = _
    rw [entries entry member]
    rfl
  catalog := by
    have hload : Catalog.load memory.toStore = .ok memory.catalog := mirrors.assemble_eq
    rw [mirrors.agrees.load_eq, hload, standard]
  principals := by
    rw [mirrors.principals_eq]
    change Except.ok (memory.principals.get? administrator.username).toList = _
    rw [principal]
    rfl

/-- A vacant server is provisioned by 31 commands. It stays vacant until the root is kept by the
eighth one, and from then on it is unattended until the last one. -/
theorem IsVacant.takes_seedIfEmpty (vacant : server.IsVacant) (created : String)
    (administrator : Principal) : ∃ before after later,
      server.Takes (seedIfEmpty created administrator) (before ++ after) true later ∧
      before.length = 8 ∧ after.length = 23 ∧ (∀ stop ∈ before, stop.IsVacant) ∧
      (∀ stop ∈ after, stop.IsUnattended) ∧ later.IsRooted ∧
      later.toStore.IsSeeded created administrator := by
  obtain ⟨catalog, mirrors⟩ := vacant
  have hsize := mirrors.perform_size_roots rfl
  obtain ⟨stored, hstored, storedMirrors⟩ : ∃ stored,
      server.perform (storeCatalog .standard) = (.ok (), stored) ∧
        stored.Mirrors (.empty .standard) :=
    ⟨_, Mirrors.perform_storeCatalog mirrors.reached .standard,
      mirrors.withCatalog_mirrors Catalog.checked_standard⟩
  obtain ⟨stops, middle, final, tree, count, unattended, middleMirrors, accepted⟩ :=
    storedMirrors.takes_tree created
  obtain ⟨precedes, same, there⟩ := MemoryStore.get?_of_foldlM accepted
  obtain ⟨later, last, laterMirrors⟩ :=
    middleMirrors.takes_administrator precedes.principals administrator
  have rooted : final.HasRoot := by
    obtain ⟨root, member, top⟩ : ∃ root ∈ Seed.entries created, root.parent = none :=
      ⟨_, List.mem_cons_self, rfl⟩
    exact ⟨root.dn, root, there root member, top⟩
  have found : NameMap.get? (final.principals.insert administrator.username administrator)
      administrator.username = some administrator := by
    rw [NameMap.get?_insert, if_pos rfl]
  have htakes : server.Takes (seedIfEmpty created administrator) _ true later :=
    takes_bind (takes_ask hsize) (takes_bind (takes_ask hstored) (takes_bind tree last))
  refine ⟨[server, server] ++ List.replicate 6 stored, stops ++ [middle, middle], later, ?_, rfl,
    ?_, fun stop member => ?_, fun stop member => ?_, ⟨_, laterMirrors, rooted⟩,
    laterMirrors.isSeeded same there found⟩
  · rw [List.append_assoc] at htakes
    rw [List.append_assoc, ← List.append_assoc (List.replicate 6 stored)]
    exact htakes
  · rw [List.length_append, count]
    rfl
  · rcases List.mem_append.1 member with first | second
    · simp only [List.mem_cons, List.not_mem_nil, or_false, or_self] at first
      rw [first]
      exact ⟨catalog, mirrors⟩
    · rw [List.eq_of_mem_replicate second]
      exact ⟨.standard, storedMirrors⟩
  · rcases List.mem_append.1 member with early | late
    · exact unattended stop early
    · simp only [List.mem_cons, List.not_mem_nil, or_false, or_self] at late
      rw [late]
      exact ⟨final, middleMirrors, rooted, precedes.principals⟩

/-- What an interruption leaves depends on the number of commands that were carried out. -/
theorem IsVacant.interrupted_seedIfEmpty (vacant : server.IsVacant) (limit : Nat)
    (created : String) (administrator : Principal) :
    let interrupted := server.interrupted limit (seedIfEmpty created administrator)
    (limit < 8 → (∃ error, interrupted.1 = .error error) ∧ interrupted.2.IsVacant) ∧
    (8 ≤ limit → limit < 31 →
      (∃ error, interrupted.1 = .error error) ∧ interrupted.2.IsUnattended) ∧
    (31 ≤ limit → interrupted.1 = .ok true ∧ interrupted.2.IsRooted ∧
      interrupted.2.toStore.IsSeeded created administrator) := by
  intro interrupted
  obtain ⟨before, after, later, takes, hbefore, hafter, early, late, rooted, seeded⟩ :=
    vacant.takes_seedIfEmpty created administrator
  have hlength : (before ++ after).length = 31 := by rw [List.length_append, hbefore, hafter]
  refine ⟨fun low => ?_, fun high low => ?_, fun high => ?_⟩
  · have hlimit : limit < before.length := hbefore ▸ low
    obtain ⟨error, done⟩ := takes.interrupted_lt (by omega : limit < (before ++ after).length)
    rw [List.getElem_append_left hlimit] at done
    have hinterrupted : interrupted = (.error error, before[limit]) := done
    rw [hinterrupted]
    exact ⟨⟨error, rfl⟩, early _ (List.getElem_mem hlimit)⟩
  · obtain ⟨error, done⟩ := takes.interrupted_lt (by omega : limit < (before ++ after).length)
    rw [List.getElem_append_right (hbefore ▸ high)] at done
    have hinterrupted : interrupted = (.error error, after[limit - before.length]) := done
    rw [hinterrupted]
    exact ⟨⟨error, rfl⟩, late _ (List.getElem_mem _)⟩
  · have hinterrupted : interrupted = (.ok true, later) := takes.interrupted_ge (hlength ▸ high)
    rw [hinterrupted]
    exact ⟨rfl, rooted, seeded⟩

/-- Provisioning that was interrupted between the root and the administrator cannot be completed. -/
theorem IsVacant.perform_seedIfEmpty_again (vacant : server.IsVacant) {limit : Nat}
    (high : 8 ≤ limit) (low : limit < 31) (created again : String)
    (administrator successor : Principal) :
    let interrupted := server.interrupted limit (seedIfEmpty created administrator)
    let recovered := interrupted.2.perform (seedIfEmpty again successor)
    (∃ error, interrupted.1 = .error error) ∧ recovered = (.ok false, interrupted.2) ∧
      recovered.2.toStore.principals Seed.administrator = .ok [] := by
  intro interrupted recovered
  obtain ⟨-, between, -⟩ := vacant.interrupted_seedIfEmpty limit created administrator
  obtain ⟨failed, unattended⟩ := between high low
  have hrecovered : recovered = (.ok false, interrupted.2) :=
    unattended.isRooted.perform_seedIfEmpty again successor
  rw [hrecovered]
  exact ⟨failed, rfl, unattended.principals_eq Seed.administrator⟩

/-- A directory that holds nothing is provisioned, and after some of the commands the database gets
out of reach. If the root was not kept yet, provisioning on the recovered database succeeds and
leaves the example tree, the standard schema and the administrator. If the root was kept but not the
administrator, the directory counts as provisioned: it is left as it is, without an administrator.
Otherwise the first call has succeeded, and the second one changes nothing. -/
theorem seedIfEmpty_after_interruption (limit : Nat) (created again : String)
    (password salt other otherSalt : List UInt8) (first second : Timestamp) :
    let administrator := Principal.withPassword Seed.administrator password salt first
    let successor := Principal.withPassword Seed.administrator other otherSalt second
    let interrupted := empty.interrupted limit (seedIfEmpty created administrator)
    let recovered := interrupted.2.perform (seedIfEmpty again successor)
    (limit < 8 → (∃ error, interrupted.1 = .error error) ∧ recovered.1 = .ok true ∧
      recovered.2.toStore.IsSeeded again successor) ∧
    (8 ≤ limit → limit < 31 → (∃ error, interrupted.1 = .error error) ∧
      recovered = (.ok false, interrupted.2) ∧
      recovered.2.toStore.principals Seed.administrator = .ok []) ∧
    (31 ≤ limit → interrupted.1 = .ok true ∧ recovered = (.ok false, interrupted.2) ∧
      recovered.2.toStore.IsSeeded created administrator) := by
  intro administrator successor interrupted recovered
  have vacant : empty.IsVacant := ⟨.empty, Mirrors.empty⟩
  obtain ⟨early, -, late⟩ := vacant.interrupted_seedIfEmpty limit created administrator
  refine ⟨fun low => ?_, fun high low => ?_, fun high => ?_⟩
  · obtain ⟨failed, still⟩ := early low
    obtain ⟨_, _, later, takes, -, -, -, -, -, seeded⟩ := still.takes_seedIfEmpty again successor
    have hrecovered : recovered = (.ok true, later) := takes.whole
    rw [hrecovered]
    exact ⟨failed, rfl, seeded⟩
  · exact vacant.perform_seedIfEmpty_again high low created again administrator successor
  · obtain ⟨done, rooted, seeded⟩ := late high
    have hrecovered : recovered = (.ok false, interrupted.2) :=
      rooted.perform_seedIfEmpty again successor
    rw [hrecovered]
    exact ⟨done, rfl, seeded⟩

/-- Once the root was kept, a directory that nobody administers counts as provisioned. -/
theorem seedIfEmpty_after_root :
    let administrator := Principal.withPassword Seed.administrator (Utf8.encode "admin") [1, 2, 3]
      ⟨2024, 1, 1, 0, 0, 0, 0, by decide, by decide⟩
    let interrupted := empty.interrupted 8 (seedIfEmpty "20240101000000Z" administrator)
    let recovered := interrupted.2.perform (seedIfEmpty "20240101000000Z" administrator)
    (∃ error, interrupted.1 = .error error) ∧ recovered = (.ok false, interrupted.2) ∧
      recovered.2.toStore.principals Seed.administrator = .ok [] :=
  IsVacant.perform_seedIfEmpty_again ⟨.empty, Mirrors.empty⟩ (by decide) (by decide) _ _ _ _

end KeyValue.Server

end DirectoryService
