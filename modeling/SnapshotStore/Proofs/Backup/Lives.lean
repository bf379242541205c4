import SnapshotStore.Proofs.Backup.Opening
import SnapshotStore.Proofs.Backup.Snapshot
import SnapshotStore.Proofs.Snapshot.Paths
import SnapshotStore.Proofs.Trace

/-!
The lives of a backup directory. In each life a keeper opens the directory over a new engine, and
its caller opens and removes partitions, changes what is in them, takes backups that may fail, and
closes the keeper or does not. Whatever was done before, the next life begins with exactly what the
last backup that succeeded has saved (`opens_as_saved`).
-/

namespace SnapshotStore

open Site OrderedMap

/-- What the caller of a keeper does. Partitions are changed through handles. -/
inductive Deed where
  | openPartition (name : String)
  | removePartition (name : String)
  | put (partition : PartitionId) (key value : Bytes)
  | remove (partition : PartitionId) (key : Bytes)
  | snapshot
  | close
  deriving DecidableEq, Repr

/-- What awaits a deed: the identifier and the time that a backup gets, and what goes wrong. -/
structure Occasion where
  id : Id
  now : Stamp
  engineFaults : List (Option StorageError)
  codecFaults : List (Option StoreError)
  diskFaults : List (Option DiskFailure)

/-- What a backup was to save, whether it succeeded, and the requests of it that met a fault. -/
structure Attempt where
  contents : OrderedMap String (OrderedMap Bytes Bytes)
  succeeded : Bool
  struck : List KeeperRequest

namespace Standpoint

/-- A keeper and its site when something awaits them. -/
def meet (p : Standpoint) (o : Occasion) : Standpoint :=
  ⟨p.keeper, ⟨p.site.engine, p.site.disk, o.id, o.now, o.engineFaults, o.codecFaults, o.diskFaults⟩⟩

/-- The keeper and its site after a deed. -/
def perform (p : Standpoint) : Deed → Standpoint
  | .openPartition name => ((Keeper.openPartition name).runOn p).2
  | .removePartition name => ((Keeper.removePartition name).runOn p).2
  | .put partition key value => ⟨p.keeper, (answer (.call partition (.put key value)) p.site).2⟩
  | .remove partition key => ⟨p.keeper, (answer (.call partition (.remove key)) p.site).2⟩
  | .snapshot => ((Keeper.snapshot p.site.engine.pageBound).runOn p).2
  | .close => ((Keeper.close p.site.engine.pageBound).runOn p).2

/-- The backup that a keeper attempts, reading each partition in at most `pages` pages. -/
def attempt (p : Standpoint) (pages : Nat) : Attempt :=
  ⟨p.keeper.holdings p.site.engine, ((Keeper.snapshot pages).runOn p).1.isOk,
    struck ((Keeper.snapshot pages).script p.keeper) p.site⟩

/-- The backup that is attempted in a deed, if it is one that takes a backup. -/
def attempts (p : Standpoint) : Deed → List Attempt
  | .snapshot | .close => [p.attempt p.site.engine.pageBound]
  | _ => []

/-- A deed with what awaits it. -/
def step (deed : Deed × Occasion) (p : Standpoint) : List Attempt × Standpoint :=
  ((p.meet deed.2).attempts deed.1, (p.meet deed.2).perform deed.1)

end Standpoint

/-- A life: the size of the pages in which its keeper reads, and what is done in it. -/
structure Life where
  batchSize : Nat
  deeds : List (Deed × Occasion)

/-- Lives a life on a disk: the backups that are attempted, and the disk that is left. -/
def Life.live (path : String) (format : Format) (life : Life) (d : Disk) : List Attempt × Disk :=
  let start := (opening path format life.batchSize d).2
  ((trace Standpoint.step life.deeds start).flatten,
    (after Standpoint.step life.deeds start).site.disk)

/-- The identifiers that await the deeds of a life. -/
def Life.ids (life : Life) : List Id := life.deeds.map fun deed => deed.2.id

/-- What the last successful one of some attempts has saved; without one, what was saved before. -/
def saved (before : OrderedMap String (OrderedMap Bytes Bytes)) (attempts : List Attempt) :
    OrderedMap String (OrderedMap Bytes Bytes) :=
  attempts.foldl (fun contents attempt => if attempt.succeeded then attempt.contents else contents)
    before

/-- Whether the contents of partitions are small enough to be written to files. -/
def Attempt.Fits (format : Format) (attempt : Attempt) : Prop :=
  ∀ partition ∈ attempt.contents.toList, (format.write partition.2.toList).length < 2 ^ 64

instance (format : Format) (attempt : Attempt) : Decidable (attempt.Fits format) :=
  inferInstanceAs (Decidable (∀ partition ∈ attempt.contents.toList, _))

/-- Whether no fault was met in making a directory last. -/
def Attempt.Lasts (dir : Path) (attempt : Attempt) : Prop := .disk (.sync dir) ∉ attempt.struck

instance (dir : Path) (attempt : Attempt) : Decidable (attempt.Lasts dir) :=
  inferInstanceAs (Decidable (¬_))

/-! ## What is kept -/

/-- A disk on which a directory keeps what was saved, under one of the identifiers that were
used. -/
structure Remembers (path : String) (format : Format) (root : Location)
    (contents : OrderedMap String (OrderedMap Bytes Bytes)) (used : List Id) (d : Disk) : Prop where
  named : path ≠ ""
  reaches : d.Reaches (Path.ofDirectory path) root
  holds : ∃ latest files, Holds d (Path.ofDirectory path) format latest files ∧
    pictured files = contents ∧ ∀ record, latest = some record → record.id ∈ used

/-- A keeper in its life. -/
structure Living (path : String) (format : Format) (root : Location)
    (contents : OrderedMap String (OrderedMap Bytes Bytes)) (used : List Id) (p : Standpoint) :
    Prop where
  keeper : p.keeper.path = path ∧ p.keeper.format = format
  remembers : Remembers path format root contents used p.site.disk
  sound : p.site.engine.Sound

section Deeds

variable {path : String} {format : Format} {root : Location}
  {contents : OrderedMap String (OrderedMap Bytes Bytes)} {used : List Id} {p : Standpoint}

theorem Remembers.more {d : Disk} (h : Remembers path format root contents used d)
    (ids : List Id) : Remembers path format root contents (used ++ ids) d := by
  obtain ⟨named, reaches, latest, files, holds, pictured, known⟩ := h
  exact ⟨named, reaches, latest, files, holds, pictured,
    fun record eq => List.mem_append_left _ (known record eq)⟩

theorem Living.more (h : Living path format root contents used p) (ids : List Id) :
    Living path format root contents (used ++ ids) p :=
  ⟨h.keeper, h.remembers.more ids, h.sound⟩

/-- What is done to the engine alone changes nothing that is kept. -/
theorem Living.onEngine {α : Type} (h : Living path format root contents used p)
    (act : Engine → Except StorageError α × Engine) (sound : (act p.site.engine).2.Sound)
    {k : Keeper} (kept : k.path = p.keeper.path ∧ k.format = p.keeper.format) :
    Living path format root contents used ⟨k, (p.site.onEngine act).2⟩ := by
  have keeper : k.path = path ∧ k.format = format :=
    ⟨kept.1.trans h.keeper.1, kept.2.trans h.keeper.2⟩
  rcases onEngine_cases p.site act with ⟨_, s, done, like⟩ | ⟨s, done, engaged⟩
  · rw [done]
    exact ⟨keeper, like.disk ▸ h.remembers, like.engine ▸ h.sound⟩
  · rw [done]
    exact ⟨keeper, engaged.disk ▸ h.remembers, engaged.engine ▸ sound⟩

theorem Living.openPartition (h : Living path format root contents used p) (name : String) :
    Living path format root contents used ((Keeper.openPartition name).runOn p).2 := by
  have sound := Engine.sound_openPartition h.sound name
  have ended : Ends (fun r s => Living path format root contents used ⟨r.2, s⟩)
      ((Keeper.openPartition name).script p.keeper) p.site := by
    rw [Keeper.openPartition, Activity.script_ask_bind]
    refine ends_ask rfl ?_
    rw [Activity.script_ofExcept_bind]
    split
    · exact h.onEngine (fun e => e.openPartition name) sound ⟨rfl, rfl⟩
    · exact h.onEngine (fun e => e.openPartition name) sound ⟨rfl, rfl⟩
  exact ended

theorem Living.removePartition (h : Living path format root contents used p) (name : String) :
    Living path format root contents used ((Keeper.removePartition name).runOn p).2 := by
  have sound := Engine.sound_removePartition h.sound name
  have ended : Ends (fun r s => Living path format root contents used ⟨r.2, s⟩)
      ((Keeper.removePartition name).script p.keeper) p.site := by
    rw [Keeper.removePartition, Activity.script_ask_bind]
    refine ends_ask rfl ?_
    rw [Activity.script_ofExcept_bind]
    split
    · exact h.onEngine (fun e => e.removePartition name) sound ⟨rfl, rfl⟩
    · exact h.onEngine (fun e => e.removePartition name) sound ⟨rfl, rfl⟩
  exact ended

/-- A keeper can take a backup under an identifier that was not used. -/
theorem Living.prepared (h : Living path format root contents used p)
    (fresh : p.site.id ∉ used) (plain : p.site.now.IsPlain) {pages : Nat}
    (fits : (p.attempt pages).Fits format) :
    ∃ latest files, Prepared p.keeper p.site root latest files ∧ pictured files = contents ∧
      ∀ record, latest = some record → record.id ∈ used := by
  obtain ⟨⟨path', format'⟩, ⟨-, reaches, latest, files, holds, pictured, known⟩, sound⟩ := h
  have directory : p.keeper.directory = Path.ofDirectory path := by
    rw [Keeper.directory, path']
  refine ⟨latest, files, ⟨?_, ?_, ?_, sound, plain, ?_⟩, pictured, known⟩
  · rw [directory]
    exact reaches.leadsTo
  · rw [directory, format']
    exact holds
  · intro record eq same
    exact fresh (same ▸ known record eq)
  · intro file mem
    obtain ⟨name, tracked, rfl⟩ := List.mem_map.1 mem
    obtain ⟨b, among, rfl⟩ := List.mem_map.1 tracked
    rw [format']
    exact fits (b.1, p.site.engine.entriesOf b.1) (List.mem_map.2 ⟨b, among, rfl⟩)

/-- A backup that succeeds is what is kept from then on, and one that fails leaves what was. -/
theorem Living.snapshot (h : Living path format root contents used p) (fresh : p.site.id ∉ used)
    (plain : p.site.now.IsPlain) (pages : Nat) (fits : (p.attempt pages).Fits format)
    (lasts : (p.attempt pages).Lasts (Path.ofDirectory path)) :
    Living path format root (saved contents [p.attempt pages]) (used ++ [p.site.id])
      ((Keeper.snapshot pages).runOn p).2 := by
  obtain ⟨latest, files, prepared, rfl, known⟩ := h.prepared fresh plain fits
  have directory : p.keeper.directory = Path.ofDirectory path := by
    rw [Keeper.directory, h.keeper.1]
  have firm : Site.Lasts (· = .disk (.sync (Path.ofDirectory path))) p.keeper := by
    rw [Site.Lasts, directory]
    exact ⟨rfl, Path.ofDirectory_ne_nil h.remembers.named⟩
  have ended := (upholds_snapshot prepared (absurd firm) pages).ends
    fun r met same => lasts (same ▸ met)
  rw [Standpoint.attempt]
  rw [Ends] at ended
  rw [Activity.runOn]
  dsimp only
  generalize Script.run (I := keeperInterface) answer _ p.site = final at ended ⊢
  obtain ⟨⟨result, k⟩, s⟩ := final
  obtain ⟨moved, ⟨outside, sound, recovers⟩, ⟨⟨phase, rfl⟩, moves⟩⟩ := ended
  obtain rfl := moves firm
  have reaches : s.disk.Reaches p.keeper.directory root := by
    refine Disk.Reaches.of_sameOutside ?_ outside
    rw [directory]
    exact h.remembers.reaches
  have holds := recovers.holds reaches.leadsTo
  rw [directory, h.keeper.2] at holds
  rw [directory] at reaches
  cases result with
  | ok record =>
    refine ⟨h.keeper, ⟨h.remembers.named, reaches, _, _, holds, pictured_files _ _, ?_⟩, sound⟩
    intro record eq
    obtain rfl := Option.some.inj eq
    exact List.mem_append_right _ (List.mem_singleton_self _)
  | error e =>
    refine ⟨h.keeper, ⟨h.remembers.named, reaches, latest, files, holds, rfl, fun record eq => ?_⟩,
      sound⟩
    exact List.mem_append_left _ (known record eq)

theorem Living.closeEngine (h : Living path format root contents used p) :
    Ends (fun r s => Living path format root contents used ⟨r.2, s⟩)
      (Activity.script (do Activity.ofExcept (fun e => e) (← Activity.ask .closeEngine)) p.keeper)
      p.site := by
  rw [Activity.script_ask_bind]
  refine ends_ask rfl ?_
  rw [Activity.script_ofExcept]
  exact h.onEngine (fun e => (.ok (), e.close)) (Engine.sound_close h.sound) ⟨rfl, rfl⟩

/-- A keeper that is closed for the first time takes a last backup. -/
theorem Living.close (h : Living path format root contents used p) (fresh : p.site.id ∉ used)
    (plain : p.site.now.IsPlain) (pages : Nat) (fits : (p.attempt pages).Fits format)
    (lasts : (p.attempt pages).Lasts (Path.ofDirectory path)) :
    Living path format root (saved contents [p.attempt pages]) (used ++ [p.site.id])
      ((Keeper.close pages).runOn p).2 := by
  have taken := h.snapshot fresh plain pages fits lasts
  generalize saved contents [p.attempt pages] = contents' at taken ⊢
  have ended : Ends (fun r s => Living path format root contents'
      (used ++ [p.site.id]) ⟨r.2, s⟩) ((Keeper.close pages).script p.keeper) p.site := by
    rw [Keeper.close, Activity.script_get_bind]
    by_cases closed : p.keeper.phase = .closed
    · rw [if_neg (not_not_intro closed)]
      have unchanged : (Keeper.snapshot pages).runOn p =
          (.error (.invalidOperation .backupClosed), p) := by
        rw [Activity.runOn, Keeper.snapshot, Activity.script_get_bind, if_pos closed]
        rfl
      rw [unchanged] at taken
      exact taken.closeEngine
    · rw [if_pos closed, Activity.script_outcome_bind]
      have ended : Ends (fun r s => Living path format root (contents')
          (used ++ [p.site.id]) ⟨r.2, s⟩) ((Keeper.snapshot pages).script p.keeper) p.site := taken
      refine ended.bind fun r s living => ?_
      rw [Activity.script_change_bind]
      have closed : Living path format root (contents') (used ++ [p.site.id])
          ⟨Keeper.inPhase .closed r.2, s⟩ :=
        ⟨living.keeper, living.remembers, living.sound⟩
      exact closed.closeEngine
  exact ended

/-- Each deed keeps what was saved, or saves anew. -/
theorem Living.step (h : Living path format root contents used p) (deed : Deed × Occasion)
    (fresh : deed.2.id ∉ used) (plain : deed.2.now.IsPlain)
    (fits : ∀ attempt ∈ (Standpoint.step deed p).1, attempt.Fits format)
    (lasts : ∀ attempt ∈ (Standpoint.step deed p).1, attempt.Lasts (Path.ofDirectory path)) :
    Living path format root (saved contents (Standpoint.step deed p).1) (used ++ [deed.2.id])
      (Standpoint.step deed p).2 := by
  obtain ⟨deed, o⟩ := deed
  have met : Living path format root contents used (p.meet o) := ⟨h.keeper, h.remembers, h.sound⟩
  cases deed with
  | openPartition name => exact (met.openPartition name).more _
  | removePartition name => exact (met.removePartition name).more _
  | put partition key value =>
    exact (met.onEngine _ (Engine.sound_call met.sound partition (.put key value)) ⟨rfl, rfl⟩).more _
  | remove partition key =>
    exact (met.onEngine _ (Engine.sound_call met.sound partition (.remove key)) ⟨rfl, rfl⟩).more _
  | snapshot =>
    exact met.snapshot fresh plain _ (fits _ (List.mem_singleton_self _))
      (lasts _ (List.mem_singleton_self _))
  | close =>
    exact met.close fresh plain _ (fits _ (List.mem_singleton_self _))
      (lasts _ (List.mem_singleton_self _))

theorem saved_append (attempts more : List Attempt) :
    saved contents (attempts ++ more) = saved (saved contents attempts) more :=
  List.foldl_append

theorem Living.deeds (h : Living path format root contents used p) (deeds : List (Deed × Occasion))
    (ids : (used ++ deeds.map fun deed => deed.2.id).Nodup)
    (plain : ∀ deed ∈ deeds, deed.2.now.IsPlain)
    (fits : ∀ attempt ∈ (trace Standpoint.step deeds p).flatten, attempt.Fits format)
    (lasts : ∀ attempt ∈ (trace Standpoint.step deeds p).flatten,
      attempt.Lasts (Path.ofDirectory path)) :
    Living path format root (saved contents (trace Standpoint.step deeds p).flatten)
      (used ++ deeds.map fun deed => deed.2.id) (after Standpoint.step deeds p) := by
  induction deeds generalizing contents used p with
  | nil =>
    rw [List.map_nil, List.append_nil]
    exact h
  | cons deed deeds ih =>
    rw [List.map_cons, List.append_cons] at ids ⊢
    rw [trace_cons, List.flatten_cons] at fits lasts ⊢
    rw [List.forall_mem_append] at fits lasts
    have fresh : deed.2.id ∉ used := by
      intro mem
      have apart := (List.nodup_append.1 (List.nodup_append.1 ids).1).2.2
      exact apart _ mem _ (List.mem_singleton_self _) rfl
    have next := h.step deed fresh (plain _ (List.mem_cons_self ..)) fits.1 lasts.1
    rw [saved_append]
    exact ih next ids (fun deed mem => plain deed (List.mem_cons_of_mem _ mem)) fits.2 lasts.2

end Deeds

/-! ## Lives -/

/-- A disk between two lives: the directory, once it is made, keeps what was saved. -/
def Rests (path : String) (format : Format) (root : Location)
    (contents : OrderedMap String (OrderedMap Bytes Bytes)) (used : List Id) (d : Disk) : Prop :=
  ∃ made, d.call (.makeDirectories (Path.ofDirectory path)) = (.ok (), made) ∧
    Remembers path format root contents used made

section Lives

variable {path : String} {format : Format} {root : Location}
  {contents : OrderedMap String (OrderedMap Bytes Bytes)} {used : List Id} {d : Disk}

theorem Rests.opens (h : Rests path format root contents used d) (batchSize : Nat) :
    Opens path format batchSize d contents := by
  obtain ⟨made, makes, -, -, latest, files, holds, rfl, -⟩ := h
  exact opens_of_holds batchSize makes holds

/-- A keeper that is opened begins its life with what is kept. -/
theorem Rests.living (h : Rests path format root contents used d) (batchSize : Nat) :
    Living path format root contents used (opening path format batchSize d).2 := by
  obtain ⟨made, makes, remembers⟩ := h
  obtain ⟨latest, files, holds, -, -⟩ := remembers.holds
  obtain ⟨k, s, _, opened, path', format', sound, -, -, disk⟩ := of_opening format batchSize makes
  obtain rfl := disk ⟨latest, files, holds⟩
  rw [opened]
  exact ⟨⟨path', format'⟩, remembers, sound⟩

theorem Remembers.rests (h : Remembers path format root contents used d) :
    Rests path format root contents used d := by
  obtain ⟨latest, files, holds, -, -⟩ := h.holds
  exact ⟨d, Disk.makeDirectories_of_leadsTo h.reaches.leadsTo (Disk.fault?_append_left holds.sound),
    h⟩

/-- A life leaves what it has saved. -/
theorem Rests.live (h : Rests path format root contents used d) (life : Life)
    (ids : (used ++ life.ids).Nodup) (plain : ∀ deed ∈ life.deeds, deed.2.now.IsPlain)
    (fits : ∀ attempt ∈ (life.live path format d).1, attempt.Fits format)
    (lasts : ∀ attempt ∈ (life.live path format d).1, attempt.Lasts (Path.ofDirectory path)) :
    Rests path format root (saved contents (life.live path format d).1) (used ++ life.ids)
      (life.live path format d).2 :=
  ((h.living life.batchSize).deeds life.deeds ids plain fits lasts).remembers.rests

theorem Rests.lives (h : Rests path format root contents used d) (lives : List Life)
    (ids : (used ++ lives.flatMap Life.ids).Nodup)
    (plain : ∀ life ∈ lives, ∀ deed ∈ life.deeds, deed.2.now.IsPlain)
    (fits : ∀ attempt ∈ (trace (Life.live path format) lives d).flatten, attempt.Fits format)
    (lasts : ∀ attempt ∈ (trace (Life.live path format) lives d).flatten,
      attempt.Lasts (Path.ofDirectory path)) :
    Rests path format root (saved contents (trace (Life.live path format) lives d).flatten)
      (used ++ lives.flatMap Life.ids) (after (Life.live path format) lives d) := by
  induction lives generalizing contents used d with
  | nil =>
    rw [List.flatMap_nil, List.append_nil]
    exact h
  | cons life lives ih =>
    rw [List.flatMap_cons, ← List.append_assoc] at ids ⊢
    rw [trace_cons, List.flatten_cons] at fits lasts ⊢
    rw [List.forall_mem_append] at fits lasts
    have next := h.live life (List.nodup_append.1 ids).1 (plain _ (List.mem_cons_self ..)) fits.1
      lasts.1
    rw [saved_append]
    exact ih next ids (fun life mem => plain life (List.mem_cons_of_mem _ mem)) fits.2 lasts.2

end Lives

/-- However a directory that began empty was used, it opens with what the last successful backup
was to save, and with nothing if there was none. -/
theorem opens_as_saved {path : String} {format : Format} {d made : Disk} {root : Location}
    (named : path ≠ "")
    (sound : Path.fault? (Place.manifest (Path.ofDirectory path)) = none)
    (makes : d.call (.makeDirectories (Path.ofDirectory path)) = (.ok (), made))
    (leads : made.LeadsTo (Path.ofDirectory path) root)
    (vacant : ∀ q, root <+: q → q ≠ root → made.node? q = none) (lives : List Life)
    (ids : (lives.flatMap Life.ids).Nodup)
    (plain : ∀ life ∈ lives, ∀ deed ∈ life.deeds, deed.2.now.IsPlain)
    (fits : ∀ attempt ∈ (trace (Life.live path format) lives d).flatten, attempt.Fits format)
    (lasts : ∀ attempt ∈ (trace (Life.live path format) lives d).flatten,
      attempt.Lasts (Path.ofDirectory path))
    (batchSize : Nat) :
    Opens path format batchSize (after (Life.live path format) lives d)
      (saved .empty (trace (Life.live path format) lives d).flatten) := by
  have start : Rests path format root .empty [] d :=
    ⟨made, makes, named, Disk.reaches_of_vacant leads vacant, none, [],
      holds_of_vacant leads vacant sound, rfl, nofun⟩
  exact (start.lives lives ids plain fits lasts).opens batchSize

/-- A backup fails, another one succeeds, and an entry is changed after it. -/
theorem opens_as_saved_after_failure :
    let occasion (n : Nat) (codecFaults : List (Option StoreError)) : Occasion :=
      ⟨⟨n⟩, ⟨0, 0⟩, [], codecFaults, []⟩
    let life : Life := ⟨1, [(.openPartition "a", occasion 1 []),
      (.snapshot, occasion 2 [some .serialization]), (.put 0 [1] [2], occasion 3 []),
      (.snapshot, occasion 4 []), (.put 0 [1] [3], occasion 5 [])]⟩
    (trace (Life.live "b" .cbor) [life] .empty).flatten.map Attempt.succeeded = [false, true] ∧
      Opens "b" .cbor 7 (after (Life.live "b" .cbor) [life] .empty)
        (OrderedMap.empty.insert "a" (OrderedMap.empty.insert [1] [2])) := by
  intro occasion life
  have makes : Disk.empty.call (.makeDirectories (Path.ofDirectory "b")) =
      (.ok (), Disk.empty.set ["b"] .directory) := by
    rfl
  have vacant : ∀ q, ["b"] <+: q → q ≠ ["b"] →
      (Disk.empty.set ["b"] .directory).node? q = none := by
    intro q _ other
    rw [Disk.node?_set, if_neg other.symm]
    rfl
  have plain : ∀ l ∈ [life], ∀ deed ∈ l.deeds, deed.2.now.IsPlain := by decide +kernel
  have fits : ∀ attempt ∈ (trace (Life.live "b" .cbor) [life] .empty).flatten,
      attempt.Fits .cbor := by
    decide +kernel
  have lasts : ∀ attempt ∈ (trace (Life.live "b" .cbor) [life] .empty).flatten,
      attempt.Lasts (Path.ofDirectory "b") := by
    decide +kernel
  have opens := opens_as_saved (by decide) (by decide +kernel) makes (by rfl) vacant [life]
    (by decide +kernel) plain fits lasts 7
  have same : saved .empty (trace (Life.live "b" .cbor) [life] .empty).flatten =
      OrderedMap.empty.insert "a" (OrderedMap.empty.insert [1] [2]) := by
    decide +kernel
  rw [same] at opens
  exact ⟨by decide +kernel, opens⟩

end SnapshotStore
