import SnapshotStore.Proofs.Backup.AllOrNothing
import SnapshotStore.Proofs.Backup.Tidying
import SnapshotStore.Proofs.Backup.Tracking

/-!
A keeper in the course of its deeds. After each of them it tracks exactly what its engine registers
and has left alone what does not concern it, and after each backup that succeeds its directory holds
this backup and nothing of another one, whatever failed before or was left behind
(`tracks_and_tidies`).
-/

namespace SnapshotStore

open Site OrderedMap Disk Keeper

namespace Standpoint

open Activity

variable {p : Standpoint} {dir : Path} {root : Location} {made : Disk} {used : List Id}

/-- Whether a keeper tracks exactly the names that its engine registers, and has left alone each
entry of its directory that has neither a name of the manifest nor that of an identifier. -/
structure Orderly (root : Location) (made : Disk) (p : Standpoint) : Prop where
  tracked : p.keeper.trackedNames = p.site.engine.names
  untouched : ∀ name, Id.parse? name = none → ¬IsOfManifest name →
    ∀ q, p.site.disk.node? (root ++ name :: q) = made.node? (root ++ name :: q)

/-- Whether the directory of a keeper holds one backup and nothing of another one: that of what the
keeper tracks, in ascending order and with a file of its own for each name. -/
structure Tidied (root : Location) (p : Standpoint) : Prop where
  tidy : Tidy root (p.keeper.record p.site) (p.keeper.spelling p.site.engine) p.site.disk
  ascending : p.keeper.trackedNames.Pairwise (· < ·)
  distinct : (p.keeper.trackedNames.map FileName.snapshot).Nodup
  read : p.site.now.IsPlain → Manifest.read (Manifest.single (p.keeper.record p.site)).write =
    .ok (Manifest.single (p.keeper.record p.site))

theorem tidied_of_tidy
    (tidy : Tidy root (p.keeper.record p.site) (p.keeper.spelling p.site.engine) p.site.disk) :
    Tidied root p := by
  have ascending : p.keeper.trackedNames.Pairwise (· < ·) :=
    List.pairwise_map.2 p.keeper.tracked.sorted
  refine ⟨tidy, ascending, ?_, fun plain => Manifest.read_write fun record mem => ?_⟩
  · refine List.pairwise_map.2 (ascending.imp fun below same => ?_)
    rw [FileName.snapshot_injective same] at below
    exact String.lt_irrefl _ below
  · rw [List.mem_singleton.1 mem]
    exact plain.shown

/-! ## Deeds -/

theorem ends_tended_snapshot {k : Keeper} {s : Site} (reaches : s.disk.Reaches k.directory root)
    (known : k.Known s.engine) (pages : Nat) :
    Ends (fun r s' => r.2.directory = k.directory ∧ Tended [s.id] root s.disk s'.disk)
      ((snapshot pages).script k) s := by
  refine ⟨?_, ends_tends_snapshot reaches pages⟩
  rw [(known.ends_snapshot pages).1]
  split <;> rfl

/-- A deed changes no more than what is written for its backup and what is cleared away. -/
theorem tended_step (reaches : p.site.disk.Reaches p.keeper.directory root)
    (known : p.keeper.Known p.site.engine) (deed : Deed × Occasion) :
    (step deed p).2.keeper.directory = p.keeper.directory ∧
      Tended [deed.2.id] root p.site.disk (step deed p).2.site.disk := by
  obtain ⟨deed, o⟩ := deed
  let met := p.meet o
  have taken := ends_tended_snapshot (k := met.keeper) (s := met.site) reaches known
  have still : ∀ {p' : Standpoint}, p'.keeper.directory = p.keeper.directory ∧
      p'.site.disk = p.site.disk → p'.keeper.directory = p.keeper.directory ∧
        Tended [o.id] root p.site.disk p'.site.disk := by
    rintro p' ⟨directory, same⟩
    exact ⟨directory, same ▸ .refl _ _ _ _⟩
  cases deed with
  | openPartition name =>
    exact still (ends_engine (s := met.site) (asks_openPartition (fun _ ofEngine => ofEngine) name))
  | removePartition name =>
    exact still (ends_engine (s := met.site)
      (asks_removePartition (fun _ ofEngine => ofEngine) name))
  | put id key value =>
    exact still ⟨rfl, disk_answer_engine (s := met.site) (r := .call id (.put key value)) rfl⟩
  | remove id key =>
    exact still ⟨rfl, disk_answer_engine (s := met.site) (r := .call id (.remove key)) rfl⟩
  | snapshot => exact taken _
  | close =>
    refine ends_close (E := fun k' s' => k'.directory = p.keeper.directory ∧
      Tended [o.id] root p.site.disk s'.disk) _ (taken _) (fun _ _ kept => kept) ?_
    intro k' s' kept
    rw [disk_answer_engine rfl]
    exact kept

theorem ends_tidied_snapshot {k : Keeper} {s : Site} (serves : s.disk.Serves k.directory root)
    (steady : s.diskFaults = []) (known : k.Known s.engine)
    (fresh : ∀ name, Id.parse? name = some s.id → ∀ q, s.disk.node? (root ++ name :: q) = none)
    (pages : Nat) :
    Ends (fun r s' => r.1.isOk = true → Tidied root ⟨r.2, s'⟩) ((snapshot pages).script k) s := by
  have ended : Ends (fun r s' =>
      (∀ record, r.1 = .ok record → Tidy root (k.record s) (k.spelling s.engine) s'.disk) ∧
      (r.2 = (if k.phase = .closed then k else inPhase .ready k) ∧ s'.engine = s.engine) ∧
      s'.id = s.id ∧ s'.now = s.now) ((snapshot pages).script k) s := by
    obtain ⟨sameId, sameNow, -⟩ := ends_occasion ((snapshot pages).script k) s
    exact ⟨ends_tidy_snapshot serves steady known fresh pages, known.ends_snapshot pages,
      sameId, sameNow⟩
  refine ended.mono ?_
  rintro ⟨result, _⟩ s' ⟨tidy, ⟨rfl, engine⟩, sameId, sameNow⟩ succeeded
  cases result with
  | error e => cases succeeded
  | ok record =>
    refine tidied_of_tidy ?_
    rw [Keeper.record, sameId, sameNow, engine]
    split <;> exact tidy record rfl

/-- An engine that is closed keeps its entries. -/
theorem Tidied.closeEngine {k : Keeper} {s : Site} (h : Tidied root ⟨k, s⟩) :
    Tidied root ⟨k, (answer .closeEngine s).2⟩ := by
  obtain ⟨sameId, sameNow, -⟩ := answer_occasion .closeEngine s
  have entries : k.spelling (answer .closeEngine s).2.engine = k.spelling s.engine := by
    rcases s.engine_answer .closeEngine with same | done
    · rw [same]
    · rw [done]
      rfl
  refine tidied_of_tidy ?_
  rw [Keeper.record, sameId, sameNow, entries, disk_answer_engine rfl]
  exact h.tidy

/-- A deed whose backup succeeds on a disk that does what it is asked to leaves that backup only. -/
theorem tidied_step (serves : p.site.disk.Serves p.keeper.directory root)
    (known : p.keeper.Known p.site.engine) (deed : Deed × Occasion)
    (fresh : ∀ name, Id.parse? name = some deed.2.id →
      ∀ q, p.site.disk.node? (root ++ name :: q) = none)
    (steady : deed.2.diskFaults = []) :
    ∀ attempt ∈ (step deed p).1, attempt.succeeded = true → Tidied root (step deed p).2 := by
  obtain ⟨deed, o⟩ := deed
  let met := p.meet o
  have taken := ends_tidied_snapshot (k := met.keeper) (s := met.site) serves steady known fresh
  cases deed with
  | openPartition _ | removePartition _ | put _ _ _ | remove _ _ =>
    exact fun _ mem => absurd mem List.not_mem_nil
  | snapshot =>
    intro attempt mem succeeded
    rw [List.mem_singleton.1 mem] at succeeded
    exact taken _ succeeded
  | close =>
    intro attempt mem succeeded
    rw [List.mem_singleton.1 mem] at succeeded
    refine ends_close (E := fun k' s' => Tidied root ⟨k', s'⟩) _ (taken _ succeeded) ?_ ?_
    · intro k' s' tidied
      exact ⟨tidied.tidy, tidied.ascending, tidied.distinct, tidied.read⟩
    · exact fun k' s' tidied => tidied.closeEngine

/-! ## Courses -/

/-- A keeper in the course of its deeds: it tracks what its engine registers, and has looked after
its directory under the identifiers that were used. -/
structure Minding (dir : Path) (root : Location) (made : Disk) (used : List Id) (p : Standpoint) :
    Prop where
  directory : p.keeper.directory = dir
  tallies : p.keeper.Tallies p.site.engine
  tended : Tended used root made p.site.disk

theorem Minding.orderly (h : Minding dir root made used p) : Orderly root made p := by
  refine ⟨h.tallies.trackedNames, fun name unspelled other => ?_⟩
  refine h.tended.same name ?_ ?_
  · rintro (ofManifest | ⟨id, -, rfl⟩)
    · exact other ofManifest
    · rw [Id.parse?_render] at unspelled
      cases unspelled
  · rintro ⟨id, parsed⟩
    rw [unspelled] at parsed
    cases parsed

/-- What is not there under an identifier does not come until that is used. -/
theorem Minding.fresh {id : Id} (h : Minding dir root made used p) (unused : id ∉ used)
    (free : ∀ name, Id.parse? name = some id → ∀ q, made.node? (root ++ name :: q) = none) :
    ∀ name, Id.parse? name = some id → ∀ q, p.site.disk.node? (root ++ name :: q) = none := by
  intro name parsed q
  have unwritten : ¬Writable used name := not_writable parsed fun mem => absurd mem unused
  refine Option.eq_none_iff_forall_ne_some.2 fun node stands => ?_
  have before := h.tended.less name unwritten q node stands
  rw [free name parsed q] at before
  cases before

theorem Minding.step (h : Minding dir root made used p) (reaches : made.Reaches dir root)
    (deed : Deed × Occasion) :
    Minding dir root made (used ++ [deed.2.id]) (Standpoint.step deed p).2 := by
  obtain ⟨rfl, tallies, tended⟩ := h
  obtain ⟨directory, tended'⟩ :=
    tended_step (reaches.of_sameOutside tended.outside) tallies.known deed
  refine ⟨directory, tallies.bookkeeping (tallies.known.bookkeeping_step deed), ?_⟩
  refine (tended.mono fun id mem => List.mem_append_left _ mem).trans ?_
  exact tended'.mono fun id mem => List.mem_append_right _ mem

theorem Minding.deeds (h : Minding dir root made used p) (serves : made.Serves dir root)
    (deeds : List (Deed × Occasion)) (ids : (used ++ deeds.map fun deed => deed.2.id).Nodup)
    (free : ∀ deed ∈ deeds, ∀ name, Id.parse? name = some deed.2.id →
      ∀ q, made.node? (root ++ name :: q) = none) :
    Along Standpoint.step (fun deed p => Orderly root made (Standpoint.step deed p).2 ∧
      (deed.2.diskFaults = [] → ∀ attempt ∈ (Standpoint.step deed p).1,
        attempt.succeeded = true → Tidied root (Standpoint.step deed p).2)) deeds p := by
  induction deeds generalizing used p with
  | nil => trivial
  | cons deed deeds ih =>
    obtain ⟨here, free⟩ := List.forall_mem_cons.1 free
    rw [List.map_cons] at ids
    have unused : deed.2.id ∉ used := fun mem =>
      (List.nodup_append.1 ids).2.2 _ mem _ (List.mem_cons_self ..) rfl
    have next := h.step serves.reaches deed
    have serves' : p.site.disk.Serves p.keeper.directory root :=
      h.directory ▸ serves.of_sameOutside h.tended.outside
    rw [List.append_cons] at ids
    refine ⟨⟨next.orderly, fun steady => ?_⟩, ih next ids free⟩
    exact tidied_step serves' h.tallies.known deed (h.fresh unused here) steady

end Standpoint

/-- After each deed a keeper tracks what its engine registers, and after each backup that succeeds
its directory holds this backup and nothing of another one. -/
theorem tracks_and_tidies {path : String} {format : Format} {batchSize : Nat} {s : Site}
    {made : Disk} {root : Location} (unused : s.engine.contents = .empty)
    (opened : s.engine.isClosed = false) (steady : s.diskFaults = [])
    (makes : s.disk.call (.makeDirectories (Path.ofDirectory path)) = (.ok (), made))
    (serves : made.Serves (Path.ofDirectory path) root)
    (spared : ∀ name, KeeperRequest.removePartition name ∉
      struck (Keeper.create.script (Keeper.new path format batchSize)) s)
    (deeds : List (Deed × Occasion)) (ids : (deeds.map fun deed => deed.2.id).Nodup)
    (fresh : ∀ deed ∈ deeds, ∀ name, Id.parse? name = some deed.2.id →
      ∀ q, made.node? (root ++ name :: q) = none) :
    let created := Keeper.create.runOn ⟨Keeper.new path format batchSize, s⟩
    created.1 = .ok () ∧ created.2.Orderly root made ∧
      Along Standpoint.step (fun deed p =>
        (Standpoint.step deed p).2.Orderly root made ∧
          (deed.2.diskFaults = [] → ∀ attempt ∈ (Standpoint.step deed p).1,
            attempt.succeeded = true → (Standpoint.step deed p).2.Tidied root))
        deeds created.2 := by
  intro created
  obtain ⟨succeeded, directory, tallies⟩ := Keeper.tallies_create
    (k := Keeper.new path format batchSize) (Engine.sound_of_contents unused) opened steady
    ⟨unused, rfl⟩ makes spared
  have tended := ends_tends_create (k := Keeper.new path format batchSize) steady makes
    serves.reaches
  have minding : created.2.Minding (Path.ofDirectory path) root made [] :=
    ⟨directory, tallies, tended⟩
  exact ⟨succeeded, minding.orderly, minding.deeds serves deeds ids fresh⟩

/-- A backup fails and another one succeeds, in a directory with a note and with the directory of a
backup that was left behind. -/
theorem tracks_and_tidies_retry :
    let stale := ["b", "00000000-0000-0000-0000-000000000009"]
    let disk := Disk.empty.set ["b"] .directory |>.set ["b", "note"] (.file [7])
      |>.set stale .directory
    let occasion (n : Nat) (engineFaults : List (Option StorageError)) : Occasion :=
      ⟨⟨n⟩, ⟨0, 0⟩, engineFaults, [], []⟩
    let s : Site := ⟨.empty, disk, default, default, [], [], []⟩
    let created := Keeper.create.runOn ⟨Keeper.new "b" .cbor 1, s⟩
    let before : List (Deed × Occasion) := [(.openPartition "a", occasion 1 []),
      (.put 0 [1] [2], occasion 2 []), (.openPartition "c", occasion 3 [some .closed]), (.snapshot, occasion 4 [some .closed])]
    let deed : Deed × Occasion := (.snapshot, occasion 5 [])
    let p := after Standpoint.step before created.2
    (trace Standpoint.step (before ++ [deed]) created.2).flatten.map Attempt.succeeded =
        [false, true] ∧
      p.keeper.trackedNames = ["a"] ∧ (Standpoint.step deed p).2.Orderly ["b"] disk ∧
      (Standpoint.step deed p).2.Tidied ["b"] := by
  intro stale disk occasion s created before deed p
  have leads : disk.LeadsTo ["b"] ["b"] := by
    show disk.walk [] .directory ["b"] = _
    decide +kernel
  have isName : ∀ name ∈ ["b"], IsName name :=
    List.forall_mem_singleton.2 ⟨by decide, by decide⟩
  have serves : disk.Serves (Path.ofDirectory "b") ["b"] :=
    ⟨reaches_of_names isName leads, by decide +kernel, by decide, by decide +kernel⟩
  have makes := makeDirectories_of_leadsTo serves.reaches.leadsTo serves.sound
  have struck : struck (Keeper.create.script (Keeper.new "b" .cbor 1)) s = [] := by
    decide +kernel
  have free : ∀ next ∈ before ++ [deed], Id.parse? "note" ≠ some next.2.id ∧
      Id.parse? "00000000-0000-0000-0000-000000000009" ≠ some next.2.id := by
    decide +kernel
  have fresh : ∀ next ∈ before ++ [deed], ∀ name, Id.parse? name = some next.2.id →
      ∀ q, disk.node? (["b"] ++ name :: q) = none := by
    intro next mem name parsed q
    have note : ["b", "note"] ≠ "b" :: name :: q := by
      rintro ⟨⟩
      exact (free next mem).1 parsed
    have other : ["b", "00000000-0000-0000-0000-000000000009"] ≠ "b" :: name :: q := by
      rintro ⟨⟩
      exact (free next mem).2 parsed
    rw [List.singleton_append, node?_set, if_neg other, node?_set, if_neg note, node?_set,
      if_neg (by simp)]
    rfl
  obtain ⟨-, -, along⟩ := @tracks_and_tidies "b" .cbor 1 s disk ["b"] rfl rfl rfl makes serves
    (by rw [struck]; exact fun _ => List.not_mem_nil) (before ++ [deed]) (by decide +kernel) fresh
  obtain ⟨orderly, tidied⟩ := ((along_append _).1 along).2.1
  have attempted : ∃ attempt ∈ (Standpoint.step deed p).1, attempt.succeeded = true := by
    decide +kernel
  obtain ⟨attempt, mem, succeeded⟩ := attempted
  exact ⟨by decide +kernel, by decide +kernel, orderly, tidied rfl attempt mem succeeded⟩

end SnapshotStore
