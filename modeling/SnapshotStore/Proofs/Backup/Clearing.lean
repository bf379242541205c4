import SnapshotStore.Proofs.Backup.Stored
import SnapshotStore.Proofs.Backup.Strikes

/-!
Clearing a backup directory away. Where a path leads to a directory whatever that holds, and leaves
room for the names that a keeper uses there (`Disk.Serves`), no manifest stays and no directory that
is named like an identifier (`Site.meets_clear`).
-/

namespace SnapshotStore

namespace Disk

variable {d d' : Disk} {dir : Path} {root : Location} {name : String}

/-! ## Names that fit -/

/-- A name that is short and made of graphic characters. -/
structure IsSlim (name : String) : Prop extends IsName name where
  short : name.toList.length ≤ 45
  graphic : ∀ c ∈ name.toList, Id.IsGraphic c

theorem isSlim_manifest : IsSlim Manifest.fileName :=
  ⟨isName_manifest, by decide, Id.isGraphic_of_all (by decide)⟩

theorem isSlim_temporary : IsSlim Manifest.temporaryName :=
  ⟨isName_temporary, by decide, Id.isGraphic_of_all (by decide)⟩

theorem isSlim_of_parse? {id : Id} (h : Id.parse? name = some id) : IsSlim name :=
  ⟨isName_of_parse? h, (Id.isGraphic_of_parse? h).1, (Id.isGraphic_of_parse? h).2⟩

theorem IsSlim.isTooLong (h : IsSlim name) : isTooLong name = false := by
  have short := h.short
  rw [Disk.isTooLong, nameLimit, Id.utf8ByteSize_of_isGraphic h.graphic, decide_eq_false_iff_not]
  omega

theorem decode?_nameBytes (slim : IsSlim name) : Utf8.decode? (nameBytes name) = some name := by
  rw [nameBytes_of_text fun mem => absurd (slim.graphic _ mem).1 (by decide), Utf8.decode?_encode]

theorem fault?_below (sound : Path.fault? dir = none) (room : dir.size + 46 ≤ Path.limit)
    (slim : IsSlim name) : Path.fault? (dir ++ [name]) = none := by
  have size : Path.size (dir ++ [name]) = dir.size + (1 + name.utf8ByteSize) := by
    simp [Path.size]
  have short := slim.short
  have graphic : '\x00' ∉ name.toList := fun mem => absurd (slim.graphic _ mem).1 (by decide)
  unfold Path.fault? at sound ⊢
  rw [List.any_append, size, Id.utf8ByteSize_of_isGraphic slim.graphic]
  split at sound
  · cases sound
  · rename_i clean
    rw [if_neg, if_neg (by omega)]
    simpa [graphic] using clean

/-- Whether a path leads to the directory at a location whatever that holds, has a step at least, and
leaves room for the names that a keeper uses there. -/
structure Serves (d : Disk) (dir : Path) (root : Location) : Prop where
  reaches : d.Reaches dir root
  sound : Path.fault? dir = none
  named : dir ≠ []
  room : dir.size + 46 ≤ Path.limit

theorem Serves.of_sameOutside (h : d.Serves dir root) (same : SameOutside root d d') :
    d'.Serves dir root :=
  ⟨h.reaches.of_sameOutside same, h.sound, h.named, h.room⟩

/-- What a name in the directory stands for. -/
theorem Serves.find_name (h : d.Serves dir root) (slim : IsSlim name) :
    d.find (dir ++ [name]) =
      match d.node? (root ++ [name]) with
      | none => .error .missing
      | some node => .ok (root ++ [name], node) := by
  rw [find_below h.reaches.leadsTo (fault?_below h.sound h.room slim) (List.cons_ne_nil _ _),
    walk_directory, enter_name slim.toIsName, slim.isTooLong, if_neg Bool.false_ne_true]
  cases d.node? (root ++ [name]) with
  | none => rfl
  | some node => exact walk_nil d _ node

/-! ## Removing names -/

/-- A disk that has lost something below a location at most. -/
structure Lessens (root : Location) (d d' : Disk) : Prop where
  within : Within d' d
  outside : SameOutside root d d'

theorem Lessens.refl (root : Location) (d : Disk) : Lessens root d d := ⟨.refl d, .refl root d⟩

theorem Lessens.trans {d'' : Disk} (h : Lessens root d d') (h' : Lessens root d' d'') :
    Lessens root d d'' :=
  ⟨h'.within.trans h.within, h.outside.trans h'.outside⟩

/-- What did not stand there before does not stand there after. -/
theorem Lessens.ne {place : Location} {node : DiskNode} (h : Lessens root d d')
    (gone : d.node? place ≠ some node) : d'.node? place ≠ some node :=
  fun stands => gone (h.within _ _ stands)

theorem lessens_erase (d : Disk) (root : Location) (name : String) :
    Lessens root d (d.erase (root ++ [name])) := by
  refine ⟨fun q node stands => ?_, (changesOnly_erase d _).sameOutside⟩
  rw [node?_erase] at stands
  split at stands
  · cases stands
  · exact stands

theorem lessens_eraseTree (d : Disk) (root : Location) (name : String) :
    Lessens root d (d.eraseTree (root ++ [name])) :=
  ⟨within_eraseTree d _, (changesOnly_eraseTree d _).sameOutside⟩

/-- Once a file is removed, no file has its name. -/
theorem Serves.removeFile (h : d.Serves dir root) (slim : IsSlim name) :
    Lessens root d (d.call (.removeFile (dir ++ [name]))).2 ∧ ∀ content,
      (d.call (.removeFile (dir ++ [name]))).2.node? (root ++ [name]) ≠ some (.file content) := by
  rw [call, h.find_name slim]
  cases stands : d.node? (root ++ [name]) with
  | none => exact ⟨.refl root d, by simp [stands]⟩
  | some node =>
    cases node with
    | directory => exact ⟨.refl root d, by simp [stands]⟩
    | file content => exact ⟨lessens_erase d root name, by simp [node?_erase]⟩

/-- Once a tree is removed, no directory has its name. -/
theorem Serves.removeTree (h : d.Serves dir root) (slim : IsSlim name) :
    Lessens root d (d.call (.removeTree (dir ++ [name]))).2 ∧
      (d.call (.removeTree (dir ++ [name]))).2.node? (root ++ [name]) ≠ some .directory := by
  rw [call, h.find_name slim]
  cases stands : d.node? (root ++ [name]) with
  | none => exact ⟨.refl root d, by simp [stands]⟩
  | some node =>
    cases node with
    | file content => exact ⟨.refl root d, by simp [stands]⟩
    | directory =>
      simp only [endsUnnamed_name slim.toIsName, Bool.false_eq_true, if_false]
      exact ⟨lessens_eraseTree d root name, by simp [node?_eraseTree]⟩

theorem Serves.list (h : d.Serves dir root) :
    d.call (.list dir) = (.ok (d.listing root), d) := by
  rw [call, find_eq_walk h.sound h.named, h.reaches.leadsTo]

end Disk

namespace Site

open Keeper Disk

variable {k : Keeper} {s s' s'' : Site} {dir : Path}

/-- A site like another one but for its disk, which has lost something below a directory at most
where a path serves that directory. -/
structure Thinner (dir : Path) (s s' : Site) : Prop where
  engine : s'.engine = s.engine
  steady : s'.diskFaults = s.diskFaults
  disk : ∀ {root}, s.disk.Serves dir root → Lessens root s.disk s'.disk

theorem Thinner.refl (dir : Path) (s : Site) : Thinner dir s s := ⟨rfl, rfl, fun _ => .refl _ _⟩

theorem Thinner.serves {root : Location} (h : Thinner dir s s') (serves : s.disk.Serves dir root) :
    s'.disk.Serves dir root :=
  serves.of_sameOutside (h.disk serves).outside

theorem Thinner.trans (h : Thinner dir s s') (h' : Thinner dir s' s'') : Thinner dir s s'' :=
  ⟨h'.engine.trans h.engine, h'.steady.trans h.steady,
    fun serves => (h.disk serves).trans (h'.disk (h.serves serves))⟩

section Requests

variable {α : Type} {E : List KeeperRequest → α → Site → Prop} {name : String}

theorem meets_removeFile (steady : s.diskFaults = []) (slim : IsSlim name)
    {resume : (KeeperRequest.disk (.removeFile (dir ++ [name]))).Reply → Script keeperInterface α}
    (next : ∀ reply s', Thinner dir s s' → (∀ root, s.disk.Serves dir root →
      ∀ content, s'.disk.node? (root ++ [name]) ≠ some (.file content)) →
      Meets E (resume reply) s') :
    Meets E (.ask (.disk (.removeFile (dir ++ [name]))) resume) s := by
  apply meets_disk_of_steady steady
  refine next _ _ ⟨rfl, rfl, fun serves => ?_⟩ fun root serves => ?_
  · exact (serves.removeFile slim).1
  · exact (serves.removeFile slim).2

theorem meets_removeTree (steady : s.diskFaults = []) (slim : IsSlim name)
    {resume : (KeeperRequest.disk (.removeTree (dir ++ [name]))).Reply → Script keeperInterface α}
    (next : ∀ reply s', Thinner dir s s' → (∀ root, s.disk.Serves dir root →
      s'.disk.node? (root ++ [name]) ≠ some .directory) → Meets E (resume reply) s') :
    Meets E (.ask (.disk (.removeTree (dir ++ [name]))) resume) s := by
  apply meets_disk_of_steady steady
  refine next _ _ ⟨rfl, rfl, fun serves => ?_⟩ fun root serves => ?_
  · exact (serves.removeTree slim).1
  · exact (serves.removeTree slim).2

end Requests

/-- Whether no directory of a list of names that spell identifiers is left, but for one identifier
that is kept. -/
def Swept (root : Location) (keep : Option Id) (names : List String) (d : Disk) : Prop :=
  ∀ name ∈ names, ∀ id, Id.parse? name = some id → some id ≠ keep →
    d.node? (root ++ [name]) ≠ some .directory

theorem meets_removeStale (steady : s.diskFaults = []) (keep : Option Id) (names : List String) :
    Meets (fun _ r s' => r = (.ok (), k) ∧ Thinner k.directory s s' ∧
        ∀ root, s.disk.Serves k.directory root → Swept root keep names s'.disk)
      ((removeStale keep names).script k) s := by
  induction names generalizing s with
  | nil => exact meets_done ⟨rfl, .refl _ s, nofun⟩
  | cons name names ih =>
    rw [removeStale]
    -- A name that is left in place is one that there is nothing to say about.
    have left : (∀ id, Id.parse? name = some id → some id = keep) →
        Meets (fun _ r s' => r = (.ok (), k) ∧ Thinner k.directory s s' ∧
          ∀ root, s.disk.Serves k.directory root → Swept root keep (name :: names) s'.disk)
          ((removeStale keep names).script k) s := by
      intro kept
      refine (ih steady).mono ?_
      rintro _ r s' ⟨ended, thinner, swept⟩
      refine ⟨ended, thinner, fun root serves => List.forall_mem_cons.2 ⟨?_, swept root serves⟩⟩
      exact fun id spells stale => absurd (kept id spells) stale
    cases parsed : Id.parse? name with
    | none => exact left (by rw [parsed]; exact nofun)
    | some id =>
      by_cases kept : some id = keep
      · simp only [ne_eq, kept, not_true_eq_false, if_false]
        exact left (by rw [parsed]; rintro _ ⟨⟩; exact kept)
      · simp only [ne_eq, kept, not_false_eq_true, if_true]
        rw [Activity.script_get_bind, Activity.script_ask_bind]
        apply meets_removeTree steady (isSlim_of_parse? parsed)
        intro _ s₁ first gone
        refine (ih (first.steady.trans steady)).mono ?_
        rintro _ r s' ⟨ended, thinner, swept⟩
        refine ⟨ended, first.trans thinner, fun root serves => List.forall_mem_cons.2 ⟨?_, ?_⟩⟩
        · exact fun _ _ _ => (thinner.disk (first.serves serves)).ne (gone root serves)
        · exact swept root (first.serves serves)

/-- No directory that is named like an identifier is left, but for the one that is kept. -/
theorem meets_clearStale (steady : s.diskFaults = []) (keep : Option Id) :
    Meets (fun _ r s' => r = (.ok (), k) ∧ Thinner k.directory s s' ∧
        ∀ root, s.disk.Serves k.directory root → ∀ name, Swept root keep [name] s'.disk)
      ((clearStale keep).script k) s := by
  rw [clearStale, Activity.script_get_bind, Activity.script_ask_bind]
  apply meets_disk_of_steady steady
  rw [disk_of_list]
  cases listing : (s.disk.call (.list k.directory)).1 with
  | error fault =>
    refine meets_done ⟨rfl, .refl _ s, fun root serves => ?_⟩
    rw [serves.list] at listing
    cases listing
  | ok names =>
    refine (meets_removeStale steady keep _).mono ?_
    rintro _ r s' ⟨ended, thinner, swept⟩
    refine ⟨ended, thinner, fun root serves name => List.forall_mem_singleton.2 ?_⟩
    intro id spells stale stands
    rw [serves.list] at listing
    cases listing
    have before := mem_listing_iff.2 ⟨name, (thinner.disk serves).within _ _ stands, rfl⟩
    have listed : name ∈ (s.disk.listing root).filterMap fun entry => Utf8.decode? entry.1 :=
      List.mem_filterMap.2 ⟨_, before, decode?_nameBytes (isSlim_of_parse? spells)⟩
    exact swept root serves name listed id spells stale stands

/-- What is left of backups in a directory: neither a manifest, nor one that did not get to its
place, nor a directory that is named like an identifier. -/
structure Bare (root : Location) (d : Disk) : Prop where
  manifest : ∀ content, d.node? (root ++ [Manifest.fileName]) ≠ some (.file content)
  temporary : ∀ content, d.node? (root ++ [Manifest.temporaryName]) ≠ some (.file content)
  backups : ∀ name id, Id.parse? name = some id → d.node? (root ++ [name]) ≠ some .directory

/-- All backups are cleared away. -/
theorem meets_clear (steady : s.diskFaults = []) :
    Meets (fun _ r s' => r = (.ok (), k) ∧ Thinner k.directory s s' ∧
        ∀ root, s.disk.Serves k.directory root → Bare root s'.disk)
      (Activity.script (do
        let k ← get
        let _ ← Activity.ask (.disk (.removeFile (Place.manifest k.directory)))
        let _ ← Activity.ask (.disk (.removeFile (Place.temporary k.directory)))
        clearStale none) k) s := by
  rw [Activity.script_get_bind, Activity.script_ask_bind]
  apply meets_removeFile steady isSlim_manifest
  intro _ s₁ first manifest
  rw [Activity.script_ask_bind]
  apply meets_removeFile (first.steady.trans steady) isSlim_temporary
  intro _ s₂ second temporary
  have both := first.trans second
  refine (meets_clearStale (both.steady.trans steady) none).mono ?_
  rintro _ r s' ⟨ended, thinner, swept⟩
  refine ⟨ended, both.trans thinner, fun root serves => ⟨fun content => ?_, fun content => ?_, ?_⟩⟩
  · have rest := second.trans thinner
    exact (rest.disk (first.serves serves)).ne (manifest root serves content)
  · exact (thinner.disk (both.serves serves)).ne (temporary root (first.serves serves) content)
  · exact fun name id parsed =>
      swept root (both.serves serves) name name (List.mem_singleton_self name) id parsed nofun

end Site

end SnapshotStore
