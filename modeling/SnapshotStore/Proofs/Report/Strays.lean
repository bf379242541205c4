import SnapshotStore.Proofs.Report.Verify
import SnapshotStore.Proofs.Snapshot.Escapes

/-!
What the check of a backup names beside the snapshots that the manifest lists. The other directories
are those that stand in the backup path. A file that ends like a snapshot is named by the entity
that its name spells, or by itself if it spells none (`ReportedAs`), and it is named exactly if that
is no entity of the manifest; so a stray file may be overlooked (`IsOverlooked`), and no other file
is named. A name that is no text is taken as it is shown, with U+FFFD for what is none. Main
statement: `names_strays`.
-/

namespace SnapshotStore

open Disk

namespace Report

/-- The text as which a name in a directory is shown. -/
def shown (name : String) : String := Utf8.decodeLossy (nameBytes name)

/-- Whether a file ends like a snapshot, and it is not that of a listed entity. -/
structure IsStray (stores : List String) (file : String) : Prop where
  ends : Utf8.encode FileName.suffix <:+ nameBytes file
  unlisted : ∀ entity ∈ stores, nameBytes file ≠ Utf8.encode (FileName.snapshot entity)

/-- What a check names for a file that ends like a snapshot. -/
inductive ReportedAs (file : String) : String → Prop
  /-- The entity whose name is spelled before the ending. -/
  | entity {stem entity : String} : shown file = stem ++ FileName.suffix →
      FileName.Spells FileName.AreTakenFor stem.toList (Utf8.encode entity) →
        ReportedAs file entity
  /-- The file itself, where nothing is spelled. -/
  | file {stem : String} : shown file = stem ++ FileName.suffix →
      (∀ entity, ¬FileName.Spells FileName.AreTakenFor stem.toList (Utf8.encode entity)) →
        ReportedAs file (shown file)

/-- Whether a file is taken for the snapshot of a listed entity: its name spells that of the entity,
or it spells none and is itself what an entity is called. -/
def IsOverlooked (stores : List String) (file : String) : Prop :=
  ∃ entity ∈ stores, ReportedAs file entity

variable {d : Disk} {path : String} {record : BackupRecord} {stores : List String}
  {file stem name name' : String} {root : Location}

/-! ## Names of files -/

theorem stem?_suffix (stem : String) : FileName.stem? (stem ++ FileName.suffix) = some stem := by
  have chars : (stem ++ FileName.suffix).toList = stem.toList ++ FileName.suffix.toList :=
    String.toList_append
  have length : FileName.suffix.length = FileName.suffix.toList.length := rfl
  rw [FileName.stem?, chars, if_pos (by simp), length, List.length_append, Nat.add_sub_cancel,
    List.take_left' rfl, String.ofList_toList]

theorem stem?_eq_some_iff : FileName.stem? file = some stem ↔ file = stem ++ FileName.suffix := by
  constructor
  · intro h
    by_cases ends : FileName.suffix.toList <:+ file.toList
    · obtain ⟨chars, eq⟩ := ends
      obtain rfl : String.ofList chars ++ FileName.suffix = file :=
        String.toList_inj.1 (by rw [String.toList_append, String.toList_ofList, eq])
      rw [stem?_suffix] at h
      rw [Option.some.inj h]
    · rw [FileName.stem?, if_neg (by rwa [List.isSuffixOf_iff_suffix])] at h
      cases h
  · rintro rfl
    exact stem?_suffix stem

/-- A file ends like a snapshot exactly if it is shown to. -/
theorem shown_ends_iff :
    (∃ stem, shown file = stem ++ FileName.suffix) ↔
      Utf8.encode FileName.suffix <:+ nameBytes file :=
  Utf8.exists_decodeLossy_eq_iff (by rfl) (by decide) (by decide)

theorem shown_of_text (eq : nameBytes file = Utf8.encode name) : shown file = name := by
  rw [shown, eq, Utf8.decodeLossy_encode]

/-- The name that a check gives a file. -/
theorem entityOf?_eq_some_iff :
    Verification.entityOf? (shown file) = some name ↔ ReportedAs file name := by
  rw [Verification.entityOf?, Option.map_eq_some_iff]
  constructor
  · rintro ⟨stem, ends, named⟩
    rw [stem?_eq_some_iff] at ends
    cases decoded : FileName.decode stem with
    | ok entity =>
      rw [decoded] at named
      subst named
      exact .entity ends (FileName.decode_eq_ok_iff.1 decoded)
    | error fault =>
      rw [decoded] at named
      subst named
      refine .file ends fun entity spells => ?_
      rw [FileName.decode_eq_ok_iff.2 spells] at decoded
      cases decoded
  · rintro (⟨ends, spells⟩ | ⟨ends, none⟩)
    · exact ⟨_, stem?_eq_some_iff.2 ends, by rw [FileName.decode_eq_ok_iff.2 spells]⟩
    · refine ⟨_, stem?_eq_some_iff.2 ends, ?_⟩
      split
      · rename_i entity decoded
        exact absurd (FileName.decode_eq_ok_iff.1 decoded) (none entity)
      · rfl

theorem ReportedAs.unique (h : ReportedAs file name) (h' : ReportedAs file name') : name = name' :=
  Option.some.inj ((entityOf?_eq_some_iff.2 h).symm.trans (entityOf?_eq_some_iff.2 h'))

theorem exists_reportedAs (ends : shown file = stem ++ FileName.suffix) :
    ∃ name, ReportedAs file name := by
  by_cases spells :
      ∃ entity, FileName.Spells FileName.AreTakenFor stem.toList (Utf8.encode entity)
  · exact ⟨_, .entity ends spells.choose_spec⟩
  · exact ⟨_, .file ends fun entity h => spells ⟨entity, h⟩⟩

/-- The snapshot of an entity is named by the entity. -/
theorem reportedAs_of_snapshot {entity : String}
    (eq : nameBytes file = Utf8.encode (FileName.snapshot entity)) : ReportedAs file entity :=
  .entity (shown_of_text eq) (FileName.decode_eq_ok_iff.1 (FileName.decode_encode entity))

/-- A file is named with something that is not listed exactly if it is a stray that is not
overlooked. -/
theorem isStray_iff :
    (∃ name, ReportedAs file name ∧ name ∉ stores) ↔
      IsStray stores file ∧ ¬IsOverlooked stores file := by
  constructor
  · rintro ⟨name, reported, unlisted⟩
    refine ⟨⟨?_, ?_⟩, ?_⟩
    · cases reported with
      | entity ends _ | file ends _ => exact shown_ends_iff.1 ⟨_, ends⟩
    · intro entity listed eq
      exact unlisted (reported.unique (reportedAs_of_snapshot eq) ▸ listed)
    · rintro ⟨other, listed, reported'⟩
      exact unlisted (reported.unique reported' ▸ listed)
  · rintro ⟨stray, seen⟩
    obtain ⟨stem, ends⟩ := shown_ends_iff.2 stray.ends
    obtain ⟨name, reported⟩ := exists_reportedAs ends
    exact ⟨name, reported, fun listed => seen ⟨name, listed, reported⟩⟩

/-! ## What is reported -/

theorem ascending_perm (texts : List String) : (Verification.ascending texts).Perm texts :=
  List.mergeSort_perm _ _

theorem pairwise_ascending (texts : List String) :
    (Verification.ascending texts).Pairwise (· ≤ ·) := by
  refine (List.pairwise_mergeSort ?_ ?_ texts).imp of_decide_eq_true
  · intro a b c ab bc
    exact decide_eq_true (Std.le_trans (of_decide_eq_true ab) (of_decide_eq_true bc))
  · intro a b
    simpa using Std.le_total (a := a) (b := b)

/-- What is picked from a list is matched, one by one, with what it is picked for. -/
theorem forall₂_filterMap {α β : Type} (f : α → Option β) (as : List α) :
    List.Forall₂ (fun a b => f a = some b) (as.filter fun a => (f a).isSome) (as.filterMap f) := by
  induction as with
  | nil => exact .nil
  | cons a as ih =>
    cases picked : f a with
    | none => simpa [picked] using ih
    | some b => simpa [picked] using ih

theorem shown_eq_render_iff {id : Id} :
    shown name = id.render ↔ nameBytes name = Utf8.encode id.render := by
  refine Utf8.decodeLossy_eq_iff fun mem => ?_
  exact absurd ((Id.isGraphic_of_parse? (Id.parse?_render id)).2 _ mem) (by decide)

/-- The directories in a listing are named as they are shown, but for that of the backup. -/
theorem orphansAmong_eq (d : Disk) (root : Location) (id : Id) :
    Verification.orphansAmong id (d.listing root) = Verification.ascending
      (((d.children root).filter fun entry =>
        entry.2 = .directory ∧ nameBytes entry.1 ≠ Utf8.encode id.render).map fun entry =>
          shown entry.1) := by
  refine congrArg Verification.ascending ?_
  unfold Disk.listing
  induction d.children root with
  | nil => rfl
  | cons entry nodes ih =>
    obtain ⟨name, _ | _⟩ := entry
    · simpa using ih
    · have taken : Utf8.decodeLossy (nameBytes name) = id.render ↔
          nameBytes name = Utf8.encode id.render := shown_eq_render_iff
      by_cases same : nameBytes name = Utf8.encode id.render
      · simpa [same] using ih
      · simpa [same, taken, shown] using ih

theorem orphansAmong_perm (d : Disk) (root : Location) (id : Id) :
    ∃ directories : List String, directories.Nodup ∧
      (∀ name, name ∈ directories ↔
        d.node? (root ++ [name]) = some .directory ∧ nameBytes name ≠ Utf8.encode id.render) ∧
      (Verification.orphansAmong id (d.listing root)).Perm (directories.map shown) := by
  refine ⟨((d.children root).filter fun entry =>
    entry.2 = .directory ∧ nameBytes entry.1 ≠ Utf8.encode id.render).map Prod.fst, ?_,
    fun name => ?_, ?_⟩
  · exact (nodup_names_children d root).sublist (List.filter_sublist.map _)
  · rw [← mem_children_iff]
    simp only [List.mem_map, List.mem_filter, decide_eq_true_eq]
    constructor
    · rintro ⟨⟨name, node⟩, ⟨mem, rfl, apart⟩, rfl⟩
      exact ⟨mem, apart⟩
    · rintro ⟨mem, apart⟩
      exact ⟨(name, .directory), ⟨mem, rfl, apart⟩, rfl⟩
  · rw [orphansAmong_eq, List.map_map]
    exact ascending_perm _

/-- The names that are given to files are those of strays that are not overlooked, one for each. -/
theorem unlistedAmong_perm (d : Disk) (place : Location) (stores : List String) :
    ∃ strays reported : List String, strays.Nodup ∧
      (∀ file, file ∈ strays ↔
        d.node? (place ++ [file]) ≠ none ∧ IsStray stores file ∧ ¬IsOverlooked stores file) ∧
      List.Forall₂ ReportedAs strays reported ∧
      (Verification.unlistedAmong stores (d.listing place)).Perm reported := by
  let reportable (file : String) : Option String :=
    (Verification.entityOf? (shown file)).filter fun name => !stores.contains name
  have picked {file name : String} :
      reportable file = some name ↔ ReportedAs file name ∧ name ∉ stores := by
    simp [reportable, Option.filter_eq_some_iff, entityOf?_eq_some_iff]
  let files := (d.children place).map Prod.fst
  refine ⟨files.filter fun file => (reportable file).isSome, files.filterMap reportable,
    (nodup_names_children d place).filter _, fun file => ?_, ?_, ?_⟩
  · rw [List.mem_filter, mem_names_children_iff, Option.isSome_iff_exists]
    simp only [picked, isStray_iff]
  · exact (forall₂_filterMap reportable files).imp fun _ _ named => (picked.1 named).1
  · refine (ascending_perm _).trans (.of_eq ?_)
    rw [Disk.listing, List.filter_filterMap, List.filterMap_map, List.filterMap_map]
    rfl

/-- The check of a backup that is there names the directories beside it and the stray files in it.
The directories are exactly those that stand in the backup path, each of them once, in ascending
order as they are shown. Of the files, exactly the strays that are not overlooked are named, each of
them once, also where two have one name; no snapshot of a listed entity is a stray. A stray is
overlooked only if its name spells that of a listed entity in another way than the writer does, or
if it spells none and the file's own name is that of a listed entity. -/
theorem names_strays {place : Location} (named : path ≠ "")
    (current : currentBackup d path = .ok record)
    (there : d.find (Place.backup (Path.ofDirectory path) record.id) = .ok (place, .directory)) :
    ∃ v root, Verification.collect d path = .ok v ∧
      d.find (Path.ofDirectory path) = .ok (root, .directory) ∧
      (v.orphans.Pairwise (· ≤ ·) ∧ ∃ directories : List String, directories.Nodup ∧
        (∀ name, name ∈ directories ↔ d.node? (root ++ [name]) = some .directory ∧
          nameBytes name ≠ Utf8.encode record.id.render) ∧
        v.orphans.Perm (directories.map shown)) ∧
      v.unlisted.Pairwise (· ≤ ·) ∧
      ∃ strays reported : List String, strays.Nodup ∧
        (∀ file, file ∈ strays ↔ d.node? (place ++ [file]) ≠ none ∧
          IsStray record.stores file ∧ ¬IsOverlooked record.stores file) ∧
        List.Forall₂ ReportedAs strays reported ∧ v.unlisted.Perm reported := by
  obtain ⟨manifest, read, -⟩ := manifest_of_currentBackup current
  obtain ⟨root, found⟩ := find_of_manifest named read
  refine ⟨_, root, collect_eq current (list_of_find found) (list_of_find there), found,
    ⟨pairwise_ascending _, orphansAmong_perm d root record.id⟩, pairwise_ascending _,
    unlistedAmong_perm d place record.stores⟩

/-- Beside the listed snapshots of `a` and `q r`, two files that spell `A`, one that spells nothing,
one whose name is no text, one that is no snapshot, and one that spells `a` in another way. -/
theorem names_strays_twice :
    let manifest := Utf8.encode ("\x7b\"Backups\":[\x7b\"Id\":\"00000000-0000-0000-0000-000000000005\"," ++
      "\"SerializationFormat\":\"Cbor\",\"TimestampUtc\":\"1970-01-01T00:00:00Z\"," ++
      "\"Stores\":[\"a\",\"q r\"]\x7d]\x7d")
    let backup := ["b", "00000000-0000-0000-0000-000000000005"]
    let disk := ["\x00\xff.bin", "%41.bin", "%61.bin", "%zz.bin", "A.bin", "a.bin", "notes",
        "q%20r.bin"].foldl (fun disk file => disk.set (backup ++ [file]) (.file [0x80]))
      (Disk.empty.set ["b"] .directory |>.set ["b", "meta.json"] (.file manifest)
        |>.set backup .directory |>.set ["b", "old"] .directory |>.set ["b", "\x00\xff"] .directory)
    ∃ v, Verification.collect disk "b" = .ok v ∧ v.orphans.Pairwise (· ≤ ·) ∧
      "old" ∈ v.orphans ∧ "\ufffd" ∈ v.orphans ∧
      "00000000-0000-0000-0000-000000000005" ∉ v.orphans ∧
      ∃ strays reported : List String, strays.Nodup ∧ List.Forall₂ ReportedAs strays reported ∧
        v.unlisted.Perm reported ∧ "%41.bin" ∈ strays ∧ "A.bin" ∈ strays ∧ "%zz.bin" ∈ strays ∧
        "\x00\xff.bin" ∈ strays ∧ "%61.bin" ∉ strays ∧ "a.bin" ∉ strays ∧ "notes" ∉ strays := by
  intro manifest backup disk
  let record : BackupRecord := ⟨⟨5⟩, .cbor, ⟨0, 0⟩, ["a", "q r"]⟩
  have current : currentBackup disk "b" = .ok record := by decide +kernel
  have there : disk.find (Place.backup (Path.ofDirectory "b") record.id) =
      .ok (backup, .directory) := by decide +kernel
  have outer : disk.find (Path.ofDirectory "b") = .ok (["b"], .directory) := by decide +kernel
  have others : ∀ name ∈ ["old", "\x00\xff"], disk.node? (["b"] ++ [name]) = some .directory ∧
      nameBytes name ≠ Utf8.encode record.id.render := by
    decide +kernel
  have stands : ∀ file ∈ ["%41.bin", "A.bin", "%zz.bin", "\x00\xff.bin"],
      disk.node? (backup ++ [file]) ≠ none ∧
        ∃ name, Verification.entityOf? (shown file) = some name ∧ name ∉ record.stores := by
    simp only [List.forall_mem_cons]
    refine ⟨⟨by decide +kernel, "A", by decide +kernel, by decide +kernel⟩,
      ⟨by decide +kernel, "A", by decide +kernel, by decide +kernel⟩,
      ⟨by decide +kernel, "%zz.bin", by decide +kernel, by decide +kernel⟩,
      ⟨by decide +kernel, "\ufffd", by decide +kernel, by decide +kernel⟩, nofun⟩
  clear_value disk
  obtain ⟨v, root, collected, found, ⟨ascending, directories, -, mem', perm'⟩, -, strays, reported,
    distinct, mem, named, perm⟩ := names_strays (by decide) current there
  obtain rfl : ["b"] = root := congrArg Prod.fst (Except.ok.inj (outer.symm.trans found))
  have orphan {name text : String} (listed : name ∈ ["old", "\x00\xff"])
      (same : shown name = text) : text ∈ v.orphans :=
    same ▸ perm'.mem_iff.2 (List.mem_map_of_mem ((mem' name).2 (others name listed)))
  have own : "00000000-0000-0000-0000-000000000005" ∉ v.orphans := by
    have rendered : record.id.render = "00000000-0000-0000-0000-000000000005" := by decide +kernel
    rw [← rendered]
    intro reported
    obtain ⟨name, listed, same⟩ := List.mem_map.1 (perm'.mem_iff.1 reported)
    exact ((mem' name).1 listed).2 (shown_eq_render_iff.1 same)
  have seen : ∀ file ∈ ["%41.bin", "A.bin", "%zz.bin", "\x00\xff.bin"], file ∈ strays := by
    intro file listed
    obtain ⟨there, name, spelled, unlisted⟩ := stands file listed
    exact (mem file).2 ⟨there, isStray_iff.1 ⟨name, entityOf?_eq_some_iff.1 spelled, unlisted⟩⟩
  have unseen : ∀ {file name}, Verification.entityOf? (shown file) = some name →
      name ∈ record.stores → file ∉ strays := by
    intro file name spelled listed stray
    exact ((mem file).1 stray).2.2 ⟨name, listed, entityOf?_eq_some_iff.1 spelled⟩
  refine ⟨v, collected, ascending, orphan (.head _) (by decide +kernel),
    orphan (.tail _ (.head _)) (by decide +kernel), own, strays, reported, distinct, named, perm,
    seen _ (by decide), seen _ (by decide), seen _ (by decide), seen _ (by decide), ?_, ?_, ?_⟩
  · exact @unseen _ "a" (by decide +kernel) (by decide)
  · exact @unseen _ "a" (by decide +kernel) (by decide)
  · intro stray
    have ends := ((mem "notes").1 stray).2.1.ends
    revert ends
    decide +kernel

/-- A file that spells the name of a listed entity with an escape more than the snapshot of that, and a
file that spells nothing and is called like a listed entity, are strays, and neither is named. -/
theorem strays_overlooked :
    let manifest := Utf8.encode ("\x7b\"Backups\":[\x7b\"Id\":\"00000000-0000-0000-0000-000000000005\"," ++
      "\"SerializationFormat\":\"Cbor\",\"TimestampUtc\":\"1970-01-01T00:00:00Z\"," ++
      "\"Stores\":[\"a\",\"%zz.bin\"]\x7d]\x7d")
    let backup := ["b", "00000000-0000-0000-0000-000000000005"]
    let disk := ["%25zz.bin.bin", "%61.bin", "%zz.bin", "a.bin"].foldl
      (fun disk file => disk.set (backup ++ [file]) (.file [0x80]))
      (Disk.empty.set ["b"] .directory |>.set ["b", "meta.json"] (.file manifest)
        |>.set backup .directory)
    currentBackup disk "b" = .ok ⟨⟨5⟩, .cbor, ⟨0, 0⟩, ["a", "%zz.bin"]⟩ ∧
      disk.find (Place.backup (Path.ofDirectory "b") ⟨5⟩) = .ok (backup, .directory) ∧
      (∀ file ∈ ["%61.bin", "%zz.bin"],
        disk.node? (backup ++ [file]) = some (.file [0x80]) ∧ IsStray ["a", "%zz.bin"] file) ∧
      ∃ v, Verification.collect disk "b" = .ok v ∧ v.unlisted = [] := by
  intro manifest backup disk
  refine ⟨by decide +kernel, by decide +kernel, ?_, ?_⟩
  · simp only [List.forall_mem_cons]
    exact ⟨⟨by decide +kernel, by decide +kernel, by decide +kernel⟩,
      ⟨by decide +kernel, by decide +kernel, by decide +kernel⟩, nofun⟩
  · have found : (Verification.collect disk "b").toOption.map Verification.unlisted = some [] := by
      decide +kernel
    cases collected : Verification.collect disk "b" with
    | error fault =>
      rw [collected] at found
      cases found
    | ok v =>
      rw [collected] at found
      exact ⟨v, rfl, Option.some.inj found⟩

end Report

end SnapshotStore
