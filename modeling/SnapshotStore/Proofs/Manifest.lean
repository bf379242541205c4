import SnapshotStore.Manifest
import SnapshotStore.Proofs.Id
import SnapshotStore.Proofs.Json.Indented
import SnapshotStore.Proofs.Time.Stamp

/-!
Manifests read back: a manifest whose times can be written is read from its own bytes
(`Manifest.read_write`), and no bytes are read as any other (`Manifest.isShown_of_read`).
-/

namespace SnapshotStore

open Spelling

/-- Elements that are related to something each are related as a list. -/
theorem exists_forall₂ {α β : Type} {R : α → β → Prop} {l : List α} (h : ∀ a ∈ l, ∃ b, R a b) :
    ∃ l', List.Forall₂ R l l' := by
  induction l with
  | nil => exact ⟨[], .nil⟩
  | cons a l ih =>
    obtain ⟨b, hb⟩ := h a (List.mem_cons_self ..)
    obtain ⟨l', hl⟩ := ih fun a ha => h a (List.mem_cons_of_mem _ ha)
    exact ⟨b :: l', .cons hb hl⟩

namespace BackupRecord

/-- The spelling of a list of names. -/
def storesSpelling (stores : List String) : Spelling :=
  .array (stores.map fun name => .string (pieces name))

theorem readsAt_stores (level : Nat) (stores : List String) :
    ReadsAt level (.array (stores.map .string)) (storesSpelling stores) := by
  apply readsAt_array
  rw [List.forall₂_map_left_iff, List.forall₂_map_right_iff, List.forall₂_same]
  intro name _
  exact readsAt_string (level + 1) name

theorem readStores?_spelling (stores : List String) :
    readStores? (storesSpelling stores) = some stores := by
  induction stores with
  | nil => rfl
  | cons name stores ih =>
    rw [storesSpelling, readStores?, List.map_cons, List.mapM_cons, text?, piecesText?_pieces]
    rw [storesSpelling, readStores?] at ih
    rw [ih]
    rfl

/-- A record is read back wherever its text stands. -/
theorem exists_spelling (record : BackupRecord) (h : record.completed.IsShown) (level : Nat) :
    ∃ s, ReadsAt level record.toJson s ∧ read? s = some record := by
  refine ⟨.object [(pieces "Id", .string (pieces record.id.render)),
    (pieces "SerializationFormat", .string (pieces record.format.name)),
    (pieces "TimestampUtc", .string (pieces record.completed.render)),
    (pieces "Stores", storesSpelling record.stores)], ?_, ?_⟩
  · refine readsAt_object (.cons ⟨rfl, readsAt_string _ _⟩ (.cons ⟨rfl, readsAt_string _ _⟩
      (.cons ⟨rfl, readsAt_string _ _⟩ (.cons ⟨rfl, readsAt_stores _ _⟩ .nil))))
  · simp [read?, fields?, named?, only?, text?, alternative?, readStores?_spelling,
      Stamp.parse?_render h]

theorem isShown_of_read? {s : Spelling} {record : BackupRecord} (h : read? s = some record) :
    record.completed.IsShown := by
  unfold read? at h
  obtain ⟨fields, -, h⟩ := Option.bind_eq_some_iff.1 h
  split at h
  · obtain ⟨id, -, h⟩ := Option.bind_eq_some_iff.1 h
    obtain ⟨format, -, h⟩ := Option.bind_eq_some_iff.1 h
    obtain ⟨completed, spelled, h⟩ := Option.bind_eq_some_iff.1 h
    obtain ⟨stores, -, h⟩ := Option.bind_eq_some_iff.1 h
    obtain ⟨text, -, parsed⟩ := Option.bind_eq_some_iff.1 spelled
    cases h
    exact Stamp.isShown_of_parse? parsed
  · cases h

end BackupRecord

namespace Manifest

/-- A manifest is read back from its bytes. -/
theorem read_write {manifest : Manifest} (h : ∀ record ∈ manifest.backups, record.completed.IsShown) :
    read manifest.write = .ok manifest := by
  obtain ⟨backups⟩ := manifest
  obtain ⟨items, spelled⟩ := exists_forall₂ fun record hr =>
    BackupRecord.exists_spelling record (h record hr) 2
  have reads : ReadsAt 1 (.array (backups.map BackupRecord.toJson)) (.array items) := by
    apply readsAt_array
    rw [List.forall₂_map_left_iff]
    exact spelled.imp fun _ _ => And.left
  have records : items.mapM BackupRecord.read? = some backups := by
    clear h reads
    simp only at spelled
    induction spelled with
    | nil => rfl
    | cons first _ ih =>
      rw [List.mapM_cons, first.2, ih]
      rfl
  have whole : ReadsAt 0 (toJson ⟨backups⟩) (.object [(pieces "Backups", .array items)]) :=
    readsAt_object (.cons ⟨rfl, reads⟩ .nil)
  rw [read, write, read?_renderIndented whole]
  simp [read?, fields?, named?, only?, readBackups?, records]

theorem isShown_of_mapM {items : List Spelling} {backups : List BackupRecord}
    (h : items.mapM BackupRecord.read? = some backups) :
    ∀ record ∈ backups, record.completed.IsShown := by
  induction items generalizing backups with
  | nil =>
    cases h
    exact List.forall_mem_nil _
  | cons item items ih =>
    rw [List.mapM_cons] at h
    obtain ⟨record, first, h⟩ := Option.bind_eq_some_iff.1 h
    obtain ⟨others, rest, h⟩ := Option.bind_eq_some_iff.1 h
    cases h
    exact List.forall_mem_cons.2 ⟨BackupRecord.isShown_of_read? first, ih rest⟩

theorem isShown_of_read? {s : Spelling} {manifest : Manifest} (h : read? s = some manifest) :
    ∀ record ∈ manifest.backups, record.completed.IsShown := by
  unfold read? at h
  obtain ⟨fields, -, h⟩ := Option.bind_eq_some_iff.1 h
  split at h
  · obtain ⟨backups, records, rfl⟩ := Option.map_eq_some_iff.1 h
    unfold readBackups? at records
    split at records
    · exact isShown_of_mapM records
    · cases records
  · cases h

/-- A manifest that is read holds no time but those that can be written. -/
theorem isShown_of_read {content : Bytes} {manifest : Manifest}
    (h : read content = .ok manifest) : ∀ record ∈ manifest.backups, record.completed.IsShown := by
  unfold read at h
  split at h
  · rename_i spelled
    cases h
    obtain ⟨s, -, spelled⟩ := Option.bind_eq_some_iff.1 spelled
    exact isShown_of_read? spelled
  · cases h

theorem isShown_of_ofFile {file : Except DiskFault Bytes} {manifest : Manifest}
    (h : ofFile file = .ok (some manifest)) :
    ∀ record ∈ manifest.backups, record.completed.IsShown := by
  unfold ofFile at h
  split at h
  · rename_i content
    cases reads : read content with
    | ok other =>
      rw [reads] at h
      cases h
      exact isShown_of_read reads
    | error e =>
      rw [reads] at h
      cases h
  · cases h
  · cases h

end Manifest

end SnapshotStore
