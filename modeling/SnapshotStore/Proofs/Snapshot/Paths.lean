import SnapshotStore.Proofs.Backup.Stored

/-!
Paths of snapshot files. A name without a separator, joined to a directory, is one more step of the
path of this directory (`ofText_join`), and the characters of a snapshot's name are safe. Main
statement: different entities have different files, each directly in the directory that it is meant
for (`own_file`).
-/

namespace SnapshotStore

namespace Path

/-! ## Steps -/

theorem pieces_ne_nil (s : List Char) : pieces s ≠ [] := by
  cases s with
  | nil => simp [pieces]
  | cons c s =>
    unfold pieces
    split
    · simp
    · split <;> simp

/-- A separator divides the pieces before it from those behind it. -/
theorem pieces_append (s t : List Char) : pieces (s ++ '/' :: t) = pieces s ++ pieces t := by
  induction s with
  | nil => simp [pieces]
  | cons c s ih =>
    rw [List.cons_append, pieces, pieces, ih]
    by_cases separator : c = '/'
    · simp [separator]
    · cases h : pieces s with
      | nil => exact absurd h (pieces_ne_nil s)
      | cons piece rest => simp [separator]

theorem pieces_of_not_mem {s : List Char} (h : '/' ∉ s) : pieces s = [s] := by
  induction s with
  | nil => rfl
  | cons c s ih =>
    simp only [List.mem_cons, not_or] at h
    simp [pieces, ih h.2, Ne.symm h.1]

/-- The last piece is empty only behind a separator. -/
theorem getLast?_pieces {s : List Char} (h : s ≠ []) (last : s.getLast? ≠ some '/') :
    (pieces s).getLast? ≠ some [] := by
  induction s with
  | nil => exact absurd rfl h
  | cons c s ih =>
    by_cases more : s = []
    · subst more
      have : c ≠ '/' := by simpa using last
      simp [pieces, this]
    · have later := ih more (by rwa [List.getLast?_cons_of_ne_nil more] at last)
      rw [pieces]
      cases hs : pieces s with
      | nil => exact absurd hs (pieces_ne_nil s)
      | cons piece rest =>
        rw [hs] at later
        by_cases separator : c = '/'
        · simpa [separator] using later
        · cases rest with
          | nil => simp [separator]
          | cons second rest => simpa [separator] using later

theorem ofText_eq {text : String} (named : text ≠ "") :
    ofText text = (pieces text.toList).map String.ofList :=
  if_neg named

/-! ## Joining a name to a directory -/

section Join

variable {dir name : String}

theorem ofText_of_not_mem (named : name ≠ "") (plain : '/' ∉ name.toList) :
    ofText name = [name] := by
  rw [ofText_eq named, pieces_of_not_mem plain]
  simp

/-- A separator at the end of a directory begins no step. -/
theorem ofDirectory_separator {s : List Char} (h : dir.toList = s ++ ['/']) :
    ofDirectory dir = (pieces s).map String.ofList := by
  have named : dir ≠ "" := by
    rintro rfl
    simp at h
  have steps : ofText dir = (pieces s).map String.ofList ++ [""] := by
    rw [ofText_eq named, h, pieces_append]
    simp [pieces]
  unfold ofDirectory
  simp [steps]

/-- Elsewhere a directory has the steps of its text. -/
theorem ofDirectory_name (last : dir.toList.getLast? ≠ some '/') : ofDirectory dir = ofText dir := by
  have step : (ofText dir).getLast? ≠ some "" := by
    by_cases empty : dir = ""
    · rw [empty]
      exact nofun
    have piece := getLast?_pieces (by simpa using empty) last
    rw [ofText_eq empty, List.getLast?_map, Ne, Option.map_eq_some_iff]
    rintro ⟨p, hp, blank⟩
    rw [hp, show p = [] by simpa using congrArg String.toList blank] at piece
    exact piece rfl
  unfold ofDirectory
  rw [if_neg step]

/-- A directory that is given by a text has a step at least. -/
theorem ofDirectory_ne_nil (named : dir ≠ "") : ofDirectory dir ≠ [] := by
  by_cases last : dir.toList.getLast? = some '/'
  · obtain ⟨s, hs⟩ := List.getLast?_eq_some_iff.1 last
    rw [ofDirectory_separator hs]
    simpa using pieces_ne_nil s
  · rw [ofDirectory_name last, ofText_eq named]
    simpa using pieces_ne_nil dir.toList

/-- A name that is joined to a directory is one more step of its path. -/
theorem ofText_join (named : name ≠ "") (plain : '/' ∉ name.toList) :
    ofText (FileName.join dir name) = ofDirectory dir ++ [name] := by
  have relative : name.toList.head? ≠ some '/' := fun h => plain (List.mem_of_mem_head? h)
  unfold FileName.join
  by_cases empty : dir = ""
  · rw [if_pos (.inr empty), ofText_of_not_mem named plain, empty]
    rfl
  rw [if_neg (by simp [relative, empty])]
  by_cases last : dir.toList.getLast? = some '/'
  · obtain ⟨s, hs⟩ := List.getLast?_eq_some_iff.1 last
    rw [if_pos last, ofDirectory_separator hs, ofText_eq (by simp [empty]), String.toList_append, hs,
      List.append_assoc, List.singleton_append, pieces_append, pieces_of_not_mem plain]
    simp
  · have separator : "/".toList = ['/'] := rfl
    rw [if_neg last, ofDirectory_name last, ofText_eq empty, ofText_eq (by simp [empty]),
      String.toList_append, String.toList_append, separator, List.append_assoc,
      List.singleton_append, pieces_append, pieces_of_not_mem plain]
    simp

/-- A path begins at the root exactly if its directory does. -/
theorem head?_join (plain : '/' ∉ name.toList) :
    (FileName.join dir name).toList.head? = some '/' ↔ dir.toList.head? = some '/' := by
  have relative : name.toList.head? ≠ some '/' := fun h => plain (List.mem_of_mem_head? h)
  unfold FileName.join
  by_cases empty : dir = ""
  · simp [empty, relative]
  obtain ⟨c, s, chars⟩ := List.exists_cons_of_ne_nil (by simpa using empty : dir.toList ≠ [])
  rw [if_neg (by simp [relative, empty])]
  split <;> simp [chars]

end Join

/-- The steps of a text that lead somewhere: those of one path, however often its separators are
written and whatever steps to the same directory are put in. -/
def condensed (text : String) : Path := (ofText text).filter fun step => !staysHere step

end Path

namespace FileName

/-! ## Names of snapshots -/

/-- A character that needs no care in the name of a file: a letter or a digit, or one of five
marks. -/
def IsSafe (c : Char) : Prop := c.isAlphanum = true ∨ c ∈ ['-', '_', '.', '~', '%']

instance (c : Char) : Decidable (IsSafe c) := inferInstanceAs (Decidable (_ ∨ _))

theorem isSafe_of_isPlain {b : UInt8} (h : isPlain b = true) : IsSafe (Char.ofNat b.toNat) := by
  have all : ∀ b, isPlain b = true → IsSafe (Char.ofNat b.toNat) := by
    apply Bytes.forall_byte
    decide +kernel
  exact all b h

theorem isSafe_upperDigit {n : Nat} (h : n < 16) : IsSafe (Hex.upperDigit n) := by
  have all : ∀ k : Fin 16, IsSafe (Hex.upperDigit k.val) := by decide
  exact all ⟨n, h⟩

theorem isSafe_of_mem_encodeByte {b : UInt8} {c : Char} (h : c ∈ encodeByte b) : IsSafe c := by
  have small := b.toNat_lt
  unfold encodeByte at h
  split at h
  · rw [List.mem_singleton.1 h]
    exact isSafe_of_isPlain ‹_›
  · simp only [List.mem_cons, List.not_mem_nil, or_false] at h
    rcases h with rfl | rfl | rfl
    · decide
    · exact isSafe_upperDigit (by omega)
    · exact isSafe_upperDigit (by omega)

theorem isSafe_of_mem_snapshot {entity : String} {c : Char} (h : c ∈ (snapshot entity).toList) :
    IsSafe c := by
  rw [toList_snapshot, encode, String.toList_ofList, List.mem_append] at h
  rcases h with name | ending
  · obtain ⟨b, -, written⟩ := List.mem_flatMap.1 name
    exact isSafe_of_mem_encodeByte written
  · simp only [List.mem_cons, List.not_mem_nil, or_false] at ending
    rcases ending with rfl | rfl | rfl | rfl <;> decide

theorem separator_not_mem_snapshot (entity : String) : '/' ∉ (snapshot entity).toList :=
  fun h => absurd (isSafe_of_mem_snapshot h) (by decide)

theorem snapshot_ne_empty (entity : String) : snapshot entity ≠ "" := by
  intro empty
  have ending := toList_snapshot entity
  rw [empty] at ending
  simp at ending

/-- The path of a snapshot is that of its directory and its name. -/
theorem ofText_snapshotPath (dir entity : String) :
    Path.ofText (snapshotPath dir entity) = Path.ofDirectory dir ++ [snapshot entity] :=
  Path.ofText_join (snapshot_ne_empty entity) (separator_not_mem_snapshot entity)

theorem condensed_snapshotPath (dir entity : String) :
    Path.condensed (snapshotPath dir entity) =
      ((Path.ofDirectory dir).filter fun step => !Path.staysHere step) ++ [snapshot entity] := by
  rw [Path.condensed, ofText_snapshotPath]
  simp [(Disk.isName_snapshot entity).moves]

/-- Wherever a directory is, what lies under the path of a snapshot in it has the name of this
snapshot there. -/
theorem place_of_find {d : Disk} {dir entity : String} {root : Location} {r : Location × DiskNode}
    (leads : d.LeadsTo (Path.ofDirectory dir) root)
    (found : d.find (Path.ofText (snapshotPath dir entity)) = .ok r) :
    r.1 = root ++ [snapshot entity] := by
  have sound := (Disk.walk_of_find found).1
  rw [ofText_snapshotPath] at sound found
  rw [Disk.find_below leads sound (List.cons_ne_nil _ _)] at found
  refine (Disk.of_walk_names ?_ found).1
  simpa using Disk.isName_snapshot entity

/-- Each entity has a file of its own, directly in the directory that it is meant for: its name is
read back from the name of the file, which is a plain one, and two entities have different paths,
also when separators are repeated and steps to the same directory are put in. -/
theorem own_file (dir : String) :
    (∀ entity, decode (encode entity) = .ok entity) ∧
      (∀ entity entity', entity ≠ entity' →
        snapshotPath dir entity ≠ snapshotPath dir entity' ∧
          Path.condensed (snapshotPath dir entity) ≠ Path.condensed (snapshotPath dir entity')) ∧
      ∀ entity, ∃ name,
        (snapshotPath dir entity = join dir name ∧
          Path.ofText (snapshotPath dir entity) = Path.ofDirectory dir ++ [name] ∧
          ((snapshotPath dir entity).toList.head? = some '/' ↔ dir.toList.head? = some '/')) ∧
        ((∀ c ∈ name.toList, IsSafe c) ∧ (∃ stem, name = stem ++ ".bin") ∧ name ≠ "." ∧
          name ≠ "..") ∧
        ∀ (d : Disk) (root : Location), d.LeadsTo (Path.ofDirectory dir) root →
          ∀ r, d.find (Path.ofText (snapshotPath dir entity)) = .ok r → r.1 = root ++ [name] := by
  refine ⟨decode_encode, fun entity entity' other => ?_, fun entity => ?_⟩
  · have apart : Path.condensed (snapshotPath dir entity) ≠
        Path.condensed (snapshotPath dir entity') := by
      rw [condensed_snapshotPath, condensed_snapshotPath]
      intro same
      apply other
      apply snapshot_injective
      simpa using List.append_cancel_left same
    exact ⟨fun same => apart (congrArg Path.condensed same), apart⟩
  · have isName := Disk.isName_snapshot entity
    refine ⟨snapshot entity, ⟨rfl, ofText_snapshotPath dir entity, ?_⟩, ⟨?_, ?_, ?_, ?_⟩, ?_⟩
    · exact Path.head?_join (separator_not_mem_snapshot entity)
    · exact fun c => isSafe_of_mem_snapshot
    · exact ⟨encode entity, rfl⟩
    · intro here
      exact absurd isName.moves (by rw [here]; decide)
    · exact isName.down
    · exact fun d root leads r => place_of_find leads

example : snapshot "" = ".bin" ∧ snapshot ".." = "...bin" ∧ snapshot "a/\x00" = "a%2F%00.bin" := by
  decide +kernel

/-- A name that would lead out of its directory, and one that looks like its encoding. -/
theorem own_file_outside :
    ∃ d : Disk, "../a" ≠ "..%2Fa" ∧ d.LeadsTo (Path.ofDirectory "b/") ["b"] ∧
      d.find (Path.ofText (snapshotPath "b/" "../a")) =
        .ok (["b", "..%2Fa.bin"], .file [0x80]) ∧
      snapshotPath "b/" "../a" ≠ snapshotPath "b/" "..%2Fa" ∧
      ["b", "..%2Fa.bin"] = ["b"] ++ [snapshot "../a"] := by
  have other : "../a" ≠ "..%2Fa" := by decide
  have stored : ∃ d : Disk, d.LeadsTo (Path.ofDirectory "b/") ["b"] ∧
      d.find (Path.ofText (snapshotPath "b/" "../a")) =
        .ok (["b", "..%2Fa.bin"], .file [0x80]) := by
    refine ⟨(Disk.empty.set ["b"] .directory).set ["b", "..%2Fa.bin"] (.file [0x80]), ?_, ?_⟩
    · unfold Disk.LeadsTo
      decide +kernel
    · decide +kernel
  obtain ⟨d, leads, found⟩ := stored
  obtain ⟨-, apart, files⟩ := own_file "b/"
  obtain ⟨name, ⟨-, steps, -⟩, -, confined⟩ := files "../a"
  have named : name = snapshot "../a" := by
    have last := (ofText_snapshotPath "b/" "../a").symm.trans steps
    simpa using (List.append_cancel_left last).symm
  refine ⟨d, other, leads, found, (apart _ _ other).1, ?_⟩
  rw [← named]
  exact confined d _ leads _ found

end FileName

end SnapshotStore
