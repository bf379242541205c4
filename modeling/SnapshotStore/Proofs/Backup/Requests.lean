import SnapshotStore.Proofs.Backup.Site
import SnapshotStore.Proofs.Disk

/-!
Requests to the disk of a site: each fails and leaves everything but the faults, or is done as the
disk does it. Only the writing of a file and the removal of a directory may fail and be done in part.
-/

namespace SnapshotStore.Site

open Disk

variable {s : Site} {dir : Path} {root : Location}

/-- A call that changes the disk only when it succeeds does so on a site. -/
theorem onDisk_settles {c : DiskCall} {S : c.Answer → Disk → Prop} (atOnce : c.atOnce = true)
    (h : (∃ fault, s.disk.call c = (.error fault, s.disk)) ∨
      ∃ a d, s.disk.call c = (.ok a, d) ∧ S a d) :
    (∃ fault s', answer (.disk c) s = (.error fault, s') ∧ Like s s') ∨
      ∃ a d s', answer (.disk c) s = (.ok a, s') ∧ Placed s s' d ∧ S a d := by
  rcases s.onDisk_atOnce_cases atOnce with ⟨fault, s', answered, like⟩ | ⟨s', answered, placed⟩
  · exact .inl ⟨fault, s', answered, like⟩
  rcases h with ⟨fault, failed⟩ | ⟨a, d, success, property⟩
  · rw [failed] at answered placed
    exact .inl ⟨fault, s', answered, placed.like⟩
  · rw [success] at answered placed
    exact .inr ⟨a, d, s', answered, placed, property⟩

/-- A call that changes nothing leaves everything but the faults. -/
theorem answer_still_cases {c : DiskCall} (atOnce : c.atOnce = true)
    (still : (s.disk.call c).2 = s.disk) :
    ∃ reply s', answer (.disk c) s = (reply, s') ∧ Like s s' := by
  rcases s.onDisk_atOnce_cases atOnce with ⟨fault, s', answered, like⟩ | ⟨s', answered, placed⟩
  · exact ⟨_, s', answered, like⟩
  · rw [still] at placed
    exact ⟨_, s', answered, placed.like⟩

/-! ## What is left of a directory -/

theorem eraseTrees_cases (d : Disk) (place : Location) (trees : List Location) :
    (trees.foldl (fun d q => d.eraseTree (place ++ q)) d).Within d ∧
      ChangesOnly d (trees.foldl (fun d q => d.eraseTree (place ++ q)) d) place := by
  induction trees generalizing d with
  | nil => exact ⟨.refl d, changesOnly_refl d place⟩
  | cons tree trees ih =>
    obtain ⟨within, changes⟩ := ih (d.eraseTree (place ++ tree))
    refine ⟨within.trans (within_eraseTree d _), fun q apart => (changes q apart).trans ?_⟩
    exact changesOnly_eraseTree d _ q fun below => apart ((List.prefix_append place tree).trans below)

/-- The removal of a directory removes nothing else, whether it is done or fails on the way. -/
theorem within_answer_removeTree (s : Site) {name : String} (isName : IsName name) :
    (answer (.disk (.removeTree (dir ++ [name]))) s).2.disk.Within s.disk := by
  rcases s.onDisk_cases (.removeTree (dir ++ [name])) with
    ⟨failure, s', answered, placed⟩ | ⟨s', answered, placed⟩
  · rw [answer, answered, placed.disk, DiskFailure.leaves]
    split
    · exact (eraseTrees_cases _ _ _).1
    · exact .refl _
  · rw [answer, answered, placed.disk]
    exact within_removeTree _ isName _

section Names

variable (only : s.disk.LeadsOnlyTo dir root)

include only

/-- Writing fails and leaves everything, or it puts a file at its place, which is the whole one if
that succeeds. -/
theorem answer_write_cases {front : List String} {name : String}
    (isName : ∀ n ∈ front ++ [name], IsName n) (content : Bytes) :
    (∃ fault s', answer (.disk (.write (dir ++ (front ++ [name])) content)) s = (.error fault, s') ∧
        Like s s') ∨
      ∃ reply part s', answer (.disk (.write (dir ++ (front ++ [name])) content)) s = (reply, s') ∧
        Placed s s' (s.disk.set (root ++ (front ++ [name])) (.file part)) ∧
        s.disk.Takes dir root front name ∧ (reply = .ok () → part = content) := by
  rcases s.onDisk_write_cases (dir ++ (front ++ [name])) content with
    failed | ⟨reply, part, s', answered, placed, whole⟩
  · exact .inl failed
  rcases write_cases only isName part with ⟨fault, failed⟩ | ⟨takes, success⟩
  · rw [failed] at placed whole
    cases reply with
    | error fault => exact .inl ⟨fault, s', answered, placed.like⟩
    | ok _ => cases (whole rfl).2
  · rw [success] at placed
    exact .inr ⟨reply, part, s', answered, placed, takes, fun done => (whole done).1⟩

theorem answer_rename_cases {source target : String} (isSource : IsName source)
    (isTarget : IsName target) :
    (∃ fault s', answer (.disk (.rename (dir ++ [source]) (dir ++ [target]))) s =
        (.error fault, s') ∧ Like s s') ∨
      ∃ content s', answer (.disk (.rename (dir ++ [source]) (dir ++ [target]))) s = (.ok (), s') ∧
        Placed s s' ((s.disk.erase (root ++ [source])).set (root ++ [target]) (.file content)) ∧
        s.disk.find (dir ++ [source]) = .ok (root ++ [source], .file content) ∧
        s.disk.Takes dir root [] target := by
  refine (onDisk_settles (S := fun _ d => ∃ content,
    d = (s.disk.erase (root ++ [source])).set (root ++ [target]) (.file content) ∧
    s.disk.find (dir ++ [source]) = .ok (root ++ [source], .file content) ∧
    s.disk.Takes dir root [] target) rfl ?_).imp_right ?_
  · apply (rename_cases only isSource isTarget).imp_right
    rintro ⟨content, found, takes, success⟩
    exact ⟨(), _, success, content, rfl, found, takes⟩
  · rintro ⟨_, _, s', answered, placed, content, rfl, found, takes⟩
    exact ⟨content, s', answered, placed, found, takes⟩

theorem answer_removeFile_cases {name : String} (isName : IsName name) :
    (∃ fault s', answer (.disk (.removeFile (dir ++ [name]))) s = (.error fault, s') ∧ Like s s') ∨
      ∃ content s', answer (.disk (.removeFile (dir ++ [name]))) s = (.ok (), s') ∧
        Placed s s' (s.disk.erase (root ++ [name])) ∧
        s.disk.node? (root ++ [name]) = some (.file content) := by
  refine (onDisk_settles (S := fun _ d => ∃ content, d = s.disk.erase (root ++ [name]) ∧
    s.disk.node? (root ++ [name]) = some (.file content)) rfl ?_).imp_right ?_
  · apply (removeFile_cases only isName).imp_right
    rintro ⟨content, stands, success⟩
    exact ⟨(), _, success, content, rfl, stands⟩
  · rintro ⟨_, _, s', answered, placed, content, rfl, stands⟩
    exact ⟨content, s', answered, placed, stands⟩

theorem answer_removeTree_cases {name : String} (isName : IsName name) :
    ∃ reply d s', answer (.disk (.removeTree (dir ++ [name]))) s = (reply, s') ∧ Placed s s' d ∧
      d.Within s.disk ∧ ChangesOnly s.disk d (root ++ [name]) := by
  have part (failure : DiskFailure) :
      ChangesOnly s.disk (failure.leaves s.disk (.removeTree (dir ++ [name]))) (root ++ [name]) := by
    rw [DiskFailure.leaves]
    split
    · rename_i found
      obtain ⟨_, _, spelled, _⟩ := of_find (by simpa using isName) only found
      exact spelled ▸ (eraseTrees_cases _ _ _).2
    · exact changesOnly_refl _ _
  have within : (answer (.disk (.removeTree (dir ++ [name]))) s).2.disk.Within s.disk :=
    within_answer_removeTree s isName
  rcases s.onDisk_cases (.removeTree (dir ++ [name])) with
    ⟨failure, s', answered, placed⟩ | ⟨s', answered, placed⟩
  · rw [answer, answered, placed.disk] at within
    exact ⟨_, _, s', answered, placed, within, part failure⟩
  · rw [answer, answered, placed.disk] at within
    refine ⟨_, _, s', answered, placed, within, ?_⟩
    rcases removeTree_cases only isName with ⟨fault, failed⟩ | done
    · rw [failed]
      exact changesOnly_refl _ _
    · rw [done]
      exact changesOnly_eraseTree _ _

end Names

theorem answer_makeDirectories_cases (leads : s.disk.LeadsTo dir root) {name : String}
    (isName : IsName name) :
    (∃ fault s', answer (.disk (.makeDirectories (dir ++ [name]))) s = (.error fault, s') ∧
        Like s s') ∨
      ∃ d s', answer (.disk (.makeDirectories (dir ++ [name]))) s = (.ok (), s') ∧
        Placed s s' d ∧ KeepsDirectories s.disk d ∧ ChangesOnly s.disk d (root ++ [name]) ∧
        d.node? (root ++ [name]) = some .directory ∧ Path.fault? (dir ++ [name]) = none := by
  refine (onDisk_settles (S := fun _ d =>
    KeepsDirectories s.disk d ∧ ChangesOnly s.disk d (root ++ [name]) ∧
      d.node? (root ++ [name]) = some .directory ∧ Path.fault? (dir ++ [name]) = none) rfl
    ?_).imp_right ?_
  · rcases makeDirectories_cases leads isName with failed | ⟨sound, ⟨stands, there⟩ | ⟨free, made⟩⟩
    · exact .inl failed
    · exact .inr ⟨(), _, there, fun _ stands => stands, changesOnly_refl _ _, stands, sound⟩
    · refine .inr ⟨(), _, made, keepsDirectories_set _ ?_, changesOnly_set _ _ _, ?_, sound⟩
      · rw [free]
        exact nofun
      · rw [node?_set, if_pos rfl]
  · rintro ⟨_, d, s', answered, placed, keeps, changes, stands, sound⟩
    exact ⟨d, s', answered, placed, keeps, changes, stands, sound⟩

end SnapshotStore.Site
