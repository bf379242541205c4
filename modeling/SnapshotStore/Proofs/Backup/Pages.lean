import Mathlib.Algebra.Order.BigOperators.Group.List
import Mathlib.Algebra.Order.Group.Nat
import SnapshotStore.Proofs.Backup.Upholds
import SnapshotStore.Proofs.Engine

/-!
Reading page by page. The least key above a key divides the keys as the key itself does
(`keyAfter_le_iff`), so that a page begins where the one before it ended and the pages of a
partition are all its entries (`upholds_readPages`). The bound on pages that is set to a
backup is never reached (`Site.ends_readAll_enough`).
-/

namespace SnapshotStore

open Keeper OrderedMap

theorem keyAfter_le_iff (a b : Bytes) : keyAfter a ≤ b ↔ a < b := by
  rw [← List.not_lt, ← not_iff_not, not_not, List.not_lt]
  induction a generalizing b with
  | nil =>
    cases b with
    | nil => simp [keyAfter]
    | cons y b => simp [keyAfter, List.cons_lt_cons_iff]
  | cons x a ih =>
    cases b with
    | nil => simp [keyAfter]
    | cons y b =>
      have tail := ih b
      rw [keyAfter] at tail ⊢
      rw [List.cons_append, List.cons_lt_cons_iff, tail, List.cons_le_cons_iff]

/-- In ascending order, the keys above one of them are those that follow it. -/
theorem filter_above {below above : List Entry} {entry : Entry}
    (sorted : (below ++ entry :: above).Pairwise fun a b => a.1 < b.1) :
    ((below ++ entry :: above).filter fun b => decide (keyAfter entry.1 ≤ b.1)) = above := by
  obtain ⟨_, upper, apart⟩ := List.pairwise_append.1 sorted
  rw [List.filter_append, List.filter_eq_nil_iff.2, List.nil_append, List.filter_cons_of_neg,
    List.filter_eq_self.2]
  · intro b hb
    exact decide_eq_true ((keyAfter_le_iff _ _).2 ((List.pairwise_cons.1 upper).1 b hb))
  · simp [keyAfter_le_iff]
  · intro b hb
    have less := apart b hb entry (List.mem_cons_self ..)
    simpa [keyAfter_le_iff] using Std.le_of_lt less

/-- What follows a page is what is not below the start of the next one. -/
theorem dropBelow_nextStart (m : OrderedMap Bytes Bytes) (start : Option Bytes) (count : Nat) :
    m.dropBelow (nextStart start (m.page start count)) = (m.dropBelow start).drop count := by
  rw [page]
  cases last : ((m.dropBelow start).take count).getLast? with
  | none =>
    rw [nextStart, last]
    rw [List.getLast?_eq_none_iff, List.take_eq_nil_iff] at last
    rcases last with rfl | last
    · rfl
    · rw [last, List.drop_nil]
  | some entry =>
    rw [nextStart, last]
    obtain ⟨front, page⟩ := List.getLast?_eq_some_iff.1 last
    have parts : ∃ below, m.toList = below ++ m.dropBelow start := by
      cases start with
      | none => exact ⟨[], rfl⟩
      | some key => exact ⟨_, (List.takeWhile_append_dropWhile).symm⟩
    obtain ⟨below, parts⟩ := parts
    have whole : m.toList = (below ++ front) ++ entry :: (m.dropBelow start).drop count := by
      rw [parts, List.append_assoc]
      apply congrArg (below ++ ·)
      conv => lhs; rw [← List.take_append_drop count (m.dropBelow start), page]
      simp
    have sorted := m.sorted
    show m.dropBelow (some (keyAfter entry.1)) = _
    rw [dropBelow_some, whole]
    rw [whole] at sorted
    exact filter_above sorted

namespace Site

variable {kind : KeeperRequest → Prop} {P : Bool → Site → Prop} {moved : Bool} {s : Site}

/-- Pages are read without leaving a trace, and those that are read to the end hold all entries from
the start on. -/
theorem upholds_readPages (k : Keeper) (partition batchSize pages : Nat) (start : Option Bytes)
    (stable : ∀ s', Like s s' → P moved s') :
    Upholds kind P
      (fun r m s' => r.2 = k ∧ m = moved ∧ Like s s' ∧
        ∀ entries, r.1 = .ok entries →
          entries = (s.engine.partition partition).entries.dropBelow start)
      ((readPages partition batchSize pages start).script k) moved s := by
  induction pages generalizing start s with
  | zero => exact upholds_done (stable s (.refl s)) ⟨rfl, rfl, .refl s, by rintro _ ⟨⟩⟩
  | succ pages ih =>
    rw [readPages, Activity.script_ask_bind]
    rcases s.onEngine_cases fun e =>
        (.ok (e.call partition (.page start batchSize)).1,
          (e.call partition (.page start batchSize)).2) with
      ⟨e, s', answered, like⟩ | ⟨s', answered, engaged⟩
    · refine upholds_ask_still (stable s (.refl s)) answered rfl ?_
      exact upholds_done (stable s' like) ⟨rfl, rfl, like, by rintro _ ⟨⟩⟩
    · rw [Engine.call_page] at answered engaged
      have like := engaged.like
      refine upholds_ask_still (stable s (.refl s)) answered rfl ?_
      rw [Activity.script_ofExcept_bind]
      simp only
      split
      · rename_i last
        refine upholds_done (stable s' like) ⟨rfl, rfl, like, ?_⟩
        intro entries ended
        cases ended
        apply List.take_of_length_le
        rw [page, List.length_take] at last
        omega
      · have stable' : ∀ s'', Like s' s'' → P moved s'' := fun s'' h => stable s'' (like.trans h)
        refine upholds_bind (ih (nextStart start _) stable') ?_ ?_
        · rintro rest k' m s'' holds ⟨rfl, rfl, like', read⟩
          refine upholds_done holds ⟨rfl, rfl, like.trans like', ?_⟩
          intro entries ended
          cases ended
          rw [read rest rfl, like.engine, dropBelow_nextStart]
          exact List.take_append_drop _ _
        · rintro e k' m s'' _ ⟨rfl, rfl, like', _⟩
          exact ⟨rfl, rfl, like.trans like', by rintro _ ⟨⟩⟩

/-- A reading never ends for want of pages where more of them are allowed than there are entries. -/
theorem ends_readPages_enough (k : Keeper) (partition : Nat) {batchSize pages : Nat}
    {start : Option Bytes} (positive : 0 < batchSize)
    (enough : ((s.engine.partition partition).entries.dropBelow start).length < pages) :
    Ends (fun r _ => r.1 ≠ .error (.invalidOperation .endlessPages))
      ((readPages partition batchSize pages start).script k) s := by
  induction pages generalizing start s with
  | zero => exact absurd enough (Nat.not_lt_zero _)
  | succ pages ih =>
    rw [readPages, Activity.script_ask_bind]
    rcases s.onEngine_cases fun e =>
        (.ok (e.call partition (.page start batchSize)).1,
          (e.call partition (.page start batchSize)).2) with
      ⟨e, s', answered, -⟩ | ⟨s', answered, engaged⟩
    · exact ends_ask answered (ends_done (by rintro ⟨⟩))
    · rw [Engine.call_page] at answered engaged
      refine ends_ask answered ?_
      rw [Activity.script_ofExcept_bind]
      simp only
      split
      · exact ends_done (by rintro ⟨⟩)
      · rename_i full
        rw [page, List.length_take, Nat.min_def] at full
        rw [Activity.script_bind]
        refine (ih ?_).bind ?_
        · rw [engaged.engine, dropBelow_nextStart, List.length_drop]
          split at full <;> omega
        · rintro ⟨_ | _, k'⟩ s'' other
          · exact ends_done other
          · exact ends_done (by rintro ⟨⟩)

end Site

namespace Engine

theorem length_lt_pageBound (e : Engine) (partition : PartitionId) :
    ((e.partition partition).entries.dropBelow none).length < e.pageBound := by
  rw [pageBound, ← List.sum_eq_foldl, Nat.lt_succ_iff]
  show (e.partition partition).entries.toList.length ≤ _
  by_cases inside : partition < e.partitions.size
  · refine List.le_sum_of_mem (List.mem_map.2 ⟨e.partitions[partition], ?_, ?_⟩)
    · exact Array.mem_toList_iff.2 (Array.getElem_mem inside)
    · rw [Engine.partition, Array.getD_eq_getD_getElem?, Array.getElem?_eq_getElem inside]
      rfl
  · rw [Engine.partition, Array.getD_eq_getD_getElem?, Array.getElem?_eq_none (Nat.not_lt.1 inside)]
    exact Nat.zero_le _

theorem pageBound_openPartition (e : Engine) (name : String) :
    (e.openPartition name).2.pageBound = e.pageBound := by
  unfold openPartition
  split
  · rfl
  split
  · rfl
  · have none : (Partition.empty name).entries.size = 0 := rfl
    simp [pageBound, none]

end Engine

/-- The pages that are allowed to a backup are enough for each partition. -/
theorem Site.ends_readAll_enough (s : Site) {k : Keeper} (positive : 0 < k.batchSize)
    (name : String) :
    Ends (fun r _ => r.1 ≠ .error (.invalidOperation .endlessPages))
      ((readAll s.engine.pageBound name).script k) s := by
  rw [readAll, Activity.script_get_bind, Activity.script_ask_bind]
  rcases s.onEngine_cases fun e => e.openPartition name with
    ⟨e, s', answered, -⟩ | ⟨s', answered, engaged⟩
  · exact ends_ask answered (ends_done (by rintro ⟨⟩))
  · refine ends_ask answered ?_
    rw [Activity.script_ofExcept_bind]
    split
    · apply ends_readPages_enough k _ positive
      rw [← Engine.pageBound_openPartition s.engine name, engaged.engine]
      exact Engine.length_lt_pageBound _ _
    · exact ends_done (by rintro ⟨⟩)

end SnapshotStore
