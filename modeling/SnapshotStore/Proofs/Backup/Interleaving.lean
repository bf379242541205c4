import Mathlib.Data.List.Nodup
import SnapshotStore.Proofs.Backup.Pages

/-!
Reading all of a partition while others write to it. Each page is read from the partition as it is
at that moment (`Reads`), so that a reading that ends is a mixture of several states. Main statement:
it is in ascending order, holds nothing that was not there when its page was read, and holds what
was there all the time; without writes it is the whole partition, read in as many pages as it takes
(`reads_what_stays`).
-/

namespace SnapshotStore

open Keeper OrderedMap

/-- The answer to a request where the `n`-th call on a partition meets it as `states n`; the number
counts the calls. -/
def answerFrom (states : Nat → Partition) : (r : KeeperRequest) → Nat → r.Reply × Nat
  | .call _ c, n => (.ok ((states n).call c).1, n + 1)
  | .openPartition _, n => (.ok 0, n)
  | .disk _, n => (.error .missing, n)
  | .removePartition _, n | .closeEngine, n | .admitWrite _, n | .admitRead _, n => (.ok (), n)
  | .freshId, n | .now, n => (default, n)

/-- What a keeper reads of a partition whose `n`-th page it reads from `states n`, and the number of
pages. -/
def readFrom (states : Nat → Partition) (k : Keeper) (pages : Nat) (name : String) :
    Except StoreError (List Entry) × Nat :=
  let ((result, _), read) := ((readAll pages name).script k).run (answerFrom states) 0
  (result, read)

namespace Interleaving

/-- Whether the pages from one on, beginning at a key, end before another one and hold `entries`. -/
inductive Reads (states : Nat → Partition) (size : Nat) :
    Nat → Option Bytes → List (List Entry) → Nat → Prop where
  | last {n : Nat} {start : Option Bytes}
    (short : ((states n).entries.page start size).length < size) :
    Reads states size n start [(states n).entries.page start size] (n + 1)
  | more {n finish : Nat} {start : Option Bytes} {pages : List (List Entry)}
    (full : ¬((states n).entries.page start size).length < size)
    (rest : Reads states size (n + 1) (nextStart start ((states n).entries.page start size)) pages
      finish) :
    Reads states size n start ((states n).entries.page start size :: pages) finish

variable {states : Nat → Partition} {size n finish : Nat} {start : Option Bytes}
  {pages : List (List Entry)}

/-- One page is read, and then the others, if it is full. -/
theorem run_readPages (states : Nat → Partition) (k : Keeper) (partition size bound n : Nat)
    (start : Option Bytes) :
    ((readPages partition size (bound + 1) start).script k).run (answerFrom states) n =
      if ((states n).entries.page start size).length < size then
        ((.ok ((states n).entries.page start size), k), n + 1)
      else
        let page := (states n).entries.page start size
        let r := ((readPages partition size bound (nextStart start page)).script k).run
          (answerFrom states) (n + 1)
        ((r.1.1.map (page ++ ·), r.1.2), r.2) := by
  have asked : answerFrom states (.call partition (.page start size)) n =
      (.ok ((states n).entries.page start size), n + 1) := rfl
  rw [readPages, Activity.script_ask_bind, Script.run_ask, asked, Activity.script_ofExcept_bind]
  dsimp only
  generalize (states n).entries.page start size = page
  split
  · rfl
  · rw [Activity.script_bind, Script.run_bind]
    generalize Script.run (I := keeperInterface) (answerFrom states) _ (n + 1) = r
    obtain ⟨⟨_ | _, _⟩, _⟩ := r <;> rfl

/-- A reading that ends is made of pages. -/
theorem reads_of_run {k k' : Keeper} {partition size bound n finish : Nat} {start : Option Bytes}
    {entries : List Entry}
    (h : ((readPages partition size bound start).script k).run (answerFrom states) n =
      ((.ok entries, k'), finish)) :
    ∃ pages, Reads states size n start pages finish ∧ entries = pages.flatten := by
  induction bound generalizing n start entries with
  | zero => cases h
  | succ bound ih =>
    rw [run_readPages] at h
    split at h
    · rename_i short
      cases h
      exact ⟨_, .last short, (List.append_nil _).symm⟩
    · rename_i full
      dsimp only at h
      generalize ended : Script.run (I := keeperInterface) (answerFrom states) _ (n + 1) = r at h
      obtain ⟨⟨_ | rest, _⟩, _⟩ := r
      · cases h
      · cases h
        obtain ⟨pages, reads, rfl⟩ := ih ended
        exact ⟨_, .more full reads, rfl⟩

/-! ## What is read -/

/-- Each key of a page is below the start of the next one. -/
theorem lt_nextStart {m : OrderedMap Bytes Bytes} {entry : Entry}
    (mem : entry ∈ m.page start size) :
    ∃ key, nextStart start (m.page start size) = some key ∧ entry.1 < key := by
  have sorted := m.sorted.sublist (page_sublist m start size)
  cases last : (m.page start size).getLast? with
  | none =>
    rw [List.getLast?_eq_none_iff.1 last] at mem
    cases mem
  | some final =>
    obtain ⟨front, page⟩ := List.getLast?_eq_some_iff.1 last
    have least : final.1 < keyAfter final.1 := (keyAfter_le_iff _ _).1 (Std.le_refl _)
    refine ⟨keyAfter final.1, by rw [nextStart, last], ?_⟩
    rw [page] at mem sorted
    rcases List.mem_append.1 mem with mem | mem
    · exact Std.lt_trans ((List.pairwise_append.1 sorted).2.2 entry mem final (by simp)) least
    · rw [List.mem_singleton.1 mem]
      exact least

/-- The next page does not begin below the page before it. -/
theorem start_le {m : OrderedMap Bytes Bytes} {key : Bytes}
    (h : ∀ next, nextStart start (m.page start size) = some next → next ≤ key) :
    ∀ first, start = some first → first ≤ key := by
  cases page : m.page start size with
  | nil =>
    rw [page] at h
    exact h
  | cons entry rest =>
    have mem : entry ∈ m.page start size := page ▸ List.mem_cons_self
    obtain ⟨next, eq, lt⟩ := lt_nextStart mem
    intro first begins
    exact Std.le_trans ((of_mem_page mem).2 first begins)
      (Std.le_trans (Std.le_of_lt lt) (h next eq))

/-- What a page holds is there when it is read. -/
theorem Reads.get? (h : Reads states size n start pages finish) {i : Nat} {page : List Entry}
    (hp : pages[i]? = some page) {entry : Entry} (mem : entry ∈ page) :
    (states (n + i)).entries.get? entry.1 = some entry.2 := by
  induction h generalizing i with
  | last short =>
    cases i with
    | zero =>
      cases hp
      exact (of_mem_page mem).1
    | succ i => cases hp
  | more full rest ih =>
    cases i with
    | zero =>
      cases hp
      exact (of_mem_page mem).1
    | succ i =>
      have later := ih hp
      rwa [Nat.add_assoc, Nat.add_comm 1 i] at later

theorem Reads.length (h : Reads states size n start pages finish) : n + pages.length = finish := by
  induction h with
  | last short => rfl
  | more full rest ih =>
    rw [List.length_cons]
    omega

theorem Reads.lt (h : Reads states size n start pages finish) : n < finish := by
  have length := h.length
  cases h with
  | last short => exact Nat.lt_succ_self _
  | more full rest =>
    rw [List.length_cons] at length
    omega

theorem Reads.above (h : Reads states size n start pages finish) {entry : Entry}
    (mem : entry ∈ pages.flatten) : ∀ key, start = some key → key ≤ entry.1 := by
  induction h with
  | last short =>
    rw [List.flatten_singleton] at mem
    exact (of_mem_page mem).2
  | more full rest ih =>
    rw [List.flatten_cons] at mem
    rcases List.mem_append.1 mem with mem | mem
    · exact (of_mem_page mem).2
    · exact start_le (ih mem)

theorem Reads.sorted (h : Reads states size n start pages finish) :
    pages.flatten.Pairwise fun a b => a.1 < b.1 := by
  induction h with
  | last short =>
    rw [List.flatten_singleton]
    exact (states _).entries.sorted.sublist (page_sublist _ _ _)
  | more full rest ih =>
    rw [List.flatten_cons]
    refine List.pairwise_append.2
      ⟨(states _).entries.sorted.sublist (page_sublist _ _ _), ih, fun a ha b hb => ?_⟩
    obtain ⟨next, eq, lt⟩ := lt_nextStart ha
    exact Std.lt_of_lt_of_le lt (rest.above hb next eq)

/-- What is there all the time is read. -/
theorem Reads.mem (h : Reads states size n start pages finish) {entry : Entry}
    (above : ∀ key, start = some key → key ≤ entry.1)
    (stays : ∀ i, n ≤ i → i < finish → (states i).entries.get? entry.1 = some entry.2) :
    entry ∈ pages.flatten := by
  have now := stays n (Nat.le_refl n) h.lt
  induction h with
  | last short =>
    have all := mem_dropBelow_iff.2 ⟨now, above⟩
    rw [page, List.length_take] at short
    rw [List.flatten_singleton, page, List.take_of_length_le (by omega)]
    exact all
  | @more n finish start pages full rest ih =>
    have all := mem_dropBelow_iff.2 ⟨now, above⟩
    rw [← List.take_append_drop size ((states n).entries.dropBelow start),
      ← dropBelow_nextStart] at all
    rw [List.flatten_cons]
    refine List.mem_append.2 ((List.mem_append.1 all).imp_right fun later => ?_)
    have after : n + 1 < finish := rest.lt
    exact ih (mem_dropBelow_iff.1 later).2 (fun i le lt => stays i (by omega) lt)
      (stays (n + 1) (Nat.le_succ n) after)

/-! ## Without writes -/

/-- A partition that stays as it is is read to its end. -/
theorem run_readPages_still {p : Partition} (still : ∀ n, states n = p) (k : Keeper)
    (partition n : Nat) (positive : 0 < size) {bound : Nat} {start : Option Bytes}
    (enough : (p.entries.dropBelow start).length / size < bound) :
    ((readPages partition size bound start).script k).run (answerFrom states) n =
      ((.ok (p.entries.dropBelow start), k),
        n + ((p.entries.dropBelow start).length / size + 1)) := by
  induction bound generalizing n start with
  | zero => exact absurd enough (Nat.not_lt_zero _)
  | succ bound ih =>
    rw [run_readPages, still]
    split
    · rename_i short
      rw [page, List.length_take] at short
      rw [page, List.take_of_length_le (by omega), Nat.div_eq_of_lt (by omega)]
    · rename_i full
      rw [page, List.length_take] at full
      have pages := Nat.div_eq_sub_div positive
        (show size ≤ (p.entries.dropBelow start).length by omega)
      have rest := dropBelow_nextStart p.entries start size
      have fewer : (p.entries.dropBelow (nextStart start (p.entries.page start size))).length / size
          < bound := by
        rw [rest, List.length_drop]
        omega
      dsimp only
      rw [ih _ fewer, rest, List.length_drop, pages]
      have whole : p.entries.page start size ++ (p.entries.dropBelow start).drop size =
          p.entries.dropBelow start := List.take_append_drop size _
      refine Prod.ext (Prod.ext (congrArg Except.ok whole) rfl) ?_
      dsimp only
      omega

end Interleaving

open Interleaving

theorem readFrom_eq (states : Nat → Partition) (k : Keeper) (pages : Nat) (name : String) :
    readFrom states k pages name =
      let r := ((readPages 0 k.batchSize pages none).script k).run (answerFrom states) 0
      (r.1.1, r.2) := rfl

/-- A reading in pages of a partition that others write to meanwhile: the entries are in ascending
order of their keys; those of each page were there when it was read; and an entry that is there
whenever a page is read is in it once. If nobody writes, the whole partition is read, in one page
more than its entries fill. -/
theorem reads_what_stays (path : String) (format : Format) (batchSize pages : Nat) (name : String)
    (states : Nat → Partition) :
    let k := Keeper.new path format batchSize
    (∀ entries read, readFrom states k pages name = (.ok entries, read) →
      entries.Pairwise (fun a b => a.1 < b.1) ∧
      (∃ parts : List (List Entry), entries = parts.flatten ∧ parts.length = read ∧
        ∀ (n : Nat) (part : List Entry), parts[n]? = some part →
          ∀ entry ∈ part, (states n).entries.get? entry.1 = some entry.2) ∧
      ∀ entry : Entry, (∀ n < read, (states n).entries.get? entry.1 = some entry.2) →
        entries.count entry = 1) ∧
    ∀ p, (∀ n, states n = p) → p.entries.size / max batchSize 1 + 1 ≤ pages →
      readFrom states k pages name =
        (.ok p.entries.toList, p.entries.size / max batchSize 1 + 1) := by
  intro k
  rw [readFrom_eq]
  constructor
  · intro entries read ended
    dsimp only at ended
    generalize run : Script.run (I := keeperInterface) (answerFrom states) _ 0 = r at ended
    obtain ⟨⟨result, k'⟩, finish⟩ := r
    cases ended
    obtain ⟨parts, reads, rfl⟩ := reads_of_run run
    refine ⟨reads.sorted, ⟨parts, rfl, by simpa using reads.length, fun n part found entry mem => ?_⟩,
      fun entry stays => ?_⟩
    · simpa using reads.get? found mem
    · have once : parts.flatten.Nodup :=
        reads.sorted.imp fun {a b} lt (eq : a = b) => Std.lt_irrefl (eq ▸ lt)
      have first : ∀ key : Bytes, none = some key → key ≤ entry.1 := by
        rintro _ ⟨⟩
      exact List.count_eq_one_of_mem once (reads.mem first fun n _ => stays n)
  · intro p still enough
    have positive : 0 < k.batchSize := Nat.lt_of_lt_of_le Nat.zero_lt_one (Nat.le_max_right _ _)
    have within : (p.entries.dropBelow none).length / k.batchSize < pages := enough
    have whole := run_readPages_still still k 0 0 positive within
    rw [whole, Nat.zero_add]
    rfl

/-- In pages of one entry, while the first entry goes after it was read and another one comes behind
the last. -/
theorem reads_what_stays_between :
    let states : Nat → Partition := fun n =>
      .ofEntries "p" (if n = 0 then [([97], [1]), ([97, 0], [2])] else [([97, 0], [2]), ([98], [3])])
    readFrom states (Keeper.new "b" .cbor 0) 9 "p" =
        (.ok [([97], [1]), ([97, 0], [2]), ([98], [3])], 4) ∧
      [([97], [1]), ([97, 0], [2]), ([98], [3])].count (([97, 0], [2]) : Entry) = 1 ∧
      readFrom (fun _ => states 0) (Keeper.new "b" .cbor 0) 3 "p" =
        (.ok [([97], [1]), ([97, 0], [2])], 3) := by
  intro states
  have read : readFrom states (Keeper.new "b" .cbor 0) 9 "p" =
      (.ok [([97], [1]), ([97, 0], [2]), ([98], [3])], 4) := by rfl
  have stays := ((reads_what_stays "b" .cbor 0 9 "p" states).1 _ _ read).2.2 ([97, 0], [2])
  refine ⟨read, stays fun n _ => ?_, ?_⟩
  · by_cases first : n = 0
    · subst first
      rfl
    · simp only [states, if_neg first]
      rfl
  · have whole := (reads_what_stays "b" .cbor 0 3 "p" fun _ => states 0).2 (states 0)
      (fun _ => rfl) (by decide)
    exact whole.trans (Prod.ext (by rfl) (by decide +kernel))

end SnapshotStore
