import SnapshotStore.Proofs.Queue.Agreement

/-!
Opening a queue over a partition: its bounds are set from the items that are there, or from the
offset at which it begins. From then on it follows a course (`follows_opened`).
-/

namespace SnapshotStore

variable {ν : Type}

/-- The course of a queue that is opened over items. -/
def Course.opened (start : Int) (items : OrderedMap Int ν) (fates : List Fate) : Course ν where
  live := items
  head := items.first?.elim start (·.1)
  tail := items.last?.elim (start - 1) (·.1)
  fates

namespace Queue

variable {values : ValueCodec ν} {p : Partition} {items : OrderedMap Int ν}

theorem Holds.offset_range (h : Holds values p items) {entry : Int × ν}
    (he : entry ∈ items.toList) : 0 ≤ entry.1 ∧ entry.1 < offsetLimit := by
  obtain ⟨bytes, -, key, -⟩ := h.exists_related he
  exact ⟨key.1, key.2.1⟩

/-- The items that are there are not behind the end at which a queue over them is opened. -/
theorem le_opened_tail {start offset : Int} {item : ν} (there : items.get? offset = some item)
    (fates : List Fate) : offset ≤ (Course.opened start items fates).tail := by
  have member := OrderedMap.get?_eq_some_iff.1 there
  rw [Course.opened]
  cases hl : items.last? with
  | none =>
    rw [OrderedMap.first?_eq_none_iff.1 (OrderedMap.last?_eq_none_iff.1 hl)] at member
    cases member
  | some back => exact not_lt.1 (OrderedMap.not_lt_of_last? hl member)

theorem opened_tail_lt (holds : Holds values p items) {start : Int} (h1 : start < offsetLimit)
    (fates : List Fate) : (Course.opened start items fates).tail < offsetLimit := by
  rw [Course.opened]
  cases hl : items.last? with
  | none =>
    show start - 1 < offsetLimit
    omega
  | some back => exact (holds.offset_range (List.mem_of_getLast? hl)).2

/-- A queue that nothing disturbs sets its bounds and changes nothing else. -/
theorem runAlone_recover (name : String) (shards : Shards Int64) (h : Holds values p items)
    {start : Int} (h0 : 0 ≤ start) (head tail : Int) :
    ((ofValues name values shards).recover start).runAlone Partition.serve ⟨p, head, tail⟩ =
      (.ok (), ⟨p, (Course.opened start items []).head, (Course.opened start items []).tail⟩) := by
  obtain ⟨readFirst, typedFirst⟩ := readEntry?_of_related h.first?
  obtain ⟨readLast, typedLast⟩ := readEntry?_of_related h.last?
  have first : (ofValues name values shards).first.runAlone Partition.serve ⟨p, head, tail⟩ =
      (.ok items.first?, ⟨p, head, tail⟩) := by
    have entry : (ofValues name values shards).items.first.runAlone Partition.serve ⟨p, head, tail⟩ =
        (.ok (items.first?.map typedEntry), ⟨p, head, tail⟩) := congrArg (·, _) readFirst
    rw [Queue.first, Operation.runAlone_bind_ok _ _ entry]
    exact congrArg (fun entry => (Except.ok entry, _)) typedFirst
  have last : (ofValues name values shards).last.runAlone Partition.serve ⟨p, head, tail⟩ =
      (.ok items.last?, ⟨p, head, tail⟩) := by
    have entry : (ofValues name values shards).items.last.runAlone Partition.serve ⟨p, head, tail⟩ =
        (.ok (items.last?.map typedEntry), ⟨p, head, tail⟩) := congrArg (·, _) readLast
    rw [Queue.last, Operation.runAlone_bind_ok _ _ entry]
    exact congrArg (fun entry => (Except.ok entry, _)) typedLast
  rw [recover, if_neg (not_lt.2 h0), Operation.runAlone_bind_ok _ _ first,
    Operation.runAlone_bind_ok _ _ last, Course.opened]
  cases hf : items.first? with
  | none =>
    rw [OrderedMap.last?_eq_none_iff.2 hf]
    rfl
  | some front =>
    cases hl : items.last? with
    | none =>
      rw [OrderedMap.last?_eq_none_iff.1 hl] at hf
      cases hf
    | some back => rfl

/-- A queue that is opened over items follows a course from there, whatever becomes of its calls. -/
theorem follows_opened (h : Holds values p items) {start : Int} (h0 : 0 ≤ start)
    (fits : (Course.opened start items []).tail < offsetLimit) (fates : List Fate) :
    Follows values ⟨⟨p, fates⟩, (Course.opened start items fates).head,
      (Course.opened start items fates).tail⟩ (Course.opened start items fates) := by
  have range : ∀ entry ∈ items.toList, (Course.opened start items fates).head ≤ entry.1 ∧
      entry.1 ≤ (Course.opened start items fates).tail := by
    intro entry he
    refine ⟨?_, le_opened_tail (OrderedMap.get?_eq_some_iff.2 he) fates⟩
    rw [Course.opened]
    cases hf : items.first? with
    | none =>
      rw [OrderedMap.first?_eq_none_iff.1 hf] at he
      cases he
    | some front => exact not_lt.1 (OrderedMap.not_lt_of_first? hf he)
  refine ⟨⟨items, h, ?_, fun entry he => ⟨(range entry he).1, ?_⟩⟩, rfl, rfl, rfl, ?_, ?_, fits⟩
  · refine (OrderedMap.ext (List.filter_eq_self.2 fun entry he => ?_)).symm
    exact decide_eq_true (range entry he).2
  · exact (range entry he).2.trans (by omega)
  · cases hf : items.first? with
    | none => rwa [Course.opened, hf]
    | some front =>
      rw [Course.opened, hf]
      exact (h.offset_range (OrderedMap.mem_of_first? hf)).1
  · cases hf : items.first? with
    | none =>
      rw [Course.opened, hf, OrderedMap.last?_eq_none_iff.2 hf]
      show start ≤ start - 1 + 1
      omega
    | some front =>
      have bounds := range front (OrderedMap.mem_of_first? hf)
      have hh : (Course.opened start items fates).head = front.1 := by
        rw [Course.opened, hf]
        rfl
      rw [hh]
      exact bounds.2.trans (by omega)

end Queue

end SnapshotStore
