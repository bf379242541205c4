import SnapshotStore.Proofs.Queue.Following

/-!
Calls on a queue put together from its calls on the partition. Main statement: a queue answers each
call as its course does, and goes on following it (`agrees_perform`).
-/

namespace SnapshotStore.Queue

variable {ν : Type} {values : ValueCodec ν} {s : Standing Unsteady} {c : Course ν}

theorem Follows.runAlone_isEmpty (h : Follows values s c) :
    isEmpty.runAlone Unsteady.call s = (.ok (decide (c.tail < c.head)), s) := by
  rw [← h.head, ← h.tail]
  rfl

theorem Follows.runAlone_headOffset (h : Follows values s c) :
    headOffset.runAlone Unsteady.call s = (.ok c.head, s) := by
  rw [← h.head]
  rfl

theorem Follows.runAlone_tailOffset (h : Follows values s c) :
    tailOffset.runAlone Unsteady.call s = (.ok c.tail, s) := by
  rw [← h.tail]
  rfl

/-- Once the first item is gone, the front may move behind it. -/
theorem Follows.setHead_erase {offset : Int}
    (h : Follows values s { c.pass.pass with live := c.live.erase offset })
    (least : ∀ entry ∈ c.live.toList, offset ≤ entry.1) (h0 : 0 ≤ offset)
    (ho : offset ≤ c.tail) :
    Follows values { s with head := offset + 1 }
      { c.pass.pass with live := c.live.erase offset, head := offset + 1 } := by
  refine h.setHead (fun entry he => ?_) (by omega) (by simpa using ho)
  have hle := least entry (OrderedMap.mem_of_mem_erase he)
  have hne := OrderedMap.ne_of_mem_erase he
  omega

/-- The items lie between the bounds, so an item that is removed does, too. -/
theorem Follows.bounds_of_first? (h : Follows values s c) {offset : Int} {item : ν}
    (first : c.live.first? = some (offset, item)) : 0 ≤ offset ∧ offset ≤ c.tail := by
  have bounds := h.mem_live (OrderedMap.mem_of_first? first)
  exact ⟨h.head_nonneg.trans bounds.1, bounds.2⟩

variable (name : String) (shards : Shards Int64)

/-! ## Each call -/

/-- Behind the last item an item is put, or it is not; either way it shows only once the bound has
moved. -/
theorem agrees_append (h : Follows values s c) {item : ν} (room : c.tail + 1 < offsetLimit)
    (back : values.decode (values.encode item) = .ok item) :
    Agrees values (((ofValues name values shards).perform (.append item)).runAlone Unsteady.call s)
      (c.perform (.append item)) := by
  obtain ⟨items, holds, live, range⟩ := h.holds
  have head_nonneg := h.head_nonneg
  have head_le := h.head_le
  have holds' : Holds values
      (s.base.partition.put (KeyKind.signedCodec.encode (key (c.tail + 1))) (values.encode item))
      (items.insert (c.tail + 1) item) :=
    holds.put (by omega) room back
  have range' : ∀ entry ∈ (items.insert (c.tail + 1) item).toList,
      c.head ≤ entry.1 ∧ entry.1 ≤ c.tail + 1 := by
    intro entry he
    rcases OrderedMap.mem_insert he with rfl | he
    · exact ⟨head_le, le_refl _⟩
    · exact range entry he
  have next := h.next_eq
  rw [perform, append, Operation.runAlone_withLock_bind, bind_assoc,
    Operation.runAlone_bind_ok _ _ h.runAlone_tailOffset]
  dsimp only
  rw [bind_assoc, EntityStore.put, EntityStore.locked, Operation.runAlone_withLock_bind, ofValues, Layout.put,
    Operation.runAlone_bind, Operation.runAlone_call, Unsteady.call, next, Course.perform,
    Course.once]
  cases c.next with
  | done =>
    refine ⟨rfl, ⟨_, holds', ?_, fun entry he => ?_⟩, h.head, rfl, congrArg List.tail h.fates,
      head_nonneg, ?_, room⟩
    · show c.live.insert (c.tail + 1) item =
        (items.insert (c.tail + 1) item).filter fun offset _ => decide (offset ≤ c.tail + 1)
      refine OrderedMap.ext_get? fun offset => ?_
      rw [live, OrderedMap.get?_insert, OrderedMap.get?_filter, OrderedMap.get?_filter,
        OrderedMap.get?_insert]
      by_cases he : c.tail + 1 = offset
      · simp [he]
      · have hle : offset ≤ c.tail ↔ offset ≤ c.tail + 1 := by omega
        simp [he, hle]
    · have := range' entry he
      exact ⟨this.1, by show entry.1 ≤ c.tail + 1 + 1; omega⟩
    · show c.head ≤ c.tail + 1 + 1
      omega
  | refused e => exact ⟨rfl, h.passed⟩
  | lost e =>
    refine ⟨rfl, ⟨_, holds', ?_, range'⟩, h.head, h.tail, congrArg List.tail h.fates, head_nonneg,
      head_le, h.tail_lt⟩
    rw [OrderedMap.filter_insert_of_not _ _ _ (by simp)]
    exact live

theorem agrees_removeFirst (h : Follows values s c) (condition : Int → ν → Bool) :
    Agrees values (((ofValues name values shards).perform (.removeFirst condition)).runAlone
      Unsteady.call s) (c.perform (.removeFirst condition)) := by
  rw [perform, removeFirst, bind_assoc, Operation.runAlone_bind_ok _ _ h.runAlone_isEmpty,
    Course.perform]
  by_cases empty : c.tail < c.head
  · rw [if_pos empty, decide_eq_true empty]
    exact ⟨rfl, h⟩
  rw [if_neg empty, decide_eq_false empty, if_neg Bool.false_ne_true,
    Operation.runAlone_withLock_bind, bind_assoc,
    Operation.runAlone_bind_ok _ _ h.runAlone_isEmpty, decide_eq_false empty,
    if_neg Bool.false_ne_true, bind_assoc]
  refine agrees_first h name shards fun entry hentry => ?_
  rw [Course.pass_live]
  cases entry with
  | none =>
    have first : c.live.first? = none := by
      rcases hentry with first | ⟨first, -⟩ <;> exact first
    rw [first]
    exact ⟨rfl, h.passed⟩
  | some entry =>
    obtain ⟨offset, item⟩ := entry
    simp only [bind_assoc]
    rw [Operation.runAlone_bind_ok _ _ h.passed.runAlone_tailOffset, Course.pass_tail]
    rcases hentry with first | ⟨first, e, he, behind⟩
    · obtain ⟨h0, ho⟩ := h.bounds_of_first? first
      rw [first, if_neg (by omega), bind_assoc]
      refine agrees_remove name shards h.passed h0 ho condition (fun _ _ => rfl)
        fun item s' taken => ⟨rfl, taken.setHead_erase (fun e he => ?_) h0 ho⟩
      exact not_lt.1 (OrderedMap.not_lt_of_first? first he)
    · cases he
      rw [first, if_pos behind]
      exact ⟨rfl, h.passed⟩

theorem agrees_removeOffset (h : Follows values s c) (offset : Int)
    (condition : Int → ν → Bool) :
    Agrees values (((ofValues name values shards).perform
      (.removeOffset offset condition)).runAlone Unsteady.call s)
      (c.perform (.removeOffset offset condition)) := by
  rw [perform, removeOffset, bind_assoc, Operation.runAlone_bind_ok _ _ h.runAlone_isEmpty,
    Course.perform]
  by_cases empty : c.tail < c.head
  · rw [decide_eq_true empty, if_pos rfl, if_pos (.inl empty)]
    exact ⟨rfl, h⟩
  rw [decide_eq_false empty, if_neg Bool.false_ne_true, bind_assoc,
    Operation.runAlone_bind_ok _ _ h.runAlone_headOffset]
  by_cases before : offset < c.head
  · rw [if_pos before, if_pos (.inr (.inl before))]
    exact ⟨rfl, h⟩
  rw [if_neg before, bind_assoc, Operation.runAlone_bind_ok _ _ h.runAlone_tailOffset]
  by_cases behind : c.tail < offset
  · rw [if_pos behind, if_pos (.inr (.inr behind))]
    exact ⟨rfl, h⟩
  have h0 : 0 ≤ offset := h.head_nonneg.trans (not_lt.1 before)
  have ho : offset ≤ c.tail := not_lt.1 behind
  have inside : ¬(c.tail < c.head ∨ offset < c.head ∨ c.tail < offset) := by omega
  rw [if_neg behind, bind_assoc, Operation.runAlone_bind_ok _ _ h.runAlone_headOffset,
    if_neg inside]
  by_cases front : offset = c.head
  · rw [if_pos front, Operation.runAlone_withLock_bind, bind_assoc,
      Operation.runAlone_bind_ok _ _ h.runAlone_headOffset, if_neg (not_not.2 front), bind_assoc]
    refine agrees_remove name shards h h0 ho condition (fun _ _ => rfl) fun item s' taken => ?_
    have moves : offset = ({ c.pass.pass with live := c.live.erase offset } : Course ν).head := front
    rw [if_pos moves]
    refine ⟨rfl, taken.setHead_erase (fun entry he => ?_) h0 ho⟩
    rw [front]
    exact (h.mem_live he).1
  · rw [if_neg front, bind_assoc, Operation.runAlone_bind_ok _ _ h.runAlone_tailOffset]
    -- With or without the lock of the back, nothing moves.
    have gap := agrees_remove name shards h h0 ho condition
      (f := fun removal => pure (.removal removal))
      (k := fun c => if offset = c.head then { c with head := offset + 1 } else c)
      (fun _ _ => rfl) fun item s' taken => ⟨rfl, by rwa [if_neg (by exact front)]⟩
    by_cases back : offset = c.tail
    · rw [if_pos back, Operation.runAlone_withLock_bind]
      exact gap
    · rw [if_neg back]
      exact gap

/-- A page of items is read; what lies behind the last item does not count. -/
theorem agrees_batch (h : Follows values s c) (start : Int) (count : Nat) :
    Agrees values (((ofValues name values shards).perform (.batch start count)).runAlone
      Unsteady.call s) (c.perform (.batch start count)) := by
  rw [perform, batch, Course.perform]
  by_cases empty : count = 0
  · rw [if_pos empty, if_pos empty]
    exact ⟨rfl, h⟩
  rw [if_neg empty, if_neg empty, bind_assoc, Operation.runAlone_bind_ok _ _ h.runAlone_headOffset,
    bind_assoc, Operation.runAlone_bind_ok _ _ h.runAlone_tailOffset]
  by_cases gone : c.tail < c.head
  · rw [if_pos gone, if_pos (gone.trans_le (le_max_right _ _))]
    exact ⟨rfl, h⟩
  rw [if_neg gone]
  dsimp only
  by_cases behind : c.tail < max start c.head
  · rw [if_pos behind, if_pos behind]
    exact ⟨rfl, h⟩
  rw [if_neg behind, if_neg behind, bind_assoc]
  obtain ⟨items, holds, live, -⟩ := h.holds
  have hk : IsKeyOf (KeyKind.signedCodec.encode (key (max start c.head))) (max start c.head) :=
    ⟨h.head_nonneg.trans (le_max_right _ _), by have := h.tail_lt; omega, rfl⟩
  have related := holds.page orderFaithful_isKeyOf hk count
  refine agrees_read h rfl (a := (items.page (some (max start c.head)) count).map typedEntry)
    (fun s' => congrArg (·, s') (readEntries_of_related related)) ⟨?_, h.passed⟩
  show Except.ok (QueueAnswer.items (List.takeWhile _ _)) =
    Except.ok (.items (c.live.page (some (max start c.head)) count))
  rw [offsetEntry_typedEntry related, live, OrderedMap.page_filter_le _ (not_lt.1 behind)]

/-- The answers of a queue are those of its course, and the queue follows it after each call. An
append needs an offset that is left, and an item that is read back as it is. -/
theorem agrees_perform (h : Follows values s c) (call : QueueCall ν)
    (fits : call.Fits values c.tail) :
    Agrees values (((ofValues name values shards).perform call).runAlone Unsteady.call s)
      (c.perform call) := by
  cases call with
  | append item => exact agrees_append name shards h (fits item rfl).1 (fits item rfl).2
  | removeFirst condition => exact agrees_removeFirst name shards h condition
  | removeOffset offset condition => exact agrees_removeOffset name shards h offset condition
  | batch start count => exact agrees_batch name shards h start count

end SnapshotStore.Queue
