import SnapshotStore.Proofs.Queue.Bounds
import SnapshotStore.Proofs.Queue.Line

/-!
Queues that nothing disturbs, with what their partitions hold. An append whose answer is lost may
leave an item behind the end that does not show; while nothing fails there is none, so that a
partition holds the items of the course of its queue and nothing else (`Undisturbed.holds`).
-/

namespace SnapshotStore

variable {ν α : Type}

/-- What only takes puts nothing under a key that has nothing. -/
theorem Operation.OnlyTakes.absent {op : Operation α} (h : op.OnlyTakes) {s : Standing Partition}
    {key : Bytes} (absent : s.base.entries.get? key = none) :
    (op.runAlone Partition.serve s).2.base.entries.get? key = none := by
  refine (Script.Asks.run h (J := fun s : Standing Partition => s.base.entries.get? key = none)
    (fun r s takes absent => ?_) absent).2
  cases r with
  | call c =>
    cases c with
    | put key value => exact takes.elim
    | remove removed =>
      show (s.base.remove removed).entries.get? key = none
      rw [Partition.entries_remove, OrderedMap.get?_erase, absent, ite_self]
    | get _ | contains _ | first | last | page _ _ => exact absent
  | acquire _ | release _ | head | tail | setHead _ | setTail _ => exact absent

/-- A call moves the end of a course as it moves the place of the next item in the line. -/
theorem Course.tail_next {c : Course ν} (calm : c.fates = []) (bounded : c.Bounded)
    (call : QueueCall ν) (calls : List (QueueCall ν)) :
    (c.perform call).2.tail + QueueCall.appends calls =
      c.tail + QueueCall.appends (call :: calls) := by
  have next := c.line.next_perform call calls
  rw [← line_perform calm bounded] at next
  simp only [Prod.map, line] at next
  omega

namespace Queue

variable {values : ValueCodec ν} {p : Partition} {items : OrderedMap Int ν}
  {s : Standing Partition} {c : Course ν}

/-- A queue that nothing disturbs follows a course in which no fate awaits, and behind its end there
is nothing. -/
structure Undisturbed (values : ValueCodec ν) (s : Standing Partition) (c : Course ν) : Prop where
  quiet : c.fates = []
  follows : Follows values (calm s) c
  ends : ∀ offset, c.tail < offset → offset < offsetLimit →
    s.base.entries.get? (KeyKind.signedCodec.encode (key offset)) = none

theorem undisturbed_opened (holds : Holds values p items) {start : Int} (h0 : 0 ≤ start)
    (fits : (Course.opened start items []).tail < offsetLimit) :
    Undisturbed values
      ⟨p, (Course.opened start items []).head, (Course.opened start items []).tail⟩
      (Course.opened start items []) := by
  have follows := follows_opened holds h0 fits []
  refine ⟨rfl, follows, fun offset behind room => ?_⟩
  have nonneg : 0 ≤ offset := by
    have := follows.head_nonneg
    have := follows.head_le
    omega
  rw [holds.absent_iff nonneg room, Option.eq_none_iff_forall_ne_some]
  exact fun item there => not_le.2 behind (le_opened_tail there [])

theorem Undisturbed.bounded (h : Undisturbed values s c) : c.Bounded :=
  fun _ he => h.follows.mem_live he

/-- The partition holds the items of the course. -/
theorem Undisturbed.holds (h : Undisturbed values s c) : Holds values s.base c.live := by
  obtain ⟨items, holds, live, range⟩ := h.follows.holds
  have all : items.filter (fun offset _ => decide (offset ≤ c.tail)) = items := by
    refine OrderedMap.ext (List.filter_eq_self.2 fun entry he => decide_eq_true ?_)
    obtain ⟨nonneg, room⟩ := holds.offset_range he
    refine not_lt.1 fun behind => ?_
    have absent := (holds.absent_iff nonneg room).1 (h.ends entry.1 behind room)
    rw [OrderedMap.get?_eq_some_iff.2 he] at absent
    cases absent
  rw [live, all]
  exact holds

variable (name : String) (shards : Shards Int64)

/-- A call is answered as by the course, and leaves the queue undisturbed. -/
theorem Undisturbed.perform (h : Undisturbed values s c) (call : QueueCall ν)
    (fits : call.Fits values c.tail) :
    ((ofValues name values shards).alone call s).1 = (c.perform call).1 ∧
      Undisturbed values ((ofValues name values shards).alone call s).2 (c.perform call).2 := by
  obtain ⟨answer, follows⟩ := h.follows.alone name shards call fits
  refine ⟨answer, Course.calm_perform h.quiet call, follows, fun offset behind room => ?_⟩
  have next := Course.tail_next h.quiet h.bounded call []
  cases call with
  | append item =>
    have tail : s.tail = c.tail := h.follows.tail
    have below : -offsetLimit ≤ c.tail + 1 := by
      have := h.follows.head_nonneg
      have := h.follows.head_le
      unfold offsetLimit
      omega
    simp only [QueueCall.appends, Nat.cast_zero, add_zero, zero_add, Nat.cast_one] at next
    -- The item is put at the new end, so nothing changes under the keys behind it.
    rw [alone, base_perform_append]
    refine (OrderedMap.get?_insert _ _ _ _).trans ((if_neg ?_).trans (h.ends offset ?_ room))
    · rw [tail]
      exact encode_key_ne below (by omega) room
    · omega
  | removeFirst condition | removeOffset offset condition | batch start count =>
    rw [show (Course.perform c _).2.tail = c.tail by simpa [QueueCall.appends] using next] at behind
    exact (onlyTakes_perform _ (by simp)).absent (h.ends _ behind room)

/-- While there are offsets left, a queue answers calls as its course and stays undisturbed. -/
theorem Undisturbed.step (h : Undisturbed values s c) {call : QueueCall ν}
    {calls : List (QueueCall ν)} (back : QueueCall.ReadBack values (call :: calls))
    (room : c.tail + 1 + QueueCall.appends (call :: calls) ≤ offsetLimit) :
    ((ofValues name values shards).alone call s).1 = (c.perform call).1 ∧
      Undisturbed values ((ofValues name values shards).alone call s).2 (c.perform call).2 ∧
      (c.perform call).2.tail + 1 + QueueCall.appends calls ≤ offsetLimit := by
  have next := Course.tail_next h.quiet h.bounded call calls
  obtain ⟨answer, undisturbed⟩ := h.perform name shards call (by
    rintro item rfl
    refine ⟨?_, back item List.mem_cons_self⟩
    rw [QueueCall.appends] at room
    omega)
  exact ⟨answer, undisturbed, by omega⟩

/-- Calls leave a queue undisturbed as long as there are offsets left. -/
theorem Undisturbed.run (h : Undisturbed values s c) {calls : List (QueueCall ν)}
    (back : QueueCall.ReadBack values calls)
    (room : c.tail + 1 + QueueCall.appends calls ≤ offsetLimit) :
    Undisturbed values (after (ofValues name values shards).alone calls s)
      (after (fun call c => c.perform call) calls c) := by
  induction calls generalizing s c with
  | nil => exact h
  | cons call calls ih =>
    obtain ⟨-, undisturbed, room⟩ := h.step name shards back room
    exact ih undisturbed back.tail room

/-- The end moves by one offset for each item that is appended. -/
theorem Undisturbed.tail_after (h : Undisturbed values s c) {calls : List (QueueCall ν)}
    (back : QueueCall.ReadBack values calls)
    (room : c.tail + 1 + QueueCall.appends calls ≤ offsetLimit) :
    (after (ofValues name values shards).alone calls s).tail =
      s.tail + QueueCall.appends calls := by
  induction calls generalizing s c with
  | nil => exact (Int.add_zero s.tail).symm
  | cons call calls ih =>
    have next := Course.tail_next h.quiet h.bounded call calls
    obtain ⟨-, undisturbed, room⟩ := h.step name shards back room
    have before : s.tail = c.tail := h.follows.tail
    have later : ((ofValues name values shards).alone call s).2.tail = (c.perform call).2.tail :=
      undisturbed.follows.tail
    rw [after_cons, ih undisturbed back.tail room, later, next, before]

end Queue

end SnapshotStore
