import SnapshotStore.Proofs.Queue.Crowd
import SnapshotStore.Proofs.Queue.Opening

/-!
Turns of the tasks of a crowd. Each request that changes something is a step between scenes that keeps
them sound and spares the other tasks, because the task holds the lock which that takes.
-/

namespace SnapshotStore

variable {ν : Type}

namespace Scene

variable (w : Scene ν)

/-- A task gets a lock. -/
def acquire (i : Nat) (lock : Lock) : Scene ν :=
  { w with holder := Function.update w.holder lock (some i) }

def release (lock : Lock) : Scene ν := { w with holder := Function.update w.holder lock none }

def setHead (offset : Int) : Scene ν := { w with store.head := offset }

def setTail (offset : Int) : Scene ν := { w with store.tail := offset }

/-- A task puts an item. -/
def put (S : Start ν) (i : Nat) (offset : Int) (item : ν) : Scene ν :=
  { w with
    store.base := w.store.base.put (KeyKind.signedCodec.encode (Queue.key offset))
      (S.values.encode item)
    live := w.live.insert offset item
    order := w.order ++ [i] }

/-- A task removes the item of an offset. -/
def take (i : Nat) (offset : Int) : Scene ν :=
  { w with
    store.base := w.store.base.remove (KeyKind.signedCodec.encode (Queue.key offset))
    live := w.live.erase offset
    taker := Function.update w.taker offset (some i) }

@[simp] theorem holder_acquire (i : Nat) (lock : Lock) :
    (w.acquire i lock).holder = Function.update w.holder lock (some i) := rfl

theorem held_acquire (i : Nat) (lock : Lock) : (w.acquire i lock).holder lock = some i :=
  Function.update_self _ _ _

@[simp] theorem holder_release (lock : Lock) :
    (w.release lock).holder = Function.update w.holder lock none := rfl

@[simp] theorem taker_take (i : Nat) (offset : Int) :
    (w.take i offset).taker = Function.update w.taker offset (some i) := rfl

end Scene

namespace Start

open Queue OrderedMap

variable {S : Start ν} {i j : Nat} {w w' : Scene ν} {lock : Lock} {offset : Int} {item : ν}

/-! ## Scenes -/

theorem Gets.mono {order order' : List Nat} (h : S.Gets order offset i)
    (grows : order <+: order') : S.Gets order' offset i := by
  obtain ⟨more, rfl⟩ := grows
  refine ⟨h.1, ?_⟩
  rw [List.getElem?_append_left (List.getElem?_eq_some_iff.1 h.2).1, h.2]

theorem Comes.mono {order order' : List Nat} (h : S.Comes order offset item)
    (grows : order <+: order') : S.Comes order' offset item :=
  h.imp_right fun ⟨i, gets, call⟩ => ⟨i, gets.mono grows, call⟩

theorem gets_last (order : List Nat) (i : Nat) :
    S.Gets (order ++ [i]) (S.tail + order.length + 1) i := by
  refine ⟨by omega, ?_⟩
  rw [show (S.tail + order.length + 1 - S.tail - 1).toNat = order.length by omega]
  exact List.getElem?_concat_length

theorem Sound.tail_le_last (h : S.Sound w) : w.store.tail ≤ S.last w := by
  rcases h.pace with same | ⟨next, -⟩ <;> omega

theorem Sound.nonneg (h : S.Sound w) (there : w.live.get? offset = some item) : 0 ≤ offset :=
  h.head_nonneg.trans (h.range there).1

/-! ## Steps -/

/-- What a task may do to a scene. -/
structure Step (S : Start ν) (i : Nat) (w w' : Scene ν) : Prop where
  sound : S.Sound w'
  others : ∀ j, j ≠ i → S.Spares j w w'

theorem Step.refl (h : S.Sound w) : S.Step i w w := ⟨h, fun j _ => .refl j w⟩

/-- A task that holds a lock does not share it. -/
theorem not_held (held : w.holder lock = some i) (other : j ≠ i) : w.holder lock ≠ some j := by
  rw [held]
  rintro ⟨⟩
  exact other rfl

theorem step_acquire (h : S.Sound w) (free : w.holder lock = none) :
    S.Step i w (w.acquire i lock) := by
  refine ⟨{ h with pace := h.pace.imp_right fun ⟨next, j, last, held⟩ => ⟨next, j, last, ?_⟩ },
    fun j other => { Spares.refl j w with holders := fun lock' => ?_ }⟩
  · rw [Scene.holder_acquire, Function.update_of_ne, held]
    rintro rfl
    rw [free] at held
    cases held
  · rw [Scene.holder_acquire]
    by_cases here : lock' = lock
    · rw [here, Function.update_self, free]
      simpa using other.symm
    · rw [Function.update_of_ne here]

/-- The lock of the back is given up once the bound has moved to the last item. -/
theorem step_release (h : S.Sound w) (held : w.holder lock = some i)
    (settled : lock = .tail → w.store.tail = S.last w) : S.Step i w (w.release lock) := by
  refine ⟨{ h with pace := ?_ }, fun j other => { Spares.refl j w with holders := fun lock' => ?_ }⟩
  · by_cases back : lock = .tail
    · exact .inl (settled back)
    · refine h.pace.imp_right fun ⟨next, j, last, held⟩ => ⟨next, j, last, ?_⟩
      rw [Scene.holder_release, Function.update_of_ne (Ne.symm back), held]
  · rw [Scene.holder_release]
    by_cases here : lock' = lock
    · rw [here, Function.update_self]
      simp [not_held held other]
    · rw [Function.update_of_ne here]

theorem step_setHead (h : S.Sound w) (held : w.holder .head = some i)
    (later : w.store.head ≤ offset) (le : offset ≤ w.store.tail + 1)
    (least : ∀ {k item}, w.live.get? k = some item → offset ≤ k) :
    S.Step i w (w.setHead offset) where
  sound := { h with
    head_nonneg := h.head_nonneg.trans later
    head_le := le
    range := fun there => ⟨least there, (h.range there).2⟩ }
  others := fun j other => { Spares.refl j w with
    head_le := later
    head := fun held' => absurd held' (not_held held other) }

theorem step_setTail (h : S.Sound w) (held : w.holder .tail = some i) :
    S.Step i w (w.setTail (S.last w)) where
  sound := { h with
    head_le := h.head_le.trans (Int.add_le_add_right h.tail_le_last 1)
    pace := .inl rfl
    taken := fun taken => ⟨(h.taken taken).1, (h.taken taken).2.trans h.tail_le_last⟩ }
  others := fun j other => { Spares.refl j w with
    tail_le := h.tail_le_last
    tail := fun held' => absurd held' (not_held held other) }

/-- A key whose lock a task holds is not one whose lock another one holds. -/
theorem ne_of_held {k : Int} (held : w.holder (.shard (S.shards.index (key offset))) = some i)
    (other : j ≠ i) (held' : w.holder (.shard (S.shards.index (key k))) = some j) : offset ≠ k := by
  rintro rfl
  exact not_held held other held'

/-! ## Putting and removing -/

theorem last_put : S.last (w.put S i offset item) = S.last w + 1 := by
  show S.tail + (w.order ++ [i]).length = S.tail + w.order.length + 1
  rw [List.length_append, List.length_singleton]
  omega

theorem get?_put (k : Int) : (w.put S i offset item).live.get? k =
    if offset = k then some item else w.live.get? k :=
  get?_insert _ _ _ _

theorem get?_take (k : Int) : (w.take i offset).live.get? k =
    if offset = k then none else w.live.get? k :=
  get?_erase _ _ _

theorem get?_of_take {k : Int} (there : (w.take i offset).live.get? k = some item) :
    w.live.get? k = some item := by
  rw [get?_take] at there
  split at there
  · cases there
  · exact there

/-- An item is put behind the last one by a task that holds the lock of the back. -/
theorem Sound.put (h : S.Sound w) (back : w.holder .tail = some i)
    (settled : w.store.tail = S.last w) (fresh : i ∉ w.order)
    (call : S.calls[i]? = some (.append item)) (room : S.last w + 1 < offsetLimit)
    (reads : IsItemOf S.values (S.values.encode item) item) :
    S.Sound (w.put S i (S.last w + 1) item) := by
  have head_le := h.head_le
  refine { h with
    holds := ?_
    range := ?_
    pace := ?_
    comes := ?_
    nodup := ?_
    appends := ?_
    taken := ?_ }
  · exact h.holds.put (h.head_nonneg.trans (settled ▸ head_le)) room reads
  · intro k found there
    rw [get?_put] at there
    rw [last_put]
    show w.store.head ≤ k ∧ k ≤ _
    split at there
    · omega
    · have := h.range there
      omega
  · exact .inr ⟨by rw [last_put, ← settled]; rfl, i, List.getLast?_concat, back⟩
  · intro k found there
    rw [get?_put] at there
    split at there
    · rename_i here
      cases there
      exact .inr ⟨i, here ▸ gets_last w.order i, call⟩
    · exact (h.comes there).mono (List.prefix_append _ _)
  · exact (List.perm_append_singleton i w.order).nodup_iff.2 (List.nodup_cons.2 ⟨fresh, h.nodup⟩)
  · intro j among
    rcases List.mem_append.1 among with before | new
    · exact h.appends j before
    · exact ⟨item, List.mem_singleton.1 new ▸ call⟩
  · intro k j taken
    obtain ⟨gone, le⟩ := h.taken taken
    rw [get?_put, if_neg (by omega)]
    exact ⟨gone, le⟩

theorem step_put (h : S.Sound w) (back : w.holder .tail = some i) (settled : w.store.tail = S.last w)
    (held : w.holder (.shard (S.shards.index (key (S.last w + 1)))) = some i)
    (fresh : i ∉ w.order) (call : S.calls[i]? = some (.append item))
    (room : S.last w + 1 < offsetLimit) (reads : IsItemOf S.values (S.values.encode item) item) :
    S.Step i w (w.put S i (S.last w + 1) item) := by
  refine ⟨h.put back settled fresh call room reads, fun j other => ?_⟩
  refine { Spares.refl (S := S) j w with
    grows := List.prefix_append _ _
    tail := ?_
    shard := ?_
    stays := ?_
    mine := ?_ }
  · exact fun held' => absurd held' (not_held back other)
  · intro k held'
    rw [get?_put, if_neg (ne_of_held held other held')]
  · intro k found there
    rw [get?_put] at there
    split at there
    · exact .inr (by omega)
    · exact .inl there
  · intro among
    rcases List.mem_append.1 among with before | new
    · exact before
    · exact absurd (List.mem_singleton.1 new) other

theorem Sound.take (h : S.Sound w) (there : w.live.get? offset = some item)
    (le : offset ≤ w.store.tail) : S.Sound (w.take i offset) := by
  refine { h with
    holds := ?_
    range := fun there' => h.range (get?_of_take there')
    comes := fun there' => h.comes (get?_of_take there')
    taken := ?_ }
  · have limit := (h.holds.offset_range (get?_eq_some_iff.1 there)).2
    show Matches _ _ (Partition.remove _ _).entries _
    rw [Partition.entries_remove]
    exact h.holds.erase orderFaithful_isKeyOf ⟨h.nonneg there, limit, rfl⟩
  · intro k j taken
    rw [get?_take]
    by_cases here : offset = k
    · rw [if_pos here]
      exact ⟨rfl, here ▸ le⟩
    · rw [if_neg here]
      rw [Scene.taker_take, Function.update_of_ne (Ne.symm here)] at taken
      exact h.taken taken

/-- A task removes an item, holding the lock of its key. -/
theorem step_take (h : S.Sound w) (there : w.live.get? offset = some item)
    (held : w.holder (.shard (S.shards.index (key offset))) = some i)
    (le : offset ≤ w.store.tail) : S.Step i w (w.take i offset) := by
  refine ⟨h.take there le, fun j other => ?_⟩
  refine { Spares.refl (S := S) j w with
    shard := ?_
    stays := fun there' => .inl (get?_of_take there')
    takers := ?_ }
  · intro k held'
    rw [get?_take, if_neg (ne_of_held held other held')]
  · intro k j' taken
    rwa [Scene.taker_take, Function.update_of_ne]
    rintro rfl
    rw [(h.taken taken).1] at there
    cases there

end Start

end SnapshotStore
