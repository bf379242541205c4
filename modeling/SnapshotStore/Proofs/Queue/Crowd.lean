import SnapshotStore.Proofs.Crowd
import SnapshotStore.Proofs.Queue.Calls

/-!
A queue that a crowd of tasks uses. A scene is what the crowd is seen to be: beside what its tasks
share, it knows the items at their offsets, which task has put each of them and which one has removed
it.

A task is safe if it keeps scenes sound whatever the others do that spare it (`Start.Safe`). If all
tasks are safe, a crowd stays sound whoever takes turns (`Crowd.Plays.turn`).
-/

namespace SnapshotStore

variable {ν α β : Type}

/-! ## Scenes -/

/-- What is seen of a crowd. -/
structure Scene (ν : Type) where
  store : Standing Partition
  holder : Lock → Option Nat
  /-- The items that are there. -/
  live : OrderedMap Int ν
  /-- The tasks that have put an item, in the order of the items. -/
  order : List Nat
  /-- The task that has removed the item of an offset. -/
  taker : Int → Option Nat

/-- What a crowd begins with. -/
structure Start (ν : Type) where
  values : ValueCodec ν
  shards : Shards Int64
  /-- The calls of the tasks. -/
  calls : List (QueueCall ν)
  items : OrderedMap Int ν
  /-- The bound at the back. -/
  tail : Int

namespace Start

open Queue

variable (S : Start ν) {i j : Nat} {w w' w'' : Scene ν}

/-- The offset of the last item that was put. -/
def last (w : Scene ν) : Int := S.tail + w.order.length

/-- Whether the item that a task has put is at an offset. -/
def Gets (order : List Nat) (offset : Int) (i : Nat) : Prop :=
  S.tail < offset ∧ order[(offset - S.tail - 1).toNat]? = some i

/-- Whether an item was at an offset in the beginning or was put there by a task. -/
def Comes (order : List Nat) (offset : Int) (item : ν) : Prop :=
  S.items.get? offset = some item ∨
    ∃ i, S.Gets order offset i ∧ S.calls[i]? = some (.append item)

/-- What holds of all scenes. An item that was put shows once the bound has moved to it, which the
task does that holds the lock of the back. -/
structure Sound (w : Scene ν) : Prop where
  holds : Holds S.values w.store.base w.live
  head_nonneg : 0 ≤ w.store.head
  head_le : w.store.head ≤ w.store.tail + 1
  range : ∀ {offset item}, w.live.get? offset = some item →
    w.store.head ≤ offset ∧ offset ≤ S.last w
  pace : w.store.tail = S.last w ∨ w.store.tail + 1 = S.last w ∧
    ∃ i, w.order.getLast? = some i ∧ w.holder .tail = some i
  comes : ∀ {offset item}, w.live.get? offset = some item → S.Comes w.order offset item
  nodup : w.order.Nodup
  appends : ∀ i ∈ w.order, ∃ item, S.calls[i]? = some (.append item)
  taken : ∀ {offset i}, w.taker offset = some i →
    w.live.get? offset = none ∧ offset ≤ w.store.tail

/-- What the others may do to a scene while a task does nothing. -/
structure Spares (i : Nat) (w w' : Scene ν) : Prop where
  holders : ∀ lock, w'.holder lock = some i ↔ w.holder lock = some i
  head_le : w.store.head ≤ w'.store.head
  tail_le : w.store.tail ≤ w'.store.tail
  grows : w.order <+: w'.order
  head : w.holder .head = some i → w'.store.head = w.store.head
  tail : w.holder .tail = some i → w'.store.tail = w.store.tail ∧ w'.order = w.order
  shard : ∀ {offset}, w.holder (.shard (S.shards.index (key offset))) = some i →
    w'.live.get? offset = w.live.get? offset
  stays : ∀ {offset item}, w'.live.get? offset = some item →
    w.live.get? offset = some item ∨ S.last w < offset
  mine : i ∈ w'.order → i ∈ w.order
  takers : ∀ {offset j}, w.taker offset = some j → w'.taker offset = some j

variable {S}

theorem Spares.refl (i : Nat) (w : Scene ν) : S.Spares i w w :=
  ⟨fun _ => .rfl, le_rfl, le_rfl, List.prefix_rfl, fun _ => rfl, fun _ => ⟨rfl, rfl⟩, fun _ => rfl,
    .inl, id, id⟩

theorem Spares.last_le (h : S.Spares i w w') : S.last w ≤ S.last w' := by
  have := h.grows.length_le
  unfold last
  omega

theorem Spares.trans (h : S.Spares i w w') (h' : S.Spares i w' w'') : S.Spares i w w'' where
  holders := fun lock => (h'.holders lock).trans (h.holders lock)
  head_le := h.head_le.trans h'.head_le
  tail_le := h.tail_le.trans h'.tail_le
  grows := h.grows.trans h'.grows
  head := fun held => (h'.head ((h.holders _).2 held)).trans (h.head held)
  tail := fun held =>
    ⟨(h'.tail ((h.holders _).2 held)).1.trans (h.tail held).1,
      (h'.tail ((h.holders _).2 held)).2.trans (h.tail held).2⟩
  shard := fun held => (h'.shard ((h.holders _).2 held)).trans (h.shard held)
  stays := by
    intro offset item there
    rcases h'.stays there with before | behind
    · exact h.stays before
    · exact .inr (h.last_le.trans_lt behind)
  mine := h.mine ∘ h'.mine
  takers := h'.takers ∘ h.takers

/-- Whether a task that is not done holds the lock of the back if it has put an item, which is the
last one then. -/
def Attends (i : Nat) (w : Scene ν) : Prop :=
  i ∈ w.order → w.holder .tail = some i ∧ w.order.getLast? = some i

/-! ## Safe tasks -/

variable (S)

/-- Whether a task keeps scenes sound and spares the others, whatever they do that spares it, and
ends as `Q` says. -/
def Safe (i : Nat) (Q : α → Scene ν → Prop) : Script storeInterface α → Scene ν → Prop
  | .done a, w => ∀ w', S.Spares i w w' → S.Sound w' → Q a w'
  | .ask r resume, w => ∀ w', S.Spares i w w' → S.Sound w' →
    Attends i w' ∧ (r.Admitted w'.holder →
      ∃ w'', w''.store = (Operation.answer Partition.serve r w'.store).2 ∧
        w''.holder = r.holders i w'.holder ∧ S.Sound w'' ∧ (∀ j, j ≠ i → S.Spares j w' w'') ∧
        Safe i Q (resume (Operation.answer Partition.serve r w'.store).1) w'')

variable {S} {Q : α → Scene ν → Prop} {R : β → Scene ν → Prop} {p : Script storeInterface α}

theorem Safe.later (h : S.Safe i Q p w) (spares : S.Spares i w w') : S.Safe i Q p w' := by
  cases p with
  | done a => exact fun w'' spares' => h w'' (spares.trans spares')
  | ask r resume => exact fun w'' spares' => h w'' (spares.trans spares')

theorem Safe.bind {f : α → Script storeInterface β} (h : S.Safe i Q p w) (sound : S.Sound w)
    (next : ∀ a w, S.Sound w → Q a w → S.Safe i R (f a) w) : S.Safe i R (p.bind f) w := by
  induction p generalizing w with
  | done a => exact next a w sound (h w (.refl i w) sound)
  | ask r resume ih =>
    intro w' spares sound'
    obtain ⟨attends, moves⟩ := h w' spares sound'
    refine ⟨attends, fun admitted => ?_⟩
    obtain ⟨w'', store, holder, sound'', others, rest⟩ := moves admitted
    exact ⟨w'', store, holder, sound'', others, ih _ rest sound''⟩

theorem Safe.mono {Q' : α → Scene ν → Prop} (h : S.Safe i Q p w)
    (imp : ∀ a w, S.Sound w → Q a w → Q' a w) : S.Safe i Q' p w := by
  induction p generalizing w with
  | done a => exact fun w' spares sound => imp a w' sound (h w' spares sound)
  | ask r resume ih =>
    intro w' spares sound
    obtain ⟨attends, moves⟩ := h w' spares sound
    refine ⟨attends, fun admitted => ?_⟩
    obtain ⟨w'', store, holder, sound'', others, rest⟩ := moves admitted
    exact ⟨w'', store, holder, sound'', others, ih _ rest⟩

/-! ## Crowds of safe tasks -/

variable (S)

/-- Whether a task has removed what it reports to have removed, which is the item of an offset. -/
def Took (i : Nat) (offset : Int) (removal : Removal (Int × ν)) (w : Scene ν) : Prop :=
  removal.removed = true → ∃ item, removal.seen = some (offset, item) ∧ w.taker offset = some i

/-- What a task may end with. -/
def Ends (i : Nat) (call : QueueCall ν) (r : Except StoreError (QueueAnswer ν)) (w : Scene ν) :
    Prop :=
  match call with
  | .append _ => ∃ offset, r = .ok (.offset offset) ∧ S.Gets w.order offset i
  | .removeFirst _ => ∃ removal offset, r = .ok (.removal removal) ∧ Took i offset removal w
  | .removeOffset offset _ => ∃ removal, r = .ok (.removal removal) ∧ Took i offset removal w
  | .batch _ count => count = 0 ∧ r = .error (.invalidOperation .emptyBatch) ∨
    ∃ items, r = .ok (.items items) ∧ items.Pairwise (fun a b => a.1 < b.1) ∧
      ∀ entry ∈ items, S.Comes w.order entry.1 entry.2

/-- A crowd whose tasks are safe, with its scene. -/
structure Plays (c : Crowd (QueueAnswer ν)) (w : Scene ν) : Prop where
  store : c.store = w.store
  holder : c.holder = w.holder
  sound : S.Sound w
  count : c.tasks.length = S.calls.length
  tasks : ∀ {i p}, c.tasks[i]? = some p →
    ∃ call, S.calls[i]? = some call ∧ S.Safe i (S.Ends i call) p w

variable {S} {c : Crowd (QueueAnswer ν)}

/-- Whoever takes a turn, the tasks are safe after it, and the others were spared. -/
theorem Plays.turn (h : S.Plays c w) (i : Nat) :
    ∃ w', S.Plays (c.turn i) w' ∧ ∀ j, j ≠ i → S.Spares j w w' := by
  have idle : ∃ w', S.Plays c w' ∧ ∀ j, j ≠ i → S.Spares j w w' := ⟨w, h, fun j _ => .refl j w⟩
  rw [Crowd.turn]
  split
  · rename_i r resume next
    split
    · rename_i admitted
      obtain ⟨call, called, safe⟩ := h.tasks next
      obtain ⟨-, moves⟩ := safe w (.refl i w) h.sound
      rw [h.holder] at admitted
      obtain ⟨w', store, holder, sound, others, rest⟩ := moves admitted
      refine ⟨w', ⟨?_, ?_, sound, ?_, fun {j p} at' => ?_⟩, others⟩
      · rw [store, h.store]
      · rw [holder, h.holder]
      · rw [List.length_set, h.count]
      · have inside := (List.getElem?_eq_some_iff.1 next).1
        by_cases here : i = j
        · subst here
          rw [List.getElem?_set_self inside] at at'
          cases at'
          rw [h.store]
          exact ⟨call, called, rest⟩
        · rw [List.getElem?_set_ne here] at at'
          obtain ⟨call', called', safe'⟩ := h.tasks at'
          exact ⟨call', called', safe'.later (others j (Ne.symm here))⟩
    · exact idle
  · exact idle

/-- What a scene does not go back on. -/
structure Onward (w w' : Scene ν) : Prop where
  head_le : w.store.head ≤ w'.store.head
  grows : w.order <+: w'.order

/-- Whoever takes turns, the tasks are safe after that. -/
theorem Plays.play (h : S.Plays c w) (turns : List Nat) :
    ∃ w', S.Plays (c.play turns) w' ∧ Onward w w' := by
  induction turns generalizing c w with
  | nil => exact ⟨w, h, le_rfl, List.prefix_rfl⟩
  | cons i turns ih =>
    obtain ⟨w₁, h₁, others⟩ := h.turn i
    obtain ⟨w₂, h₂, onward⟩ := ih h₁
    have spared := others (i + 1) (Nat.succ_ne_self i)
    exact ⟨w₂, h₂, spared.head_le.trans onward.head_le, spared.grows.trans onward.grows⟩

end Start

end SnapshotStore
