import SnapshotStore.Proofs.Queue.Sharing
import Mathlib.Data.List.Perm.Subperm

/-!
What each call on a queue does as a task of a crowd. A call that finds the front takes its lock before
it looks, so that the bound moves behind an item only once the task has removed this item and nothing
is before it; an append holds the lock of the back from when it reads the bound until it has moved
it. Main statement: each task is safe (`Start.safe_perform`).
-/

namespace SnapshotStore

variable {ν : Type}

namespace QueueCall

/-- Whether a call appends an item. -/
def isAppend : QueueCall ν → Bool
  | append _ => true
  | removeFirst _ | removeOffset _ _ | batch _ _ => false

theorem appends_eq_countP (calls : List (QueueCall ν)) : appends calls = calls.countP isAppend := by
  induction calls with
  | nil => rfl
  | cons call calls ih =>
    cases call <;> simp [appends, isAppend, ih, List.countP_cons]

/-- There are no more tasks that append than calls that do. -/
theorem length_le_appends {calls : List (QueueCall ν)} {tasks : List Nat} (nodup : tasks.Nodup)
    (appending : ∀ i ∈ tasks, ∃ item, calls[i]? = some (append item)) :
    tasks.length ≤ appends calls := by
  have among : tasks ⊆ calls.findIdxs isAppend := by
    intro i task
    obtain ⟨item, call⟩ := appending i task
    obtain ⟨inside, call⟩ := List.getElem?_eq_some_iff.1 call
    rw [List.mem_findIdxs_iff_pos_getElem inside, call]
    rfl
  rw [appends_eq_countP, ← List.length_findIdxs (s := 0)]
  exact (List.subperm_of_subset nodup among).length_le

end QueueCall

namespace Start

open Queue Operation

variable (S : Start ν)

/-- Whether each item that is appended is read back, and there is an offset for all of them and one
behind them. -/
structure Fits : Prop where
  back : QueueCall.ReadBack S.values S.calls
  room : S.tail + 1 + QueueCall.appends S.calls < offsetLimit

variable {S} {i : Nat} {w : Scene ν} {offset : Int} {F : Scene ν → Prop}

theorem Sound.last_lt (h : S.Sound w) (fits : S.Fits) : S.last w + 1 < offsetLimit := by
  have counted := QueueCall.length_le_appends h.nodup h.appends
  have room := fits.room
  unfold last
  omega

/-- There is an offset for the item of a task that has put none. -/
theorem Sound.next_lt (h : S.Sound w) (fits : S.Fits) {item : ν}
    (call : S.calls[i]? = some (.append item)) (fresh : i ∉ w.order) :
    S.last w + 1 < offsetLimit := by
  have counted : (i :: w.order).length ≤ QueueCall.appends S.calls := by
    refine QueueCall.length_le_appends (List.nodup_cons.2 ⟨fresh, h.nodup⟩) fun j among => ?_
    rcases List.mem_cons.1 among with rfl | before
    · exact ⟨item, call⟩
    · exact h.appends j before
  have room := fits.room
  rw [List.length_cons] at counted
  unfold last
  omega

theorem Sound.isKeyOf (h : S.Sound w) (fits : S.Fits) (nonneg : 0 ≤ offset)
    (le : offset ≤ w.store.tail) : IsKeyOf (KeyKind.signedCodec.encode (key offset)) offset :=
  ⟨nonneg, (le.trans h.tail_le_last).trans_lt ((lt_add_one _).trans (h.last_lt fits)), rfl⟩

/-- Who has removed nothing reports nothing. -/
theorem took_of_kept {removal : Removal (Int × ν)} (kept : removal.removed = false) :
    Took i offset removal w :=
  fun removed => absurd (kept.symm.trans removed) Bool.false_ne_true

theorem took_nothing : Took i offset (nothing : Removal (Int × ν)) w := took_of_kept rfl

variable (name : String)

/-! ## Removing -/

/-- A removal as the queue reports it. -/
def report (offset : Int) (removal : Removal ν) : Removal (Int × ν) :=
  ⟨removal.seen.map (offset, ·), removal.removed⟩

section RemoveEntry

variable (fits : S.Fits) (quiet : S.Quiet i) (frame : S.Frame i F)

include quiet frame in
/-- The item that was found is removed. -/
theorem does_takeOut (offset : Int) (item : ν) :
    S.Does i (fun w => F w ∧ S.Holding i offset w ∧ w.live.get? offset = some item)
      (do
        Layout.remove ⟨KeyKind.signedCodec, S.values⟩ (key offset)
        pure ⟨some item, true⟩)
      (fun removal w => F w ∧ S.Holding i offset w ∧ Took i offset (report offset removal) w) := by
  refine Does.bind
    (Q := fun _ w => F w ∧ S.Holding i offset w ∧ Took i offset (report offset ⟨some item, true⟩) w)
    (does_call (quiet.steady ?_) (fun _ => ?_) fun w sound ⟨framed, holding, found⟩ => ?_)
    fun _ => does_pure (fun _ _ h => h) ?_
  · exact frame.lasts.and (lasts_found offset (some item))
  · exact frame.lasts.and ((lasts_holding offset).and (lasts_took offset _))
  · refine ⟨w.take i offset, rfl, rfl, step_take sound found holding.held holding.reached, ?_⟩
    exact ⟨frame.take framed, ⟨holding.held, holding.reached⟩,
      fun _ => ⟨item, rfl, Function.update_self _ _ _⟩⟩
  · exact frame.lasts.and ((lasts_holding offset).and (lasts_took offset _))

include fits quiet frame in
/-- The item of an offset is removed if it is there and satisfies a condition. -/
theorem does_removeIf (nonneg : 0 ≤ offset) (condition : ν → Bool) :
    S.Does i (fun w => F w ∧ offset ≤ w.store.tail)
      ((ofValues name S.values S.shards).items.removeIf (key offset) condition)
      (fun removal w => F w ∧ Took i offset (report offset removal) w) := by
  have lasts : ∀ removal, S.Lasts i fun w =>
      F w ∧ S.Holding i offset w ∧ Took i offset (report offset removal) w := fun _ =>
    frame.lasts.and ((lasts_holding offset).and (lasts_took offset _))
  have steady : S.Steady i fun w => F w ∧ S.Holding i offset w :=
    quiet.steady (frame.lasts.and (lasts_holding offset))
  have found := fun found => frame.lasts.and (lasts_found (S := S) (i := i) offset found)
  refine does_withLock (quiet.steady (frame.lasts.and (lasts_reached offset)))
    (fun w _ _ h => ⟨frame.acquire h.1, w.held_acquire i _, h.2⟩)
    ((does_read steady found (fun _ => rfl) fun w sound h => ?_).bind fun found => ?_)
    (fun removal => quiet.steady (lasts removal))
    (fun removal w h => ⟨h.2.1.held, nofun⟩)
    (fun removal w _ h => ⟨frame.release h.1, h.2.2⟩)
    fun removal => frame.lasts.and (lasts_took offset _)
  · have related := sound.holds.get? orderFaithful_isKeyOf
      (sound.isKeyOf fits nonneg h.2.reached)
    exact ⟨_, readValue?_of_related related, h.1, h.2, rfl⟩
  · cases found with
    | none => exact does_pure (fun _ _ h => ⟨h.1, h.2.1, took_of_kept rfl⟩) (lasts _)
    | some item =>
      dsimp only
      split
      · exact does_takeOut quiet frame offset item
      · exact does_pure (fun _ _ h => ⟨h.1, h.2.1, took_of_kept rfl⟩) (lasts _)

include fits quiet frame in
theorem does_removeEntry (nonneg : 0 ≤ offset) (condition : Int → ν → Bool) :
    S.Does i (fun w => F w ∧ offset ≤ w.store.tail)
      ((ofValues name S.values S.shards).removeEntry offset condition)
      (fun removal w => F w ∧ Took i offset removal w) :=
  (does_removeIf name fits quiet frame nonneg (condition offset)).map fun _ =>
    frame.lasts.and (lasts_took offset _)

end RemoveEntry

section Removals

variable (fits : S.Fits) (quiet : S.Quiet i)

include fits quiet in
/-- The front moves behind an item that was removed, if nothing is before it. -/
theorem does_removeFront (offset : Int) (condition : Int → ν → Bool) :
    S.Does i (fun w => S.Front i offset w ∧ offset ≤ w.store.tail)
      (do
        let removal ← (ofValues name S.values S.shards).removeEntry offset condition
        if removal.removed then Operation.ask (.setHead (offset + 1))
        pure removal)
      (fun removal w => w.holder .head = some i ∧ Took i offset removal w) := by
  have lasts : ∀ removal : Removal (Int × ν), S.Lasts i fun w =>
      w.holder .head = some i ∧ Took i offset removal w := fun removal =>
    (lasts_held _).and (lasts_took offset removal)
  intro w sound h
  have nonneg : 0 ≤ offset := sound.head_nonneg.trans h.1.head_le
  refine ((does_removeEntry name fits quiet (frame_front offset) nonneg condition).bind
    fun removal => ?_) w sound h
  split
  · rename_i removed
    refine Does.bind (Q := fun _ w => w.holder .head = some i ∧ Took i offset removal w)
      (does_ask (quiet.steady ((lasts_front offset).and (lasts_took offset removal)))
        (fun _ => lasts removal) fun w sound ⟨front, took⟩ _ => ?_)
      fun _ => does_pure (fun _ _ h => h) (lasts removal)
    obtain ⟨item, -, taken⟩ := took removed
    obtain ⟨gone, reached⟩ := sound.taken taken
    refine ⟨w.setHead (offset + 1), rfl, rfl, step_setHead sound front.held ?_ ?_ ?_, front.held,
      took⟩
    · have := front.head_le
      omega
    · omega
    · intro k item there
      have le := front.least there
      have ne : offset ≠ k := by
        rintro rfl
        rw [gone] at there
        cases there
      omega
  · exact does_pure (fun _ _ h => ⟨h.1.held, h.2⟩) (lasts removal)

/-- The first entry of the partition is the first item. -/
theorem does_first {P : Scene ν → Prop} {Q : Option (Int × ν) → Scene ν → Prop}
    (steady : S.Steady i P) (lasts : ∀ found, S.Lasts i (Q found))
    (gives : ∀ w, S.Sound w → P w → Q w.live.first? w) :
    S.Does i P (ofValues name S.values S.shards).first Q := by
  refine Does.map (does_read (Q := fun entry : Option (Int64 × ν) => Q (entry.map offsetEntry)) steady
    (fun _ => lasts _) (fun _ => rfl) fun w sound h => ?_) lasts
  obtain ⟨read, typed⟩ := readEntry?_of_related sound.holds.first?
  refine ⟨_, read, ?_⟩
  rw [typed]
  exact gives w sound h

theorem Sound.front (h : S.Sound w) (held : w.holder .head = some i) {entry : Int × ν}
    (first : w.live.first? = some entry) : S.Front i entry.1 w := by
  have there := OrderedMap.get?_eq_some_iff.2 (OrderedMap.mem_of_first? first)
  refine ⟨held, (h.range there).1, (h.range there).2, fun there' => ?_⟩
  exact not_lt.1 (OrderedMap.not_lt_of_first? first (OrderedMap.get?_eq_some_iff.1 there'))

include fits quiet in
theorem does_removeFirst (condition : Int → ν → Bool) :
    S.Does i (fun _ => True) ((ofValues name S.values S.shards).removeFirst condition)
      (fun removal w => ∃ offset, Took i offset removal w) := by
  have lasts : ∀ removal : Removal (Int × ν), S.Lasts i fun w => ∃ offset, Took i offset removal w :=
    fun removal => .some fun offset => lasts_took offset removal
  have held : S.Lasts i fun w => w.holder .head = some i := lasts_held _
  have ended := fun removal => held.and (lasts removal)
  refine (does_isEmpty (quiet.steady (lasts_const True))).bind fun _ => ?_
  split
  · exact does_pure (fun _ _ _ => ⟨0, took_nothing⟩) (lasts _)
  refine does_withLock (H := fun w => w.holder .head = some i) (quiet.steady (lasts_const True))
    (fun w _ _ _ => w.held_acquire i _) ?_ (fun removal => quiet.steady (ended removal))
    (fun _ _ h => ⟨h.1, nofun⟩) (fun _ _ _ h => h.2) lasts
  refine (does_isEmpty (quiet.steady held)).bind fun _ => ?_
  split
  · exact does_pure (fun _ _ h => ⟨h, 0, took_nothing⟩) (ended _)
  have front : ∀ found : Option (Int × ν), S.Lasts i fun w =>
      w.holder .head = some i ∧ ∀ entry, found = some entry → S.Front i entry.1 w := fun _ =>
    held.and (.all fun entry => .imp _ (lasts_front entry.1))
  refine (does_first name (quiet.steady held) front
    fun w sound h => ⟨h, fun _ => sound.front h⟩).bind fun found => ?_
  cases found with
  | none => exact does_pure (fun _ _ h => ⟨h.1, 0, took_nothing⟩) (ended _)
  | some entry =>
    refine (does_tailOffset (quiet.steady (front _))
      (Q := fun tail w => S.Front i entry.1 w ∧ tail ≤ w.store.tail)
      (fun tail => (lasts_front _).and (lasts_reached tail))
      fun w _ h => ⟨h.2 entry rfl, le_rfl⟩).bind fun tail => ?_
    split
    · exact does_pure (fun _ _ h => ⟨h.1.held, 0, took_nothing⟩) (ended _)
    · rename_i reached
      exact (does_removeFront name fits quiet entry.1 condition).mono
        (fun w _ h => ⟨h.1, (not_lt.1 reached).trans h.2⟩) fun _ _ _ h => ⟨h.1, entry.1, h.2⟩

/-- Where nobody held the lock of the back, all items show. -/
theorem Sound.back_acquire (h : S.Sound w) (free : w.holder .tail = none) :
    S.Back i (w.acquire i .tail) := by
  refine ⟨w.held_acquire i _, ?_⟩
  rcases h.pace with settled | ⟨-, j, -, held⟩
  · exact settled
  · rw [free] at held
    cases held

theorem Sound.front_head (h : S.Sound w) (held : w.holder .head = some i)
    (reached : w.store.head ≤ w.store.tail) : S.Front i w.store.head w :=
  ⟨held, le_rfl, reached.trans h.tail_le_last, fun there => (h.range there).1⟩

include fits quiet in
/-- An offset is looked at again once the lock of the front is held: it may not be the front any
more. -/
theorem does_removeAtHead (offset : Int) (condition : Int → ν → Bool) :
    S.Does i (fun w => offset ≤ w.store.tail)
      (Operation.withLock .head do
        if offset ≠ (← headOffset) then return nothing
        let removal ← (ofValues name S.values S.shards).removeEntry offset condition
        if removal.removed then Operation.ask (.setHead (offset + 1))
        pure removal)
      (Took i offset) := by
  have lasts := fun removal : Removal (Int × ν) => lasts_took (S := S) (i := i) offset removal
  have reached : S.Lasts i fun w => offset ≤ w.store.tail := lasts_reached offset
  have held := (lasts_held (S := S) (i := i) .head).and reached
  refine does_withLock (H := fun w => w.holder .head = some i ∧ offset ≤ w.store.tail)
    (quiet.steady reached) (fun w _ _ h => ⟨w.held_acquire i _, h⟩) ?_
    (fun removal => quiet.steady ((lasts_held _).and (lasts removal)))
    (fun _ _ h => ⟨h.1, nofun⟩) (fun _ _ _ h => h.2) lasts
  refine (does_headOffset (quiet.steady held)
    (Q := fun head w => w.holder .head = some i ∧ offset ≤ w.store.tail ∧
      (offset = head → S.Front i offset w))
    (fun _ => (lasts_held _).and (reached.and (.imp _ (lasts_front offset))))
    fun w sound h => ⟨h.1, h.2, ?_⟩).bind fun head => ?_
  · rintro rfl
    exact sound.front_head h.1 h.2
  · split
    · exact does_pure (fun _ _ h => ⟨h.1, took_nothing⟩) ((lasts_held _).and (lasts _))
    · rename_i same
      exact (does_removeFront name fits quiet offset condition).mono
        (fun w _ h => ⟨h.2.2 (not_not.1 same), h.2.1⟩) fun _ _ _ h => h

include fits quiet in
theorem does_removeOffset (offset : Int) (condition : Int → ν → Bool) :
    S.Does i (fun _ => True) ((ofValues name S.values S.shards).removeOffset offset condition)
      (Took i offset) := by
  have lasts := fun removal : Removal (Int × ν) => lasts_took (S := S) (i := i) offset removal
  have reached : S.Lasts i fun w => offset ≤ w.store.tail := lasts_reached offset
  refine (does_isEmpty (quiet.steady (lasts_const True))).bind fun _ => ?_
  split
  · exact does_pure (fun _ _ _ => took_nothing) (lasts _)
  refine (does_headOffset (Q := fun head _ => 0 ≤ head) (quiet.steady (lasts_const True))
    (fun _ => lasts_const _) fun w sound _ => sound.head_nonneg).bind fun head => ?_
  split
  · exact does_pure (fun _ _ _ => took_nothing) (lasts _)
  rename_i from_head
  refine (does_tailOffset (Q := fun tail w => 0 ≤ head ∧ tail ≤ w.store.tail)
    (quiet.steady (lasts_const _)) (fun tail => (lasts_const _).and (lasts_reached tail))
    fun w _ h => ⟨h, le_rfl⟩).bind fun tail => ?_
  split
  · exact does_pure (fun _ _ _ => took_nothing) (lasts _)
  rename_i to_tail
  -- The end only moves on, so the offset stays one that shows, whichever way is taken.
  refine does_of fun nonneg => ?_
  have nonneg : 0 ≤ offset := nonneg.trans (not_lt.1 from_head)
  refine Does.mono ?_ (fun w _ (h : tail ≤ w.store.tail) => (not_lt.1 to_tail).trans h)
    fun _ _ _ h => h
  refine (does_headOffset (Q := fun _ w => offset ≤ w.store.tail) (quiet.steady reached)
    (fun _ => reached) fun _ _ h => h).bind fun _ => ?_
  split
  · exact does_removeAtHead name fits quiet offset condition
  refine (does_tailOffset (Q := fun _ w => offset ≤ w.store.tail) (quiet.steady reached)
    (fun _ => reached) fun _ _ h => h).bind fun _ => ?_
  split
  · exact does_withLock (quiet.steady reached)
      (fun w sound free h => ⟨sound.back_acquire free, h⟩)
      (does_removeEntry name fits quiet frame_back nonneg condition)
      (fun removal => quiet.steady (lasts_back.and (lasts removal)))
      (fun _ _ h => ⟨h.1.held, fun _ => h.1.settled⟩) (fun _ _ _ h => h.2) lasts
  · exact (does_removeEntry name fits quiet frame_true nonneg condition).mono
      (fun _ _ h => ⟨trivial, h⟩) fun _ _ _ h => h.2

end Removals

/-! ## Reading and appending -/

/-- Whether items are in the order of their offsets, at which they were put. -/
def Shown (S : Start ν) (items : List (Int × ν)) (w : Scene ν) : Prop :=
  items.Pairwise (fun a b => a.1 < b.1) ∧ ∀ entry ∈ items, S.Comes w.order entry.1 entry.2

theorem lasts_shown (items : List (Int × ν)) : S.Lasts i (S.Shown items) :=
  (lasts_const _).and (.all fun entry => .imp _ (lasts_comes entry.1 entry.2))

theorem shown_nil : S.Shown [] w := ⟨.nil, nofun⟩

theorem Sound.shown (h : S.Sound w) {items : List (Int × ν)} (among : items.Sublist w.live.toList) :
    S.Shown items w :=
  ⟨w.live.sorted.sublist among,
    fun _ member => h.comes (OrderedMap.get?_eq_some_iff.2 (among.subset member))⟩

theorem does_batch (fits : S.Fits) (quiet : S.Quiet i) (start : Int) {count : Nat}
    (some : count ≠ 0) :
    S.Does i (fun _ => True) ((ofValues name S.values S.shards).batch start count) S.Shown := by
  rw [batch, if_neg some]
  refine (does_headOffset (Q := fun head _ => 0 ≤ head) (quiet.steady (lasts_const True))
    (fun _ => lasts_const _) fun w sound _ => sound.head_nonneg).bind fun head => ?_
  have bounds : ∀ tail, S.Lasts i fun w => 0 ≤ head ∧ tail ≤ w.store.tail := fun tail =>
    (lasts_const _).and (lasts_reached tail)
  refine (does_tailOffset (quiet.steady (lasts_const _)) bounds fun w _ h => ⟨h, le_rfl⟩).bind
    fun tail => ?_
  split
  · exact does_pure (fun _ _ _ => shown_nil) (lasts_shown _)
  dsimp only
  split
  · exact does_pure (fun _ _ _ => shown_nil) (lasts_shown _)
  rename_i inside
  refine Does.map (does_read (quiet.steady (bounds tail)) (fun _ => lasts_shown _) (fun _ => rfl)
    fun w sound h => ?_) lasts_shown
  have key := sound.isKeyOf fits (h.1.trans (le_max_right start head))
    ((not_lt.1 inside).trans h.2)
  have related := sound.holds.page orderFaithful_isKeyOf key count
  refine ⟨_, readEntries_of_related related, ?_⟩
  rw [offsetEntry_typedEntry related]
  exact sound.shown ((List.takeWhile_sublist _).trans (OrderedMap.page_sublist _ _ _))

/-- Whether a task has yet to put its item at an offset. -/
structure Ready (S : Start ν) (i : Nat) (offset : Int) (w : Scene ν) : Prop where
  back : S.Back i w
  fresh : i ∉ w.order
  next : offset = S.last w + 1

/-- Whether a task has put its item, which is at an offset, and holds the lock of the back. -/
structure Latest (S : Start ν) (i : Nat) (offset : Int) (w : Scene ν) : Prop where
  held : w.holder .tail = some i
  latest : w.order.getLast? = some i
  eq_last : offset = S.last w

theorem steady_ready (offset : Int) : S.Steady i (S.Ready i offset) where
  lasts := fun w w' spares sound sound' ready => by
    have order := (spares.tail ready.back.held).2
    exact ⟨lasts_back w w' spares sound sound' ready.back, by rw [order]; exact ready.fresh,
      by rw [last, order]; exact ready.next⟩
  attends := fun _ ready among => absurd among ready.fresh

theorem Ready.acquire {index : Nat} (h : S.Ready i offset w) :
    S.Ready i offset (w.acquire i (.shard index)) :=
  ⟨frame_back.acquire h.back, h.fresh, h.next⟩

theorem Latest.release {index : Nat} (h : S.Latest i offset w) :
    S.Latest i offset (w.release (.shard index)) :=
  { h with held := by simpa using h.held }

theorem steady_latest (offset : Int) : S.Steady i (S.Latest i offset) where
  lasts := fun w w' spares _ _ h => by
    have order := (spares.tail h.held).2
    exact ⟨(spares.holders _).2 h.held, by rw [order]; exact h.latest,
      by rw [last, order]; exact h.eq_last⟩
  attends := fun _ h _ => ⟨h.held, h.latest⟩

theorem steady_fresh : S.Steady i fun w => i ∉ w.order :=
  ⟨fun _ _ spares _ _ fresh among => fresh (spares.mine among), fun _ fresh among =>
    absurd among fresh⟩

theorem lasts_gets (offset : Int) : S.Lasts i fun w => S.Gets w.order offset i :=
  fun _ _ spares _ _ gets => gets.mono spares.grows

theorem Latest.gets (h : S.Latest i offset w) : S.Gets w.order offset i := by
  obtain ⟨before, order⟩ := List.getLast?_eq_some_iff.1 h.latest
  rw [h.eq_last, Start.last, order, List.length_append, List.length_singleton, Nat.cast_succ,
    ← Int.add_assoc]
  exact gets_last before i

section Append

variable (fits : S.Fits) {item : ν} (call : S.calls[i]? = some (.append item))

include fits call in
theorem does_put (offset : Int) :
    S.Does i (S.Ready i offset)
      ((ofValues name S.values S.shards).items.put (key offset) item)
      (fun _ => S.Latest i offset) := by
  have held := lasts_held (S := S) (i := i) (.shard (S.shards.index (key offset)))
  refine does_withLock (steady_ready offset) (fun w _ _ ready => ⟨ready.acquire, w.held_acquire i _⟩)
    (does_call ((steady_ready offset).and held) (fun _ => (steady_latest offset).lasts.and held)
      fun w sound ⟨ready, held⟩ => ?_)
    (fun _ => (steady_latest offset).and held) (fun _ _ h => ⟨h.2, nofun⟩)
    (fun _ _ _ h => h.1.release) fun _ => (steady_latest offset).lasts
  obtain rfl := ready.next
  refine ⟨w.put S i (S.last w + 1) item, rfl, rfl,
    step_put sound ready.back.held ready.back.settled held ready.fresh call
      (sound.next_lt fits call ready.fresh) (fits.back item (List.mem_of_getElem? call)),
    ⟨ready.back.held, List.getLast?_concat, last_put.symm⟩, held⟩

include fits call in
theorem does_append :
    S.Does i (fun w => i ∉ w.order) ((ofValues name S.values S.shards).append item)
      (fun offset w => S.Gets w.order offset i) := by
  have latest : ∀ offset, S.Steady i fun w => S.Latest i offset w ∧ S.Back i w := fun offset =>
    (steady_latest offset).and lasts_back
  refine does_withLock (H := fun w => S.Back i w ∧ i ∉ w.order) steady_fresh
    (fun w sound free fresh => ⟨sound.back_acquire free, fresh⟩) ?_ latest
    (fun _ _ h => ⟨h.2.held, fun _ => h.2.settled⟩) (fun _ _ _ h => h.1.gets) lasts_gets
  refine (does_tailOffset (Q := fun tail => S.Ready i (tail + 1))
    ⟨lasts_back.and steady_fresh.lasts, fun _ h => (steady_fresh (S := S)).attends ‹_› h.2⟩
    (fun tail => (steady_ready _).lasts)
    fun w _ h => ⟨h.1, h.2, by rw [h.1.settled]⟩).bind fun tail => ?_
  refine (does_put name fits call (tail + 1)).bind fun _ => ?_
  refine Does.bind (Q := fun _ w => S.Latest i (tail + 1) w ∧ S.Back i w)
    (does_ask (steady_latest _) (fun _ => (latest _).lasts) fun w sound h _ => ?_)
    fun _ => does_pure (fun _ _ h => h) (latest _).lasts
  refine ⟨w.setTail (tail + 1), rfl, rfl, ?_, ⟨h.held, h.latest, h.eq_last⟩, h.held, h.eq_last⟩
  rw [h.eq_last]
  exact step_setTail sound h.held

end Append

/-- Whatever a task was called to do, it is safe. -/
theorem safe_perform (fits : S.Fits) {call : QueueCall ν} (called : S.calls[i]? = some call)
    (sound : S.Sound w) (fresh : i ∉ w.order) :
    S.Safe i (S.Ends i call) ((ofValues name S.values S.shards).perform call).run w := by
  have quiet : call.isAppend = false → S.Quiet i := by
    rintro other item append
    rw [called] at append
    cases append
    cases other
  cases call with
  | append item => exact (does_append name fits called).safe_map lasts_gets sound fresh
  | removeFirst condition =>
    refine ((does_removeFirst name fits (quiet rfl) condition).safe_map (fun removal =>
      .some fun offset => lasts_took offset removal) sound trivial).mono ?_
    rintro r w - ⟨removal, eq, offset, took⟩
    exact ⟨removal, offset, eq, took⟩
  | removeOffset offset condition =>
    exact (does_removeOffset name fits (quiet rfl) offset condition).safe_map (lasts_took offset)
      sound trivial
  | batch start count =>
    by_cases none : count = 0
    · rw [perform, batch, if_pos none]
      exact fun w' _ _ => .inl ⟨none, rfl⟩
    · refine ((does_batch name fits (quiet rfl) start none).safe_map lasts_shown sound trivial).mono ?_
      exact fun r w _ shown => .inr shown

end Start

end SnapshotStore
