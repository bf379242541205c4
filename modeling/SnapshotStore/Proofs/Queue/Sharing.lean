import SnapshotStore.Proofs.Queue.Turns

/-!
Operations of a task in a crowd. `Start.Does` says what an operation makes of a scene of which an
assertion holds, and has a rule for each way to put operations together. Between its requests a task
relies on what lasts while the others spare it; what neither they nor a removal can change is a frame
of it (`Start.Frame`).
-/

namespace SnapshotStore

variable {ν α β : Type}

namespace Start

open Queue Operation

variable (S : Start ν)

/-- Whether an assertion lasts while a task does nothing. -/
def Lasts (i : Nat) (P : Scene ν → Prop) : Prop :=
  ∀ w w', S.Spares i w w' → S.Sound w → S.Sound w' → P w → P w'

/-- An assertion on which a task can rely that is not done. -/
structure Steady (i : Nat) (P : Scene ν → Prop) : Prop where
  lasts : S.Lasts i P
  attends : ∀ {w}, S.Sound w → P w → Attends i w

/-- Whether there is a result of which an assertion holds. -/
def Yields (Q : α → Scene ν → Prop) (r : Except StoreError α) (w : Scene ν) : Prop :=
  ∃ a, r = .ok a ∧ Q a w

/-- What an operation of a task makes of sound scenes; it does not fail. -/
def Does (i : Nat) (P : Scene ν → Prop) (op : Operation α) (Q : α → Scene ν → Prop) : Prop :=
  ∀ w, S.Sound w → P w → S.Safe i (Yields Q) op.run w

variable {S} {i : Nat} {P : Scene ν → Prop} {Q : α → Scene ν → Prop} {R : β → Scene ν → Prop}
  {op : Operation α}

/-! ## Rules -/

/-- A request is a step, after which the task is safe. -/
theorem safe_ask {r : StoreRequest} {resume : r.Reply → Script storeInterface α} {w : Scene ν}
    (steady : S.Steady i P) (sound : S.Sound w) (h : P w)
    (moves : ∀ w, S.Sound w → P w → r.Admitted w.holder →
      ∃ w', w'.store = (answer Partition.serve r w.store).2 ∧ w'.holder = r.holders i w.holder ∧
        S.Step i w w' ∧ S.Safe i Q (resume (answer Partition.serve r w.store).1) w') :
    S.Safe i Q (.ask r resume) w := by
  intro w' spares sound'
  have h' := steady.lasts w w' spares sound sound' h
  refine ⟨steady.attends sound' h', fun admitted => ?_⟩
  obtain ⟨w'', store, holder, step, rest⟩ := moves w' sound' h' admitted
  exact ⟨w'', store, holder, step.sound, step.others, rest⟩

theorem does_pure {a : α} (gives : ∀ w, S.Sound w → P w → Q a w) (lasts : S.Lasts i (Q a)) :
    S.Does i P (pure a) Q :=
  fun w sound h _ spares sound' => ⟨a, rfl, lasts _ _ spares sound sound' (gives w sound h)⟩

theorem safe_pure {a : α} {w : Scene ν} (sound : S.Sound w) (h : Q a w) (lasts : S.Lasts i (Q a)) :
    S.Safe i (Yields Q) (.done (.ok a)) w :=
  does_pure (fun _ _ h => h) lasts w sound h

theorem Does.bind {f : α → Operation β} (h : S.Does i P op Q) (next : ∀ a, S.Does i (Q a) (f a) R) :
    S.Does i P (op >>= f) R := by
  intro w sound pre
  show S.Safe i _ (op.run.bind _) w
  refine (h w sound pre).bind sound ?_
  rintro r w sound ⟨a, rfl, mid⟩
  exact next a w sound mid

theorem Does.mono {P' : Scene ν → Prop} {Q' : α → Scene ν → Prop} (h : S.Does i P op Q)
    (pre : ∀ w, S.Sound w → P' w → P w) (post : ∀ a w, S.Sound w → Q a w → Q' a w) :
    S.Does i P' op Q' :=
  fun w sound h' => (h w sound (pre w sound h')).mono fun _ w sound ⟨a, eq, q⟩ =>
    ⟨a, eq, post a w sound q⟩

/-- What does not depend on the scene is known. -/
theorem does_of {p : Prop} (h : p → S.Does i P op Q) : S.Does i (fun w => p ∧ P w) op Q :=
  fun w sound both => h both.1 w sound both.2

theorem Does.map {f : α → β} (h : S.Does i P op fun a => R (f a)) (lasts : ∀ b, S.Lasts i (R b)) :
    S.Does i P (do pure (f (← op))) R :=
  h.bind fun a => does_pure (fun _ _ h => h) (lasts (f a))

theorem Does.safe_map {f : α → β} {w : Scene ν} (h : S.Does i P op Q) (lasts : ∀ a, S.Lasts i (Q a))
    (sound : S.Sound w) (pre : P w) :
    S.Safe i (fun r w => ∃ a, r = .ok (f a) ∧ Q a w) (do pure (f (← op)) : Operation β).run w := by
  refine (h w sound pre).bind sound ?_
  rintro r w sound ⟨a, rfl, q⟩ w' spares sound'
  exact ⟨a, rfl, lasts a w w' spares sound sound' q⟩

theorem does_ask {r : StoreRequest} {Q : r.Reply → Scene ν → Prop} (steady : S.Steady i P)
    (lasts : ∀ reply, S.Lasts i (Q reply))
    (moves : ∀ w, S.Sound w → P w → r.Admitted w.holder →
      ∃ w', w'.store = (answer Partition.serve r w.store).2 ∧ w'.holder = r.holders i w.holder ∧
        S.Step i w w' ∧ Q (answer Partition.serve r w.store).1 w') :
    S.Does i P (Operation.ask r) Q := by
  intro w sound h
  refine safe_ask steady sound h fun w sound h admitted => ?_
  obtain ⟨w', store, holder, step, q⟩ := moves w sound h admitted
  exact ⟨w', store, holder, step, safe_pure step.sound q (lasts _)⟩

theorem does_call {c : Call} {Q : c.Answer → Scene ν → Prop} (steady : S.Steady i P)
    (lasts : ∀ a, S.Lasts i (Q a))
    (moves : ∀ w, S.Sound w → P w → ∃ w', w'.store = { w.store with base := (w.store.base.call c).2 } ∧
      w'.holder = w.holder ∧ S.Step i w w' ∧ Q (w.store.base.call c).1 w') :
    S.Does i P (Operation.call c) Q := by
  intro w sound h
  refine safe_ask steady sound h fun w sound h admitted => ?_
  obtain ⟨w', store, holder, step, q⟩ := moves w sound h
  exact ⟨w', store, holder, step, safe_pure step.sound q (lasts _)⟩

/-- A lock is held during an operation. -/
theorem does_withLock {lock : Lock} {H : Scene ν → Prop} {R : α → Scene ν → Prop}
    (steady : S.Steady i P)
    (acquired : ∀ w, S.Sound w → w.holder lock = none → P w → H (w.acquire i lock))
    (does : S.Does i H op Q) (held : ∀ a, S.Steady i (Q a))
    (holds : ∀ a w, Q a w → w.holder lock = some i ∧ (lock = .tail → w.store.tail = S.last w))
    (released : ∀ a w, S.Sound w → Q a w → R a (w.release lock))
    (lasts : ∀ a, S.Lasts i (R a)) : S.Does i P (Operation.withLock lock op) R := by
  intro w sound h
  refine safe_ask steady sound h fun w sound h admitted => ?_
  have step := step_acquire (i := i) sound admitted
  refine ⟨w.acquire i lock, rfl, rfl, step, ?_⟩
  refine (does _ step.sound (acquired w sound admitted h)).bind step.sound ?_
  rintro r w sound ⟨a, rfl, q⟩
  refine safe_ask (held a) sound q fun w sound q _ => ?_
  have step := step_release sound (holds a w q).1 (holds a w q).2
  exact ⟨w.release lock, rfl, rfl, step, safe_pure step.sound (released a w sound q) (lasts a)⟩

/-! ## Reading -/

theorem does_headOffset {Q : Int → Scene ν → Prop} (steady : S.Steady i P)
    (lasts : ∀ offset, S.Lasts i (Q offset)) (gives : ∀ w, S.Sound w → P w → Q w.store.head w) :
    S.Does i P headOffset Q :=
  does_ask steady lasts fun w sound h _ => ⟨w, rfl, rfl, .refl sound, gives w sound h⟩

theorem does_tailOffset {Q : Int → Scene ν → Prop} (steady : S.Steady i P)
    (lasts : ∀ offset, S.Lasts i (Q offset)) (gives : ∀ w, S.Sound w → P w → Q w.store.tail w) :
    S.Does i P tailOffset Q :=
  does_ask steady lasts fun w sound h _ => ⟨w, rfl, rfl, .refl sound, gives w sound h⟩

theorem does_isEmpty (steady : S.Steady i P) : S.Does i P isEmpty fun _ => P :=
  (does_headOffset steady (fun _ => steady.lasts) fun _ _ h => h).bind fun _ =>
    (does_tailOffset steady (fun _ => steady.lasts) fun _ _ h => h).map fun _ => steady.lasts

/-- A call that changes nothing, with what is made of its answer. -/
theorem does_read {c : Call} {read : c.Answer → Except StoreError α} (steady : S.Steady i P)
    (lasts : ∀ a, S.Lasts i (Q a)) (same : ∀ p : Partition, (p.call c).2 = p)
    (gives : ∀ w, S.Sound w → P w → ∃ a, read (w.store.base.call c).1 = .ok a ∧ Q a w) :
    S.Does i P (do Operation.ofExcept (read (← Operation.call c))) Q := by
  intro w sound h
  refine safe_ask steady sound h fun w sound h _ => ?_
  obtain ⟨a, eq, q⟩ := gives w sound h
  refine ⟨w, ?_, rfl, .refl sound, ?_⟩
  · show w.store = ⟨(w.store.base.call c).2, w.store.head, w.store.tail⟩
    rw [same]
  · show S.Safe i _ (.done (read (w.store.base.call c).1)) w
    rw [eq]
    exact safe_pure sound q (lasts a)

/-! ## What lasts -/

variable {P' : Scene ν → Prop} {offset : Int}

theorem lasts_const (p : Prop) : S.Lasts i fun _ => p := fun _ _ _ _ _ h => h

theorem Lasts.and (h : S.Lasts i P) (h' : S.Lasts i P') : S.Lasts i fun w => P w ∧ P' w :=
  fun _ _ spares sound sound' both =>
    ⟨h _ _ spares sound sound' both.1, h' _ _ spares sound sound' both.2⟩

theorem Steady.and (h : S.Steady i P) (h' : S.Lasts i P') : S.Steady i fun w => P w ∧ P' w :=
  ⟨h.lasts.and h', fun sound both => h.attends sound both.1⟩

theorem Lasts.imp (p : Prop) (h : S.Lasts i P) : S.Lasts i fun w => p → P w :=
  fun _ _ spares sound sound' holds hp => h _ _ spares sound sound' (holds hp)

theorem Lasts.all {ι : Type} {P : ι → Scene ν → Prop} (h : ∀ x, S.Lasts i (P x)) :
    S.Lasts i fun w => ∀ x, P x w :=
  fun w w' spares sound sound' holds x => h x w w' spares sound sound' (holds x)

theorem Lasts.some {ι : Type} {P : ι → Scene ν → Prop} (h : ∀ x, S.Lasts i (P x)) :
    S.Lasts i fun w => ∃ x, P x w :=
  fun w w' spares sound sound' ⟨x, holds⟩ => ⟨x, h x w w' spares sound sound' holds⟩

theorem lasts_held (lock : Lock) : S.Lasts i fun w => w.holder lock = some i :=
  fun _ _ spares _ _ => (spares.holders lock).2

theorem lasts_reached (offset : Int) : S.Lasts i fun w => offset ≤ w.store.tail :=
  fun _ _ spares _ _ h => h.trans spares.tail_le

theorem lasts_comes (offset : Int) (item : ν) : S.Lasts i fun w => S.Comes w.order offset item :=
  fun _ _ spares _ _ h => h.mono spares.grows

theorem lasts_took (offset : Int) (removal : Removal (Int × ν)) : S.Lasts i (Took i offset removal) :=
  fun _ _ spares _ _ took removed =>
    have ⟨item, seen, taken⟩ := took removed
    ⟨item, seen, spares.takers taken⟩

variable (S)

/-- Whether a task holds the lock of the front, and no item is before an offset. -/
structure Front (i : Nat) (offset : Int) (w : Scene ν) : Prop where
  held : w.holder .head = some i
  head_le : w.store.head ≤ offset
  le_last : offset ≤ S.last w
  least : ∀ {k item}, w.live.get? k = some item → offset ≤ k

/-- Whether a task holds the lock of the back, where all items show. -/
structure Back (i : Nat) (w : Scene ν) : Prop where
  held : w.holder .tail = some i
  settled : w.store.tail = S.last w

/-- Whether a task holds the lock of the key of an offset that shows. -/
structure Holding (i : Nat) (offset : Int) (w : Scene ν) : Prop where
  held : w.holder (.shard (S.shards.index (key offset))) = some i
  reached : offset ≤ w.store.tail

variable {S}

theorem lasts_front (offset : Int) : S.Lasts i (S.Front i offset) := by
  intro w w' spares _ _ front
  refine ⟨(spares.holders _).2 front.held, (spares.head front.held).le.trans front.head_le,
    front.le_last.trans spares.last_le, fun there => ?_⟩
  rcases spares.stays there with before | behind
  · exact front.least before
  · exact front.le_last.trans behind.le

theorem lasts_back : S.Lasts i (S.Back i) := by
  intro w w' spares _ _ back
  obtain ⟨tail, order⟩ := spares.tail back.held
  refine ⟨(spares.holders _).2 back.held, ?_⟩
  rw [tail, back.settled, last, last, order]

theorem lasts_holding (offset : Int) : S.Lasts i (S.Holding i offset) :=
  fun _ _ spares _ _ h => ⟨(spares.holders _).2 h.held, h.reached.trans spares.tail_le⟩

theorem lasts_found (offset : Int) (found : Option ν) :
    S.Lasts i fun w => S.Holding i offset w ∧ w.live.get? offset = found :=
  fun w w' spares sound sound' h =>
    ⟨lasts_holding offset w w' spares sound sound' h.1, (spares.shard h.1.held).trans h.2⟩

/-! ## Tasks that append nothing -/

variable (S)

/-- Whether a task appends nothing. -/
def Quiet (i : Nat) : Prop := ∀ item, S.calls[i]? ≠ some (.append item)

/-- An assertion that lasts and that a removal by the task itself cannot change. -/
structure Frame (i : Nat) (F : Scene ν → Prop) : Prop where
  lasts : S.Lasts i F
  acquire : ∀ {w index}, F w → F (w.acquire i (.shard index))
  release : ∀ {w index}, F w → F (w.release (.shard index))
  take : ∀ {w offset}, F w → F (w.take i offset)

variable {S}

theorem Quiet.steady (quiet : S.Quiet i) (lasts : S.Lasts i P) : S.Steady i P :=
  ⟨lasts, fun sound _ among => absurd (sound.appends i among).choose_spec (quiet _)⟩

theorem frame_true : S.Frame i fun _ => True :=
  ⟨lasts_const True, id, id, id⟩

theorem frame_back : S.Frame i (S.Back i) where
  lasts := lasts_back
  acquire := fun back => ⟨by simpa using back.held, back.settled⟩
  release := fun back => ⟨by simpa using back.held, back.settled⟩
  take := fun back => ⟨back.held, back.settled⟩

theorem frame_front (offset : Int) : S.Frame i (S.Front i offset) where
  lasts := lasts_front offset
  acquire := fun front => { front with held := by simpa using front.held }
  release := fun front => { front with held := by simpa using front.held }
  take := fun front => { front with least := fun there => front.least (get?_of_take there) }

end Start

end SnapshotStore
