import SnapshotStore.Proofs.OffsetKey
import SnapshotStore.Proofs.Queue.Calls
import SnapshotStore.Proofs.RunAlone
import SnapshotStore.Proofs.Script

/-!
The bound at the back of a queue, whatever answers the calls on its partition. All that a queue does
but append asks for nothing that puts an entry or moves this bound (`Operation.OnlyTakes`), and an
append moves it if the item was put (`Queue.runAlone_append`).
-/

namespace SnapshotStore

/-- Whether a request neither puts an entry nor moves the bound at the back. -/
def StoreRequest.Takes : StoreRequest → Prop
  | .call (.put _ _) | .setTail _ => False
  | _ => True

namespace Operation

variable {α β : Type}

/-- Whether an operation neither puts an entry nor moves the bound at the back, whatever it is
replied. -/
def OnlyTakes (op : Operation α) : Prop :=
  Script.Asks (I := storeInterface) StoreRequest.Takes (fun _ => True) op.run

theorem onlyTakes_pure (a : α) : OnlyTakes (pure a) := trivial

theorem onlyTakes_throw (e : StoreError) : OnlyTakes (throw e : Operation α) := trivial

theorem onlyTakes_ofExcept (r : Except StoreError α) : OnlyTakes (ofExcept r) := trivial

theorem onlyTakes_call {c : Call} (h : (StoreRequest.call c).Takes) :
    OnlyTakes (Operation.call c) :=
  ⟨h, fun _ => trivial⟩

theorem onlyTakes_head : OnlyTakes (ask .head) := ⟨trivial, fun _ => trivial⟩

theorem onlyTakes_tail : OnlyTakes (ask .tail) := ⟨trivial, fun _ => trivial⟩

theorem onlyTakes_setHead (offset : Int) : OnlyTakes (ask (.setHead offset)) :=
  ⟨trivial, fun _ => trivial⟩

theorem OnlyTakes.bind {op : Operation α} {f : α → Operation β} (h : OnlyTakes op)
    (next : ∀ a, OnlyTakes (f a)) : OnlyTakes (op >>= f) := by
  show Script.Asks _ _ (Script.bind op.run _)
  refine Script.Asks.bind h fun result _ => ?_
  cases result with
  | error e => trivial
  | ok a => exact next a

theorem OnlyTakes.withLock {op : Operation α} (h : OnlyTakes op) (lock : Lock) :
    OnlyTakes (Operation.withLock lock op) := by
  refine ⟨trivial, fun _ => ?_⟩
  show Script.Asks _ _ (Script.bind op.run _)
  exact Script.Asks.bind h fun _ _ => ⟨trivial, fun _ => trivial⟩

theorem OnlyTakes.tail {σ : Type} {op : Operation α} (h : OnlyTakes op)
    (call : (c : Call) → σ → Except StorageError c.Answer × σ) (s : Standing σ) :
    (op.runAlone call s).2.tail = s.tail := by
  refine (Script.Asks.run h (J := fun s' : Standing σ => s'.tail = s.tail)
    (fun r s' takes same => ?_) rfl).2
  cases r with
  | setTail offset => exact takes.elim
  | call _ | acquire _ | release _ | head | tail | setHead _ => exact same

end Operation

namespace Queue

open Operation

variable {ν : Type} (q : Queue ν)

theorem onlyTakes_isEmpty : OnlyTakes isEmpty :=
  onlyTakes_head.bind fun _ => onlyTakes_tail.bind fun _ => onlyTakes_pure _

theorem onlyTakes_first : OnlyTakes q.first :=
  ((onlyTakes_call (by trivial)).bind fun _ => onlyTakes_ofExcept _).bind fun _ => onlyTakes_pure _

theorem onlyTakes_removeEntry (offset : Int) (condition : Int → ν → Bool) :
    OnlyTakes (q.removeEntry offset condition) := by
  refine .bind (.withLock (.bind ?_ fun found => ?_) _) fun _ => onlyTakes_pure _
  · exact (onlyTakes_call (by trivial)).bind fun _ => onlyTakes_ofExcept _
  · cases found with
    | none => exact onlyTakes_pure _
    | some item =>
      dsimp only
      split
      · exact (onlyTakes_call (by trivial)).bind fun _ => onlyTakes_pure _
      · exact onlyTakes_pure _

/-- What removes an item and then moves the front. -/
theorem onlyTakes_removal (offset : Int) (condition : Int → ν → Bool) :
    OnlyTakes (do
      let removal ← q.removeEntry offset condition
      if removal.removed then Operation.ask (.setHead (offset + 1))
      pure removal) := by
  refine (q.onlyTakes_removeEntry offset condition).bind fun removal => ?_
  split
  · exact (onlyTakes_setHead _).bind fun _ => onlyTakes_pure _
  · exact onlyTakes_pure _

theorem onlyTakes_removeFirst (condition : Int → ν → Bool) :
    OnlyTakes (q.removeFirst condition) := by
  refine onlyTakes_isEmpty.bind fun empty => ?_
  split
  · exact onlyTakes_pure _
  refine .withLock (onlyTakes_isEmpty.bind fun empty => ?_) _
  split
  · exact onlyTakes_pure _
  refine q.onlyTakes_first.bind fun found => ?_
  cases found with
  | none => exact onlyTakes_pure _
  | some entry =>
    refine onlyTakes_tail.bind fun tail => ?_
    split
    · exact onlyTakes_pure _
    · exact q.onlyTakes_removal entry.1 condition

theorem onlyTakes_removeOffset (offset : Int) (condition : Int → ν → Bool) :
    OnlyTakes (q.removeOffset offset condition) := by
  refine onlyTakes_isEmpty.bind fun empty => ?_
  split
  · exact onlyTakes_pure _
  refine onlyTakes_head.bind fun head => ?_
  split
  · exact onlyTakes_pure _
  refine onlyTakes_tail.bind fun tail => ?_
  split
  · exact onlyTakes_pure _
  refine onlyTakes_head.bind fun head => ?_
  split
  · refine .withLock (onlyTakes_head.bind fun head => ?_) _
    split
    · exact onlyTakes_pure _
    · exact q.onlyTakes_removal offset condition
  · refine onlyTakes_tail.bind fun tail => ?_
    split
    · exact (q.onlyTakes_removeEntry offset condition).withLock _
    · exact q.onlyTakes_removeEntry offset condition

theorem onlyTakes_batch (start : Int) (count : Nat) : OnlyTakes (q.batch start count) := by
  rw [batch]
  split
  · exact onlyTakes_throw _
  refine onlyTakes_head.bind fun head => onlyTakes_tail.bind fun tail => ?_
  split
  · exact onlyTakes_pure _
  dsimp only
  split
  · exact onlyTakes_pure _
  refine .bind ?_ fun _ => onlyTakes_pure _
  exact (onlyTakes_call (by trivial)).bind fun _ => onlyTakes_ofExcept _

/-- An item is put behind the last one, and the bound moves if that succeeds. -/
theorem runAlone_append {σ : Type} (item : ν)
    (call : (c : Call) → σ → Except StorageError c.Answer × σ) (s : Standing σ) :
    (q.append item).runAlone call s =
      match call (.put (q.items.layout.keys.encode (key (s.tail + 1)))
        (q.items.layout.values.encode item)) s.base with
      | (.ok (), base) => (.ok (s.tail + 1), ⟨base, s.head, s.tail + 1⟩)
      | (.error e, base) => (.error (.storage e), ⟨base, s.head, s.tail⟩) := by
  have tail : tailOffset.runAlone call s = (.ok s.tail, s) := rfl
  rw [append, runAlone_withLock, runAlone_bind_ok call s tail]
  dsimp only
  rw [EntityStore.put, EntityStore.locked, runAlone_withLock_bind, Layout.put, runAlone_bind, runAlone_call]
  rcases call (.put _ _) s.base with ⟨_ | _, _⟩ <;> rfl

/-- Every call but an append only takes. -/
theorem onlyTakes_perform {queueCall : QueueCall ν} (other : ∀ item, queueCall ≠ .append item) :
    OnlyTakes (q.perform queueCall) := by
  cases queueCall with
  | append item => exact absurd rfl (other item)
  | removeFirst condition =>
    exact (q.onlyTakes_removeFirst condition).bind fun _ => onlyTakes_pure _
  | removeOffset offset condition =>
    exact (q.onlyTakes_removeOffset offset condition).bind fun _ => onlyTakes_pure _
  | batch start count => exact (q.onlyTakes_batch start count).bind fun _ => onlyTakes_pure _

/-- A call gives the offset behind the end and moves the end there, or gives no offset and leaves
the end. -/
theorem tail_perform {σ : Type} (queueCall : QueueCall ν)
    (call : (c : Call) → σ → Except StorageError c.Answer × σ) (s : Standing σ) :
    let ended := (q.perform queueCall).runAlone call s
    ended.1 = .ok (.offset (s.tail + 1)) ∧ ended.2.tail = s.tail + 1 ∨
      (∀ offset, ended.1 ≠ .ok (.offset offset)) ∧ ended.2.tail = s.tail := by
  have others : ∀ {α : Type} (op : Operation α) (f : α → QueueAnswer ν),
      (∀ a offset, f a ≠ .offset offset) →
        ∀ offset, ((op >>= fun a => pure (f a)).runAlone call s).1 ≠ .ok (.offset offset) := by
    intro α op f other offset
    rw [runAlone_bind]
    split
    · exact fun same => other _ _ (Except.ok.inj same)
    · exact nofun
  cases queueCall with
  | append item =>
    dsimp only
    rw [perform, runAlone_bind, q.runAlone_append]
    rcases call (.put _ _) s.base with ⟨_ | _, _⟩
    · exact .inr ⟨nofun, rfl⟩
    · exact .inl ⟨rfl, rfl⟩
  | removeFirst condition | removeOffset offset condition | batch start count =>
    refine .inr ⟨others _ _ ?_, (q.onlyTakes_perform ?_).tail call s⟩
    · exact nofun
    · exact nofun

/-- What an append leaves below is what is left by putting its item behind the last one. -/
theorem base_perform_append {σ : Type} (item : ν)
    (call : (c : Call) → σ → Except StorageError c.Answer × σ) (s : Standing σ) :
    ((q.perform (.append item)).runAlone call s).2.base =
      (call (.put (q.items.layout.keys.encode (key (s.tail + 1)))
        (q.items.layout.values.encode item)) s.base).2 := by
  rw [perform, runAlone_bind, q.runAlone_append]
  rcases call (.put _ _) s.base with ⟨_ | _, _⟩ <;> rfl

theorem offset_of_last {σ : Type} {call : (c : Call) → σ → Except StorageError c.Answer × σ}
    {s : Standing σ} {entry : Int × ν} (h : (q.last.runAlone call s).1 = .ok (some entry)) :
    -offsetLimit ≤ entry.1 := by
  rw [last, runAlone_bind] at h
  split at h
  · obtain ⟨found, -, rfl⟩ := Option.map_eq_some_iff.1 (Except.ok.inj h)
    exact found.1.le_toInt
  · cases h

/-- A queue that was opened ends at an offset. -/
theorem tail_of_recover {σ : Type} {start : Int}
    (call : (c : Call) → σ → Except StorageError c.Answer × σ) (s : Standing σ)
    (h : ((q.recover start).runAlone call s).1 = .ok ()) :
    -offsetLimit ≤ ((q.recover start).runAlone call s).2.tail := by
  rw [recover] at h ⊢
  split at h
  · cases h
  rename_i nonneg
  rw [if_neg nonneg]
  have below : -offsetLimit ≤ start - 1 := by
    unfold offsetLimit
    omega
  rw [runAlone_bind] at h ⊢
  cases ranFirst : q.first.runAlone call s with | mk result s₁ =>
  rw [ranFirst] at h
  cases result with
  | error e => cases h
  | ok front =>
    dsimp only at h ⊢
    rw [runAlone_bind] at h ⊢
    cases ranLast : q.last.runAlone call s₁ with | mk result s₂ =>
    rw [ranLast] at h
    cases result with
    | error e => cases h
    | ok back =>
      cases front with
      | none => exact below
      | some front =>
        cases back with
        | none => exact below
        | some back => exact q.offset_of_last (congrArg Prod.fst ranLast)

/-- The keys of two offsets differ. -/
theorem encode_key_ne {o o' : Int} (low : -offsetLimit ≤ o) (below : o < o')
    (high : o' < offsetLimit) :
    KeyKind.signedCodec.encode (key o) ≠ KeyKind.signedCodec.encode (key o') := by
  intro same
  have keys : key o = key o' := by
    have decoded := congrArg KeyKind.signedCodec.decode same
    rw [decode_encode_key, decode_encode_key] at decoded
    exact Except.ok.inj decoded
  have offsets := congrArg Int64.toInt keys
  unfold offsetLimit at low high
  rw [key, key, Int64.toInt_ofInt_of_le (by omega) (by omega),
    Int64.toInt_ofInt_of_le (by omega) (by omega)] at offsets
  omega

end Queue

end SnapshotStore
