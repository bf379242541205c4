import SnapshotStore.Proofs.Store.EntityCalls

/-!
What calls of entity stores leave alone. Under the lock of its key a call asks the partition about this
key only (`EntityStore.perform_withLock`). So its answer and what it leaves under the key depend on what
was there (`Only.run_congr`), and all else stays (`Only.run_frame`).
-/

namespace SnapshotStore

variable {κ ν α β : Type}

namespace Call

/-- The key that a call is about, if it is about one. -/
def key? : Call → Option Bytes
  | put key _ | get key | remove key | contains key => some key
  | first | last | page _ _ => none

end Call

namespace Partition

variable {c : Call} {key : Bytes}

theorem get?_remove (p : Partition) (key k : Bytes) :
    (p.remove key).entries.get? k = if key = k then none else p.entries.get? k := by
  rw [entries_remove, OrderedMap.get?_erase]

/-- A call about a key sees and leaves under it what depends on what was there. -/
theorem call_congr (about : c.key? = some key) {p p' : Partition}
    (same : p.entries.get? key = p'.entries.get? key) :
    (p.call c).1 = (p'.call c).1 ∧
      (p.call c).2.entries.get? key = (p'.call c).2.entries.get? key := by
  cases c with
  | put k value =>
    cases about
    refine ⟨rfl, ?_⟩
    show (OrderedMap.insert _ _ _).get? _ = (OrderedMap.insert _ _ _).get? _
    rw [OrderedMap.get?_insert, OrderedMap.get?_insert, if_pos rfl, if_pos rfl]
  | get k =>
    cases about
    exact ⟨same, same⟩
  | remove k =>
    cases about
    refine ⟨rfl, ?_⟩
    show (p.remove key).entries.get? key = (p'.remove key).entries.get? key
    rw [get?_remove, get?_remove, if_pos rfl, if_pos rfl]
  | contains k =>
    cases about
    refine ⟨?_, same⟩
    show p.entries.contains key = p'.entries.contains key
    rw [OrderedMap.contains, OrderedMap.contains, same]
  | first | last | page _ _ => cases about

/-- A call about a key leaves what is under the others. -/
theorem call_frame (about : c.key? = some key) {other : Bytes} (ne : key ≠ other) (p : Partition) :
    (p.call c).2.entries.get? other = p.entries.get? other := by
  cases c with
  | put k value =>
    cases about
    exact (OrderedMap.get?_insert _ _ _ _).trans (if_neg ne)
  | get k | contains k => rfl
  | remove k =>
    cases about
    exact (get?_remove p key other).trans (if_neg ne)
  | first | last | page _ _ => cases about

end Partition

/-! ## Locks -/

namespace Operation

/-- Gives a lock back and ends with a result. -/
def leave (lock : Lock) (r : Except StoreError α) : Script storeInterface (Except StoreError α) :=
  .ask (I := storeInterface) (.release lock) fun _ => .done r

theorem run_withLock (lock : Lock) (body : Operation α) :
    (withLock lock body).run =
      .ask (I := storeInterface) (.acquire lock) fun _ => body.run.bind (leave lock) := rfl

theorem map_withLock (f : α → β) (lock : Lock) (body : Operation α) :
    f <$> withLock lock body = withLock lock (f <$> body) := by
  show Script.ask (I := storeInterface) (.acquire lock) (fun _ => (body.run.bind (leave lock)).bind _) =
    .ask (I := storeInterface) (.acquire lock) fun _ => (body.run.bind _).bind (leave lock)
  rw [Script.bind_assoc, Script.bind_assoc]
  refine congrArg (Script.ask _) (funext fun _ => congrArg body.run.bind (funext fun r => ?_))
  cases r <;> rfl

end Operation

/-! ## Confined scripts -/

/-- Whether a script asks for nothing but calls about one key. -/
inductive Only (key : Bytes) : Script storeInterface α → Prop
  | done (a : α) : Only key (.done a)
  | call {c : Call} (about : c.key? = some key)
    {resume : StoreRequest.Reply (.call c) → Script storeInterface α}
    (rest : ∀ reply, Only key (resume reply)) : Only key (.ask (.call c) resume)

namespace Only

variable {key other : Bytes} {p : Script storeInterface α}

theorem bind (h : Only key p) {f : α → Script storeInterface β} (next : ∀ a, Only key (f a)) :
    Only key (p.bind f) := by
  induction h with
  | done a => exact next a
  | call about _ ih => exact .call about ih

/-- The answer and what is left under the key depend on what was there. -/
theorem run_congr (h : Only key p) {s s' : Standing Partition}
    (same : s.base.entries.get? key = s'.base.entries.get? key) :
    (p.run (Operation.answer Partition.serve) s).1 =
        (p.run (Operation.answer Partition.serve) s').1 ∧
      (p.run (Operation.answer Partition.serve) s).2.base.entries.get? key =
        (p.run (Operation.answer Partition.serve) s').2.base.entries.get? key := by
  induction h generalizing s s' with
  | done a => exact ⟨rfl, same⟩
  | @call c about resume _ ih =>
    obtain ⟨answers, stays⟩ := Partition.call_congr about same
    have replies : (Operation.answer Partition.serve (.call c) s).1 =
        (Operation.answer Partition.serve (.call c) s').1 := congrArg Except.ok answers
    rw [Script.run_ask, Script.run_ask, replies]
    exact ih _ stays

/-- What is under the other keys is left. -/
theorem run_frame (h : Only key p) (ne : key ≠ other) (s : Standing Partition) :
    (p.run (Operation.answer Partition.serve) s).2.base.entries.get? other =
      s.base.entries.get? other := by
  induction h generalizing s with
  | done a => rfl
  | call about _ ih => exact (ih _ _).trans (Partition.call_frame about ne s.base)

/-! ### Operations -/

theorem operation_bind {op : Operation α} (h : Only key op.run) {f : α → Operation β}
    (next : ∀ a, Only key (f a).run) : Only key (op >>= f).run :=
  h.bind fun
    | .ok a => next a
    | .error _ => .done _

theorem operation_map {op : Operation α} (h : Only key op.run) (f : α → β) :
    Only key (f <$> op).run := by
  rw [← bind_pure_comp]
  exact operation_bind h fun _ => .done _

theorem operation_call {c : Call} (about : c.key? = some key) : Only key (Operation.call c).run :=
  .call about fun _ => .done _

end Only

namespace Layout

variable (l : Layout κ ν) (key : κ)

theorem only_put (value : ν) : Only (l.keys.encode key) (l.put key value).run :=
  Only.operation_call rfl

theorem only_get : Only (l.keys.encode key) (l.get key).run :=
  Only.operation_bind (Only.operation_call rfl) fun _ => .done _

theorem only_remove : Only (l.keys.encode key) (l.remove key).run :=
  Only.operation_call rfl

theorem only_contains : Only (l.keys.encode key) (l.contains key).run :=
  Only.operation_call rfl

end Layout

namespace EntityStore

variable (s : EntityStore κ ν) (c : EntityCall κ ν)

/-- The bytes of the key of a call. -/
def bytes : Bytes := s.layout.keys.encode c.key

/-- The lock of the key of a call. -/
def lock : Lock := .shard (s.shards.index c.key)

/-- A call asks about its key only while it holds the lock of the key. -/
theorem perform_withLock :
    ∃ body, Only (s.bytes c) body.run ∧ s.perform c = Operation.withLock (s.lock c) body := by
  obtain ⟨key, call⟩ := c
  have locked : ∀ {α} {f : α → CellAnswer ν} {body : Operation α},
      Only (s.layout.keys.encode key) body.run →
      ∃ body', Only (s.layout.keys.encode key) body'.run ∧
        f <$> s.locked key body = Operation.withLock (.shard (s.shards.index key)) body' :=
    fun only => ⟨_, only.operation_map _, Operation.map_withLock _ _ _⟩
  have reads : ∀ {α} {next : Option ν → Operation α},
      (∀ cell, Only (s.layout.keys.encode key) (next cell).run) →
      Only (s.layout.keys.encode key) (s.layout.get key >>= next).run :=
    (s.layout.only_get key).operation_bind
  have puts : ∀ value, Only (s.layout.keys.encode key)
      (s.layout.put key value >>= fun _ => (pure value : Operation ν)).run :=
    fun value => (s.layout.only_put key value).operation_bind fun _ => .done _
  cases call with
  | put value => exact locked (s.layout.only_put key value)
  | get => exact locked (s.layout.only_get key)
  | remove => exact locked (s.layout.only_remove key)
  | contains => exact locked (s.layout.only_contains key)
  | removeIf condition =>
    refine locked (reads fun cell => ?_)
    cases cell with
    | none => exact .done _
    | some value =>
      dsimp only
      split
      · exact (s.layout.only_remove key).operation_bind fun _ => .done _
      · exact .done _
  | update change =>
    refine locked (reads fun cell => ?_)
    cases cell with
    | none => exact .done _
    | some value => exact puts (change value)
  | putOrUpdate value change =>
    refine locked (reads fun cell => ?_)
    cases cell with
    | none => exact puts value
    | some old => exact puts (change old)
  | findOrPut value =>
    refine locked (reads fun cell => ?_)
    cases cell with
    | none => exact puts value
    | some old => exact .done _

/-- What a call does between getting and giving back the lock of its key. -/
theorem run_perform :
    ∃ p, Only (s.bytes c) p ∧
      (s.perform c).run = .ask (I := storeInterface) (.acquire (s.lock c))
        (fun _ => p.bind (Operation.leave (s.lock c))) ∧
      ∀ a, s.alone c a = p.run (Operation.answer Partition.serve) a := by
  obtain ⟨body, only, locked⟩ := s.perform_withLock c
  refine ⟨body.run, only, ?_, fun a => ?_⟩
  · rw [locked, Operation.run_withLock]
  · rw [alone, locked, Operation.runAlone_withLock]
    rfl

variable {c} {a b : Standing Partition}

theorem alone_congr (same : a.base.entries.get? (s.bytes c) = b.base.entries.get? (s.bytes c)) :
    (s.alone c a).1 = (s.alone c b).1 ∧
      (s.alone c a).2.base.entries.get? (s.bytes c) =
        (s.alone c b).2.base.entries.get? (s.bytes c) := by
  obtain ⟨p, only, -, ran⟩ := s.run_perform c
  rw [ran, ran]
  exact only.run_congr same

theorem alone_frame {other : Bytes} (ne : s.bytes c ≠ other) (a : Standing Partition) :
    (s.alone c a).2.base.entries.get? other = a.base.entries.get? other := by
  obtain ⟨p, only, -, ran⟩ := s.run_perform c
  rw [ran]
  exact only.run_frame ne a

/-- What is left under a key by calls that run alone depends on those about this key only. -/
theorem after_alone_filter {key : Bytes} (calls : List (EntityCall κ ν))
    (same : a.base.entries.get? key = b.base.entries.get? key) :
    (after s.alone calls a).base.entries.get? key =
      (after s.alone (calls.filter fun c => s.bytes c = key) b).base.entries.get? key := by
  induction calls generalizing a b with
  | nil => exact same
  | cons c calls ih =>
    rw [List.filter_cons]
    by_cases about : s.bytes c = key
    · rw [if_pos (decide_eq_true about)]
      subst about
      exact ih (s.alone_congr same).2
    · rw [if_neg (mt of_decide_eq_true about)]
      exact ih ((s.alone_frame about a).trans same)

end EntityStore

end SnapshotStore
