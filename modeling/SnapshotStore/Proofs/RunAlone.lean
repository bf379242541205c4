import SnapshotStore.Store.Entity

/-!
How operations run alone. Running follows the way an operation is put together (`runAlone_bind`), and
locks do not matter to it (`runAlone_withLock`). What answers the calls may be replaced by anything
that answers alike (`runAlone_congr`), as a partition that no layer disturbs replaces a stack.
-/

namespace SnapshotStore.Operation

variable {σ τ α β : Type} (call : (c : Call) → σ → Except StorageError c.Answer × σ)
  (s : Standing σ)

@[simp] theorem runAlone_pure (a : α) : (pure a : Operation α).runAlone call s = (.ok a, s) := rfl

@[simp] theorem runAlone_throw (e : StoreError) :
    (throw e : Operation α).runAlone call s = (.error e, s) := rfl

@[simp] theorem runAlone_ofExcept (r : Except StoreError α) :
    (ofExcept r).runAlone call s = (r, s) := rfl

/-- The first part is run, and the second part goes on with its value unless it fails. -/
theorem runAlone_bind (op : Operation α) (f : α → Operation β) :
    (op >>= f).runAlone call s =
      match op.runAlone call s with
      | (.ok a, s') => (f a).runAlone call s'
      | (.error e, s') => (.error e, s') := by
  show Script.run (answer call) (op.run.bind _) s = _
  rw [Script.run_bind, runAlone]
  rcases Script.run (I := storeInterface) (answer call) op.run s with ⟨_ | _, _⟩ <;> rfl

theorem runAlone_bind_ok {op : Operation α} {a : α} {s' : Standing σ}
    (h : op.runAlone call s = (.ok a, s')) (f : α → Operation β) :
    (op >>= f).runAlone call s = (f a).runAlone call s' := by
  rw [runAlone_bind, h]

theorem runAlone_call (c : Call) :
    (Operation.call c).runAlone call s =
      ((call c s.base).1.mapError .storage, { s with base := (call c s.base).2 }) := rfl

@[simp] theorem runAlone_withLock (lock : Lock) (op : Operation α) :
    (withLock lock op).runAlone call s = op.runAlone call s := by
  show Script.run (answer call) (op.run.bind _) s = _
  rw [Script.run_bind]
  rfl

theorem runAlone_withLock_bind (lock : Lock) (op : Operation α) (f : α → Operation β) :
    (withLock lock op >>= f).runAlone call s = (op >>= f).runAlone call s := by
  rw [runAlone_bind, runAlone_withLock, ← runAlone_bind]

/-- Two grounds that answer each call alike, and stay so, make no difference to an operation. -/
theorem runAlone_congr (call' : (c : Call) → τ → Except StorageError c.Answer × τ)
    {R : σ → τ → Prop}
    (step : ∀ c a b, R a b → (call c a).1 = (call' c b).1 ∧ R (call c a).2 (call' c b).2)
    (op : Operation α) {a : σ} {b : τ} (h : R a b) (head tail : Int) :
    ∃ a' b' head' tail' result, op.runAlone call ⟨a, head, tail⟩ = (result, ⟨a', head', tail'⟩) ∧
      op.runAlone call' ⟨b, head, tail⟩ = (result, ⟨b', head', tail'⟩) ∧ R a' b' := by
  unfold runAlone
  generalize op.run = script
  induction script generalizing a b head tail with
  | done result => exact ⟨a, b, head, tail, result, rfl, rfl, h⟩
  | ask request resume ih =>
    rw [Script.run_ask, Script.run_ask]
    cases request with
    | call c =>
      obtain ⟨eq, next⟩ := step c a b h
      simp only [answer, eq]
      exact ih _ next head tail
    | acquire _ | release _ | head | tail => exact ih _ h head tail
    | setHead offset => exact ih _ h offset tail
    | setTail offset => exact ih _ h head offset

/-- What each call keeps, an operation keeps. -/
theorem runAlone_keeps {P : σ → Prop} (step : ∀ c a, P a → P (call c a).2) (op : Operation α)
    {s : Standing σ} (h : P s.base) : P (op.runAlone call s).2.base := by
  unfold runAlone
  generalize op.run = script
  induction script generalizing s with
  | done result => exact h
  | ask request resume ih =>
    rw [Script.run_ask]
    cases request with
    | call c => exact ih _ (step c s.base h)
    | acquire _ | release _ | head | tail | setHead _ | setTail _ => exact ih _ h

end SnapshotStore.Operation
