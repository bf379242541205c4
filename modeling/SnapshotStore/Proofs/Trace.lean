/-!
Runs of a machine that is given one call after another: the answers it gives, and the state that it
is in afterwards.
-/

universe u v w

namespace SnapshotStore

variable {γ : Type u} {α : Type v} {σ : Type w}

/-- The answers to calls made one after another. -/
def trace (step : γ → σ → α × σ) : List γ → σ → List α
  | [], _ => []
  | call :: calls, s => (step call s).1 :: trace step calls (step call s).2

/-- The state after calls made one after another. -/
def after (step : γ → σ → α × σ) : List γ → σ → σ
  | [], s => s
  | call :: calls, s => after step calls (step call s).2

/-- Whether a condition holds of each call in the state in which it is made. -/
def Along (step : γ → σ → α × σ) (P : γ → σ → Prop) : List γ → σ → Prop
  | [], _ => True
  | call :: calls, s => P call s ∧ Along step P calls (step call s).2

variable (step : γ → σ → α × σ)

@[simp] theorem trace_cons (call : γ) (calls : List γ) (s : σ) :
    trace step (call :: calls) s = (step call s).1 :: trace step calls (step call s).2 := rfl

@[simp] theorem after_cons (call : γ) (calls : List γ) (s : σ) :
    after step (call :: calls) s = after step calls (step call s).2 := rfl

theorem after_append (calls more : List γ) (s : σ) :
    after step (calls ++ more) s = after step more (after step calls s) := by
  induction calls generalizing s with
  | nil => rfl
  | cons call calls ih => exact ih _

theorem along_append {P : γ → σ → Prop} {calls more : List γ} {s : σ} :
    Along step P (calls ++ more) s ↔
      Along step P calls s ∧ Along step P more (after step calls s) := by
  induction calls generalizing s with
  | nil => exact (iff_of_eq (true_and _)).symm
  | cons call calls ih => rw [List.cons_append, Along, Along, ih, and_assoc, after_cons]

/-- The states of two machines stay related if each call keeps them so. -/
theorem after_related {τ : Type w} {step : γ → σ → α × σ} {step' : γ → τ → α × τ} {R : σ → τ → Prop}
    {calls : List γ} {s : σ} {t : τ} (h : R s t)
    (agree : ∀ call ∈ calls, ∀ s t, R s t → R (step call s).2 (step' call t).2) :
    R (after step calls s) (after step' calls t) := by
  induction calls generalizing s t with
  | nil => exact h
  | cons call calls ih =>
    exact ih (agree call List.mem_cons_self s t h)
      fun c member => agree c (List.mem_cons_of_mem _ member)

/-- Two machines answer alike if their states are related and each call keeps them so. -/
theorem trace_eq_of_related {τ : Type w} {step : γ → σ → α × σ} {step' : γ → τ → α × τ}
    {R : σ → τ → Prop} {calls : List γ} {s : σ} {t : τ} (h : R s t)
    (agree : ∀ call ∈ calls, ∀ s t, R s t →
      (step call s).1 = (step' call t).1 ∧ R (step call s).2 (step' call t).2) :
    trace step calls s = trace step' calls t := by
  induction calls generalizing s t with
  | nil => rfl
  | cons call calls ih =>
    obtain ⟨same, next⟩ := agree call List.mem_cons_self s t h
    rw [trace_cons, trace_cons, same,
      ih next fun c member => agree c (List.mem_cons_of_mem _ member)]

end SnapshotStore
