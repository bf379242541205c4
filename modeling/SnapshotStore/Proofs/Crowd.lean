import Mathlib.Logic.Function.Basic
import SnapshotStore.Proofs.Unsteady
import SnapshotStore.Store.Access

/-!
Crowds: a store that several tasks use at once. A task whose turn it is makes its next request, unless
it waits for a lock that another one holds; who takes the next turn is not said. A task that is done
stays so (`Crowd.result?_play`).
-/

namespace SnapshotStore

variable {α : Type}

/-- What a script that is done has ended with. -/
def Script.result? {I : Interface} : Script I α → Option α
  | done a => some a
  | ask _ _ => none

namespace StoreRequest

/-- Whether a request is answered at once; a lock that is held is waited for. -/
def Admitted (holder : Lock → Option Nat) : StoreRequest → Prop
  | acquire lock => holder lock = none
  | _ => True

instance (holder : Lock → Option Nat) (r : StoreRequest) : Decidable (r.Admitted holder) :=
  match r with
  | acquire lock => inferInstanceAs (Decidable (holder lock = none))
  | release _ | call _ | head | tail | setHead _ | setTail _ => inferInstanceAs (Decidable True)

/-- Who holds the locks after a request of a task. -/
def holders (i : Nat) (holder : Lock → Option Nat) : StoreRequest → Lock → Option Nat
  | acquire lock => Function.update holder lock (some i)
  | release lock => Function.update holder lock none
  | _ => holder

end StoreRequest

/-- A store with the tasks that use it at once. -/
structure Crowd (α : Type) where
  store : Standing Partition
  /-- The task that holds a lock. -/
  holder : Lock → Option Nat
  /-- What each task has yet to do. -/
  tasks : List (Script storeInterface (Except StoreError α))

namespace Crowd

/-- A task makes its next request, unless it waits or is done. -/
def turn (c : Crowd α) (i : Nat) : Crowd α :=
  match c.tasks[i]? with
  | some (.ask r resume) =>
    if r.Admitted c.holder then
      let (reply, store) := Operation.answer Partition.serve r c.store
      ⟨store, r.holders i c.holder, c.tasks.set i (resume reply)⟩
    else c
  | _ => c

/-- Tasks take turns. -/
def play (c : Crowd α) (turns : List Nat) : Crowd α := turns.foldl turn c

/-- What a task that is done has ended with. -/
def result? (c : Crowd α) (i : Nat) : Option (Except StoreError α) :=
  c.tasks[i]?.bind Script.result?

theorem result?_eq_some {c : Crowd α} {i : Nat} {r : Except StoreError α} :
    c.result? i = some r ↔ c.tasks[i]? = some (.done r) := by
  rw [result?, Option.bind_eq_some_iff]
  constructor
  · rintro ⟨p, task, ended⟩
    cases p with
    | done r' =>
      cases ended
      exact task
    | ask _ _ => cases ended
  · exact fun task => ⟨_, task, rfl⟩

theorem play_append (c : Crowd α) (turns more : List Nat) :
    c.play (turns ++ more) = (c.play turns).play more :=
  List.foldl_append

/-- A task whose request is answered goes on with the reply. -/
theorem turn_of_ask {c : Crowd α} {i : Nat} {r : StoreRequest}
    {resume : r.Reply → Script storeInterface (Except StoreError α)}
    (task : c.tasks[i]? = some (.ask r resume)) (admitted : r.Admitted c.holder) :
    c.turn i = ⟨(Operation.answer Partition.serve r c.store).2, r.holders i c.holder,
      c.tasks.set i (resume (Operation.answer Partition.serve r c.store).1)⟩ := by
  rw [turn, task]
  exact if_pos admitted

/-- A task that is done stays so. -/
theorem result?_turn {c : Crowd α} {i : Nat} {r : Except StoreError α} (h : c.result? i = some r)
    (j : Nat) : (c.turn j).result? i = some r := by
  rw [turn]
  split
  · rename_i q resume next
    split
    · have other : j ≠ i := by
        rintro rfl
        rw [result?_eq_some.1 h] at next
        cases next
      rw [result?_eq_some, List.getElem?_set_ne other, result?_eq_some.1 h]
    · exact h
  · exact h

theorem result?_play {c : Crowd α} {i : Nat} {r : Except StoreError α} (h : c.result? i = some r)
    (turns : List Nat) : (c.play turns).result? i = some r := by
  induction turns generalizing c with
  | nil => exact h
  | cons j turns ih => exact ih (result?_turn h j)

end Crowd

end SnapshotStore
