/-!
Scripts: trees of requests to the surroundings. A script either is done with a result or asks for
something and goes on with the reply. What runs alone (`Script.run`), what is interrupted after some
requests and what takes turns with other scripts are all readings of the same tree. Main statements:
scripts form a lawful monad, and running one after another is running their sequence (`run_bind`).
-/

universe u

namespace SnapshotStore

/-- Requests that a script can make and, for each, the replies to it. -/
structure Interface where
  Request : Type
  Reply : Request → Type

/-- A tree of requests over an interface, with results at its leaves. -/
inductive Script (I : Interface) (α : Type u) : Type u where
  | done (result : α)
  | ask (request : I.Request) (resume : I.Reply request → Script I α)

namespace Script

variable {I : Interface} {α β γ : Type}

/-- One script after another, which gets the result of the first. -/
def bind (s : Script I α) (f : α → Script I β) : Script I β :=
  match s with
  | done a => f a
  | ask request resume => ask request fun reply => (resume reply).bind f

instance : Monad (Script I) where
  pure := done
  bind := bind

/-- The script that makes one request and gives its reply. -/
def request (r : I.Request) : Script I (I.Reply r) := ask r done

/-- Runs a script alone, where each request changes a state and is answered from it. -/
def run {σ : Type} (answer : (r : I.Request) → σ → I.Reply r × σ) : Script I α → σ → α × σ
  | done a, s => (a, s)
  | ask r resume, s =>
    let (reply, s') := answer r s
    run answer (resume reply) s'

@[simp] theorem pure_eq_done (a : α) : (pure a : Script I α) = done a := rfl

@[simp] theorem bind_eq (s : Script I α) (f : α → Script I β) : s >>= f = s.bind f := rfl

@[simp] theorem done_bind (a : α) (f : α → Script I β) : (done a).bind f = f a := rfl

@[simp] theorem ask_bind (r : I.Request) (resume : I.Reply r → Script I α) (f : α → Script I β) :
    (ask r resume).bind f = ask r fun reply => (resume reply).bind f := rfl

@[simp] theorem bind_done (s : Script I α) : s.bind done = s := by
  induction s with
  | done a => rfl
  | ask r resume ih => simp [ih]

theorem bind_assoc (s : Script I α) (f : α → Script I β) (g : β → Script I γ) :
    (s.bind f).bind g = s.bind fun a => (f a).bind g := by
  induction s with
  | done a => rfl
  | ask r resume ih => simp [ih]

instance : LawfulMonad (Script I) :=
  LawfulMonad.mk' _ bind_done (fun _ _ => rfl) (fun s f g => bind_assoc s f g)

@[simp] theorem run_done {σ : Type} (answer : (r : I.Request) → σ → I.Reply r × σ) (a : α) (s : σ) :
    (done a).run answer s = (a, s) := rfl

@[simp] theorem run_ask {σ : Type} (answer : (r : I.Request) → σ → I.Reply r × σ)
    (r : I.Request) (resume : I.Reply r → Script I α) (s : σ) :
    (ask r resume).run answer s = (resume (answer r s).1).run answer (answer r s).2 := rfl

theorem run_bind {σ : Type} (answer : (r : I.Request) → σ → I.Reply r × σ) (p : Script I α)
    (f : α → Script I β) (s : σ) :
    (p.bind f).run answer s = (f (p.run answer s).1).run answer (p.run answer s).2 := by
  induction p generalizing s with
  | done a => rfl
  | ask r resume ih => simp [ih]

end Script

end SnapshotStore
