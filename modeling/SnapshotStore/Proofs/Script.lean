import SnapshotStore.Script

/-!
What scripts ask for. `Script.Asks` says that the requests of a script are of a kind whatever it is
replied, so that running it keeps what each request of the kind keeps (`Script.Asks.run`).
-/

namespace SnapshotStore.Script

variable {I : Interface} {α β σ : Type} {R : I.Request → Prop} {Q : α → Prop} {p : Script I α}

/-- Whether the requests of a script are of a kind, whatever the replies, and its results satisfy a
condition. -/
def Asks (R : I.Request → Prop) (Q : α → Prop) : Script I α → Prop
  | .done a => Q a
  | .ask r resume => R r ∧ ∀ reply, Asks R Q (resume reply)

theorem Asks.bind {f : α → Script I β} {Q' : β → Prop} (h : p.Asks R Q)
    (next : ∀ a, Q a → (f a).Asks R Q') : (p.bind f).Asks R Q' := by
  induction p with
  | done a => exact next a h
  | ask r resume ih => exact ⟨h.1, fun reply => ih reply (h.2 reply)⟩

/-- What each request of a kind keeps is kept by a script that asks for nothing else. -/
theorem Asks.run {answer : (r : I.Request) → σ → I.Reply r × σ} {J : σ → Prop} {s : σ}
    (h : p.Asks R Q) (keeps : ∀ r s, R r → J s → J (answer r s).2) (holds : J s) :
    Q (p.run answer s).1 ∧ J (p.run answer s).2 := by
  induction p generalizing s with
  | done a => exact ⟨h, holds⟩
  | ask r resume ih => exact ih _ (h.2 _) (keeps r s h.1 holds)

end SnapshotStore.Script
