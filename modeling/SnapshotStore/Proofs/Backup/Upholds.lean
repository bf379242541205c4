import SnapshotStore.Proofs.Backup.Site

/-!
Activities on a site, step by step. `Upholds` says that a condition holds in each state that a
script passes, before each of its requests and at its end, and that its result satisfies another
one, as long as no request of a kind meets a fault (`struck`). The conditions may depend on whether
the manifest has been replaced. What is upheld holds wherever the script is stopped
(`Upholds.stopped`).
-/

namespace SnapshotStore

namespace Activity

variable {ε δ α β : Type} (k : Keeper)

/-- The script of an activity of a keeper. -/
def script (body : Activity ε α) (k : Keeper) : Script keeperInterface (Except ε α × Keeper) :=
  body.run.run k

@[simp] theorem script_pure (a : α) : script (pure a : Activity ε α) k = .done (.ok a, k) := rfl

@[simp] theorem script_throw (e : ε) : script (throw e : Activity ε α) k = .done (.error e, k) := rfl

theorem script_bind (body : Activity ε α) (f : α → Activity ε β) :
    script (body >>= f) k =
      (body.script k).bind fun r =>
        match r.1 with
        | .ok a => (f a).script r.2
        | .error e => .done (.error e, r.2) := by
  show (body.run.run k).bind _ = _
  refine congrArg _ (funext fun r => ?_)
  rcases r with ⟨_ | _, _⟩ <;> rfl

@[simp] theorem script_get_bind (f : Keeper → Activity ε β) :
    script (get >>= f) k = (f k).script k := rfl

@[simp] theorem script_change_bind (g : Keeper → Keeper) (f : Unit → Activity ε β) :
    script (change g >>= f) k = (f ()).script (g k) := rfl

@[simp] theorem script_ask_bind (r : KeeperRequest) (f : r.Reply → Activity ε β) :
    script (ask r >>= f) k = .ask r fun reply => (f reply).script k := rfl

@[simp] theorem script_ofExcept (wrap : δ → ε) (r : Except δ α) :
    script (ofExcept wrap r) k = .done (r.mapError wrap, k) := rfl

@[simp] theorem script_ofExcept_bind (wrap : δ → ε) (r : Except δ α) (f : α → Activity ε β) :
    script (ofExcept wrap r >>= f) k =
      match r with
      | .ok a => (f a).script k
      | .error e => .done (.error (wrap e), k) := by
  cases r <;> rfl

@[simp] theorem script_disk_bind (c : DiskCall) (f : c.Answer → Activity StoreError β) :
    script (disk c >>= f) k =
      .ask (.disk c) fun reply =>
        match reply with
        | .ok a => (f a).script k
        | .error fault => .done (.error (.io fault), k) := by
  show Script.ask (I := keeperInterface) (.disk c) _ = _
  refine congrArg (Script.ask (I := keeperInterface) (.disk c)) (funext fun reply => ?_)
  rcases reply with _ | _ <;> rfl

@[simp] theorem script_disk (c : DiskCall) :
    script (disk c) k = .ask (.disk c) fun reply => .done (reply.mapError .io, k) := rfl

theorem script_outcome_bind (body : Activity δ α) (f : Except δ α → Activity ε β) :
    script (outcome body >>= f) k = (body.script k).bind fun r => (f r.1).script r.2 := by
  show ((body.run.run k).bind _).bind _ = _
  rw [Script.bind_assoc]
  rfl

theorem script_wrapping (wrap : δ → ε) (body : Activity δ α) :
    script (wrapping wrap body) k =
      (body.script k).bind fun r => .done (r.1.mapError wrap, r.2) :=
  script_outcome_bind k body _

/-- Saving a manifest writes it and moves it to its place, which is to last; if it does not get there,
what was written is removed. -/
theorem script_saveManifest (manifest : Manifest) :
    (Keeper.saveManifest manifest).script k =
      let undo (fault : DiskFault) : Script keeperInterface (Except StoreError Unit × Keeper) :=
        script (do
          let _ ← ask (.disk (.removeFile (Place.temporary k.directory)))
          throw (.io fault)) k
      .ask (.disk (.write (Place.temporary k.directory) manifest.write)) fun
        | .ok _ =>
          .ask (.disk (.rename (Place.temporary k.directory) (Place.manifest k.directory))) fun
            | .ok _ => (disk (.sync k.directory)).script k
            | .error fault => undo fault
        | .error fault => undo fault := by
  rw [Keeper.saveManifest, script_get_bind, script_outcome_bind, script_disk_bind, Script.ask_bind]
  refine congrArg (Script.ask (I := keeperInterface) (.disk _)) (funext fun written => ?_)
  cases written with
  | error fault => rfl
  | ok _ =>
    dsimp only
    rw [script_disk, Script.ask_bind]
    refine congrArg (Script.ask (I := keeperInterface) (.disk _)) (funext fun moved => ?_)
    cases moved <;> rfl

end Activity

/-- Whether a request with its reply has moved a file to its place; a keeper moves the manifest
only. -/
def KeeperRequest.commits : (r : KeeperRequest) → r.Reply → Bool
  | .disk (.rename _ _), .ok _ => true
  | _, _ => false

/-- A request and its reply. -/
structure Event where
  request : KeeperRequest
  reply : request.Reply

/-- Whether an event has replaced the manifest. -/
def Event.commits (event : Event) : Bool := event.request.commits event.reply

namespace Site

variable {α β : Type} {P : Bool → Site → Prop} {Q : α → Bool → Site → Prop}
  {R : β → Bool → Site → Prop} {kind : KeeperRequest → Prop} {p : Script keeperInterface α}
  {moved : Bool} {s : Site}

/-- What happens in a script that is stopped after `n` requests, and the site that it leaves. -/
def stop : (n : Nat) → Script keeperInterface α → Site → List Event × Site
  | n + 1, .ask r resume, s =>
    let (reply, s') := answer r s
    let (events, last) := stop n (resume reply) s'
    (⟨r, reply⟩ :: events, last)
  | _, _, s => ([], s)

/-- Whether a script replaces the manifest. -/
def moves : Script keeperInterface α → Site → Bool
  | .done _, _ => false
  | .ask r resume, s =>
    r.commits (answer r s).1 || moves (resume (answer r s).1) (answer r s).2

/-- The requests of a script that meet a fault. -/
def struck : Script keeperInterface α → Site → List KeeperRequest
  | .done _, _ => []
  | .ask r resume, s =>
    let rest := struck (resume (answer r s).1) (answer r s).2
    if s.awaits r then r :: rest else rest

section Struck

variable {r : KeeperRequest} {resume : r.Reply → Script keeperInterface α}

theorem mem_struck_ask {r' : KeeperRequest}
    (mem : r' ∈ struck (resume (answer r s).1) (answer r s).2) : r' ∈ struck (.ask r resume) s := by
  rw [struck]
  split
  · exact List.mem_cons_of_mem _ mem
  · exact mem

/-- A request of a kind of which none meets a fault is not awaited by one. -/
theorem awaits_eq_false (of_kind : kind r)
    (spared : ∀ r' ∈ struck (.ask r resume) s, ¬kind r') : s.awaits r = false := by
  cases awaited : s.awaits r with
  | false => rfl
  | true =>
    have hit : r ∈ struck (.ask r resume) s := by
      rw [struck, awaited]
      exact List.mem_cons_self ..
    exact absurd of_kind (spared r hit)

theorem struck_bind (p : Script keeperInterface α) (f : α → Script keeperInterface β) (s : Site) :
    struck (p.bind f) s =
      struck p s ++ struck (f (p.run answer s).1) (p.run answer s).2 := by
  induction p generalizing s with
  | done a => rfl
  | ask r resume ih =>
    rw [Script.ask_bind, struck, struck, Script.run_ask, ih]
    split <;> rfl

theorem moves_bind (p : Script keeperInterface α) (f : α → Script keeperInterface β) (s : Site) :
    moves (p.bind f) s = (moves p s || moves (f (p.run answer s).1) (p.run answer s).2) := by
  induction p generalizing s with
  | done a => rfl
  | ask r resume ih => rw [Script.ask_bind, moves, moves, Script.run_ask, ih, Bool.or_assoc]

end Struck

/-- Whether a script passes states that satisfy `P` only, and ends as `Q` says, as long as no request
of a kind meets a fault. -/
def Upholds (kind : KeeperRequest → Prop) (P : Bool → Site → Prop) (Q : α → Bool → Site → Prop) :
    Script keeperInterface α → Bool → Site → Prop
  | .done a, moved, s => P moved s ∧ Q a moved s
  | .ask r resume, moved, s =>
    P moved s ∧ ((kind r → s.awaits r = false) →
      Upholds kind P Q (resume (answer r s).1) (moved || r.commits (answer r s).1) (answer r s).2)

theorem Upholds.start (h : Upholds kind P Q p moved s) : P moved s := by
  cases p with
  | done a => exact h.1
  | ask r resume => exact h.1

theorem Upholds.mono {Q' : α → Bool → Site → Prop} (h : Upholds kind P Q p moved s)
    (imp : ∀ a moved s, P moved s → Q a moved s → Q' a moved s) :
    Upholds kind P Q' p moved s := by
  induction p generalizing moved s with
  | done a => exact ⟨h.1, imp a moved s h.1 h.2⟩
  | ask r resume ih => exact ⟨h.1, fun spared => ih _ (h.2 spared)⟩

theorem Upholds.bind {f : α → Script keeperInterface β} (h : Upholds kind P Q p moved s)
    (next : ∀ a moved s, P moved s → Q a moved s → Upholds kind P R (f a) moved s) :
    Upholds kind P R (p.bind f) moved s := by
  induction p generalizing moved s with
  | done a => exact next a moved s h.1 h.2
  | ask r resume ih => exact ⟨h.1, fun spared => ih _ (h.2 spared)⟩

theorem upholds_done {a : α} (h : P moved s) (h' : Q a moved s) :
    Upholds kind P Q (.done a) moved s :=
  ⟨h, h'⟩

theorem upholds_ask {r : KeeperRequest} {resume : r.Reply → Script keeperInterface α}
    {reply : r.Reply} {s' : Site} (h : P moved s) (answered : answer r s = (reply, s'))
    (next : Upholds kind P Q (resume reply) (moved || r.commits reply) s') :
    Upholds kind P Q (.ask r resume) moved s := by
  refine ⟨h, fun _ => ?_⟩
  rw [answered]
  exact next

theorem upholds_ask_still {r : KeeperRequest} {resume : r.Reply → Script keeperInterface α}
    {reply : r.Reply} {s' : Site} (h : P moved s) (answered : answer r s = (reply, s'))
    (still : r.commits reply = false) (next : Upholds kind P Q (resume reply) moved s') :
    Upholds kind P Q (.ask r resume) moved s := by
  refine upholds_ask h answered ?_
  rw [still, Bool.or_false]
  exact next

/-- A call on the disk of the kind is done. -/
theorem upholds_disk_spared {c : DiskCall}
    {resume : (KeeperRequest.disk c).Reply → Script keeperInterface α} (h : P moved s)
    (of_kind : kind (.disk c)) (still : (KeeperRequest.disk c).commits (s.disk.call c).1 = false)
    (next : ∀ s', Placed s s' (s.disk.call c).2 →
      Upholds kind P Q (resume (s.disk.call c).1) moved s') :
    Upholds kind P Q (.ask (.disk c) resume) moved s := by
  refine ⟨h, fun spared => ?_⟩
  obtain ⟨s', answered, placed⟩ := onDisk_of_spared (spared of_kind)
  rw [answer, answered, still, Bool.or_false]
  exact next s' placed

/-- An activity goes on with the value of its first part, unless that fails. -/
theorem upholds_bind {ε α β : Type} {k : Keeper} {body : Activity ε α} {f : α → Activity ε β}
    {Q : Except ε α × Keeper → Bool → Site → Prop} {R : Except ε β × Keeper → Bool → Site → Prop}
    (first : Upholds kind P Q (body.script k) moved s)
    (ok : ∀ a k moved s, P moved s → Q (.ok a, k) moved s →
      Upholds kind P R ((f a).script k) moved s)
    (error : ∀ e k moved s, P moved s → Q (.error e, k) moved s → R (.error e, k) moved s) :
    Upholds kind P R ((body >>= f).script k) moved s := by
  rw [Activity.script_bind]
  refine first.bind fun r moved s holds post => ?_
  obtain ⟨result, k⟩ := r
  cases result with
  | ok a => exact ok a k moved s holds post
  | error e => exact upholds_done holds (error e k moved s holds post)

theorem upholds_wrapping {δ ε α : Type} {k : Keeper} {body : Activity δ α} {wrap : δ → ε}
    {Q : Except δ α × Keeper → Bool → Site → Prop} {R : Except ε α × Keeper → Bool → Site → Prop}
    (first : Upholds kind P Q (body.script k) moved s)
    (imp : ∀ r k moved s, Q (r, k) moved s → R (r.mapError wrap, k) moved s) :
    Upholds kind P R ((Activity.wrapping wrap body).script k) moved s := by
  rw [Activity.script_wrapping]
  exact first.bind fun r moved s holds post => upholds_done holds (imp r.1 r.2 moved s post)

/-- What is upheld holds wherever the script is stopped. -/
theorem Upholds.stopped (h : Upholds kind P Q p moved s) (spared : ∀ r ∈ struck p s, ¬kind r)
    (n : Nat) : P (moved || (stop n p s).1.any Event.commits) (stop n p s).2 := by
  induction n generalizing p moved s with
  | zero =>
    rw [stop, List.any_nil, Bool.or_false]
    · exact h.start
    · exact nofun
  | succ n ih =>
    cases p with
    | done a =>
      rw [stop, List.any_nil, Bool.or_false]
      · exact h.start
      · exact nofun
    | ask r resume =>
      have later := ih (h.2 fun of_kind => awaits_eq_false of_kind spared)
        fun r' mem => spared r' (mem_struck_ask mem)
      rw [Bool.or_assoc] at later
      exact later

/-- Whether a script ends as `E` says. -/
def Ends (E : α → Site → Prop) (p : Script keeperInterface α) (s : Site) : Prop :=
  E (p.run answer s).1 (p.run answer s).2

theorem Upholds.ends (h : Upholds kind P Q p moved s) (spared : ∀ r ∈ struck p s, ¬kind r) :
    Ends (fun a s => ∃ moved, P moved s ∧ Q a moved s) p s := by
  induction p generalizing moved s with
  | done a => exact ⟨moved, h⟩
  | ask r resume ih =>
    exact ih _ (h.2 fun of_kind => awaits_eq_false of_kind spared)
      fun r' mem => spared r' (mem_struck_ask mem)

variable {E : α → Site → Prop} {F : β → Site → Prop}

theorem ends_done {a : α} (h : E a s) : Ends E (.done a) s := h

theorem ends_ask {r : KeeperRequest} {resume : r.Reply → Script keeperInterface α}
    {reply : r.Reply} {s' : Site} (answered : answer r s = (reply, s'))
    (next : Ends E (resume reply) s') : Ends E (.ask r resume) s := by
  rw [Ends, Script.run_ask, answered]
  exact next

theorem Ends.mono {E' : α → Site → Prop} (h : Ends E p s) (imp : ∀ a s, E a s → E' a s) :
    Ends E' p s :=
  imp _ _ h

theorem Ends.bind {f : α → Script keeperInterface β} (h : Ends E p s)
    (next : ∀ a s, E a s → Ends F (f a) s) : Ends F (p.bind f) s := by
  rw [Ends, Script.run_bind]
  exact next _ _ h

end Site

end SnapshotStore
