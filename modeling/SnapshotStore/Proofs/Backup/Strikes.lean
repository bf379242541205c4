import SnapshotStore.Proofs.Backup.Upholds

/-!
How a script ends given its requests that meet a fault (`Meets`), so that a statement can allow some
of them and exclude others, and how it ends if none of a kind does and the manifest is not replaced
(`Provided`).
-/

namespace SnapshotStore.Site

variable {α β : Type}

/-- Whether a script ends as `E` says, given its requests that meet a fault. -/
def Meets (E : List KeeperRequest → α → Site → Prop) (p : Script keeperInterface α) (s : Site) :
    Prop :=
  E (struck p s) (p.run answer s).1 (p.run answer s).2

section Rules

variable {E : List KeeperRequest → α → Site → Prop} {F : List KeeperRequest → β → Site → Prop}
  {p : Script keeperInterface α} {s s' : Site} {r : KeeperRequest}
  {resume : r.Reply → Script keeperInterface α} {reply : r.Reply}

theorem Meets.mono {E' : List KeeperRequest → α → Site → Prop} (h : Meets E p s)
    (imp : ∀ faults a s, E faults a s → E' faults a s) : Meets E' p s :=
  imp _ _ _ h

theorem meets_done {a : α} (h : E [] a s) : Meets E (.done a) s := h

theorem meets_ask_spared (answered : answer r s = (reply, s')) (spared : s.awaits r = false)
    (next : Meets E (resume reply) s') : Meets E (.ask r resume) s := by
  rw [Meets, struck, Script.run_ask, answered, spared]
  exact next

theorem meets_ask_struck (answered : answer r s = (reply, s')) (hit : s.awaits r = true)
    (next : Meets (fun faults => E (r :: faults)) (resume reply) s') :
    Meets E (.ask r resume) s := by
  rw [Meets, struck, Script.run_ask, answered, hit]
  exact next

theorem Meets.bind {f : α → Script keeperInterface β} (h : Meets E p s)
    (next : ∀ faults a s, E faults a s → Meets (fun more => F (faults ++ more)) (f a) s) :
    Meets F (p.bind f) s := by
  rw [Meets, struck_bind, Script.run_bind]
  exact next _ _ _ h

end Rules

section Provided

variable {kind : KeeperRequest → Prop} {E : α → Site → Prop} {F : β → Site → Prop}
  {p : Script keeperInterface α} {s s' : Site} {r : KeeperRequest}
  {resume : r.Reply → Script keeperInterface α} {reply : r.Reply}

/-- Whether a script ends as `E` says if no request of a kind meets a fault and the manifest is not
replaced. -/
def Provided (kind : KeeperRequest → Prop) (E : α → Site → Prop) (p : Script keeperInterface α)
    (s : Site) : Prop :=
  (∀ r ∈ struck p s, ¬kind r) → moves p s = false → Ends E p s

theorem Ends.provided (h : Ends E p s) : Provided kind E p s := fun _ _ => h

theorem provided_done {a : α} (h : E a s) : Provided kind E (.done a) s := fun _ _ => h

theorem provided_ask (answered : answer r s = (reply, s'))
    (next : Provided kind E (resume reply) s') : Provided kind E (.ask r resume) s := by
  intro spared still
  rw [moves, answered, Bool.or_eq_false_iff] at still
  refine ends_ask answered (next (fun r' mem => spared r' (mem_struck_ask ?_)) still.2)
  rw [answered]
  exact mem

/-- Nothing is said of a script that replaces the manifest. -/
theorem provided_commits (answered : answer r s = (reply, s')) (commits : r.commits reply = true) :
    Provided kind E (.ask r resume) s := by
  intro _ still
  rw [moves, answered, commits] at still
  cases still

theorem provided_ask_spared (of_kind : kind r)
    (next : s.awaits r = false → Provided kind E (resume (answer r s).1) (answer r s).2) :
    Provided kind E (.ask r resume) s := by
  intro spared
  exact provided_ask rfl (next (awaits_eq_false of_kind spared)) spared

theorem Provided.bind {f : α → Script keeperInterface β} (h : Provided kind E p s)
    (next : ∀ a s, E a s → Provided kind F (f a) s) : Provided kind F (p.bind f) s := by
  intro spared still
  rw [struck_bind, List.forall_mem_append] at spared
  rw [moves_bind, Bool.or_eq_false_iff] at still
  rw [Ends, Script.run_bind]
  exact next _ _ (h spared.1 still.1) spared.2 still.2

end Provided

/-! ## Requests -/

variable (s : Site)

/-- A call on the engine meets the next fault, or is done. -/
theorem onEngine_strikes (act : Engine → Except StorageError α × Engine) :
    (∃ e, (s.engineFaults.headD none).isSome = true ∧
        s.onEngine act = (.error e, { s with engineFaults := s.engineFaults.tail })) ∨
      (s.engineFaults.headD none).isSome = false ∧
        s.onEngine act = ((act s.engine).1,
          { s with engine := (act s.engine).2, engineFaults := s.engineFaults.tail }) := by
  rw [onEngine]
  cases s.engineFaults.headD none with
  | some e => exact .inl ⟨e, rfl, rfl⟩
  | none => exact .inr ⟨rfl, rfl⟩

theorem onCodec_strikes :
    (∃ e, (s.codecFaults.headD none).isSome = true ∧
        s.onCodec = (.error e, { s with codecFaults := s.codecFaults.tail })) ∨
      (s.codecFaults.headD none).isSome = false ∧
        s.onCodec = (.ok (), { s with codecFaults := s.codecFaults.tail }) := by
  rw [onCodec]
  cases s.codecFaults.headD none with
  | some e => exact .inl ⟨e, rfl, rfl⟩
  | none => exact .inr ⟨rfl, rfl⟩

variable {s}

/-- Without faults of its own the disk does what it is asked to. -/
theorem onDisk_of_steady (steady : s.diskFaults = []) (c : DiskCall) :
    s.onDisk c = ((s.disk.call c).1, { s with disk := (s.disk.call c).2 }) := by
  obtain ⟨_, _, _, _, _, _, _⟩ := s
  cases steady
  rfl

theorem awaits_disk_of_steady (steady : s.diskFaults = []) (c : DiskCall) :
    s.awaits (.disk c) = false := by
  rw [awaits, steady]
  rfl

theorem meets_disk_of_steady {E : List KeeperRequest → α → Site → Prop} {c : DiskCall}
    {resume : (KeeperRequest.disk c).Reply → Script keeperInterface α}
    (steady : s.diskFaults = [])
    (next : Meets E (resume (s.disk.call c).1) { s with disk := (s.disk.call c).2 }) :
    Meets E (.ask (.disk c) resume) s :=
  meets_ask_spared (onDisk_of_steady steady c) (awaits_disk_of_steady steady c) next

/-! ## Where nothing goes wrong -/

theorem Calm.answer (calm : s.Calm) (r : KeeperRequest) : (answer r s).2.Calm := by
  have kept : ∀ engine disk, Calm { s with engine, disk } :=
    fun _ _ => ⟨calm.engine, calm.codec, calm.disk⟩
  cases r with
  | disk c =>
    rw [Site.answer, onDisk_of_calm calm]
    exact kept _ _
  | openPartition _ | removePartition _ | closeEngine | call _ _ =>
    rw [Site.answer, onEngine_of_calm calm]
    exact kept _ _
  | admitWrite _ | admitRead _ =>
    rw [Site.answer, onCodec_of_calm calm]
    exact calm
  | freshId | now => exact calm

theorem Calm.spared (calm : s.Calm) (r : KeeperRequest) : s.awaits r = false := by
  cases r with
  | disk c => exact awaits_disk_of_steady calm.disk c
  | openPartition _ | removePartition _ | closeEngine | call _ _ =>
    rw [awaits, calm.engine]
    rfl
  | admitWrite _ | admitRead _ =>
    rw [awaits, calm.codec]
    rfl
  | freshId | now => rfl

theorem Calm.struck_eq_nil (calm : s.Calm) (p : Script keeperInterface α) : struck p s = [] := by
  induction p generalizing s with
  | done a => rfl
  | ask r resume ih =>
    rw [struck, calm.spared r, ih _ (calm.answer r)]
    rfl

theorem Calm.ends {E : List KeeperRequest → α → Site → Prop} {p : Script keeperInterface α}
    (calm : s.Calm) (h : Meets E p s) : Ends (E []) p s := by
  rw [Meets, calm.struck_eq_nil] at h
  exact h

end SnapshotStore.Site
