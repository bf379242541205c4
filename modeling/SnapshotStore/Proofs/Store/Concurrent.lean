import Mathlib.Data.List.Nodup
import SnapshotStore.Proofs.Crowd
import SnapshotStore.Proofs.Json.Stored
import SnapshotStore.Proofs.Store.Confined

/-!
An entity store that many tasks use at once. A call that has the lock of its key is alone with this
key, so that it answers as if it had run alone when it got the lock. Main statement: whoever takes
turns, the answers and the contents are those of the calls made one after another in the order in which
they got their locks (`EntityStore.calls_line_up`).
-/

namespace SnapshotStore

variable {keys : KeyKind} {κ ν α γ σ : Type}

/-! ## Who gets a lock -/

namespace Crowd

/-- Whether a task gets a lock if it takes the next turn. -/
def enters (c : Crowd α) (i : Nat) : Bool :=
  match c.tasks[i]? with
  | some (.ask (.acquire lock) _) => (c.holder lock).isNone
  | _ => false

/-- The tasks that get locks while tasks take turns, in the order in which they get them. -/
def entrants (c : Crowd α) : List Nat → List Nat
  | [] => []
  | i :: turns =>
    if c.enters i then i :: (c.turn i).entrants turns else (c.turn i).entrants turns

theorem enters_of_ask {c : Crowd α} {i : Nat} {r : StoreRequest}
    {resume : r.Reply → Script storeInterface (Except StoreError α)}
    (task : c.tasks[i]? = some (.ask r resume)) :
    c.enters i = true ↔ ∃ lock, r = .acquire lock ∧ c.holder lock = none := by
  rw [enters, task]
  cases r with
  | acquire lock => simp
  | _ => simp

/-- A task that waits or is done, or is none, leaves all as it is. -/
theorem turn_of_idle {c : Crowd α} {i : Nat}
    (h : ∀ {r resume}, c.tasks[i]? = some (.ask r resume) → ¬r.Admitted c.holder) :
    c.turn i = c := by
  rw [turn]
  split
  · rename_i r resume task
    exact if_neg (h task)
  · rfl

theorem enters_of_idle {c : Crowd α} {i : Nat}
    (h : ∀ {r resume}, c.tasks[i]? = some (.ask r resume) → ¬r.Admitted c.holder) :
    c.enters i = false := by
  rw [enters]
  split
  · rename_i lock resume task
    cases holder : c.holder lock with
    | none => exact absurd holder (h task)
    | some _ => rfl
  · rfl

end Crowd

/-- The calls of tasks. -/
def callsOf (calls : List γ) (order : List Nat) : List γ := order.filterMap (calls[·]?)

theorem callsOf_concat {calls : List γ} {order : List Nat} {i : Nat} {call : γ}
    (called : calls[i]? = some call) : callsOf calls (order ++ [i]) = callsOf calls order ++ [call] := by
  rw [callsOf, List.filterMap_append, List.filterMap_cons_some called]
  rfl

theorem mem_of_mem_callsOf {calls : List γ} {order : List Nat} {call : γ}
    (h : call ∈ callsOf calls order) : call ∈ calls := by
  obtain ⟨i, -, called⟩ := List.mem_filterMap.1 h
  exact List.mem_of_getElem? called

/-- What the tasks of a crowd show of a machine to which their calls are given one after another, in an
order of the tasks. The answer to a call is as if only those on its key had come before. -/
structure Crowd.LinesUp [DecidableEq κ] (c : Crowd (CellAnswer ν)) (calls : List (EntityCall κ ν))
    (step : EntityCall κ ν → σ → Except StoreError (CellAnswer ν) × σ) (start : σ)
    (Shows : Partition → σ → Prop) (order : List Nat) : Prop where
  answers : ∀ i r, c.result? i = some r → ∃ call before behind, calls[i]? = some call ∧
    order = before ++ i :: behind ∧ r = (step call (after step (callsOf calls before) start)).1 ∧
    r = (step call (after step ((callsOf calls before).filter (·.key = call.key)) start)).1
  contents : (∀ i ∈ order, (c.result? i).isSome) →
    Shows c.store.base (after step (callsOf calls order) start)

/-- A machine that answers alike does as well. -/
theorem Crowd.LinesUp.related [DecidableEq κ] {c : Crowd (CellAnswer ν)}
    {calls : List (EntityCall κ ν)} {order : List Nat} {τ : Type}
    {step : EntityCall κ ν → σ → Except StoreError (CellAnswer ν) × σ} {start : σ}
    {step' : EntityCall κ ν → τ → Except StoreError (CellAnswer ν) × τ} {start' : τ}
    {Shows : Partition → σ → Prop} {Shows' : Partition → τ → Prop} {R : σ → τ → Prop}
    (h : c.LinesUp calls step start Shows order) (begins : R start start')
    (agree : ∀ call ∈ calls, ∀ s t, R s t →
      (step call s).1 = (step' call t).1 ∧ R (step call s).2 (step' call t).2)
    (shows : ∀ p s t, R s t → Shows p s → Shows' p t) :
    c.LinesUp calls step' start' Shows' order := by
  have line : ∀ l : List (EntityCall κ ν), (∀ call ∈ l, call ∈ calls) →
      R (after step l start) (after step' l start') :=
    fun l among => after_related begins fun call member s t related =>
      (agree call (among call member) s t related).2
  refine ⟨fun i r result => ?_, fun ended => ?_⟩
  · obtain ⟨call, before, behind, called, eq, answer, own⟩ := h.answers i r result
    have among := List.mem_of_getElem? called
    refine ⟨call, before, behind, called, eq, answer.trans ?_, own.trans ?_⟩
    · exact (agree call among _ _ (line _ fun _ => mem_of_mem_callsOf)).1
    · exact (agree call among _ _ (line _ fun _ member =>
        mem_of_mem_callsOf (List.mem_of_mem_filter member))).1
  · exact shows _ _ _ (line _ fun _ => mem_of_mem_callsOf) (h.contents ended)

/-! ## Crowds of calls -/

/-- What a crowd begins with. -/
structure Gathering (κ ν : Type) where
  store : EntityStore κ ν
  /-- The call of each task. -/
  calls : List (EntityCall κ ν)
  start : Standing Partition

namespace Gathering

variable (g : Gathering κ ν) {c : Crowd (CellAnswer ν)} {order order' : List Nat} {i j : Nat}
  {call other : EntityCall κ ν} {p : Script storeInterface (Except StoreError (CellAnswer ν))}
  {r : Except StoreError (CellAnswer ν)}

/-- The crowd before any task has begun. -/
def crowd : Crowd (CellAnswer ν) :=
  ⟨g.start, fun _ => none, g.calls.map fun call => (g.store.perform call).run⟩

/-- What there is after the calls of tasks have run alone, one after another. -/
def inLine (order : List Nat) : Standing Partition :=
  after g.store.alone (callsOf g.calls order) g.start

theorem inLine_concat (called : g.calls[i]? = some call) :
    g.inLine (order ++ [i]) = (g.store.alone call (g.inLine order)).2 := by
  rw [inLine, callsOf_concat called, after_append]
  rfl

/-- Whether an answer is that of a call in its place among the calls of tasks. -/
def Answered (order : List Nat) (i : Nat) (call : EntityCall κ ν)
    (r : Except StoreError (CellAnswer ν)) : Prop :=
  ∃ before behind, order = before ++ i :: behind ∧ r = (g.store.alone call (g.inLine before)).1

theorem Answered.mono {g : Gathering κ ν} (h : g.Answered order i call r) (grows : order <+: order') :
    g.Answered order' i call r := by
  obtain ⟨more, rfl⟩ := grows
  obtain ⟨before, behind, rfl, eq⟩ := h
  exact ⟨before, behind ++ more, by rw [List.append_assoc, List.cons_append], eq⟩

theorem Answered.mem {g : Gathering κ ν} (h : g.Answered order i call r) : i ∈ order := by
  obtain ⟨before, behind, rfl, -⟩ := h
  exact List.mem_append_right _ List.mem_cons_self

/-! ## Stages of a task -/

/-- How far a task may be when tasks have got their locks in an order. What a task inside has yet to do
gives its answer and leaves under its key what there is after the calls in line, and no other task
changes this. -/
inductive Stage (c : Crowd (CellAnswer ν)) (order : List Nat) (i : Nat) (call : EntityCall κ ν) :
    Script storeInterface (Except StoreError (CellAnswer ν)) → Prop
  | outside (fresh : i ∉ order) : Stage c order i call (g.store.perform call).run
  | inside (q : Script storeInterface (Except StoreError (CellAnswer ν)))
    (held : c.holder (g.store.lock call) = some i) (only : Only (g.store.bytes call) q)
    (answered : g.Answered order i call (q.run (Operation.answer Partition.serve) c.store).1)
    (leaves : (q.run (Operation.answer Partition.serve) c.store).2.base.entries.get?
      (g.store.bytes call) = (g.inLine order).base.entries.get? (g.store.bytes call)) :
    Stage c order i call (q.bind (Operation.leave (g.store.lock call)))
  | finished (r : Except StoreError (CellAnswer ν)) (answered : g.Answered order i call r) :
    Stage c order i call (.done r)

/-- A crowd in which tasks have got their locks in an order. -/
structure Ordered (c : Crowd (CellAnswer ν)) (order : List Nat) : Prop where
  count : c.tasks.length = g.calls.length
  nodup : order.Nodup
  among : ∀ i ∈ order, i < g.calls.length
  stage : ∀ {i call}, g.calls[i]? = some call →
    ∃ p, c.tasks[i]? = some p ∧ g.Stage c order i call p
  /-- A task that holds a lock is inside. -/
  holds : ∀ {lock i}, c.holder lock = some i → i ∈ order ∧ ∃ call p, g.calls[i]? = some call ∧
    lock = g.store.lock call ∧ Only (g.store.bytes call) p ∧
    c.tasks[i]? = some (p.bind (Operation.leave lock))
  /-- Under a key on which no task is inside there is what the calls in line have left. -/
  settled : ∀ {key}, (∀ {i call}, g.calls[i]? = some call → g.store.bytes call = key →
      c.holder (g.store.lock call) ≠ some i) →
    c.store.base.entries.get? key = (g.inLine order).base.entries.get? key

variable {g}

/-- What a move of another task must keep for a task to stay at its stage. -/
theorem Stage.later (h : g.Stage c order i call p) {c' : Crowd (CellAnswer ν)}
    (grows : order <+: order') (fresh : i ∉ order → i ∉ order')
    (keeps : c.holder (g.store.lock call) = some i → c'.holder (g.store.lock call) = some i ∧
      c'.store.base.entries.get? (g.store.bytes call) =
        c.store.base.entries.get? (g.store.bytes call) ∧
      (g.inLine order').base.entries.get? (g.store.bytes call) =
        (g.inLine order).base.entries.get? (g.store.bytes call)) :
    g.Stage c' order' i call p := by
  cases h with
  | outside out => exact .outside (fresh out)
  | inside q held only answered leaves =>
    obtain ⟨held', stored, line⟩ := keeps held
    obtain ⟨answers, left⟩ := only.run_congr stored
    refine .inside q held' only ?_ ?_
    · rw [answers]
      exact answered.mono grows
    · rw [left, leaves, line]
  | finished r answered => exact .finished r (answered.mono grows)

/-! ## Moves -/

/-- The stages after a move of one task. -/
theorem Ordered.stage_set (h : g.Ordered c order) (called : g.calls[i]? = some call)
    {c' : Crowd (CellAnswer ν)} (tasks : c'.tasks = c.tasks.set i p)
    (mine : g.Stage c' order' i call p)
    (others : ∀ {j other q}, j ≠ i → g.calls[j]? = some other → g.Stage c order j other q →
      g.Stage c' order' j other q) {j : Nat} (called' : g.calls[j]? = some other) :
    ∃ q, c'.tasks[j]? = some q ∧ g.Stage c' order' j other q := by
  rw [tasks]
  by_cases here : j = i
  · subst here
    obtain rfl := Option.some.inj (called.symm.trans called')
    have inside : j < c.tasks.length := h.count ▸ (List.getElem?_eq_some_iff.1 called).1
    exact ⟨p, List.getElem?_set_self inside, mine⟩
  · obtain ⟨q, task, stage⟩ := h.stage called'
    exact ⟨q, (List.getElem?_set_ne (Ne.symm here)).trans task, others here called' stage⟩

section

variable (inj : Function.Injective g.store.layout.keys.encode)

include inj

/-- Calls on one key have one lock. -/
theorem lock_eq (same : g.store.bytes call = g.store.bytes other) :
    g.store.lock call = g.store.lock other :=
  congrArg (fun key => Lock.shard (g.store.shards.index key)) (inj same)

/-- A task inside is alone with its key. -/
theorem bytes_ne (held : c.holder (g.store.lock call) = some i) (ne : i ≠ j)
    (held' : c.holder (g.store.lock other) = some j) :
    g.store.bytes call ≠ g.store.bytes other := by
  intro same
  rw [lock_eq inj same, held'] at held
  exact ne (Option.some.inj held).symm

/-- A task gets its lock. -/
theorem Ordered.enter (h : g.Ordered c order) (called : g.calls[i]? = some call)
    (task : c.tasks[i]? = some (g.store.perform call).run) (fresh : i ∉ order)
    (free : c.holder (g.store.lock call) = none) : g.Ordered (c.turn i) (order ++ [i]) := by
  obtain ⟨p, only, run, ran⟩ := g.store.run_perform call
  rw [run] at task
  let lock := g.store.lock call
  let c' : Crowd (CellAnswer ν) :=
    ⟨c.store, Function.update c.holder lock (some i), c.tasks.set i (p.bind (Operation.leave lock))⟩
  have moved : c.turn i = c' := Crowd.turn_of_ask task free
  have mine : c'.holder lock = some i := Function.update_self _ _ _
  have place : i < c.tasks.length := (List.getElem?_eq_some_iff.1 task).1
  -- A task that holds a lock holds another one.
  have apart : ∀ {l j}, c.holder l = some j → l ≠ lock := by
    rintro _ j held rfl
    exact nomatch held.symm.trans free
  have kept : ∀ {l j}, c.holder l = some j → c'.holder l = some j :=
    fun held => (Function.update_of_ne (apart held) _ _).trans held
  have frame : ∀ {key}, g.store.bytes call ≠ key →
      (g.inLine (order ++ [i])).base.entries.get? key = (g.inLine order).base.entries.get? key := by
    intro key ne
    rw [g.inLine_concat called, g.store.alone_frame ne]
  have same : c.store.base.entries.get? (g.store.bytes call) =
      (g.inLine order).base.entries.get? (g.store.bytes call) :=
    h.settled fun _ about held => apart held (lock_eq inj about)
  obtain ⟨answers, left⟩ := g.store.alone_congr same
  rw [moved]
  refine ⟨?_, ?_, ?_, ?_, ?_, ?_⟩
  · exact List.length_set.trans h.count
  · exact List.nodup_append.2 ⟨h.nodup, List.nodup_singleton i, by
      rintro j among _ new rfl
      exact fresh (List.mem_singleton.1 new ▸ among)⟩
  · intro j among
    rcases List.mem_append.1 among with before | new
    · exact h.among j before
    · rw [List.mem_singleton.1 new]
      exact (List.getElem?_eq_some_iff.1 called).1
  · refine h.stage_set called rfl (.inside p mine only ?_ ?_) fun {j other q} ne _ stage => ?_
    · exact ⟨order, [], rfl, ran c.store ▸ answers⟩
    · rw [g.inLine_concat called, ← left, ran]
    · refine stage.later (List.prefix_append _ _) (fun out among => ?_) fun held => ?_
      · rcases List.mem_append.1 among with before | new
        · exact out before
        · exact ne (List.mem_singleton.1 new)
      · exact ⟨kept held, rfl, frame fun about => apart held (lock_eq inj about).symm⟩
  · intro l j held
    by_cases here : l = lock
    · subst here
      obtain rfl := Option.some.inj (mine.symm.trans held)
      exact ⟨List.mem_append_right _ (List.mem_singleton_self i), call, p, called, rfl, only,
        List.getElem?_set_self place⟩
    · obtain ⟨among, other, q, called', eq, only', task'⟩ :=
        h.holds ((Function.update_of_ne here _ _).symm.trans held)
      have ne : i ≠ j := fun same => fresh (same ▸ among)
      exact ⟨List.mem_append_left _ among, other, q, called', eq, only',
        (List.getElem?_set_ne ne).trans task'⟩
  · intro key settled
    have ne : g.store.bytes call ≠ key := fun about => settled called about mine
    rw [frame ne]
    exact h.settled fun called' about held => settled called' about (kept held)

/-- A task inside makes a call on its key. -/
theorem Ordered.ask (h : g.Ordered c order) (called : g.calls[i]? = some call) {b : Call}
    {resume : StoreRequest.Reply (.call b) →
      Script storeInterface (Except StoreError (CellAnswer ν))}
    (held : c.holder (g.store.lock call) = some i) (about : b.key? = some (g.store.bytes call))
    (rest : ∀ reply, Only (g.store.bytes call) (resume reply))
    (answered : g.Answered order i call
      ((Script.ask (I := storeInterface) (.call b) resume).run
        (Operation.answer Partition.serve) c.store).1)
    (leaves : ((Script.ask (I := storeInterface) (.call b) resume).run
        (Operation.answer Partition.serve) c.store).2.base.entries.get? (g.store.bytes call) =
      (g.inLine order).base.entries.get? (g.store.bytes call))
    (task : c.tasks[i]? = some ((Script.ask (I := storeInterface) (.call b) resume).bind
      (Operation.leave (g.store.lock call)))) : g.Ordered (c.turn i) order := by
  let lock := g.store.lock call
  let next := Operation.answer Partition.serve (.call b) c.store
  let c' : Crowd (CellAnswer ν) :=
    ⟨next.2, c.holder, c.tasks.set i ((resume next.1).bind (Operation.leave lock))⟩
  have moved : c.turn i = c' := Crowd.turn_of_ask task trivial
  have place : i < c.tasks.length := (List.getElem?_eq_some_iff.1 task).1
  have frame : ∀ {key}, g.store.bytes call ≠ key →
      c'.store.base.entries.get? key = c.store.base.entries.get? key :=
    fun ne => Partition.call_frame about ne c.store.base
  rw [moved]
  refine ⟨?_, h.nodup, h.among, ?_, ?_, ?_⟩
  · exact List.length_set.trans h.count
  · have mine : g.Stage c' order i call ((resume next.1).bind (Operation.leave lock)) :=
      .inside _ held (rest _) answered leaves
    refine fun {_ _} => h.stage_set called rfl mine fun ne _ stage => ?_
    exact stage.later List.prefix_rfl id fun held' =>
      ⟨held', frame (bytes_ne inj held ne.symm held'), rfl⟩
  · intro l j held'
    obtain ⟨among, other, q, called', eq, only', task'⟩ := h.holds held'
    refine ⟨among, other, ?_⟩
    by_cases here : i = j
    · subst here
      obtain rfl := Option.some.inj (called.symm.trans called')
      subst eq
      exact ⟨_, called, rfl, rest _, List.getElem?_set_self place⟩
    · exact ⟨q, called', eq, only', (List.getElem?_set_ne here).trans task'⟩
  · intro key settled
    have ne : g.store.bytes call ≠ key := fun about => settled called about held
    rw [frame ne]
    exact h.settled settled

omit inj in
/-- A task inside gives its lock back. -/
theorem Ordered.leave (h : g.Ordered c order) (called : g.calls[i]? = some call)
    (held : c.holder (g.store.lock call) = some i) (answered : g.Answered order i call r)
    (left : c.store.base.entries.get? (g.store.bytes call) =
      (g.inLine order).base.entries.get? (g.store.bytes call))
    (task : c.tasks[i]? = some (Operation.leave (g.store.lock call) r)) :
    g.Ordered (c.turn i) order := by
  let lock := g.store.lock call
  let c' : Crowd (CellAnswer ν) :=
    ⟨c.store, Function.update c.holder lock none, c.tasks.set i (.done r)⟩
  have moved : c.turn i = c' := Crowd.turn_of_ask task trivial
  have free : c'.holder lock = none := Function.update_self _ _ _
  -- The locks of the other tasks are other ones.
  have apart : ∀ {l j}, j ≠ i → c.holder l = some j → l ≠ lock := by
    rintro _ j ne held' rfl
    exact ne (Option.some.inj (held'.symm.trans held))
  have kept : ∀ {l j}, j ≠ i → c.holder l = some j → c'.holder l = some j :=
    fun ne held' => (Function.update_of_ne (apart ne held') _ _).trans held'
  rw [moved]
  refine ⟨?_, h.nodup, h.among, ?_, ?_, ?_⟩
  · exact List.length_set.trans h.count
  · refine fun {_ _} => h.stage_set called rfl (.finished r answered) fun ne _ stage => ?_
    exact stage.later List.prefix_rfl id fun held' => ⟨kept ne held', rfl, rfl⟩
  · intro l j held'
    have ne : l ≠ lock := by
      rintro rfl
      exact nomatch held'.symm.trans free
    obtain ⟨among, other, q, called', eq, only', task'⟩ :=
      h.holds ((Function.update_of_ne ne _ _).symm.trans held')
    refine ⟨among, other, q, called', eq, only', (List.getElem?_set_ne ?_).trans task'⟩
    rintro rfl
    obtain rfl := Option.some.inj (called.symm.trans called')
    exact ne eq
  · intro key settled
    by_cases about : g.store.bytes call = key
    · exact about ▸ left
    · refine h.settled fun {j other} called' about' held' => ?_
      refine settled called' about' (kept ?_ held')
      rintro rfl
      obtain rfl := Option.some.inj (called.symm.trans called')
      exact about about'

/-! ## Turns -/

/-- Whoever takes the next turn, a task that gets its lock by it comes last in the order. -/
theorem Ordered.turn (h : g.Ordered c order) (i : Nat) :
    g.Ordered (c.turn i) (if c.enters i then order ++ [i] else order) := by
  have idle : (∀ {r resume}, c.tasks[i]? = some (.ask r resume) → ¬r.Admitted c.holder) →
      g.Ordered (c.turn i) (if c.enters i then order ++ [i] else order) := by
    intro idle
    rw [Crowd.turn_of_idle idle, Crowd.enters_of_idle idle]
    exact h
  cases called : g.calls[i]? with
  | none =>
    refine idle fun task => ?_
    have place := (List.getElem?_eq_some_iff.1 task).1
    rw [h.count] at place
    exact absurd (List.getElem?_eq_none_iff.1 called) (Nat.not_le.2 place)
  | some call =>
    obtain ⟨p, task, stage⟩ := h.stage called
    cases stage with
    | outside fresh =>
      obtain ⟨p, -, run, -⟩ := g.store.run_perform call
      have task' := task
      rw [run] at task'
      cases free : c.holder (g.store.lock call) with
      | none =>
        rw [if_pos ((Crowd.enters_of_ask task').2 ⟨_, rfl, free⟩)]
        exact h.enter inj called task fresh free
      | some j =>
        refine idle fun task'' admitted => ?_
        cases task'.symm.trans task''
        exact nomatch free.symm.trans admitted
    | inside q held only answered leaves =>
      cases only with
      | done r =>
        have out : ¬c.enters i = true := fun enters =>
          nomatch (Crowd.enters_of_ask task).1 enters
        rw [if_neg out]
        exact h.leave called held answered leaves task
      | call about rest =>
        have out : ¬c.enters i = true := fun enters =>
          nomatch (Crowd.enters_of_ask task).1 enters
        rw [if_neg out]
        exact h.ask inj called held about rest answered leaves task
    | finished r answered =>
      refine idle fun task' => ?_
      cases task.symm.trans task'

theorem Ordered.play (h : g.Ordered c order) (turns : List Nat) :
    g.Ordered (c.play turns) (order ++ c.entrants turns) := by
  induction turns generalizing c order with
  | nil => exact (List.append_nil order).symm ▸ h
  | cons i turns ih =>
    have next := ih (h.turn inj i)
    rw [Crowd.entrants]
    split at next
    · rw [if_pos ‹_›]
      rwa [List.append_assoc] at next
    · rw [if_neg ‹_›]
      exact next

end

theorem ordered_crowd : g.Ordered g.crowd [] := by
  refine ⟨List.length_map _, List.nodup_nil, fun _ => nofun, fun {i call} called => ?_, nofun,
    fun _ => rfl⟩
  refine ⟨_, ?_, .outside List.not_mem_nil⟩
  show (g.calls.map _)[i]? = _
  rw [List.getElem?_map, called]
  rfl

/-! ## Coming to an end -/

/-- A task inside can be made to give its lock back. -/
theorem finish_inside {key : Bytes} {lock : Lock}
    {q : Script storeInterface (Except StoreError (CellAnswer ν))} (only : Only key q)
    (task : c.tasks[i]? = some (q.bind (Operation.leave lock))) :
    ∃ turns, ((c.play turns).result? i).isSome ∧ (c.play turns).holder lock = none := by
  have place : i < c.tasks.length := (List.getElem?_eq_some_iff.1 task).1
  induction only generalizing c with
  | done r =>
    have moved := Crowd.turn_of_ask (r := .release lock) task trivial
    refine ⟨[i], ?_, ?_⟩
    · show ((c.turn i).result? i).isSome
      have ended : (c.turn i).tasks[i]? = some (.done r) := by
        rw [moved]
        exact List.getElem?_set_self place
      rw [Crowd.result?_eq_some.2 ended]
      rfl
    · show (c.turn i).holder lock = none
      rw [moved]
      exact Function.update_self _ _ _
  | @call b _ resume _ ih =>
    have moved := Crowd.turn_of_ask (r := .call b) task trivial
    let reply := (Operation.answer Partition.serve (.call b) c.store).1
    have next : (c.turn i).tasks[i]? = some ((resume reply).bind (Operation.leave lock)) := by
      rw [moved]
      exact List.getElem?_set_self place
    obtain ⟨turns, ended, free⟩ := ih _ next (List.getElem?_eq_some_iff.1 next).1
    exact ⟨i :: turns, ended, free⟩

/-- A task whose lock is free can be made to end. -/
theorem Ordered.finish_free (h : g.Ordered c order) (called : g.calls[i]? = some call)
    (free : c.holder (g.store.lock call) = none) :
    ∃ turns, ((c.play turns).result? i).isSome := by
  obtain ⟨p, task, stage⟩ := h.stage called
  cases stage with
  | outside fresh =>
    obtain ⟨p, only, run, -⟩ := g.store.run_perform call
    rw [run] at task
    have place : i < c.tasks.length := (List.getElem?_eq_some_iff.1 task).1
    have next : (c.turn i).tasks[i]? = some (p.bind (Operation.leave (g.store.lock call))) := by
      rw [Crowd.turn_of_ask task free]
      exact List.getElem?_set_self place
    obtain ⟨turns, ended, -⟩ := finish_inside only next
    exact ⟨i :: turns, ended⟩
  | inside q held => exact nomatch held.symm.trans free
  | finished r =>
    refine ⟨[], ?_⟩
    show (c.result? i).isSome
    rw [Crowd.result?_eq_some.2 task]
    rfl

section

variable (inj : Function.Injective g.store.layout.keys.encode)

include inj

/-- A task can be made to end: one that holds its lock gives it back before. -/
theorem Ordered.finish (h : g.Ordered c order) (called : g.calls[i]? = some call) :
    ∃ turns, ((c.play turns).result? i).isSome := by
  cases holder : c.holder (g.store.lock call) with
  | none => exact h.finish_free called holder
  | some j =>
    obtain ⟨-, _, q, -, -, only, task⟩ := h.holds holder
    obtain ⟨turns, -, free⟩ := finish_inside only task
    obtain ⟨more, ended⟩ := (h.play inj turns).finish_free called free
    exact ⟨turns ++ more, by rwa [Crowd.play_append]⟩

/-- All tasks can be made to end. -/
theorem Ordered.finish_all (h : g.Ordered c order) :
    ∃ turns, ∀ i < g.calls.length, ((c.play turns).result? i).isSome := by
  suffices ∀ n ≤ g.calls.length, ∃ turns, ∀ i < n, ((c.play turns).result? i).isSome from
    this _ le_rfl
  intro n le
  induction n with
  | zero => exact ⟨[], fun _ => nofun⟩
  | succ n ih =>
    obtain ⟨turns, ended⟩ := ih (Nat.le_of_succ_le le)
    obtain ⟨more, last⟩ :=
      (h.play inj turns).finish inj (List.getElem?_eq_getElem (Nat.lt_of_succ_le le))
    refine ⟨turns ++ more, fun i lt => ?_⟩
    rw [Crowd.play_append]
    rcases Nat.lt_succ_iff_lt_or_eq.1 lt with before | rfl
    · obtain ⟨r, result⟩ := Option.isSome_iff_exists.1 (ended i before)
      rw [Crowd.result?_play result]
      rfl
    · exact last

end

/-! ## In line -/

theorem result?_bind_leave (q : Script storeInterface (Except StoreError α)) (lock : Lock) :
    (q.bind (Operation.leave lock)).result? = none := by
  cases q <;> rfl

/-- A task that has ended has the answer of its place in line. -/
theorem Ordered.answered (h : g.Ordered c order) (result : c.result? i = some r) :
    ∃ call, g.calls[i]? = some call ∧ g.Answered order i call r := by
  have task := Crowd.result?_eq_some.1 result
  have place : i < g.calls.length := h.count ▸ (List.getElem?_eq_some_iff.1 task).1
  have called := List.getElem?_eq_getElem place
  obtain ⟨p, task', stage⟩ := h.stage called
  obtain rfl := Option.some.inj (task'.symm.trans task)
  refine ⟨_, called, ?_⟩
  generalize ended : Script.done r = p at stage
  cases stage with
  | outside fresh =>
    obtain ⟨p, -, run, -⟩ := g.store.run_perform g.calls[i]
    cases ended.trans run
  | inside q => exact nomatch (congrArg Script.result? ended).trans (result?_bind_leave q _)
  | finished r' answered =>
    cases ended
    exact answered

variable [DecidableEq κ]

/-- The answers are those of the calls run alone in line, and so are the contents once the tasks that got
their locks have ended. -/
theorem Ordered.linesUp (h : g.Ordered c order)
    (inj : Function.Injective g.store.layout.keys.encode) :
    c.LinesUp g.calls g.store.alone g.start (fun p s => p.entries = s.base.entries) order := by
  refine ⟨fun i r result => ?_, fun ended => OrderedMap.ext_get? fun key => ?_⟩
  · obtain ⟨call, called, before, behind, eq, answer⟩ := h.answered result
    refine ⟨call, before, behind, called, eq, answer, answer.trans ?_⟩
    have own : (callsOf g.calls before).filter (·.key = call.key) =
        (callsOf g.calls before).filter fun c => g.store.bytes c = g.store.bytes call :=
      List.filter_congr fun c _ => decide_eq_decide.2 inj.eq_iff.symm
    rw [own]
    exact (g.store.alone_congr (g.store.after_alone_filter _ rfl)).1
  · refine h.settled fun {i _} _ _ held => ?_
    obtain ⟨among, _, q, -, -, -, task⟩ := h.holds held
    have running : c.result? i = none := by
      rw [Crowd.result?, task]
      exact result?_bind_leave q _
    have finished := ended i among
    rw [running] at finished
    cases finished

end Gathering

namespace EntityStore

open Layout

/-- Whoever takes turns, the tasks that have ended have the answers of the calls made one after another
in the order in which they got their locks, and the contents are those after these calls once the tasks
have ended. That is how calls run alone, and, where values are read back as they were put, how those of
a map are made. All tasks can be made to end. -/
theorem calls_line_up (name : String) (values : ValueCodec ν) (count : Nat)
    (hash : keys.Carrier → Nat) (calls : List (EntityCall keys.Carrier ν)) (s : Standing Partition)
    (turns : List Nat) :
    let g : Gathering keys.Carrier ν :=
      ⟨ofValues keys name values (Shards.ofCount count hash), calls, s⟩
    let order := g.crowd.entrants turns
    let c := g.crowd.play turns
    order.Nodup ∧
      c.LinesUp calls g.store.alone s (fun p s => p.entries = s.base.entries) order ∧
      (∀ (P : ν → Prop) (m : StoreMap keys ν),
        (∀ value, P value → values.decode (values.encode value) = .ok value) →
        Holds values s.base m → m.Within P → (∀ call ∈ calls, call.call.Within P) →
        c.LinesUp calls (fun call m => m.serve name call) m (Holds values) order) ∧
      ((∀ i < calls.length, (c.result? i).isSome) → order.Perm (List.range calls.length)) ∧
      ∃ more, ∀ i < calls.length, ((c.play more).result? i).isSome := by
  intro g order c
  have inj : Function.Injective g.store.layout.keys.encode := keys.encode_injective
  have ordered : g.Ordered c order := g.ordered_crowd.play inj turns
  have alone := ordered.linesUp inj
  refine ⟨ordered.nodup, alone, fun P m back holds within puts => ?_, fun ended => ?_,
    ordered.finish_all inj⟩
  · refine alone.related (R := fun s m => Holds values s.base m ∧ m.Within P) ⟨holds, within⟩
      (fun call member s m related => ?_) fun p s m related same => ?_
    · obtain ⟨base, ran, stays⟩ :=
        alone_serve name g.store.shards back related.1 related.2 (puts call member)
      have ran : g.store.alone call s = _ := ran
      rw [ran]
      exact ⟨rfl, stays, related.2.serve name (puts call member)⟩
    · have related : OrderedMap.Matches StoreKey.Are (Means values) s.base.entries m := related.1
      rwa [← same] at related
  · refine (List.perm_ext_iff_of_nodup ordered.nodup List.nodup_range).2 fun i => ?_
    rw [List.mem_range]
    refine ⟨ordered.among i, fun lt => ?_⟩
    obtain ⟨r, result⟩ := Option.isSome_iff_exists.1 (ended i lt)
    obtain ⟨_, -, answered⟩ := ordered.answered result
    exact answered.mem

/-- Two increments of one key whose turns alternate, and a call on another key with the same lock. None
of the increments is lost. -/
theorem calls_line_up_increments :
    let keys : KeyKind := .string
    let values := ValueKind.signedJson.stored
    let calls : List (EntityCall keys.Carrier Int64) :=
      [⟨"a", .update (· + 1)⟩, ⟨"a", .update (· + 1)⟩, ⟨"b", .findOrPut 5⟩]
    let s : Standing Partition :=
      ⟨(Partition.empty "n").put (keys.codec.encode "a") (values.encode 1), 0, 0⟩
    let m : StoreMap keys Int64 := OrderedMap.empty.insert ⟨"a"⟩ 1
    let g : Gathering keys.Carrier Int64 :=
      ⟨ofValues keys "n" values (Shards.ofCount 0 fun _ => 7), calls, s⟩
    let turns := [1, 0, 1, 2, 1, 0, 1, 0, 2, 0, 2, 0, 0, 2, 2, 2, 2]
    let order := g.crowd.entrants turns
    let c := g.crowd.play turns
    Holds values s.base m ∧
      c.LinesUp calls (fun call m => m.serve "n" call) m (Holds values) order ∧
      order = [1, 0, 2] ∧ order.Perm (List.range calls.length) ∧
      c.result? 1 = some (.ok (.value 2)) ∧ c.result? 0 = some (.ok (.value 3)) ∧
      c.result? 2 = some (.ok (.value 5)) := by
  intro keys values calls s m g turns order c
  have back : ∀ value : Int64, True → values.decode (values.encode value) = .ok value :=
    fun _ _ => JsonCodec.decode_encode _ (@ValueKind.readText_write .signed _ trivial)
  have empty : Holds values (Partition.empty "n") (.empty : StoreMap keys Int64) := holds_empty rfl
  have holds : Holds values s.base m := empty.put (show keys.Carrier from "a") (back 1 trivial)
  have puts : ∀ call ∈ calls, call.call.Within fun _ => True := by
    simp only [calls, List.forall_mem_cons]
    exact ⟨fun _ _ => trivial, fun _ _ => trivial, trivial, nofun⟩
  obtain ⟨-, -, typed, all, -⟩ := calls_line_up "n" values 0 (fun _ => 7) calls s turns
  exact ⟨holds, typed _ m back holds (fun _ _ _ => trivial) puts, by decide +kernel,
    all (by decide +kernel), by decide +kernel, by decide +kernel, by decide +kernel⟩

end EntityStore

end SnapshotStore
