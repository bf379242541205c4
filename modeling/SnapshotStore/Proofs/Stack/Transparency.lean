import SnapshotStore.Proofs.Depot.Growth
import SnapshotStore.Proofs.Trace

/-!
What the layers of a stack add to its engine. Main statement: a stack with a guard and a time budget
answers as its engine alone would, and does to it what the engine alone would do, except for the
calls that it refuses: it refuses to put while the status of the guard is full, and any call on a
partition that is still held up when the budget is over, and then nothing is done
(`answers_as_engine`).

A budget ends on a whole millisecond of the clock, and so does what holds a call up: a call that is
held up for longer than its budget is still in time if both end on the same one
(`in_time_past_budget`).
-/

namespace SnapshotStore

/-! ## Runs of a stack -/

/-- What is done to a guard from outside. -/
inductive GuardCall where
  | sample
  | setCap (cap : Nat)
  | setSource (source : UsageSource)
  | setPeriod (period : Nat)
  | start
  | stop

/-- What is done to a stack, by way of any handle that it gave, and what happens below it. -/
inductive StackCall where
  | openPartition (name : String)
  | removePartition (name : String)
  | call (id : PartitionId) (c : Call)
  | name (id : PartitionId)
  | size (id : PartitionId)
  | guard (c : GuardCall)
  /-- From now on calls on partitions are held up before they act, each operation for its time. -/
  | holdUp (delays : List (String × Nat))
  | pass (micros : Nat)

inductive StackAnswer where
  | failed (fault : StorageError)
  | opened (id : PartitionId)
  | removed
  | answered (c : Call) (answer : c.Answer)
  | named (name : String)
  | sized (bytes : Nat)
  | nothing

def StackAnswer.ofExcept {α : Type} (answer : α → StackAnswer) :
    Except StorageError α → StackAnswer
  | .ok a => answer a
  | .error fault => .failed fault

/-- The guard after a call at a time at which the partitions count a number of bytes. -/
def SpaceGuard.perform (g : SpaceGuard) (now counted : Nat) : GuardCall → SpaceGuard
  | .sample => g.sample (some counted)
  | .setCap cap => g.setCap cap
  | .setSource source => g.setSource source
  | .setPeriod period => g.setPeriod period now
  | .start => g.start now
  | .stop => g.stop

/-- An outage that does no more than hold calls up before they act. -/
def Outage.holdingUp (delays : List (String × Nat)) : Outage := ⟨delays, false, [], false⟩

/-- The answer of a stack to a call, and the stack after it. -/
def Stack.step (call : StackCall) (s : Stack) : StackAnswer × Stack :=
  match call with
  | .openPartition name => (.ofExcept .opened (s.openPartition name).1, (s.openPartition name).2)
  | .removePartition name =>
    (.ofExcept (fun _ => .removed) (s.removePartition name).1, (s.removePartition name).2)
  | .call id c => (.ofExcept (.answered c) (s.call id c).1, (s.call id c).2)
  | .name id => (.named (s.platform.engine.partition id).name, s)
  | .size id => (.sized (s.platform.engine.partition id).size, s)
  | .guard c =>
    (.nothing, { s with platform.guard :=
      s.platform.guard.map (·.perform s.platform.clock s.platform.engine.totalSize c) })
  | .holdUp delays => (.nothing, { s with platform.outage := some (.holdingUp delays) })
  | .pass micros => (.nothing, { s with platform := s.platform.pass micros })

/-- The answer of an engine without layers to a call, and the engine after it. -/
def Engine.step (call : StackCall) (e : Engine) : StackAnswer × Engine :=
  match call with
  | .openPartition name => (.ofExcept .opened (e.openPartition name).1, (e.openPartition name).2)
  | .removePartition name =>
    (.ofExcept (fun _ => .removed) (e.removePartition name).1, (e.removePartition name).2)
  | .call id c => (.answered c (e.call id c).1, (e.call id c).2)
  | .name id => (.named (e.partition id).name, e)
  | .size id => (.sized (e.partition id).size, e)
  | .guard _ | .holdUp _ | .pass _ => (.nothing, e)

/-! ## Refusals -/

def Call.isPut : Call → Bool
  | .put _ _ => true
  | _ => false

/-- Why the layers refuse a call, if they do: a put because the guard takes the space for full, and
any call on a partition because it is still held up when the timer of its budget goes off. -/
def Stack.refusal? (s : Stack) (budget : Nat) : StackCall → Option StorageError
  | .call id c =>
    if c.isPut ∧ s.platform.guard.map SpaceGuard.status = some .full then
      some (.storageFull (s.platform.engine.partition id).name)
    else if Platform.tick (s.platform.clock + budget) <
        Platform.tick (s.platform.clock + (s.platform.outage.getD .none).delay c.operation) then
      some (.timeout c.operation (budget * 1000))
    else none
  | _ => none

/-- The calls of a run, each with the reason for which it is refused at its moment, if it is. -/
def Stack.judged (budget : Nat) (calls : List StackCall) (s : Stack) :
    List (StackCall × Option StorageError) :=
  trace (fun call s => ((call, s.refusal? budget call), (s.step call).2)) calls s

/-- What an engine without layers makes of a call that is refused before it gets there, or is not. -/
def Engine.stepUnless : StackCall × Option StorageError → Engine → StackAnswer × Engine
  | (_, some fault), e => (.failed fault, e)
  | (call, none), e => e.step call

/-! ## Layers -/

/-- Whether calls below a platform are at most held up before they act. -/
def Platform.OnlyHoldsUp (p : Platform) : Prop :=
  ∀ outage ∈ p.outage, ∃ delays, outage = .holdingUp delays

/-- A stack with a guard and a time budget, and with or without a keeper. -/
structure Stack.Layered (s : Stack) (budget : Nat) : Prop where
  isGuarded : s.isGuarded = true
  guard : s.platform.guard.isSome = true
  limit : s.budget = some budget
  below : s.platform.OnlyHoldsUp

namespace Platform

variable {p : Platform}

/-- What is below a platform that at most holds calls up, as an outage. -/
theorem OnlyHoldsUp.exists_delays (h : p.OnlyHoldsUp) :
    ∃ delays, p.outage.getD .none = .holdingUp delays := by
  cases below : p.outage with
  | none => exact ⟨[], rfl⟩
  | some outage => exact h outage (below ▸ rfl)

@[simp] theorem outage_sleepUntil (p : Platform) (moment : Nat) :
    (p.sleepUntil moment).outage = p.outage := by
  rw [sleepUntil]
  split <;> rfl

@[simp] theorem outage_wait (p : Platform) (micros : Nat) : (p.wait micros).outage = p.outage := by
  rw [wait]
  split
  · rfl
  · exact outage_sleepUntil p _

@[simp] theorem isSome_guard_sleepUntil (p : Platform) (moment : Nat) :
    (p.sleepUntil moment).guard.isSome = p.guard.isSome := by
  rw [sleepUntil]
  split
  · rfl
  · exact Option.isSome_map

/-- No attempt on the engine fails where calls are at most held up. -/
theorem OnlyHoldsUp.attempt {α : Type} (h : p.OnlyHoldsUp) (name : String)
    (action : Platform → Except StorageError α × Platform) :
    p.attempt name action = action p := by
  obtain ⟨delays, below⟩ := h.exists_delays
  rw [Platform.attempt, below]
  rfl

/-- Nothing vanishes where calls are at most held up. -/
theorem OnlyHoldsUp.vanish (h : p.OnlyHoldsUp) (id : PartitionId) (c : Call) (answer : c.Answer) :
    p.vanish id c answer = p := by
  cases c with
  | first =>
    unfold Platform.vanish
    cases below : p.outage with
    | none => rfl
    | some outage =>
      obtain ⟨delays, rfl⟩ := h outage (below ▸ rfl)
      rfl
  | _ => rfl

/-- A call whose wait fits its budget acts after it, and one whose wait does not is cut off when the
budget is over, before it acts. -/
theorem OnlyHoldsUp.call (h : p.OnlyHoldsUp) (budget : Option Nat) (id : PartitionId) (c : Call) :
    p.call budget id c =
      if p.fits budget ((p.outage.getD .none).delay c.operation) then
        let held := p.wait ((p.outage.getD .none).delay c.operation)
        (.ok (held.act id c).1, (held.act id c).2)
      else
        (.error (.timeout c.operation (budget.getD 0 * 1000)),
          p.sleepUntil (p.clock + budget.getD 0)) := by
  obtain ⟨delays, below⟩ := h.exists_delays
  rw [Platform.call, below]
  cases within : p.fits budget ((Outage.holdingUp delays).delay c.operation) with
  | false => rfl
  | true =>
    -- Nothing vanishes after the call, because the outage is still the same.
    have kept : OnlyHoldsUp
        ((p.wait ((Outage.holdingUp delays).delay c.operation)).act id c).2 :=
      fun outage mem => h outage (outage_wait p _ ▸ mem)
    exact Prod.ext rfl (kept.vanish id c _)

/-- Where calls are at most held up, no request of a keeper changes this. -/
theorem OnlyHoldsUp.answer (h : p.OnlyHoldsUp) (r : KeeperRequest) :
    (Platform.answer r p).2.OnlyHoldsUp := by
  cases r with
  | call id c =>
    rw [Platform.answer, h.call]
    exact fun outage mem => h outage (outage_wait p _ ▸ mem)
  | openPartition name =>
    rw [Platform.answer, Platform.openPartition, h.attempt]
    exact h
  | removePartition name =>
    rw [Platform.answer, Platform.removePartition, h.attempt]
    exact h
  | closeEngine =>
    rw [Platform.answer, Platform.closeEngine, h.attempt]
    exact h
  | disk _ | admitWrite _ | admitRead _ | freshId | now => exact h

theorem OnlyHoldsUp.run {α : Type} (h : p.OnlyHoldsUp) (script : Script keeperInterface α) :
    (script.run Platform.answer p).2.OnlyHoldsUp := by
  induction script generalizing p with
  | done a => exact h
  | ask r resume ih => exact ih _ (h.answer r)

end Platform

namespace Stack

/-- Whether a call to a stack is one to its engine, unless the layers refuse it. -/
structure Forwards (s : Stack) (budget : Nat) (call : StackCall) : Prop where
  answer : (s.step call).1 =
    (Engine.stepUnless (call, s.refusal? budget call) s.platform.engine).1
  engine : (s.step call).2.platform.engine =
    (Engine.stepUnless (call, s.refusal? budget call) s.platform.engine).2
  layered : (s.step call).2.Layered budget

variable {s : Stack} {budget : Nat}

/-- With or without a keeper, the engine opens the partition. -/
theorem Layered.openPartition (h : s.Layered budget) (name : String) :
    ∃ keeper, s.openPartition name = ((s.platform.engine.openPartition name).1,
      { s with
        platform.engine := (s.platform.engine.openPartition name).2
        keeper }) := by
  have opened : s.platform.openPartition name = ((s.platform.engine.openPartition name).1,
      { s.platform with engine := (s.platform.engine.openPartition name).2 }) := h.below.attempt _ _
  rw [Stack.openPartition]
  cases kept : s.keeper with
  | none => exact ⟨none, by simp only [opened]⟩
  | some k =>
    obtain ⟨k', ran, -⟩ := runKeeper_openPartition k s.platform name
    exact ⟨some k', by simp only [keep, ran, opened]⟩

theorem Layered.removePartition (h : s.Layered budget) (name : String) :
    ∃ keeper, s.removePartition name = ((s.platform.engine.removePartition name).1,
      { s with
        platform.engine := (s.platform.engine.removePartition name).2
        keeper }) := by
  have removed : s.platform.removePartition name = ((s.platform.engine.removePartition name).1,
      { s.platform with engine := (s.platform.engine.removePartition name).2 }) :=
    h.below.attempt _ _
  rw [Stack.removePartition]
  cases kept : s.keeper with
  | none => exact ⟨none, by simp only [removed]⟩
  | some k =>
    obtain ⟨k', ran⟩ := runKeeper_removePartition k s.platform name
    exact ⟨some k', by simp only [keep, ran, removed]⟩

/-- The guard refuses to put while its status is full, and nothing else. -/
theorem Layered.isRefused_iff (h : s.Layered budget) (c : Call) :
    s.isRefused c = true ↔ c.isPut ∧ s.platform.guard.map SpaceGuard.status = some .full := by
  cases c with
  | put key value =>
    rw [isRefused, h.isGuarded]
    cases s.platform.guard with
    | none => simp [Call.isPut]
    | some g => simp [Call.isPut, SpaceGuard.isFull]
  | _ => simp [isRefused, Call.isPut]

/-- Waiting leaves the layers as they are. -/
theorem Layered.sleepUntil (h : s.Layered budget) (moment : Nat) :
    { s with platform := s.platform.sleepUntil moment }.Layered budget where
  isGuarded := h.isGuarded
  guard := (Platform.isSome_guard_sleepUntil s.platform moment).trans h.guard
  limit := h.limit
  below := fun outage mem => h.below outage (Platform.outage_sleepUntil s.platform moment ▸ mem)

theorem Layered.wait (h : s.Layered budget) (micros : Nat) :
    { s with platform := s.platform.wait micros }.Layered budget := by
  rw [Platform.wait]
  split
  · exact h
  · exact h.sleepUntil _

theorem Layered.forwards_call (h : s.Layered budget) (id : PartitionId) (c : Call) :
    s.Forwards budget (.call id c) := by
  -- The guard is asked before the engine, so a put that it refuses does not wait either.
  by_cases full : c.isPut ∧ s.platform.guard.map SpaceGuard.status = some .full
  · have refused :
        s.call id c = (.error (.storageFull (s.platform.engine.partition id).name), s) := by
      rw [Stack.call, if_pos ((h.isRefused_iff c).2 full)]
    have verdict : s.refusal? budget (.call id c) =
        some (.storageFull (s.platform.engine.partition id).name) := if_pos full
    refine ⟨?_, ?_, ?_⟩ <;>
      simp only [step, refused, verdict, Engine.stepUnless, StackAnswer.ofExcept]
    exact h
  · have passed : s.call id c = ((s.platform.call (some budget) id c).1,
        { s with platform := (s.platform.call (some budget) id c).2 }) := by
      rw [Stack.call, if_neg (mt (h.isRefused_iff c).1 full), h.limit]
    rw [h.below.call] at passed
    by_cases late : Platform.tick (s.platform.clock + budget) <
      Platform.tick (s.platform.clock + (s.platform.outage.getD .none).delay c.operation)
    · have unfit : ¬s.platform.fits (some budget)
          ((s.platform.outage.getD .none).delay c.operation) = true :=
        fun fit => Nat.not_le.2 late (of_decide_eq_true fit)
      have verdict : s.refusal? budget (.call id c) =
          some (.timeout c.operation (budget * 1000)) := (if_neg full).trans (if_pos late)
      rw [if_neg unfit] at passed
      refine ⟨?_, ?_, ?_⟩ <;>
        simp only [step, passed, verdict, Engine.stepUnless, StackAnswer.ofExcept, Option.getD_some]
      · exact s.platform.engine_sleepUntil _
      · exact h.sleepUntil _
    · have fit : s.platform.fits (some budget)
          ((s.platform.outage.getD .none).delay c.operation) = true :=
        decide_eq_true (Nat.not_lt.1 late)
      have verdict : s.refusal? budget (.call id c) = none := (if_neg full).trans (if_neg late)
      rw [if_pos fit] at passed
      refine ⟨?_, ?_, ?_⟩ <;>
        simp only [step, passed, verdict, Engine.stepUnless, Engine.step, StackAnswer.ofExcept,
          Platform.act, Platform.engine_wait]
      have waited := h.wait ((s.platform.outage.getD .none).delay c.operation)
      exact ⟨waited.isGuarded, waited.guard, waited.limit, waited.below⟩

theorem Layered.forwards (h : s.Layered budget) (call : StackCall) : s.Forwards budget call := by
  cases call with
  | openPartition name =>
    obtain ⟨keeper, opened⟩ := h.openPartition name
    refine ⟨?_, ?_, ?_⟩ <;> simp only [step, opened, refusal?, Engine.stepUnless, Engine.step]
    exact ⟨h.isGuarded, h.guard, h.limit, h.below⟩
  | removePartition name =>
    obtain ⟨keeper, removed⟩ := h.removePartition name
    refine ⟨?_, ?_, ?_⟩ <;> simp only [step, removed, refusal?, Engine.stepUnless, Engine.step]
    exact ⟨h.isGuarded, h.guard, h.limit, h.below⟩
  | call id c => exact h.forwards_call id c
  | name id => exact ⟨rfl, rfl, h⟩
  | size id => exact ⟨rfl, rfl, h⟩
  | guard c => exact ⟨rfl, rfl, h.isGuarded, Option.isSome_map.trans h.guard, h.limit, h.below⟩
  | holdUp delays =>
    exact ⟨rfl, rfl, h.isGuarded, h.guard, h.limit,
      fun _ mem => ⟨delays, (Option.some.inj mem).symm⟩⟩
  | pass micros =>
    exact ⟨rfl, rfl, h.isGuarded, Option.isSome_map.trans h.guard, h.limit, h.below⟩

theorem onlyHoldsUp_createKeeper {p : Platform} (below : p.OnlyHoldsUp)
    (settings : BackupSettings) : (createKeeper p settings).2.OnlyHoldsUp := by
  have ran : ∀ k, (runKeeper k p Keeper.create).2.OnlyHoldsUp := fun k => below.run _
  unfold createKeeper
  exact ran _

/-- A stack that was made with a guard and a budget over an engine that no outage strikes. -/
theorem layered_assemble? {backup : Option BackupSettings} {g : SpaceGuard} {p : Platform}
    (calm : p.outage = none) (made : (assemble? backup (some g) (some budget) p).1 = .ok s) :
    s.Layered budget := by
  have below : { p with guard := none }.OnlyHoldsUp := fun outage mem =>
    absurd (calm.symm.trans mem) (Option.some_ne_none outage).symm
  unfold assemble? at made
  cases backup with
  | none =>
    cases made
    exact ⟨rfl, rfl, rfl, below⟩
  | some settings =>
    have created := onlyHoldsUp_createKeeper below settings
    dsimp only at made
    generalize createKeeper { p with guard := none } settings = outcome at made created
    obtain ⟨e | keeper, p'⟩ := outcome
    · cases made
    · cases made
      exact ⟨rfl, rfl, rfl, created⟩

/-! ## Runs -/

theorem judged_cons (call : StackCall) (calls : List StackCall) :
    judged budget (call :: calls) s =
      (call, s.refusal? budget call) :: judged budget calls (s.step call).2 := rfl

/-- The answers of a stack are those of its engine to what the layers leave of the calls. -/
theorem Layered.trace_eq (h : s.Layered budget) (calls : List StackCall) :
    trace step calls s = trace Engine.stepUnless (judged budget calls s) s.platform.engine := by
  -- The two machines share the engine after each call; `Layered` is what the next call needs.
  induction calls generalizing s with
  | nil => rfl
  | cons call calls ih =>
    have first := h.forwards call
    rw [judged_cons, trace_cons, trace_cons, ← first.answer, ← first.engine, ih first.layered]

theorem Layered.engine_after (h : s.Layered budget) (calls : List StackCall) :
    (after step calls s).platform.engine =
      after Engine.stepUnless (judged budget calls s) s.platform.engine := by
  induction calls generalizing s with
  | nil => rfl
  | cons call calls ih =>
    have first := h.forwards call
    rw [judged_cons, after_cons, after_cons, ← first.engine, ih first.layered]

/-- Only putting is refused for want of space. -/
theorem isPut_of_refusal? {call : StackCall} {entity : String}
    (h : s.refusal? budget call = some (.storageFull entity)) :
    ∃ id key value, call = .call id (.put key value) := by
  cases call with
  | call id c =>
    rw [refusal?] at h
    split at h
    · next full =>
      cases c with
      | put key value => exact ⟨id, key, value, rfl⟩
      | _ => cases full.1
    · split at h <;> cases h
  | _ => cases h

theorem isPut_of_mem_judged {calls : List StackCall} {call : StackCall} {entity : String}
    (mem : (call, some (.storageFull entity)) ∈ judged budget calls s) :
    ∃ id key value, call = .call id (.put key value) := by
  induction calls generalizing s with
  | nil => cases mem
  | cons first calls ih =>
    rcases List.mem_cons.1 mem with same | later
    · obtain ⟨rfl, refused⟩ := Prod.mk.inj same
      exact isPut_of_refusal? refused.symm
    · exact ih later

/-- The layers are transparent. Whatever is done to a stack by way of any of its handles, and
whatever its guard samples meanwhile, the answers and the engine are those of an engine without layers
to which the same is done, less the calls that are refused: those that put while the status of the
guard is full, and those on a partition that are still held up when the timer of the budget goes off.
-/
theorem answers_as_engine (h : s.Layered budget) (calls : List StackCall) :
    trace step calls s =
        trace Engine.stepUnless (judged budget calls s) s.platform.engine ∧
      (after step calls s).platform.engine =
        after Engine.stepUnless (judged budget calls s) s.platform.engine ∧
      ∀ call entity, (call, some (.storageFull entity)) ∈ judged budget calls s →
        ∃ id key value, call = .call id (.put key value) :=
  ⟨h.trace_eq calls, h.engine_after calls, fun _ _ => isPut_of_mem_judged⟩

/-- A stack with a keeper whose partition gets full, is removed and opened again while its first
handle is used on. The clock stands between two milliseconds when a call is held up for longer than the
budget, but not until the next one, and another call until then. -/
theorem answers_as_engine_full_and_late :
    let made := (assemble? (some ⟨"/backup", .cbor, 10⟩) (some (.new 16)) (some 250000)
      (.new .empty)).1
    let s : Stack := made.toOption.getD default
    let calls : List StackCall := [.guard (.setSource .partitions), .openPartition "q",
      .call 0 (.put [1] (List.replicate 16 7)), .call 0 (.put [2] []), .guard .sample,
      .openPartition "q", .call 0 (.put [3] [9]), .call 0 (.get [1]), .call 0 (.page none 5),
      .removePartition "q", .call 0 (.put [3] [9]), .openPartition "q", .guard .sample,
      .call 0 (.put [3] [9]), .call 1 .first, .pass 300,
      .holdUp [("get", 250700), ("last_entry", 250701)],
      .call 0 (.get [3]), .call 0 .last, .name 0, .size 0]
    s.Layered 250000 ∧
      (judged 250000 calls s).map Prod.snd =
        [none, none, none, none, none, none, some (.storageFull "q"), none, none, none,
          some (.storageFull "q"), none, none, none, none, none, none, none,
          some (.timeout "last_entry" 250000000), none, none] ∧
      trace step calls s =
        trace Engine.stepUnless (judged 250000 calls s) s.platform.engine ∧
      (after step calls s).platform.engine =
        after Engine.stepUnless (judged 250000 calls s) s.platform.engine := by
  intro made s calls
  have layered : s.Layered 250000 := by
    have succeeds : made.toOption.isSome = true := by decide +kernel
    refine layered_assemble? (p := .new .empty) rfl (show made = .ok s from ?_)
    cases outcome : made with
    | ok stack => simp only [s, outcome, Except.toOption, Option.getD_some]
    | error e => simp [outcome, Except.toOption] at succeeds
  obtain ⟨answers, engine, -⟩ := answers_as_engine layered calls
  exact ⟨layered, by decide +kernel, answers, engine⟩

/-- A put that is held up for a millisecond is in time within a budget of a microsecond. -/
theorem in_time_past_budget :
    let s : Stack := ⟨{ Platform.new .empty with
        engine := (Engine.empty.openPartition "a").2
        outage := some (.holdingUp [("put", 1000)])
        guard := some (.new 1000) }, none, true, some 1⟩
    s.Layered 1 ∧ 1 < (s.platform.outage.getD .none).delay (Call.put [107] [118]).operation ∧
      (s.call 0 (.put [107] [118])).1 = .ok () ∧
      ((s.call 0 (.put [107] [118])).2.call 0 (.get [107])).1 = .ok (some [118]) := by
  refine ⟨⟨rfl, rfl, rfl, fun outage mem => ⟨_, (Option.some.inj mem).symm⟩⟩, ?_, ?_, ?_⟩ <;>
    decide +kernel

end Stack

end SnapshotStore
