import Mathlib.Data.List.Basic
import SnapshotStore.Space.Guard

/-!
What a space guard shows after any run of changes and samples. Main statement: its status and its
usage are those of the last sample that succeeded, and of the cap at that sample
(`shows_last_sample`). The percentage that the class is decided by is rounded down, which moves
nothing across a limit, and is exact in machine words (`SpaceStatus.classifyWords_eq`).
-/

namespace SnapshotStore

namespace SpaceStatus

variable {usage cap : Nat}

/-- With a cap, the class is decided without a division. -/
theorem classify_of_pos (pos : 0 < cap) :
    classify usage cap =
      if 10 * usage < 9 * cap then available else if usage < cap then critical else full := by
  have below : ∀ percent, usage * 100 / cap < percent ↔ usage * 100 < percent * cap :=
    fun percent => Nat.div_lt_iff_lt_mul pos
  have critical : usage * 100 / cap < criticalPercent ↔ 10 * usage < 9 * cap := by
    rw [below, criticalPercent]
    omega
  have full : usage * 100 / cap < fullPercent ↔ usage < cap := by
    rw [below, fullPercent]
    omega
  simp only [classify, Nat.ne_of_gt pos, if_false, critical, full]

/-- What a class says about a number of bytes and a cap. -/
def Means (usage cap : Nat) : SpaceStatus → Prop
  | unknown => cap = 0
  | available => 0 < cap ∧ 10 * usage < 9 * cap
  | critical => 0 < cap ∧ 9 * cap ≤ 10 * usage ∧ usage < cap
  | full => 0 < cap ∧ cap ≤ usage

theorem classify_eq_iff {status : SpaceStatus} :
    classify usage cap = status ↔ status.Means usage cap := by
  obtain rfl | pos := Nat.eq_zero_or_pos cap
  · cases status <;> simp [classify, Means]
  · rw [classify_of_pos pos]
    cases status <;> simp only [Means] <;> split_ifs <;> simp <;> omega

/-- A number of 64 bits among those of 128. -/
def widen (n : UInt64) : BitVec 128 := n.toBitVec.setWidth 128

/-- The class of a number of bytes against a cap, in words of 64 and 128 bits. -/
def classifyWords (usage cap : UInt64) : SpaceStatus :=
  if cap = 0 then unknown
  else
    let percent := widen usage * 100 / widen cap
    if percent < BitVec.ofNat 128 criticalPercent then available
    else if percent < BitVec.ofNat 128 fullPercent then critical
    else full

theorem toNat_widen (n : UInt64) : (widen n).toNat = n.toNat :=
  BitVec.toNat_setWidth_of_le (by decide)

/-- A hundred times a number of 64 bits needs no more than 128. -/
theorem toNat_widen_mul (n : UInt64) : (widen n * 100).toNat = n.toNat * 100 := by
  have small : n.toNat < 2 ^ 64 := n.toNat_lt
  rw [BitVec.toNat_mul, toNat_widen]
  exact Nat.mod_eq_of_lt (by simp; omega)

theorem classifyWords_eq (usage cap : UInt64) :
    classifyWords usage cap = classify usage.toNat cap.toNat := by
  have none : cap = 0 ↔ cap.toNat = 0 := UInt64.toNat_inj.symm
  have percent : (widen usage * 100 / widen cap).toNat = usage.toNat * 100 / cap.toNat := by
    rw [BitVec.toNat_udiv, toNat_widen_mul, toNat_widen]
  simp only [classifyWords, classify, none, BitVec.lt_def, percent]
  rfl

end SpaceStatus

namespace SpaceGuard

/-- What can be done to a guard, and the time that passes over it. Where a sample may be taken,
`counted` is what the partitions count then, if that can be told: with the partitions as its source
a guard may meet any answer, and none, at any sample. -/
inductive Deed where
  | setCap (cap : Nat)
  | setSource (source : UsageSource)
  | setPeriod (period now : Nat)
  | start (now : Nat)
  | stop
  | check (counted : Option Nat)
  | pass (start finish : Nat) (counted : Option Nat)

def step (g : SpaceGuard) : Deed → SpaceGuard
  | .setCap cap => g.setCap cap
  | .setSource source => g.setSource source
  | .setPeriod period now => g.setPeriod period now
  | .start now => g.start now
  | .stop => g.stop
  | .check counted => g.sample counted
  | .pass start finish counted => g.advance start finish counted

/-- Whether the periodic task samples while time passes. -/
def samplesIn (g : SpaceGuard) (start finish : Nat) : Bool :=
  match g.task with
  | .absent | .ended => false
  | .waiting due => g.period ≠ 0 ∧ (due ≤ start ∨ due < finish)

/-- A sample that succeeded: the bytes in use, and the cap at that time. -/
structure Sample where
  usage : Nat
  cap : Nat
  deriving DecidableEq

/-- The sample that a deed takes, if it takes one that succeeds. -/
def sample? (g : SpaceGuard) : Deed → Option Sample
  | .check counted => (g.source.read counted).map (⟨·, g.cap⟩)
  | .pass start finish counted =>
    if g.samplesIn start finish then (g.source.read counted).map (⟨·, g.cap⟩) else none
  | .setCap _ | .setSource _ | .setPeriod _ _ | .start _ | .stop => none

/-- The samples of a run that succeed, in their order. -/
def samples (g : SpaceGuard) : List Deed → List Sample
  | [] => []
  | deed :: deeds => (g.sample? deed).toList ++ (g.step deed).samples deeds

/-- Whether a guard shows a sample, or shows that there was none. -/
def Shows (g : SpaceGuard) : Option Sample → Prop
  | none => g.usage = 0 ∧ g.status = .unknown
  | some last => g.usage = last.usage ∧ g.status = .classify last.usage last.cap

variable {g : SpaceGuard} {last : Option Sample}

theorem exists_sample (g : SpaceGuard) (counted : Option Nat) :
    ∃ usage status, g.sample counted = { g with usage, status } := by
  rw [sample]
  split <;> exact ⟨_, _, rfl⟩

/-- While time passes, a guard changes its task, and takes a sample if the task does. -/
theorem exists_advance (g : SpaceGuard) (start finish : Nat) (counted : Option Nat) :
    ∃ task, g.advance start finish counted =
      { if g.samplesIn start finish then g.sample counted else g with task } := by
  obtain ⟨cap, usage, status, source, period, task⟩ := g
  cases task with
  | absent | ended => exact ⟨_, rfl⟩
  | waiting due =>
    by_cases isDue : due ≤ start ∨ due < finish
    · obtain rfl | lives := Nat.eq_zero_or_pos period
      · exact ⟨.ended, by simp [advance, samplesIn, isDue]⟩
      · refine ⟨.waiting (due + ((finish - due - 1) / period + 1) * period), ?_⟩
        simp [advance, samplesIn, isDue, Nat.ne_of_gt lives]
    · exact ⟨.waiting due, by simp [advance, samplesIn, isDue]⟩

theorem advance_of_due {start finish due : Nat} (counted : Option Nat)
    (waits : g.task = .waiting due) (isDue : due ≤ start ∨ due < finish) (lives : 0 < g.period) :
    g.advance start finish counted =
      { g.sample counted with
        task := .waiting (due + ((finish - due - 1) / g.period + 1) * g.period) } := by
  simp [advance, waits, isDue, Nat.ne_of_gt lives]

theorem advance_of_not_due {start finish due : Nat} (counted : Option Nat)
    (waits : g.task = .waiting due) (early : ¬(due ≤ start ∨ due < finish)) :
    g.advance start finish counted = g := by
  simp [advance, waits, early]

/-- When a task is due after a time, told from when it is due after a part of it. -/
theorem due_after {due due' middle finish period : Nat} (lives : 0 < period)
    (h : middle < finish)
    (after : due' = due + ((middle - due - 1) / period + 1) * period) :
    due + ((finish - due - 1) / period + 1) * period =
      if due' < finish then due' + ((finish - due' - 1) / period + 1) * period else due' := by
  have within : (middle - due - 1) / period * period ≤ middle - due - 1 :=
    Nat.div_mul_le_self _ _
  generalize (middle - due - 1) / period = ticks at after within
  have ahead : (ticks + 1) * period = ticks * period + period := Nat.succ_mul _ _
  split_ifs with again
  · have reached : ticks + 1 ≤ (finish - due - 1) / period :=
      (Nat.le_div_iff_mul_le lives).2 (by omega)
    have rest : (finish - due' - 1) / period = (finish - due - 1) / period - (ticks + 1) := by
      rw [← Nat.sub_mul_div, Nat.mul_comm period]
      congr 1
      omega
    rw [rest, after, Nat.add_assoc, ← Nat.add_mul]
    congr 2
    omega
  · have same : (finish - due - 1) / period = ticks :=
      Nat.div_eq_of_lt_le (by omega) (by omega)
    rw [same, after]

/-- A second sample with the same answer changes nothing. -/
theorem sample_sample (g : SpaceGuard) (counted : Option Nat) (task : SamplingTask) :
    ({ g.sample counted with task } : SpaceGuard).sample counted =
      { g.sample counted with task } := by
  cases read : g.source.read counted <;> simp [sample, read]

/-- A long time is as good as two shorter ones with the same answer, so that a run may have another
answer for each sample. -/
theorem advance_advance {start middle finish : Nat} (after : middle < finish)
    (counted : Option Nat) :
    (g.advance start middle counted).advance middle finish counted =
      g.advance start finish counted := by
  cases waits : g.task with
  | absent | ended => simp [advance, waits]
  | waiting due =>
    by_cases isDue : due ≤ start ∨ due < middle
    · have isDue' : due ≤ start ∨ due < finish := by omega
      obtain ends | lives := Nat.eq_zero_or_pos g.period
      · simp [advance, waits, isDue, isDue', ends]
      · rw [advance_of_due counted waits isDue lives, advance_of_due counted waits isDue' lives,
          due_after lives after rfl]
        split
        · rename_i again
          have samePeriod : (g.sample counted).period = g.period := by
            obtain ⟨usage, status, after⟩ := g.exists_sample counted
            rw [after]
          refine (advance_of_due counted rfl (.inr again) (samePeriod ▸ lives)).trans ?_
          rw [sample_sample]
          simp only [samePeriod]
        · rw [advance_of_not_due counted rfl (by omega)]
    · rw [advance_of_not_due counted waits isDue]
      have same : (due ≤ middle ∨ due < finish) ↔ (due ≤ start ∨ due < finish) := by omega
      simp only [advance, waits, same]

/-- A sample that fails changes nothing; one that succeeds is shown. -/
theorem shown_sample (g : SpaceGuard) (counted : Option Nat) :
    match g.source.read counted with
    | none => g.sample counted = g
    | some usage => (g.sample counted).Shows (some ⟨usage, g.cap⟩) := by
  cases read : g.source.read counted <;> simp [sample, read, Shows]

/-- A deed that takes no sample leaves what is shown, and one that takes a sample shows it. -/
theorem shown_step (g : SpaceGuard) (deed : Deed) :
    match g.sample? deed with
    | none => (g.step deed).status = g.status ∧ (g.step deed).usage = g.usage
    | some sample => (g.step deed).Shows (some sample) := by
  cases deed with
  | setCap | setSource | start | stop => exact ⟨rfl, rfl⟩
  | setPeriod period now =>
    simp only [step, setPeriod, sample?]
    split <;> exact ⟨rfl, rfl⟩
  | check counted =>
    have sampled := g.shown_sample counted
    cases read : g.source.read counted <;> simp_all [step, sample?]
  | pass start finish counted =>
    obtain ⟨task, after⟩ := g.exists_advance start finish counted
    have sampled := g.shown_sample counted
    cases ticks : g.samplesIn start finish
    · simp [step, sample?, after, ticks]
    · cases read : g.source.read counted <;>
        simp_all [step, sample?, Shows]

/-- A guard that shows the last sample still does so after a deed. -/
theorem shows_step (h : g.Shows last) (deed : Deed) :
    (g.step deed).Shows ((g.sample? deed).or last) := by
  have shown := g.shown_step deed
  cases taken : g.sample? deed with
  | some sample => simpa [taken] using shown
  | none =>
    obtain ⟨status, usage⟩ := taken ▸ shown
    cases last <;> simpa [Shows, usage, status] using h

/-- A guard that shows the last sample still does so after a run. -/
theorem shows_run (h : g.Shows last) (deeds : List Deed) :
    (deeds.foldl step g).Shows ((g.samples deeds).getLast?.or last) := by
  induction deeds generalizing g last with
  | nil => exact h
  | cons deed deeds ih =>
    rw [samples, List.getLast?_append, Option.or_assoc]
    have shown := ih (shows_step h deed)
    cases taken : g.sample? deed <;> simpa [taken] using shown

/-- The cap that a deed sets. -/
def Deed.cap? : Deed → Option Nat
  | .setCap cap => some cap
  | _ => none

/-- The source that a deed sets. -/
def Deed.source? : Deed → Option UsageSource
  | .setSource source => some source
  | _ => none

theorem settings_step (g : SpaceGuard) (deed : Deed) :
    (g.step deed).cap = deed.cap?.getD g.cap ∧
      (g.step deed).source = deed.source?.getD g.source := by
  cases deed with
  | setCap | setSource | start | stop => exact ⟨rfl, rfl⟩
  | setPeriod period now =>
    simp only [step, setPeriod]
    split <;> exact ⟨rfl, rfl⟩
  | check counted =>
    obtain ⟨usage, status, after⟩ := g.exists_sample counted
    simp only [step, after]
    exact ⟨rfl, rfl⟩
  | pass start finish counted =>
    obtain ⟨task, after⟩ := g.exists_advance start finish counted
    obtain ⟨usage, status, sampled⟩ := g.exists_sample counted
    simp only [step, after, sampled]
    split <;> exact ⟨rfl, rfl⟩

/-- What is set by some deeds and kept by the others is what was set last. -/
theorem set_last {α : Type} {field : SpaceGuard → α} {set? : Deed → Option α}
    (sets : ∀ g deed, field (g.step deed) = (set? deed).getD (field g)) (g : SpaceGuard)
    (deeds : List Deed) :
    field (deeds.foldl step g) = (deeds.filterMap set?).getLast?.getD (field g) := by
  induction deeds generalizing g with
  | nil => rfl
  | cons deed deeds ih =>
    rw [List.foldl_cons, ih, sets, List.filterMap_cons]
    cases set? deed with
    | none => rfl
    | some a => simp [List.getLast?_cons]

/-- After any run a guard shows the last sample that succeeded, held against the cap at that time;
what takes no sample, or fails to, changes nothing of it; and the class is exact in machine words. -/
theorem shows_last_sample (cap : Nat) (deeds : List Deed) :
    let g := deeds.foldl step (new cap)
    g.cap = (deeds.filterMap Deed.cap?).getLast?.getD cap ∧
    g.source = (deeds.filterMap Deed.source?).getLast?.getD .absent ∧
    (match ((new cap).samples deeds).getLast? with
      | none => g.status = .unknown ∧ g.usage = 0 ∧ ¬g.isFull
      | some last =>
        g.usage = last.usage ∧
        (g.status = .unknown ↔ last.cap = 0) ∧
        (g.status = .full ↔ 0 < last.cap ∧ last.cap ≤ last.usage) ∧
        (g.status = .critical ↔
          0 < last.cap ∧ 9 * last.cap ≤ 10 * last.usage ∧ last.usage < last.cap) ∧
        (g.status = .available ↔ 0 < last.cap ∧ 10 * last.usage < 9 * last.cap) ∧
        (g.isFull ↔ 0 < last.cap ∧ last.cap ≤ last.usage)) ∧
    (∀ deed, g.sample? deed = none →
      (g.step deed).status = g.status ∧ (g.step deed).usage = g.usage) ∧
    ∀ usage limit : UInt64,
      (SpaceStatus.widen usage * 100).toNat = usage.toNat * 100 ∧
      SpaceStatus.classifyWords usage limit = .classify usage.toNat limit.toNat := by
  intro g
  have settings := set_last (fun g deed => (settings_step g deed).1) (new cap) deeds
  have sources := set_last (fun g deed => (settings_step g deed).2) (new cap) deeds
  have shown : g.Shows ((new cap).samples deeds).getLast? := by
    have first : (new cap).Shows none := ⟨rfl, rfl⟩
    simpa using shows_run first deeds
  refine ⟨settings, sources, ?_, ?_, ?_⟩
  · cases last : ((new cap).samples deeds).getLast? with
    | none =>
      obtain ⟨usage, status⟩ := last ▸ shown
      exact ⟨status, usage, by simp [isFull, status]⟩
    | some sample =>
      obtain ⟨usage, status⟩ := last ▸ shown
      simp only [isFull, status, decide_eq_true_eq]
      exact ⟨usage, SpaceStatus.classify_eq_iff, SpaceStatus.classify_eq_iff,
        SpaceStatus.classify_eq_iff, SpaceStatus.classify_eq_iff, SpaceStatus.classify_eq_iff⟩
  · intro deed fails
    have shown := g.shown_step deed
    rwa [fails] at shown
  · intro usage limit
    exact ⟨SpaceStatus.toNat_widen_mul usage, SpaceStatus.classifyWords_eq usage limit⟩

/-- After a lower cap, a sample that fails and a stop, the sample of the periodic task is still
shown against the cap that it met. -/
theorem shows_last_sample_after_failure :
    let deeds : List Deed :=
      [.setSource .partitions, .check (some 10), .start 5, .pass 5 6 (some 950), .setCap 900,
        .check none, .stop, .pass 6 700000000 (some 3)]
    let g := deeds.foldl step (new 1000)
    ((new 1000).samples deeds).getLast? = some ⟨950, 1000⟩ ∧ g.cap = 900 ∧ g.usage = 950 ∧
      g.status = .critical ∧ ¬g.isFull ∧ g.sample? (.check none) = none ∧
      (g.step (.check none)).status = .critical ∧ (g.step (.check none)).usage = 950 := by
  intro deeds g
  have last : ((new 1000).samples deeds).getLast? = some ⟨950, 1000⟩ := by decide
  obtain ⟨cap, _, shown, kept, _⟩ := shows_last_sample 1000 deeds
  rw [last] at shown
  obtain ⟨usage, _, _, critical, _, full⟩ := shown
  have status : g.status = .critical := critical.2 (by decide)
  have fails : g.sample? (.check none) = none := by decide
  obtain ⟨status', usage'⟩ := kept (.check none) fails
  exact ⟨last, cap, usage, status, fun isFull => absurd (full.1 isFull) (by decide), fails,
    status'.trans status, usage'.trans usage⟩

end SpaceGuard

end SnapshotStore
