/-!
The space guard: it samples how many bytes are in use, now and then or when asked to, and keeps the
last class. Who writes asks for the class and never waits for a sample.

Times are microseconds of a clock that others move (`advance`). A periodic task that was started
first samples when the clock's owner next waits, and from then on once a period; how long a wait is
makes no difference to what is sampled, because nothing else runs meanwhile.
-/

namespace SnapshotStore

/-- How much of the space is in use. -/
inductive SpaceStatus where
  /-- Nothing was sampled yet, or there is no cap. -/
  | unknown
  | available
  /-- At least nine tenths of the cap. -/
  | critical
  /-- The cap or more. -/
  | full
  deriving DecidableEq, Repr, Inhabited

namespace SpaceStatus

/-- The least percentage of the cap that is critical. -/
def criticalPercent : Nat := 90

/-- The least percentage of the cap that is full. -/
def fullPercent : Nat := 100

/-- The class of a number of bytes against a cap; a cap of zero is none. -/
def classify (usage cap : Nat) : SpaceStatus :=
  if cap = 0 then unknown
  else
    let percent := usage * 100 / cap
    if percent < criticalPercent then available
    else if percent < fullPercent then critical
    else full

def name : SpaceStatus → String
  | unknown => "Unknown"
  | available => "Available"
  | critical => "Critical"
  | full => "Full"

end SpaceStatus

/-- Where a sample comes from. -/
inductive UsageSource where
  | absent
  /-- Always the same number of bytes. -/
  | fixed (bytes : Nat)
  /-- Never an answer. -/
  | failing
  /-- What the partitions count. -/
  | partitions
  deriving DecidableEq, Repr, Inhabited

/-- The answer of a source, where `counted` is what the partitions count, if they still exist. -/
def UsageSource.read (source : UsageSource) (counted : Option Nat) : Option Nat :=
  match source with
  | absent | failing => none
  | fixed bytes => some bytes
  | partitions => counted

/-- The periodic task of a guard. -/
inductive SamplingTask where
  | absent
  /-- It samples next at a time. -/
  | waiting (due : Nat)
  /-- It was started with a period that lets no task live. -/
  | ended
  deriving DecidableEq, Repr, Inhabited

/-- A space guard. -/
structure SpaceGuard where
  /-- The cap in bytes; zero stands for none. -/
  cap : Nat
  /-- The bytes in use at the last sample. -/
  usage : Nat
  status : SpaceStatus
  source : UsageSource
  /-- The time between samples of the periodic task. -/
  period : Nat
  task : SamplingTask
  deriving Repr, Inhabited

namespace SpaceGuard

/-- The time between samples unless another one is set: 120 seconds. -/
def defaultPeriod : Nat := 120000000

/-- A guard with a cap that has sampled nothing. -/
def new (cap : Nat) : SpaceGuard := ⟨cap, 0, .unknown, .absent, defaultPeriod, .absent⟩

/-- Takes one sample. One that fails changes nothing. -/
def sample (g : SpaceGuard) (counted : Option Nat) : SpaceGuard :=
  match g.source.read counted with
  | some usage => { g with usage, status := .classify usage g.cap }
  | none => g

def setCap (g : SpaceGuard) (cap : Nat) : SpaceGuard := { g with cap }

def setSource (g : SpaceGuard) (source : UsageSource) : SpaceGuard := { g with source }

/-- Starts the periodic task, or starts it anew. -/
def start (g : SpaceGuard) (now : Nat) : SpaceGuard := { g with task := .waiting now }

def stop (g : SpaceGuard) : SpaceGuard := { g with task := .absent }

/-- Sets the period. A task that was started and not stopped is started anew. -/
def setPeriod (g : SpaceGuard) (period now : Nat) : SpaceGuard :=
  match g.task with
  | .absent => { g with period }
  | .waiting _ | .ended => { g with period, task := .waiting now }

def isRunning (g : SpaceGuard) : Bool :=
  match g.task with
  | .waiting _ => true
  | .absent | .ended => false

def isFull (g : SpaceGuard) : Bool := g.status = .full

/-- What the periodic task does while the clock goes from one time to another: it samples if it is
due before the end, and is due again one period after its last sample. A period of zero ends the
task before it samples. -/
def advance (g : SpaceGuard) (start finish : Nat) (counted : Option Nat) : SpaceGuard :=
  match g.task with
  | .absent | .ended => g
  | .waiting due =>
    if due ≤ start ∨ due < finish then
      if g.period = 0 then { g with task := .ended }
      else
        let samples := (finish - due - 1) / g.period + 1
        { g.sample counted with task := .waiting (due + samples * g.period) }
    else g

def inspect (g : SpaceGuard) : String :=
  "StorageSpaceChecker \x7b max_size_bytes: " ++ toString g.cap ++ ", usage_bytes: " ++
    toString g.usage ++ ", status: " ++ g.status.name ++ " \x7d"

end SpaceGuard

end SnapshotStore
