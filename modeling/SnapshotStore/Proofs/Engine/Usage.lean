import Mathlib.Algebra.BigOperators.Finprod
import SnapshotStore.Proofs.Engine
import SnapshotStore.Proofs.Partition.Size
import SnapshotStore.Space.Guard

/-!
What the engine says to be in use. Clients open and remove names and call partitions through any
handle they were ever given, also through several of one partition, and through those whose
partition was removed, whether or not its name was opened again. Against them stands an account that
knows no partitions: a map for each name that exists, and for each handle whether its partition was
removed. A run of the clients is a run of the account (`Clients.account_after`), on which a handle
of a removed partition has no effect. Main statement: the engine counts the live keys and values of
the names that exist, and nothing else (`Clients.counts_what_stands`).
-/

namespace SnapshotStore

/-! ## Sums -/

namespace OrderedMap

universe u v

variable {κ : Type u} {ν : Type v} [LT κ] [LE κ] [Std.LawfulOrderLT κ] [DecidableEq κ]

/-- What a map weighs is the sum over all keys of what their values weigh. -/
theorem weight_eq_finsum (w : κ → ν → Nat) (m : OrderedMap κ ν) :
    m.weight w = ∑ᶠ k, (m.get? k).elim 0 (w k) := by
  have support : Function.support (fun k => (m.get? k).elim 0 (w k)) ⊆ m.keys.toFinset := by
    intro k mem
    rw [List.coe_toFinset]
    refine mem_keys_iff.2 fun absent => mem ?_
    simp only [absent, Option.elim_none]
  rw [finsum_eq_sum_of_support_subset _ support, List.sum_toFinset _ m.nodup_keys, keys,
    List.map_map, weight]
  refine congrArg List.sum (List.map_congr_left fun b mem => ?_)
  rw [Function.comp_apply, get?_eq_some_iff.2 mem]
  rfl

end OrderedMap

namespace ByteMap

/-- The bytes of all keys with a value and of their values. -/
noncomputable def bytes (f : ByteMap) : Nat := ∑ᶠ key, (f key).elim 0 (Partition.entryBytes key)

end ByteMap

theorem Partition.liveBytes_eq (p : Partition) : p.liveBytes = p.contents.bytes :=
  OrderedMap.weight_eq_finsum _ _

/-! ## The account -/

/-- What clients do to an engine. They name a handle by its place among those they were given. -/
inductive EngineDeed where
  | openPartition (name : String)
  | removePartition (name : String)
  | close
  | call (place : Nat) (c : Call)
  deriving DecidableEq

/-- What there should be, said without partitions. -/
structure Account where
  /-- The maps of the names that exist. -/
  maps : String → Option ByteMap
  /-- The names that were asked for, each with whether it was not removed since. -/
  handles : List (String × Bool)
  isClosed : Bool

namespace Account

def empty : Account := ⟨fun _ => none, [], false⟩

def step (a : Account) : EngineDeed → Account
  | .openPartition name =>
    if a.isClosed then a
    else
      { a with
        maps := Function.update a.maps name (some ((a.maps name).getD fun _ => none))
        handles := a.handles ++ [(name, true)] }
  | .removePartition name =>
    if a.isClosed then a
    else
      { a with
        maps := Function.update a.maps name none
        handles := a.handles.map fun h => (h.1, h.2 && h.1 != name) }
  | .close => { a with isClosed := true }
  | .call place c =>
    match a.handles[place]? with
    | some (name, true) =>
      { a with maps := Function.update a.maps name ((a.maps name).map fun f => f.step (.call c)) }
    | some (_, false) | none => a

/-- The account after a run from the start. -/
def after (deeds : List EngineDeed) : Account := deeds.foldl step empty

/-- The bytes of all names that exist. -/
noncomputable def bytes (a : Account) : Nat := ∑ᶠ name, (a.maps name).elim 0 ByteMap.bytes

/-- A handle of a removed partition has no effect. -/
theorem step_call_of_removed {a : Account} {place : Nat} {name : String}
    (h : a.handles[place]? = some (name, false)) (c : Call) : a.step (.call place c) = a := by
  simp only [step, h]

end Account

/-! ## Engines -/

namespace Engine

variable {e : Engine} {name : String} {id : PartitionId}

/-- Whether each partition counts its live keys and values. -/
def IsExact (e : Engine) : Prop :=
  ∀ id, id < e.partitions.size → (e.partition id).size = (e.partition id).liveBytes

theorem isExact_empty : IsExact empty := nofun

theorem isExact_openPartition (exact : e.IsExact) (name : String) :
    (e.openPartition name).2.IsExact := by
  rcases e.after_openPartition name with same | ⟨-, next⟩
  · rwa [same]
  intro id inside
  rw [next, Array.size_push] at inside
  rw [next]
  rcases Nat.lt_succ_iff_lt_or_eq.1 inside with inside | rfl
  · rw [partition_push _ inside]
    exact exact id inside
  · rw [partition_push_last]
    rfl

theorem isExact_removePartition (exact : e.IsExact) (name : String) :
    (e.removePartition name).2.IsExact := by
  cases h : e.isClosed with
  | true =>
    rw [removePartition, if_pos h]
    exact exact
  | false =>
    intro id inside
    rw [size_removePartition] at inside
    rw [partition_removePartition h]
    split
    · rfl
    · exact exact id inside

theorem isExact_call (exact : e.IsExact) (id : PartitionId) (c : Call) :
    (e.call id c).2.IsExact := by
  intro other inside
  have size : (e.call id c).2.partitions.size = e.partitions.size := Array.size_setIfInBounds
  rw [size] at inside
  rw [partition_call _ _ _ _ inside]
  split
  · rename_i same
    subst same
    have before : (e.partition id).size = (e.partition id).liveBytes + 0 := exact id inside
    have counted := Partition.size_step before (.call c)
    rwa [ite_self] at counted
  · exact exact other inside

theorem totalSize_eq_weight (e : Engine) :
    e.totalSize = e.registered.weight fun _ id => (e.partition id).size := by
  rw [totalSize, ← List.sum_eq_foldl, OrderedMap.values, List.map_map]
  rfl

/-- The maps of the names that exist. -/
def maps (e : Engine) (name : String) : Option ByteMap := (e.find? name).map Partition.contents

theorem maps_eq (e : Engine) (name : String) :
    e.maps name = (e.contents.get? name).map fun entries key => entries.get? key := by
  rw [maps, find?, get?_contents, Option.map_map, Option.map_map]
  rfl

/-- Engines with the same maps have the same contents. -/
theorem contents_eq_of_maps {e' : Engine} (h : e.maps = e'.maps) : e.contents = e'.contents := by
  refine OrderedMap.ext_get? fun name => ?_
  have same := congrFun h name
  rw [maps_eq, maps_eq] at same
  refine Option.map_injective (fun m m' eq => OrderedMap.ext_get? fun key => congrFun eq key) same

/-- An engine whose partitions count exactly counts the bytes of its maps. -/
theorem totalSize_eq (sound : e.Sound) (exact : e.IsExact) :
    e.totalSize = ∑ᶠ name, (e.maps name).elim 0 ByteMap.bytes := by
  rw [totalSize_eq_weight, OrderedMap.weight_eq_finsum]
  refine finsum_congr fun name => ?_
  rw [maps, find?]
  cases registered : e.registered.get? name with
  | none => rfl
  | some id => exact (exact id (sound.exist registered)).trans (Partition.liveBytes_eq _)

/-- What is read of a name by who opens it now. -/
def opened (e : Engine) (name : String) : Except StorageError (OrderedMap Bytes Bytes) :=
  let (result, e') := e.openPartition name
  result.map fun id => (e'.partition id).entries

theorem opened_eq (sound : e.Sound) (name : String) :
    e.opened name = if e.isClosed then .error .closed else .ok (e.entriesOf name) := by
  cases h : e.isClosed with
  | true =>
    rw [opened, openPartition_closed h]
    rfl
  | false =>
    obtain ⟨id, e', result, -, -, registered, contents⟩ := openPartition_open sound h name
    have entries := entriesOf_registered registered
    rw [entriesOf, contents, OrderedMap.get?_insert, if_pos rfl] at entries
    rw [opened, result]
    exact congrArg Except.ok entries.symm

/-- Whether a handle is on the partition that has its name now. -/
def stands (e : Engine) (handle : String × PartitionId) : Bool :=
  e.registered.get? handle.1 = some handle.2

theorem stands_iff {handle : String × PartitionId} :
    e.stands handle = true ↔ e.registered.get? handle.1 = some handle.2 :=
  decide_eq_true_iff

theorem stands_openPartition {handle : String × PartitionId} (h : handle.2 < e.partitions.size) :
    (e.openPartition name).2.stands handle = e.stands handle :=
  decide_eq_decide.2 (registered_openPartition_iff h)

theorem stands_removePartition (h : e.isClosed = false) (handle : String × PartitionId) :
    (e.removePartition name).2.stands handle = (e.stands handle && handle.1 != name) := by
  obtain ⟨e', result, -, registered⟩ := removePartition_open h name
  rw [result, stands, stands, registered]
  by_cases same : name = handle.1
  · simp [same]
  · simp [same, Ne.symm same]

theorem maps_openPartition (sound : e.Sound) (h : e.isClosed = false) (name : String) :
    (e.openPartition name).2.maps =
      Function.update e.maps name (some ((e.maps name).getD fun _ => none)) := by
  obtain ⟨id, e', result, -, -, -, contents⟩ := openPartition_open sound h name
  funext other
  rw [maps_eq, result, contents, OrderedMap.get?_insert, Function.update_apply]
  by_cases same : name = other
  · subst same
    rw [if_pos rfl, if_pos rfl, maps_eq, entriesOf]
    cases e.contents.get? name <;> rfl
  · rw [if_neg same, if_neg (Ne.symm same), maps_eq]

theorem maps_removePartition (sound : e.Sound) (h : e.isClosed = false) (name : String) :
    (e.removePartition name).2.maps = Function.update e.maps name none := by
  funext other
  rw [maps_eq, contents_removePartition sound h, OrderedMap.get?_erase, Function.update_apply]
  by_cases same : name = other
  · subst same
    rw [if_pos rfl, if_pos rfl]
    rfl
  · rw [if_neg same, if_neg (Ne.symm same), maps_eq]

theorem maps_call (sound : e.Sound) (h : e.registered.get? name = some id) (c : Call) :
    (e.call id c).2.maps =
      Function.update e.maps name ((e.maps name).map fun f => f.step (.call c)) := by
  funext other
  rw [maps_eq, contents_call sound h, OrderedMap.get?_insert, Function.update_apply]
  by_cases same : name = other
  · subst same
    rw [if_pos rfl, if_pos rfl, maps, find?, h]
    exact congrArg some ((e.partition id).contents_step (.call c))
  · rw [if_neg same, if_neg (Ne.symm same), maps_eq]

end Engine

/-! ## Clients -/

/-- An engine with the handles that it gave away. -/
structure Clients where
  engine : Engine
  /-- The names that were asked for, each with the handle that was given. -/
  handles : List (String × PartitionId)

namespace Clients

def start : Clients := ⟨.empty, []⟩

def step (s : Clients) : EngineDeed → Clients
  | .openPartition name =>
    match s.engine.openPartition name with
    | (.ok id, engine) => ⟨engine, s.handles ++ [(name, id)]⟩
    | (.error _, engine) => { s with engine }
  | .removePartition name => { s with engine := (s.engine.removePartition name).2 }
  | .close => { s with engine := s.engine.close }
  | .call place c =>
    match s.handles[place]? with
    | some (_, id) => { s with engine := (s.engine.call id c).2 }
    | none => s

/-- The clients after a run from the start. -/
def after (deeds : List EngineDeed) : Clients := deeds.foldl step start

/-- The account of clients. -/
def account (s : Clients) : Account where
  maps := s.engine.maps
  handles := s.handles.map fun h => (h.1, s.engine.stands h)
  isClosed := s.engine.isClosed

/-- What holds of clients at all times. -/
structure Orderly (s : Clients) : Prop where
  sound : s.engine.Sound
  exact : s.engine.IsExact
  given : ∀ h ∈ s.handles, h.2 < s.engine.partitions.size
  /-- No partition changes its name. -/
  owned : ∀ h ∈ s.handles, ∀ {name}, s.engine.registered.get? name = some h.2 → name = h.1

variable {s : Clients}

theorem orderly_start : Orderly start :=
  ⟨Engine.sound_empty, Engine.isExact_empty, nofun, nofun⟩

/-- A partition that has lost its name has no other name either. -/
theorem detached (order : s.Orderly) {handle : String × PartitionId} (mem : handle ∈ s.handles)
    (h : s.engine.stands handle = false) (other : String) :
    s.engine.registered.get? other ≠ some handle.2 := by
  intro known
  rw [order.owned handle mem known] at known
  exact Bool.false_ne_true (h.symm.trans (Engine.stands_iff.2 known))

theorem getElem?_account_handles (s : Clients) (place : Nat) :
    s.account.handles[place]? = (s.handles[place]?).map fun h => (h.1, s.engine.stands h) :=
  List.getElem?_map

/-! ## Steps -/

theorem step_openPartition_closed (h : s.engine.isClosed = true) (name : String) :
    s.step (.openPartition name) = s := by
  simp only [step, Engine.openPartition_closed h]

/-- Whoever opens a name of an open engine is given a handle on its partition. -/
theorem step_openPartition_open (order : s.Orderly) (h : s.engine.isClosed = false)
    (name : String) :
    ∃ id, (s.engine.openPartition name).2.registered.get? name = some id ∧
      s.step (.openPartition name) =
        ⟨(s.engine.openPartition name).2, s.handles ++ [(name, id)]⟩ := by
  obtain ⟨id, e', result, -, -, registered, -⟩ := Engine.openPartition_open order.sound h name
  refine ⟨id, ?_, ?_⟩
  · rwa [result]
  · simp only [step, result]

theorem orderly_openPartition (order : s.Orderly) (name : String) :
    (s.step (.openPartition name)).Orderly := by
  cases h : s.engine.isClosed with
  | true => rwa [step_openPartition_closed h]
  | false =>
    obtain ⟨id, registered, next⟩ := step_openPartition_open order h name
    have sound := Engine.sound_openPartition order.sound name
    rw [next]
    refine ⟨sound, Engine.isExact_openPartition order.exact name, ?_, ?_⟩
    · intro handle mem
      rcases List.mem_append.1 mem with mem | mem
      · exact (order.given handle mem).trans_le (s.engine.size_openPartition name)
      · rw [List.mem_singleton.1 mem]
        exact sound.exist registered
    · intro handle mem other known
      rcases List.mem_append.1 mem with mem | mem
      · exact order.owned handle mem
          ((Engine.registered_openPartition_iff (order.given handle mem)).1 known)
      · rw [List.mem_singleton.1 mem] at known ⊢
        exact sound.apart known registered

theorem account_openPartition (order : s.Orderly) (name : String) :
    (s.step (.openPartition name)).account = s.account.step (.openPartition name) := by
  cases h : s.engine.isClosed with
  | true =>
    rw [step_openPartition_closed h]
    exact (if_pos h).symm
  | false =>
    obtain ⟨id, registered, next⟩ := step_openPartition_open order h name
    have old : (s.handles.map fun handle =>
        (handle.1, (s.engine.openPartition name).2.stands handle)) = s.account.handles :=
      List.map_congr_left fun handle mem =>
        congrArg (handle.1, ·) (Engine.stands_openPartition (order.given handle mem))
    have new : (s.engine.openPartition name).2.stands (name, id) = true :=
      Engine.stands_iff.2 registered
    refine Eq.trans ?_ (if_neg (Bool.eq_false_iff.1 h)).symm
    rw [next, account, List.map_append, old, List.map_singleton, new,
      Engine.maps_openPartition order.sound h, Engine.isClosed_openPartition]
    rfl

theorem step_removePartition_closed (h : s.engine.isClosed = true) (name : String) :
    s.step (.removePartition name) = s := by
  simp only [step, Engine.removePartition, if_pos h]

theorem orderly_removePartition (order : s.Orderly) (name : String) :
    (s.step (.removePartition name)).Orderly := by
  refine ⟨Engine.sound_removePartition order.sound name,
    Engine.isExact_removePartition order.exact name, fun handle mem => ?_,
    fun handle mem other known => ?_⟩
  · exact (order.given handle mem).trans_eq (s.engine.size_removePartition name).symm
  · exact order.owned handle mem (Engine.registered_before_removePartition known)

theorem account_removePartition (order : s.Orderly) (name : String) :
    (s.step (.removePartition name)).account = s.account.step (.removePartition name) := by
  cases h : s.engine.isClosed with
  | true =>
    rw [step_removePartition_closed h]
    exact (if_pos h).symm
  | false =>
    have handles : (s.handles.map fun handle =>
        (handle.1, (s.engine.removePartition name).2.stands handle)) =
          s.account.handles.map fun handle => (handle.1, handle.2 && handle.1 != name) := by
      rw [account, List.map_map]
      exact List.map_congr_left fun handle _ =>
        congrArg (handle.1, ·) (Engine.stands_removePartition h handle)
    have next : s.step (.removePartition name) =
        ⟨(s.engine.removePartition name).2, s.handles⟩ := rfl
    refine Eq.trans ?_ (if_neg (Bool.eq_false_iff.1 h)).symm
    rw [next, account, handles, Engine.maps_removePartition order.sound h,
      Engine.isClosed_removePartition]
    rfl

theorem orderly_call (order : s.Orderly) (place : Nat) (c : Call) :
    (s.step (.call place c)).Orderly := by
  rw [step]
  split
  · rename_i id _
    refine ⟨Engine.sound_call order.sound id c, Engine.isExact_call order.exact id c, ?_,
      order.owned⟩
    intro handle mem
    exact (order.given handle mem).trans_eq Array.size_setIfInBounds.symm
  · exact order

theorem account_call (order : s.Orderly) (place : Nat) (c : Call) :
    (s.step (.call place c)).account = s.account.step (.call place c) := by
  have listed := s.getElem?_account_handles place
  cases held : s.handles[place]? with
  | none =>
    rw [held, Option.map_none] at listed
    simp only [step, Account.step, held, listed]
  | some handle =>
    obtain ⟨name, id⟩ := handle
    have next : s.step (.call place c) = ⟨(s.engine.call id c).2, s.handles⟩ := by
      simp only [step, held]
    rw [held, Option.map_some] at listed
    rw [next]
    cases standing : s.engine.stands (name, id) with
    | true =>
      rw [standing] at listed
      have maps := Engine.maps_call order.sound (Engine.stands_iff.1 standing) c
      simp only [Account.step, listed]
      exact congrArg (Account.mk · _ _) maps
    | false =>
      rw [standing] at listed
      have contents := Engine.contents_call_of_detached order.sound
        (detached order (List.mem_of_getElem? held) standing) c
      rw [Account.step_call_of_removed listed]
      refine congrArg (Account.mk · _ _) (funext fun other => ?_)
      rw [Engine.maps_eq, Engine.maps_eq, contents]

theorem orderly_step (order : s.Orderly) (deed : EngineDeed) : (s.step deed).Orderly := by
  cases deed with
  | openPartition name => exact orderly_openPartition order name
  | removePartition name => exact orderly_removePartition order name
  | close => exact ⟨Engine.sound_close order.sound, order.exact, order.given, order.owned⟩
  | call place c => exact orderly_call order place c

/-- What clients do to an engine is done to the account. -/
theorem account_step (order : s.Orderly) (deed : EngineDeed) :
    (s.step deed).account = s.account.step deed := by
  cases deed with
  | openPartition name => exact account_openPartition order name
  | removePartition name => exact account_removePartition order name
  | close => rfl
  | call place c => exact account_call order place c

/-! ## Runs -/

theorem orderly_run (order : s.Orderly) (deeds : List EngineDeed) :
    (deeds.foldl step s).Orderly := by
  induction deeds generalizing s with
  | nil => exact order
  | cons deed deeds ih => exact ih (orderly_step order deed)

theorem account_run (order : s.Orderly) (deeds : List EngineDeed) :
    (deeds.foldl step s).account = deeds.foldl Account.step s.account := by
  induction deeds generalizing s with
  | nil => rfl
  | cons deed deeds ih =>
    rw [List.foldl_cons, List.foldl_cons, ← account_step order]
    exact ih (orderly_step order deed)

theorem orderly_after (deeds : List EngineDeed) : (after deeds).Orderly :=
  orderly_run orderly_start deeds

theorem account_after (deeds : List EngineDeed) : (after deeds).account = .after deeds :=
  account_run orderly_start deeds

/-- Runs with the same account cannot be told apart by names. -/
theorem names_eq_of_account {s' : Clients} (h : s.account = s'.account) :
    s.engine.names = s'.engine.names := by
  have contents := Engine.contents_eq_of_maps (congrArg Account.maps h)
  have keys := congrArg OrderedMap.keys contents
  rwa [Engine.contents, Engine.contents, OrderedMap.keys_map, OrderedMap.keys_map] at keys

theorem opened_eq_of_account (order : s.Orderly) {s' : Clients} (order' : s'.Orderly)
    (h : s.account = s'.account) (name : String) :
    s.engine.opened name = s'.engine.opened name := by
  have contents := Engine.contents_eq_of_maps (congrArg Account.maps h)
  have closed : s.engine.isClosed = s'.engine.isClosed := congrArg Account.isClosed h
  rw [Engine.opened_eq order.sound, Engine.opened_eq order'.sound, closed, Engine.entriesOf,
    Engine.entriesOf, contents]

theorem totalSize_after (deeds : List EngineDeed) :
    (after deeds).engine.totalSize = (Account.after deeds).bytes := by
  have order := orderly_after deeds
  rw [Engine.totalSize_eq order.sound order.exact, ← account_after]
  rfl

/-- A call through a handle of a removed partition is as if it had never been made. -/
theorem account_after_removed {deeds : List EngineDeed} {place : Nat} {name : String}
    (h : (Account.after deeds).handles[place]? = some (name, false)) (c : Call)
    (later : List EngineDeed) :
    (after (deeds ++ .call place c :: later)).account = (after (deeds ++ later)).account := by
  rw [account_after, account_after, Account.after, Account.after, List.foldl_append,
    List.foldl_append, List.foldl_cons]
  exact congrArg (later.foldl Account.step) (Account.step_call_of_removed h c)

/-- After any run, what the engine says to be in use, to the source of a space guard too, are the
bytes of the keys and values of the names that exist. A handle whose name was not removed since it
was given is on the partition of the name, which shows the map that all these handles have written.
A handle whose name was removed since is on a partition without a name, and whatever is done through
it can be left out of the run: it changes neither what is in use, nor the names, nor what is read by
those who open a name later. -/
theorem counts_what_stands (deeds : List EngineDeed) :
    let s := after deeds
    let a := Account.after deeds
    s.engine.totalSize = a.bytes ∧
      UsageSource.partitions.read (some s.engine.totalSize) = some a.bytes ∧
      (∀ name, name ∈ s.engine.names ↔ a.maps name ≠ none) ∧
      a.handles.map Prod.fst = s.handles.map Prod.fst ∧
      (∀ (place : Nat) (name : String), a.handles[place]? = some (name, true) →
        ∃ id f, s.handles[place]? = some (name, id) ∧ s.engine.registered.get? name = some id ∧
          a.maps name = some f ∧ (s.engine.partition id).Shows f) ∧
      ∀ (place : Nat) (name : String), a.handles[place]? = some (name, false) →
        (∃ id, s.handles[place]? = some (name, id) ∧
          ∀ other, s.engine.registered.get? other ≠ some id) ∧
        ∀ (c : Call) (later : List EngineDeed),
          let t := after (deeds ++ .call place c :: later)
          let t' := after (deeds ++ later)
          t.engine.totalSize = t'.engine.totalSize ∧ t.engine.names = t'.engine.names ∧
            ∀ other, t.engine.opened other = t'.engine.opened other := by
  intro s a
  have order : s.Orderly := orderly_after deeds
  have same : s.account = a := account_after deeds
  have total : s.engine.totalSize = a.bytes := totalSize_after deeds
  have maps : a.maps = s.engine.maps := congrArg Account.maps same.symm
  refine ⟨total, congrArg some total, fun name => ?_, ?_, fun place name listed => ?_,
    fun place name listed => ⟨?_, fun c later => ?_⟩⟩
  · rw [maps, Engine.maps, Engine.find?, Engine.names, OrderedMap.mem_keys_iff]
    simp only [ne_eq, Option.map_eq_none_iff]
  · rw [← same, account, List.map_map]
    rfl
  · rw [← same, getElem?_account_handles, Option.map_eq_some_iff] at listed
    obtain ⟨handle, held, eq⟩ := listed
    obtain ⟨rfl, standing⟩ := Prod.mk.inj eq
    have registered := Engine.stands_iff.1 standing
    refine ⟨handle.2, _, held, registered, ?_, (s.engine.partition handle.2).shows_contents⟩
    rw [maps, Engine.maps, Engine.find?, registered]
    rfl
  · rw [← same, getElem?_account_handles, Option.map_eq_some_iff] at listed
    obtain ⟨handle, held, eq⟩ := listed
    obtain ⟨rfl, standing⟩ := Prod.mk.inj eq
    exact ⟨handle.2, held, detached order (List.mem_of_getElem? held) standing⟩
  · have alike := account_after_removed listed c later
    refine ⟨?_, names_eq_of_account alike,
      opened_eq_of_account (orderly_after _) (orderly_after _) alike⟩
    rw [totalSize_after, totalSize_after, ← account_after, ← account_after, alike]

/-- The first handle outlives its partition; the second is on the one that came after it. -/
theorem counts_what_stands_reopened :
    let deeds : List EngineDeed :=
      [.openPartition "a", .call 0 (.put [1] [2, 3]), .removePartition "a", .openPartition "a",
        .call 1 (.put [4] [5])]
    let s := after deeds
    let s' := after (deeds ++ [.call 0 (.put [6] [7])])
    (Account.after deeds).handles = [("a", false), ("a", true)] ∧
      (∃ id f, s.handles[1]? = some ("a", id) ∧ s.engine.registered.get? "a" = some id ∧
        (Account.after deeds).maps "a" = some f ∧ (s.engine.partition id).Shows f) ∧
      s'.engine.totalSize = s.engine.totalSize ∧ s.engine.totalSize = 2 := by
  intro deeds s s'
  obtain ⟨-, -, -, -, standing, removed⟩ := counts_what_stands deeds
  have away := (removed 0 "a" rfl).2 (.put [6] [7]) []
  exact ⟨rfl, standing 1 "a" rfl, away.1, by decide⟩

end Clients

end SnapshotStore
