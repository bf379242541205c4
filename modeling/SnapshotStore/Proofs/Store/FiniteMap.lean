import Mathlib.Logic.Function.Basic
import SnapshotStore.Proofs.Json.Stored
import SnapshotStore.Proofs.Store.EntityCalls

/-!
Entity stores with all their calls, against plain finite maps. A map here is a function that gives a
key its value or none; its first and its last entry and its pages are characterized by the order of
the bytes of the keys (`Answers`), and this determines every answer (`Answers.unique`). Main
statements: a store that was empty at first answers as such a map does, whatever calls it is given,
and no call that ends with an error changes its partition (`EntityStore.refines_map`).
-/

namespace SnapshotStore

variable {keys : KeyKind} {κ ν α β : Type}

/-! ## Calls -/

/-- A call of an entity store. -/
inductive TypedCall (κ ν : Type) where
  | onKey (c : EntityCall κ ν)
  | first
  | last
  | page (start : Option κ) (count : Nat)

inductive TypedAnswer (κ ν : Type) where
  | onKey (answer : CellAnswer ν)
  | entry (entry : Option (κ × ν))
  | entries (entries : List (κ × ν))
  deriving DecidableEq

/-- Whether the values that a call puts are among some values, if what it changes is. -/
def TypedCall.Within (P : ν → Prop) : TypedCall κ ν → Prop
  | onKey c => c.call.Within P
  | first | last | page _ _ => True

namespace EntityStore

/-- Makes a call. -/
def performTyped (s : EntityStore κ ν) : TypedCall κ ν → Operation (TypedAnswer κ ν)
  | .onKey c => .onKey <$> s.perform c
  | .first => .entry <$> s.first
  | .last => .entry <$> s.last
  | .page start count => .entries <$> s.page start count

/-- The answer to a call of a store over a partition, and the partition after it. -/
def serve (s : EntityStore κ ν) (call : TypedCall κ ν) (standing : Standing Partition) :
    Except StoreError (TypedAnswer κ ν) × Standing Partition :=
  (s.performTyped call).runAlone Partition.serve standing

end EntityStore

/-! ## Maps -/

/-- What keys have for values. -/
abbrev Contents (keys : KeyKind) (ν : Type) := keys.Carrier → Option ν

/-- Whether a list has the entries of a map from a key on, or all of them, each once and in ascending
order of the bytes of their keys. -/
structure Lists (f : Contents keys ν) (start : Option keys.Carrier)
    (entries : List (keys.Carrier × ν)) : Prop where
  ascending : entries.Pairwise fun a b => keys.codec.encode a.1 < keys.codec.encode b.1
  mem_iff : ∀ key value, (key, value) ∈ entries ↔
    f key = some value ∧ ∀ s ∈ start, keys.codec.encode s ≤ keys.codec.encode key

/-- The answer of a map to a call, and the map after it. -/
inductive Answers (name : String) (f : Contents keys ν) :
    TypedCall keys.Carrier ν → Except StoreError (TypedAnswer keys.Carrier ν) → Contents keys ν → Prop
  /-- A call on a key depends on the value of this key and changes no other one. -/
  | onKey (c : EntityCall keys.Carrier ν) {answer : Except StoreError (CellAnswer ν)}
      {cell : Option ν} :
      c.call.apply (.valueNotFound name (keys.codec.inspect c.key)) (f c.key) = (answer, cell) →
      Answers name f (.onKey c) (.onKey <$> answer) (Function.update f c.key cell)
  | first_none : (∀ key, f key = none) → Answers name f .first (.ok (.entry none)) f
  | first {key : keys.Carrier} {value : ν} : f key = some value →
      (∀ other, f other ≠ none → keys.codec.encode key ≤ keys.codec.encode other) →
      Answers name f .first (.ok (.entry (some (key, value)))) f
  | last_none : (∀ key, f key = none) → Answers name f .last (.ok (.entry none)) f
  | last {key : keys.Carrier} {value : ν} : f key = some value →
      (∀ other, f other ≠ none → keys.codec.encode other ≤ keys.codec.encode key) →
      Answers name f .last (.ok (.entry (some (key, value)))) f
  | page {start : Option keys.Carrier} (count : Nat) {all : List (keys.Carrier × ν)} :
      Lists f start all → Answers name f (.page start count) (.ok (.entries (all.take count))) f

/-- Whether a map gives these answers to calls made one after another. -/
inductive Run (name : String) : Contents keys ν → List (TypedCall keys.Carrier ν) →
    List (Except StoreError (TypedAnswer keys.Carrier ν)) → Prop
  | nil (f : Contents keys ν) : Run name f [] []
  | cons {f next : Contents keys ν} {call : TypedCall keys.Carrier ν}
      {calls : List (TypedCall keys.Carrier ν)}
      {answer : Except StoreError (TypedAnswer keys.Carrier ν)}
      {answers : List (Except StoreError (TypedAnswer keys.Carrier ν))} :
      Answers name f call answer next → Run name next calls answers →
      Run name f (call :: calls) (answer :: answers)

/-! ### One answer -/

theorem Lists.unique {f : Contents keys ν} {start : Option keys.Carrier}
    {entries other : List (keys.Carrier × ν)} (h : Lists f start entries) (h' : Lists f start other) :
    entries = other := by
  have distinct : ∀ {l : List (keys.Carrier × ν)},
      (l.Pairwise fun a b => keys.codec.encode a.1 < keys.codec.encode b.1) → l.Nodup :=
    List.Pairwise.imp fun {a b} lt (same : a = b) => Std.lt_irrefl (same ▸ lt)
  have perm : entries.Perm other := by
    refine (List.perm_ext_iff_of_nodup (distinct h.ascending) (distinct h'.ascending)).2 ?_
    rintro ⟨key, value⟩
    rw [h.mem_iff, h'.mem_iff]
  exact perm.eq_of_pairwise (fun a b _ _ lt gt => absurd gt (Std.not_lt.2 (Std.le_of_lt lt)))
    h.ascending h'.ascending

/-- The answer of a map to a call is determined, and so is the map after it. -/
theorem Answers.unique {name : String} {f g g' : Contents keys ν} {call : TypedCall keys.Carrier ν}
    {answer answer' : Except StoreError (TypedAnswer keys.Carrier ν)}
    (h : Answers name f call answer g) (h' : Answers name f call answer' g') :
    answer = answer' ∧ g = g' := by
  have one : ∀ {key other : keys.Carrier}, keys.codec.encode key ≤ keys.codec.encode other →
      keys.codec.encode other ≤ keys.codec.encode key → key = other :=
    fun le ge => keys.encode_injective (Std.le_antisymm le ge)
  have some_ne : ∀ {key value}, f key = some value → f key ≠ none := fun there none =>
    nomatch there.symm.trans none
  cases h with
  | onKey c applied =>
    obtain ⟨_, applied'⟩ := h'
    cases applied.symm.trans applied'
    exact ⟨rfl, rfl⟩
  | first_none empty =>
    cases h' with
    | first_none => exact ⟨rfl, rfl⟩
    | first there => exact absurd (empty _) (some_ne there)
  | first there least =>
    cases h' with
    | first_none empty => exact absurd (empty _) (some_ne there)
    | first there' least' =>
      obtain rfl := one (least _ (some_ne there')) (least' _ (some_ne there))
      cases there.symm.trans there'
      exact ⟨rfl, rfl⟩
  | last_none empty =>
    cases h' with
    | last_none => exact ⟨rfl, rfl⟩
    | last there => exact absurd (empty _) (some_ne there)
  | last there greatest =>
    cases h' with
    | last_none empty => exact absurd (empty _) (some_ne there)
    | last there' greatest' =>
      obtain rfl := one (greatest' _ (some_ne there)) (greatest _ (some_ne there'))
      cases there.symm.trans there'
      exact ⟨rfl, rfl⟩
  | page count lists =>
    cases h' with
    | page _ lists' =>
      rw [lists.unique lists']
      exact ⟨rfl, rfl⟩

/-! ### Ordered maps as maps -/

namespace StoreMap

variable (m : StoreMap keys ν)

def contents : Contents keys ν := fun key => m.get? ⟨key⟩

variable {m}

theorem mem_toList_iff {key : keys.Carrier} {value : ν} :
    (⟨key⟩, value) ∈ m.toList ↔ m.contents key = some value :=
  OrderedMap.get?_eq_some_iff.symm

theorem contents_eq_none (h : m.toList = []) (key : keys.Carrier) : m.contents key = none := by
  cases there : m.contents key with
  | none => rfl
  | some value =>
    rw [← mem_toList_iff, h] at there
    cases there

theorem contents_set (key : keys.Carrier) (cell : Option ν) :
    (m.set key cell).contents = Function.update m.contents key cell := by
  funext other
  rw [contents, get?_set, Function.update_apply]
  by_cases same : key = other
  · rw [if_pos (by rw [same]), if_pos same.symm]
  · rw [if_neg fun h => same (congrArg StoreKey.key h), if_neg fun h => same h.symm]
    rfl

theorem lists_dropBelow (start : Option keys.Carrier) :
    Lists m.contents start ((m.dropBelow (start.map .mk)).map entry) := by
  have mem : ∀ b, b ∈ m.dropBelow (start.map .mk) ↔
      b ∈ m.toList ∧ ∀ s ∈ start, keys.codec.encode s ≤ keys.codec.encode b.1.key := by
    intro b
    cases start with
    | none => simp [OrderedMap.dropBelow]
    | some s =>
      rw [Option.map_some, OrderedMap.dropBelow_some, List.mem_filter, decide_eq_true_eq]
      simp only [Option.mem_some_iff, forall_eq']
      rfl
  have sublist : (m.dropBelow (start.map .mk)).Sublist m.toList := by
    cases start with
    | none => exact List.Sublist.refl _
    | some s => exact List.dropWhile_sublist _
  refine ⟨List.pairwise_map.2 (m.sorted.sublist sublist), fun key value => ?_⟩
  rw [← mem_toList_iff, ← mem ⟨⟨key⟩, value⟩, List.mem_map]
  constructor
  · rintro ⟨⟨⟨_⟩, _⟩, there, ⟨⟩⟩
    exact there
  · exact fun there => ⟨_, there, rfl⟩

variable (name : String)

theorem answers_first : Answers name m.contents .first (.ok (.entry (m.first?.map entry))) m.contents := by
  cases front : m.first? with
  | none => exact .first_none (contents_eq_none (OrderedMap.first?_eq_none_iff.1 front))
  | some b =>
    obtain ⟨there, least⟩ := OrderedMap.first?_eq_some_iff.1 front
    exact .first there fun other => least ⟨other⟩

theorem answers_last : Answers name m.contents .last (.ok (.entry (m.last?.map entry))) m.contents := by
  cases back : m.last? with
  | none =>
    exact .last_none (contents_eq_none
      (OrderedMap.first?_eq_none_iff.1 (OrderedMap.last?_eq_none_iff.1 back)))
  | some b =>
    obtain ⟨there, greatest⟩ := OrderedMap.last?_eq_some_iff.1 back
    exact .last there fun other => greatest ⟨other⟩

theorem answers_page (start : Option keys.Carrier) (count : Nat) :
    Answers name m.contents (.page start count)
      (.ok (.entries ((m.page (start.map .mk) count).map entry))) m.contents := by
  rw [OrderedMap.page, List.map_take]
  exact .page count (lists_dropBelow start)

theorem answers_onKey (c : EntityCall keys.Carrier ν) :
    Answers name m.contents (.onKey c) (.onKey <$> (m.serve name c).1) (m.serve name c).2.contents := by
  rw [serve, contents_set]
  exact .onKey c rfl

end StoreMap

/-! ## Errors change nothing -/

/-- Whether an operation leaves all as it was when it ends with an error. -/
def Operation.Harmless (op : Operation α) : Prop :=
  ∀ s error s', op.runAlone Partition.serve s = (.error error, s') → s' = s

namespace Operation.Harmless

theorem pure (a : α) : (Pure.pure a : Operation α).Harmless := by
  rintro s _ _ ⟨⟩

theorem ofExcept (r : Except StoreError α) : (Operation.ofExcept r).Harmless := by
  intro s error s' ran
  cases ran
  rfl

theorem throw (e : StoreError) : (MonadExcept.throw e : Operation α).Harmless :=
  ofExcept (.error e)

/-- A call on a partition does not fail. -/
theorem call (c : Call) : (Operation.call c).Harmless := by
  rintro s _ _ ⟨⟩

theorem map (f : α → β) {op : Operation α} (h : op.Harmless) : (f <$> op).Harmless := by
  intro s error s' ran
  rw [← bind_pure_comp, Operation.runAlone_bind] at ran
  cases first : op.runAlone Partition.serve s with
  | mk r t =>
    rw [first] at ran
    cases r with
    | error e =>
      cases ran
      exact h s error s' first
    | ok a => cases ran

/-- What goes on with a value that was read does no harm if the reading changed nothing. -/
theorem bind {op : Operation α} {f : α → Operation β}
    (reads : ∀ s, (op.runAlone Partition.serve s).2 = s) (h : ∀ a, (f a).Harmless) :
    (op >>= f).Harmless := by
  intro s error s' ran
  rw [Operation.runAlone_bind] at ran
  have same := reads s
  cases first : op.runAlone Partition.serve s with
  | mk r t =>
    rw [first] at ran same
    obtain rfl : t = s := same
    cases r with
    | error e =>
      cases ran
      rfl
    | ok a => exact h a t error s' ran

end Operation.Harmless

namespace EntityStore

open Operation

theorem harmless_locked (s : EntityStore κ ν) (key : κ) {op : Operation α} (h : op.Harmless) :
    (s.locked key op).Harmless := by
  intro standing error standing' ran
  rw [runAlone_locked] at ran
  exact h standing error standing' ran

/-- What reads the value of a key first. -/
theorem harmless_reading (l : Layout κ ν) (key : κ) {next : Option ν → Operation α}
    (h : ∀ cell, (next cell).Harmless) : (l.get key >>= next).Harmless :=
  .bind (fun _ => rfl) h

/-- What puts a value and then gives one. -/
theorem harmless_putting (l : Layout κ ν) (key : κ) (value : ν) (a : α) :
    (do l.put key value; pure a : Operation α).Harmless :=
  .map (fun _ => a) (.call _)

theorem harmless_perform (s : EntityStore κ ν) (c : EntityCall κ ν) : (s.perform c).Harmless := by
  obtain ⟨key, call⟩ := c
  cases call with
  | put value => exact .map _ (harmless_locked s key (.call _))
  | get => exact .map _ (harmless_locked s key (.bind (fun _ => rfl) fun _ => .ofExcept _))
  | remove => exact .map _ (harmless_locked s key (.call _))
  | contains => exact .map _ (harmless_locked s key (.call _))
  | removeIf condition =>
    refine .map _ (harmless_locked s key (harmless_reading _ key fun cell => ?_))
    cases cell with
    | none => exact .pure _
    | some value =>
      dsimp only
      split
      · exact .map (fun _ => _) (.call _)
      · exact .pure _
  | update change =>
    refine .map _ (harmless_locked s key (harmless_reading _ key fun cell => ?_))
    cases cell with
    | none => exact .throw _
    | some value => exact harmless_putting _ _ _ _
  | putOrUpdate value change =>
    refine .map _ (harmless_locked s key (harmless_reading _ key fun cell => ?_))
    cases cell with
    | none | some old => exact harmless_putting _ _ _ _
  | findOrPut value =>
    refine .map _ (harmless_locked s key (harmless_reading _ key fun cell => ?_))
    cases cell with
    | none => exact harmless_putting _ _ _ _
    | some old => exact .pure _

/-- No call that ends with an error changes anything, whatever bytes the partition has. -/
theorem harmless_performTyped (s : EntityStore κ ν) (call : TypedCall κ ν) :
    (s.performTyped call).Harmless := by
  cases call with
  | onKey c => exact .map _ (harmless_perform s c)
  | first | last | page => exact .map _ (.bind (fun _ => rfl) fun _ => .ofExcept _)

/-! ## Stores as maps -/

variable (name : String) (shards : Shards keys.Carrier) {values : ValueCodec ν}
  {s : Standing Partition} {m : StoreMap keys ν} {P : ν → Prop}

/-- A store over a partition that holds a map answers as the map does, and the partition holds the
map after that. -/
theorem serve_answers (back : ∀ value, P value → values.decode (values.encode value) = .ok value)
    (h : Layout.Holds values s.base m) (within : m.Within P) {call : TypedCall keys.Carrier ν}
    (puts : call.Within P) :
    ∃ next : StoreMap keys ν,
      Answers name m.contents call ((ofValues keys name values shards).serve call s).1
        next.contents ∧
      Layout.Holds values ((ofValues keys name values shards).serve call s).2.base next ∧
      next.Within P := by
  cases call with
  | onKey c =>
    obtain ⟨base, ran, holds⟩ := alone_serve name shards back h within puts
    refine ⟨(m.serve name c).2, ?_⟩
    rw [serve, performTyped, runAlone_map _ ran]
    exact ⟨StoreMap.answers_onKey name c, holds, within.serve name puts⟩
  | first =>
    have ran : (ofValues keys name values shards).serve .first s =
        (.ok (.entry (m.first?.map StoreMap.entry)), s) := runAlone_map TypedAnswer.entry h.runAlone_first
    rw [ran]
    exact ⟨m, StoreMap.answers_first name, h, within⟩
  | last =>
    have ran : (ofValues keys name values shards).serve .last s =
        (.ok (.entry (m.last?.map StoreMap.entry)), s) := runAlone_map TypedAnswer.entry h.runAlone_last
    rw [ran]
    exact ⟨m, StoreMap.answers_last name, h, within⟩
  | page start count =>
    have ran : (ofValues keys name values shards).serve (.page start count) s =
        (.ok (.entries ((m.page (start.map .mk) count).map StoreMap.entry)), s) :=
      runAlone_map TypedAnswer.entries (h.runAlone_page start count)
    rw [ran]
    exact ⟨m, StoreMap.answers_page name start count, h, within⟩

theorem run_trace (back : ∀ value, P value → values.decode (values.encode value) = .ok value)
    {calls : List (TypedCall keys.Carrier ν)} (puts : ∀ call ∈ calls, call.Within P)
    (h : Layout.Holds values s.base m) (within : m.Within P) :
    Run name m.contents calls (trace (ofValues keys name values shards).serve calls s) := by
  induction calls generalizing s m with
  | nil => exact .nil _
  | cons call calls ih =>
    obtain ⟨next, answers, holds, within⟩ :=
      serve_answers name shards back h within (puts call List.mem_cons_self)
    exact .cons answers (ih (fun c member => puts c (List.mem_cons_of_mem _ member)) holds within)

/-- An entity store refines a finite map. Over a partition that has no entries at first, it answers
any calls as the map from keys to values does that begins without bindings, provided that the values
which the calls put are read back from their text; and over any partition, a call that ends with an
error leaves all as it was. -/
theorem refines_map {json : JsonCodec ν}
    (back : ∀ value, P value → json.readText (json.write value) = .ok value)
    (calls : List (TypedCall keys.Carrier ν)) (puts : ∀ call ∈ calls, call.Within P)
    (start : Standing Partition) (empty : start.base.entries = .empty) :
    Run name (fun _ => none) calls
        (trace (ofValues keys name json.stored shards).serve calls start) ∧
      ∀ call s error s',
        (ofValues keys name json.stored shards).serve call s = (.error error, s') → s' = s := by
  refine ⟨?_, fun call => harmless_performTyped _ call⟩
  exact run_trace (m := .empty) name shards (fun value among => json.decode_encode (back value among))
    puts (Layout.holds_empty empty) fun _ _ => nofun

/-- Numbers as keys: negative ones come behind the others, as their bytes do. -/
theorem refines_map_signed_keys :
    let keys : KeyKind := .signed
    let json := ValueKind.stringJson
    let calls : List (TypedCall keys.Carrier String) :=
      [.onKey ⟨1, .put "a"⟩, .onKey ⟨-1, .findOrPut "b"⟩, .onKey ⟨5, .update id⟩,
        .onKey ⟨1, .putOrUpdate "c" (· ++ "!")⟩, .first, .last, .page (some 2) 3]
    let s : Standing Partition := ⟨Partition.empty "n", 0, 0⟩
    let store := ofValues keys "n" json.stored (Shards.ofCount 12 fun _ => 0)
    (∀ value : String, True → json.readText (json.write value) = .ok value) ∧
      (∀ call ∈ calls, call.Within fun _ => True) ∧ s.base.entries = .empty ∧
      Run "n" (fun _ => none) calls (trace store.serve calls s) ∧
      trace store.serve calls s =
        [.ok (.onKey .done), .ok (.onKey (.value "b")), .error (.valueNotFound "n" "5"),
          .ok (.onKey (.value "a!")), .ok (.entry (some (1, "a!"))), .ok (.entry (some (-1, "b"))),
          .ok (.entries [(-1, "b")])] ∧
      (store.serve (.onKey ⟨5, .update id⟩) s).2 = s := by
  intro keys json calls s store
  have back : ∀ value : String, True → json.readText (json.write value) = .ok value :=
    fun value _ => @ValueKind.readText_write .string value trivial
  have puts : ∀ call ∈ calls, call.Within fun _ => True := by
    simp only [calls, List.forall_mem_cons]
    exact ⟨trivial, trivial, fun _ _ => trivial, ⟨trivial, fun _ _ => trivial⟩, trivial, trivial,
      trivial, nofun⟩
  obtain ⟨run, harmless⟩ :=
    refines_map "n" (Shards.ofCount 12 fun _ => 0) back calls puts s rfl
  exact ⟨back, puts, rfl, run, by decide +kernel,
    harmless (.onKey ⟨5, .update id⟩) s (.valueNotFound "n" "5") _
      (Prod.ext (by decide +kernel) rfl)⟩

end EntityStore

end SnapshotStore
