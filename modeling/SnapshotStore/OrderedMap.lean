/-!
Finite maps as lists of bindings in strictly ascending order of keys. The list is the map's one
view: each operation is a list function, and the order of the keys is a field of the type. Main
statements: a lookup after an insertion or an erasure (`get?_insert`, `get?_erase`).
-/

universe u v

namespace SnapshotStore

/-- A finite map, its bindings in strictly ascending order of keys. -/
structure OrderedMap (κ : Type u) (ν : Type v) [LT κ] where
  /-- The bindings. -/
  toList : List (κ × ν)
  sorted : toList.Pairwise fun a b => a.1 < b.1

namespace OrderedMap

variable {κ : Type u} {ν : Type v}

/-! ## Lists of bindings -/

/-- Puts a binding at its place, replacing the one of the same key. -/
def insertBinding [LT κ] [DecidableLT κ] (k : κ) (v : ν) : List (κ × ν) → List (κ × ν)
  | [] => [(k, v)]
  | (k', v') :: rest =>
    if k < k' then (k, v) :: (k', v') :: rest
    else if k' < k then (k', v') :: insertBinding k v rest
    else (k, v) :: rest

/-- The value bound to a key. -/
def lookup [DecidableEq κ] (k : κ) : List (κ × ν) → Option ν
  | [] => none
  | (k', v') :: rest => if k' = k then some v' else lookup k rest

theorem mem_insertBinding [LT κ] [DecidableLT κ] {k : κ} {v : ν} {b : κ × ν} {l : List (κ × ν)}
    (h : b ∈ insertBinding k v l) : b = (k, v) ∨ b ∈ l := by
  fun_induction insertBinding k v l with
  | case1 => simp_all
  | case2 => simp_all
  | case3 k' v' rest _ _ ih =>
    rcases List.mem_cons.1 h with rfl | h
    · simp
    · rcases ih h with h | h <;> simp [h]
  | case4 =>
    rcases List.mem_cons.1 h with rfl | h
    · simp
    · simp [h]

theorem lookup_filter_ne [DecidableEq κ] (k k' : κ) (l : List (κ × ν)) :
    lookup k' (l.filter fun b => b.1 ≠ k) = if k = k' then none else lookup k' l := by
  induction l with
  | nil => simp [lookup]
  | cons b l ih =>
    by_cases h : b.1 = k
    · simp only [h, lookup, List.filter_cons, ne_eq, not_true_eq_false, decide_false] at ih ⊢
      grind
    · simp only [h, lookup, List.filter_cons, ne_eq, not_false_eq_true, decide_true] at ih ⊢
      grind [lookup]

section Linear

variable [LT κ] [DecidableLT κ] [LE κ] [Std.IsLinearOrder κ] [Std.LawfulOrderLT κ]

theorem sorted_insertBinding {k : κ} {v : ν} {l : List (κ × ν)}
    (h : l.Pairwise fun a b => a.1 < b.1) :
    (insertBinding k v l).Pairwise fun a b => a.1 < b.1 := by
  fun_induction insertBinding k v l with
  | case1 => simp
  | case2 k' v' rest hlt =>
    refine List.pairwise_cons.2 ⟨fun b hb => ?_, h⟩
    rcases List.mem_cons.1 hb with rfl | hb
    · exact hlt
    · exact Std.lt_trans hlt ((List.pairwise_cons.1 h).1 b hb)
  | case3 k' v' rest _ hlt ih =>
    refine List.pairwise_cons.2 ⟨fun b hb => ?_, ih (List.pairwise_cons.1 h).2⟩
    rcases mem_insertBinding hb with rfl | hb
    · exact hlt
    · exact (List.pairwise_cons.1 h).1 b hb
  | case4 k' v' rest h1 h2 =>
    have hk : k = k' := by
      rcases Std.lt_trichotomy k k' with h | h | h
      · exact absurd h h1
      · exact h
      · exact absurd h h2
    exact List.pairwise_cons.2 ⟨fun b hb => hk ▸ (List.pairwise_cons.1 h).1 b hb,
      (List.pairwise_cons.1 h).2⟩

theorem lookup_insertBinding [DecidableEq κ] (k k' : κ) (v : ν) (l : List (κ × ν)) :
    lookup k' (insertBinding k v l) = if k = k' then some v else lookup k' l := by
  fun_induction insertBinding k v l with
  | case1 => simp [lookup]
  | case2 => simp [lookup]
  | case3 a b rest _ hlt ih =>
    have hne : a ≠ k := fun h => Std.lt_irrefl (h ▸ hlt)
    simp only [lookup, ih]
    grind
  | case4 a b rest h1 h2 =>
    have hk : k = a := by
      rcases Std.lt_trichotomy k a with h | h | h
      · exact absurd h h1
      · exact h
      · exact absurd h h2
    subst hk
    simp only [lookup]
    grind

end Linear

/-! ## Maps -/

variable [LT κ]

def empty : OrderedMap κ ν := ⟨[], .nil⟩

instance : Inhabited (OrderedMap κ ν) := ⟨empty⟩

/-- The map with one binding added or replaced. -/
def insert [DecidableLT κ] [LE κ] [Std.IsLinearOrder κ] [Std.LawfulOrderLT κ]
    (m : OrderedMap κ ν) (k : κ) (v : ν) : OrderedMap κ ν :=
  ⟨insertBinding k v m.toList, sorted_insertBinding m.sorted⟩

/-- The map with the bindings that satisfy a test. -/
def filter (p : κ → ν → Bool) (m : OrderedMap κ ν) : OrderedMap κ ν :=
  ⟨m.toList.filter fun b => p b.1 b.2, m.sorted.filter _⟩

def erase [DecidableEq κ] (m : OrderedMap κ ν) (k : κ) : OrderedMap κ ν :=
  m.filter fun k' _ => k' ≠ k

/-- The bindings of a list; the last one of a key counts. -/
def ofList [DecidableLT κ] [LE κ] [Std.IsLinearOrder κ] [Std.LawfulOrderLT κ]
    (bindings : List (κ × ν)) : OrderedMap κ ν :=
  bindings.foldl (fun m b => m.insert b.1 b.2) empty

/-- The value of a key. -/
def get? [DecidableEq κ] (m : OrderedMap κ ν) (k : κ) : Option ν :=
  lookup k m.toList

def contains [DecidableEq κ] (m : OrderedMap κ ν) (k : κ) : Bool :=
  (m.get? k).isSome

def size (m : OrderedMap κ ν) : Nat := m.toList.length

/-- Whether there is no binding. -/
def isEmpty (m : OrderedMap κ ν) : Bool := m.toList.isEmpty

/-- The keys, in ascending order. -/
def keys (m : OrderedMap κ ν) : List κ := m.toList.map (·.1)

/-- The values, in ascending order of their keys. -/
def values (m : OrderedMap κ ν) : List ν := m.toList.map (·.2)

/-- The binding of the least key. -/
def first? (m : OrderedMap κ ν) : Option (κ × ν) := m.toList.head?

/-- The binding of the greatest key. -/
def last? (m : OrderedMap κ ν) : Option (κ × ν) := m.toList.getLast?

/-- The bindings whose key is not below `start`. -/
def dropBelow [DecidableLT κ] (start : Option κ) (m : OrderedMap κ ν) : List (κ × ν) :=
  match start with
  | none => m.toList
  | some s => m.toList.dropWhile fun b => decide (b.1 < s)

/-- The first `count` bindings whose key is not below `start`. -/
def page [DecidableLT κ] (m : OrderedMap κ ν) (start : Option κ) (count : Nat) : List (κ × ν) :=
  (m.dropBelow start).take count

theorem ext {a b : OrderedMap κ ν} (h : a.toList = b.toList) : a = b := by
  cases a
  cases b
  simp_all

@[simp] theorem toList_empty : (empty : OrderedMap κ ν).toList = [] := rfl

@[simp] theorem get?_empty [DecidableEq κ] (k : κ) : (empty : OrderedMap κ ν).get? k = none := rfl

theorem toList_erase [DecidableEq κ] (m : OrderedMap κ ν) (k : κ) :
    (m.erase k).toList = m.toList.filter (fun b => b.1 ≠ k) := rfl

theorem get?_insert [DecidableLT κ] [LE κ] [Std.IsLinearOrder κ] [Std.LawfulOrderLT κ]
    [DecidableEq κ] (m : OrderedMap κ ν) (k k' : κ) (v : ν) :
    (m.insert k v).get? k' = if k = k' then some v else m.get? k' :=
  lookup_insertBinding k k' v m.toList

theorem get?_erase [DecidableEq κ] (m : OrderedMap κ ν) (k k' : κ) :
    (m.erase k).get? k' = if k = k' then none else m.get? k' :=
  lookup_filter_ne k k' m.toList

end OrderedMap

end SnapshotStore
