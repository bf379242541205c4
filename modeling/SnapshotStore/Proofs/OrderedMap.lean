import Mathlib.Data.List.Forall2
import SnapshotStore.OrderedMap

/-!
Ordered maps as finite maps: a map is known by its lookups (`ext_get?`), and two maps whose bindings
are related one by one stay so under every operation (`Matches`), as long as the relation keeps the
order of the keys. In this way a map of bytes stands for a map of what the bytes mean.
-/

universe u v w x

namespace SnapshotStore.OrderedMap

variable {κ : Type u} {ν : Type v} {κ' : Type w} {ν' : Type x}

/-! ## Lists of bindings -/

section Lists

theorem takeWhile_dropWhile {p q : κ × ν → Bool} (h : ∀ b, p b = true → q b = true)
    (l : List (κ × ν)) : (l.dropWhile p).takeWhile q = (l.takeWhile q).dropWhile p := by
  induction l with
  | nil => rfl
  | cons b l ih =>
    by_cases hp : p b = true
    · rw [List.dropWhile_cons_of_pos hp, List.takeWhile_cons_of_pos (h b hp),
        List.dropWhile_cons_of_pos hp, ih]
    · rw [List.dropWhile_cons_of_neg hp]
      by_cases hq : q b = true
      · rw [List.takeWhile_cons_of_pos hq, List.dropWhile_cons_of_neg hp]
      · rw [List.takeWhile_cons_of_neg hq, List.dropWhile_nil]

variable [DecidableEq κ]

theorem mem_of_lookup {l : List (κ × ν)} {k : κ} {v : ν} (h : lookup k l = some v) :
    (k, v) ∈ l := by
  induction l with
  | nil => cases h
  | cons b l ih =>
    rw [lookup] at h
    split at h
    · rename_i e
      rw [← e, ← Option.some.inj h]
      exact List.mem_cons_self
    · exact List.mem_cons_of_mem _ (ih h)

theorem lookup_append (k : κ) (l l' : List (κ × ν)) :
    lookup k (l ++ l') = (lookup k l).or (lookup k l') := by
  induction l with
  | nil => rfl
  | cons b l ih =>
    rw [List.cons_append, lookup, lookup, ih]
    split <;> rfl

end Lists

/-! ## Bindings -/

section Bindings

variable [LT κ]

theorem mem_of_first? {m : OrderedMap κ ν} {b : κ × ν} (h : m.first? = some b) : b ∈ m.toList :=
  List.mem_of_head? h

theorem first?_eq_none_iff {m : OrderedMap κ ν} : m.first? = none ↔ m.toList = [] :=
  List.head?_eq_none_iff

/-- A map has a last binding if it has a first one. -/
theorem last?_eq_none_iff {m : OrderedMap κ ν} : m.last? = none ↔ m.first? = none :=
  List.getLast?_eq_none_iff.trans first?_eq_none_iff.symm

/-- The map with each value replaced by one that a function gives. -/
def map (f : κ → ν → ν') (m : OrderedMap κ ν) : OrderedMap κ ν' :=
  ⟨m.toList.map fun b => (b.1, f b.1 b.2), by
    rw [List.pairwise_map]
    exact m.sorted⟩

theorem keys_map (f : κ → ν → ν') (m : OrderedMap κ ν) : (m.map f).keys = m.keys := by
  show (m.toList.map _).map _ = m.toList.map _
  rw [List.map_map]
  rfl

theorem page_sublist [DecidableLT κ] (m : OrderedMap κ ν) (start : Option κ) (count : Nat) :
    (m.page start count).Sublist m.toList := by
  refine (List.take_sublist count _).trans ?_
  cases start with
  | none => exact List.Sublist.refl _
  | some s => exact List.dropWhile_sublist _

variable [DecidableEq κ]

theorem mem_of_mem_erase {m : OrderedMap κ ν} {k : κ} {b : κ × ν}
    (h : b ∈ (m.erase k).toList) : b ∈ m.toList :=
  (List.mem_filter.1 h).1

theorem ne_of_mem_erase {m : OrderedMap κ ν} {k : κ} {b : κ × ν}
    (h : b ∈ (m.erase k).toList) : b.1 ≠ k := by
  simpa using (List.mem_filter.1 h).2

theorem get?_map (f : κ → ν → ν') (m : OrderedMap κ ν) (k : κ) :
    (m.map f).get? k = (m.get? k).map (f k) := by
  show lookup k (m.toList.map _) = (lookup k m.toList).map _
  induction m.toList with
  | nil => rfl
  | cons b l ih =>
    rw [List.map_cons, lookup, lookup]
    split
    · rename_i e
      rw [← e]
      rfl
    · exact ih

end Bindings

/-! ## Ascending keys -/

section Ascending

variable [LT κ] [LE κ] [Std.LawfulOrderLT κ]

theorem nodup_keys (m : OrderedMap κ ν) : m.keys.Nodup :=
  List.pairwise_map.2 (m.sorted.imp fun {a b} lt (same : a.1 = b.1) => Std.lt_irrefl (same ▸ lt))

variable [Std.IsLinearOrder κ]

/-- No key is less than the first one. -/
theorem not_lt_of_first? {m : OrderedMap κ ν} {b b' : κ × ν} (h : m.first? = some b)
    (h' : b' ∈ m.toList) : ¬ b'.1 < b.1 := by
  obtain ⟨rest, hl⟩ := List.head?_eq_some_iff.1 h
  have sorted := m.sorted
  rw [hl, List.pairwise_cons] at sorted
  rw [hl] at h'
  rcases List.mem_cons.1 h' with rfl | h'
  · exact Std.lt_irrefl
  · exact Std.not_lt.2 (Std.le_of_lt (sorted.1 _ h'))

/-- No key is greater than the last one. -/
theorem not_lt_of_last? {m : OrderedMap κ ν} {b b' : κ × ν} (h : m.last? = some b)
    (h' : b' ∈ m.toList) : ¬ b.1 < b'.1 := by
  obtain ⟨front, hl⟩ := List.getLast?_eq_some_iff.1 h
  have sorted := m.sorted
  rw [hl, List.pairwise_append] at sorted
  rw [hl] at h'
  rcases List.mem_append.1 h' with h' | h'
  · exact Std.not_lt.2 (Std.le_of_lt (sorted.2.2 _ h' _ (List.mem_singleton_self b)))
  · rw [List.mem_singleton.1 h']
    exact Std.lt_irrefl

theorem toList_filter_le [DecidableLE κ] (m : OrderedMap κ ν) (bound : κ) :
    (m.filter fun k _ => decide (k ≤ bound)).toList =
      m.toList.takeWhile fun b => decide (b.1 ≤ bound) := by
  have sorted := m.sorted
  show m.toList.filter _ = _
  generalize m.toList = l at sorted
  induction l with
  | nil => rfl
  | cons b l ih =>
    obtain ⟨hb, hl⟩ := List.pairwise_cons.1 sorted
    by_cases h : b.1 ≤ bound
    · rw [List.filter_cons_of_pos (by simpa using h), List.takeWhile_cons_of_pos (by simpa using h),
        ih hl]
    · rw [List.filter_cons_of_neg (by simpa using h), List.takeWhile_cons_of_neg (by simpa using h),
        List.filter_eq_nil_iff]
      intro x hx hle
      exact h (Std.le_trans (Std.le_of_lt (hb x hx)) (by simpa using hle))

variable [DecidableLT κ]

theorem mem_insert {m : OrderedMap κ ν} {k : κ} {v : ν} {b : κ × ν}
    (h : b ∈ (m.insert k v).toList) : b = (k, v) ∨ b ∈ m.toList :=
  mem_insertBinding h

/-- What is dropped below a key are the keys below it. -/
theorem dropBelow_some [DecidableLE κ] (m : OrderedMap κ ν) (start : κ) :
    m.dropBelow (some start) = m.toList.filter fun b => decide (start ≤ b.1) := by
  have sorted := m.sorted
  rw [dropBelow]
  generalize m.toList = l at sorted
  induction l with
  | nil => rfl
  | cons b l ih =>
    obtain ⟨hb, hl⟩ := List.pairwise_cons.1 sorted
    by_cases h : b.1 < start
    · rw [List.dropWhile_cons_of_pos (by simpa using h), ih hl,
        List.filter_cons_of_neg (by simpa using Std.not_le.2 h)]
    · have hle : start ≤ b.1 := Std.not_lt.1 h
      rw [List.dropWhile_cons_of_neg (by simpa using h), List.filter_eq_self.2]
      intro x hx
      rcases List.mem_cons.1 hx with rfl | hx
      · exact decide_eq_true hle
      · exact decide_eq_true (Std.le_trans hle (Std.le_of_lt (hb x hx)))

/-- A page of the keys up to a bound is what the page of all keys has up to it. -/
theorem page_filter_le [DecidableLE κ] (m : OrderedMap κ ν) {start bound : κ} (h : start ≤ bound)
    (count : Nat) :
    (m.filter fun k _ => decide (k ≤ bound)).page (some start) count =
      (m.page (some start) count).takeWhile fun b => decide (b.1 ≤ bound) := by
  show ((m.filter fun k _ => decide (k ≤ bound)).toList.dropWhile _).take count =
    ((m.toList.dropWhile _).take count).takeWhile _
  rw [toList_filter_le, ← takeWhile_dropWhile, List.take_takeWhile]
  intro b hb
  have hlt : b.1 < start := by simpa using hb
  simpa using Std.le_trans (Std.le_of_lt hlt) h

/-- A map with the bindings of a list put into it one after another. -/
def insertAll (m : OrderedMap κ ν) (bindings : List (κ × ν)) : OrderedMap κ ν :=
  bindings.foldl (fun m b => m.insert b.1 b.2) m

theorem insertBinding_last {k : κ} {v : ν} {l : List (κ × ν)} (h : ∀ b ∈ l, b.1 < k) :
    insertBinding k v l = l ++ [(k, v)] := by
  induction l with
  | nil => rfl
  | cons b l ih =>
    have before := h b (List.mem_cons_self ..)
    rw [insertBinding, if_neg (Std.not_lt.2 (Std.le_of_lt before)), if_pos before,
      ih fun b hb => h b (List.mem_cons_of_mem _ hb)]
    rfl

theorem toList_insertAll {m : OrderedMap κ ν} {l : List (κ × ν)}
    (sorted : (m.toList ++ l).Pairwise fun a b => a.1 < b.1) :
    (m.insertAll l).toList = m.toList ++ l := by
  induction l generalizing m with
  | nil => exact (List.append_nil _).symm
  | cons b l ih =>
    have last : (m.insert b.1 b.2).toList = m.toList ++ [b] :=
      insertBinding_last fun c hc =>
        (List.pairwise_append.1 sorted).2.2 c hc b (List.mem_cons_self ..)
    have split : m.toList ++ b :: l = (m.insert b.1 b.2).toList ++ l := by
      rw [last, List.append_assoc, List.singleton_append]
    rw [split] at sorted ⊢
    exact ih sorted

/-- A map is made of its bindings. -/
theorem ofList_toList (m : OrderedMap κ ν) : ofList m.toList = m :=
  ext (toList_insertAll (m := empty) m.sorted)

end Ascending

/-! ## Lookups -/

section Lookups

variable [LT κ] [LE κ] [Std.LawfulOrderLT κ] [DecidableEq κ]

theorem lookup_eq_some_iff {l : List (κ × ν)} (hl : l.Pairwise fun a b => a.1 < b.1) {k : κ}
    {v : ν} : lookup k l = some v ↔ (k, v) ∈ l := by
  induction l with
  | nil => simp [lookup]
  | cons b l ih =>
    obtain ⟨hb, hl⟩ := List.pairwise_cons.1 hl
    by_cases h : b.1 = k
    · have hk : (k, v) ∉ l := fun hm => Std.lt_irrefl (h ▸ hb _ hm)
      rw [lookup, if_pos h, List.mem_cons, or_iff_left hk, Option.some.injEq, Prod.ext_iff]
      exact ⟨fun e => ⟨h.symm, e.symm⟩, fun e => e.2.symm⟩
    · rw [lookup, if_neg h, ih hl, List.mem_cons, or_iff_right]
      exact fun e => h (congrArg Prod.fst e).symm

theorem get?_eq_some_iff {m : OrderedMap κ ν} {k : κ} {v : ν} :
    m.get? k = some v ↔ (k, v) ∈ m.toList :=
  lookup_eq_some_iff m.sorted

theorem get?_eq_none_iff {m : OrderedMap κ ν} {k : κ} :
    m.get? k = none ↔ ∀ v, (k, v) ∉ m.toList := by
  rw [Option.eq_none_iff_forall_ne_some]
  exact forall_congr' fun v => not_congr get?_eq_some_iff

theorem exists_of_get?_ne_none {m : OrderedMap κ ν} {k : κ} (h : m.get? k ≠ none) :
    ∃ v, (k, v) ∈ m.toList := by
  obtain ⟨v, there⟩ := Option.ne_none_iff_exists'.1 h
  exact ⟨v, get?_eq_some_iff.1 there⟩

theorem mem_keys_iff {m : OrderedMap κ ν} {k : κ} : k ∈ m.keys ↔ m.get? k ≠ none := by
  constructor
  · intro mem
    obtain ⟨b, there, rfl⟩ := List.mem_map.1 mem
    exact fun none => nomatch none.symm.trans (get?_eq_some_iff.2 there)
  · intro there
    obtain ⟨v, mem⟩ := exists_of_get?_ne_none there
    exact List.mem_map.2 ⟨(k, v), mem, rfl⟩

theorem isEmpty_iff {m : OrderedMap κ ν} : m.isEmpty = true ↔ ∀ k, m.get? k = none := by
  rw [isEmpty, List.isEmpty_iff]
  constructor
  · intro empty k
    rw [get?_eq_none_iff, empty]
    exact fun _ => List.not_mem_nil
  · intro none
    refine List.eq_nil_iff_forall_not_mem.2 fun b mem => ?_
    exact get?_eq_none_iff.1 (none b.1) b.2 mem

/-- A key has one binding. -/
theorem eq_of_mem {m : OrderedMap κ ν} {b : κ × ν} {k : κ} {v : ν} (mem : b ∈ m.toList)
    (there : m.get? k = some v) (key : b.1 = k) : b = (k, v) := by
  have value := get?_eq_some_iff.2 mem
  rw [key, there] at value
  exact Prod.ext key (Option.some.inj value).symm

theorem get?_filter (p : κ → Bool) (m : OrderedMap κ ν) (k : κ) :
    (m.filter fun k _ => p k).get? k = if p k then m.get? k else none := by
  refine Option.ext fun v => ?_
  have hm : (m.filter fun k _ => p k).get? k = some v ↔ m.get? k = some v ∧ p k = true := by
    rw [get?_eq_some_iff, get?_eq_some_iff]
    exact List.mem_filter
  rw [hm]
  by_cases h : p k = true <;> simp [h]

variable [Std.IsLinearOrder κ]

instance [DecidableEq ν] : DecidableEq (OrderedMap κ ν) := fun a b =>
  decidable_of_iff (a.toList = b.toList) ⟨ext, congrArg toList⟩

/-- A map is known by its lookups. -/
theorem ext_get? {a b : OrderedMap κ ν} (h : ∀ k, a.get? k = b.get? k) : a = b := by
  have nodup : ∀ m : OrderedMap κ ν, m.toList.Nodup := by
    intro m
    refine List.Pairwise.imp ?_ m.sorted
    rintro b _ hlt rfl
    exact Std.lt_irrefl hlt
  have perm : a.toList.Perm b.toList := by
    rw [List.perm_ext_iff_of_nodup (nodup a) (nodup b)]
    rintro ⟨k, v⟩
    rw [← get?_eq_some_iff, ← get?_eq_some_iff, h k]
  refine ext (perm.eq_of_pairwise (fun x y _ _ hxy hyx => ?_) a.sorted b.sorted)
  exact absurd (Std.lt_trans hxy hyx) Std.lt_irrefl

/-- Taking away a key that is not there changes nothing. -/
theorem erase_of_get?_eq_none {m : OrderedMap κ ν} {k : κ} (h : m.get? k = none) :
    m.erase k = m := by
  refine ext_get? fun k' => ?_
  rw [get?_erase]
  by_cases e : k = k'
  · rw [if_pos e, ← e, h]
  · rw [if_neg e]

theorem filter_erase (p : κ → Bool) (m : OrderedMap κ ν) (k : κ) :
    (m.erase k).filter (fun k _ => p k) = (m.filter fun k _ => p k).erase k := by
  refine ext_get? fun k' => ?_
  rw [get?_filter, get?_erase, get?_erase, get?_filter]
  by_cases e : k = k'
  · simp [e]
  · rw [if_neg e, if_neg e]

/-- The first binding is that of the least key. -/
theorem first?_eq_some_iff {m : OrderedMap κ ν} {k : κ} {v : ν} :
    m.first? = some (k, v) ↔ m.get? k = some v ∧ ∀ k', m.get? k' ≠ none → k ≤ k' := by
  constructor
  · intro first
    refine ⟨get?_eq_some_iff.2 (mem_of_first? first), fun k' there => ?_⟩
    obtain ⟨v', mem⟩ := exists_of_get?_ne_none there
    exact Std.not_lt.1 (not_lt_of_first? first mem)
  · rintro ⟨there, least⟩
    cases first : m.first? with
    | none =>
      rw [get?_eq_some_iff, first?_eq_none_iff.1 first] at there
      cases there
    | some b =>
      have mem := mem_of_first? first
      have le : b.1 ≤ k := Std.not_lt.1 (not_lt_of_first? first (get?_eq_some_iff.1 there))
      have ge : k ≤ b.1 := least b.1 (mem_keys_iff.1 (List.mem_map_of_mem mem))
      exact congrArg some (eq_of_mem mem there (Std.le_antisymm le ge))

/-- The last binding is that of the greatest key. -/
theorem last?_eq_some_iff {m : OrderedMap κ ν} {k : κ} {v : ν} :
    m.last? = some (k, v) ↔ m.get? k = some v ∧ ∀ k', m.get? k' ≠ none → k' ≤ k := by
  constructor
  · intro last
    refine ⟨get?_eq_some_iff.2 (List.mem_of_getLast? last), fun k' there => ?_⟩
    obtain ⟨v', mem⟩ := exists_of_get?_ne_none there
    exact Std.not_lt.1 (not_lt_of_last? last mem)
  · rintro ⟨there, greatest⟩
    cases last : m.last? with
    | none =>
      rw [get?_eq_some_iff, first?_eq_none_iff.1 (last?_eq_none_iff.1 last)] at there
      cases there
    | some b =>
      have mem := List.mem_of_getLast? last
      have ge : k ≤ b.1 := Std.not_lt.1 (not_lt_of_last? last (get?_eq_some_iff.1 there))
      have le : b.1 ≤ k := greatest b.1 (mem_keys_iff.1 (List.mem_map_of_mem mem))
      exact congrArg some (eq_of_mem mem there (Std.le_antisymm le ge))

variable [DecidableLT κ]

/-- A filtered map does not see a key that the filter drops. -/
theorem filter_insert_of_not (p : κ → Bool) (m : OrderedMap κ ν) {k : κ} (v : ν)
    (h : p k = false) :
    (m.insert k v).filter (fun k _ => p k) = m.filter fun k _ => p k := by
  refine ext_get? fun k' => ?_
  rw [get?_filter, get?_insert, get?_filter]
  by_cases e : k = k'
  · subst e
    simp [h]
  · rw [if_neg e]

theorem insert_of_get? {m : OrderedMap κ ν} {k : κ} {v : ν} (h : m.get? k = some v) :
    m.insert k v = m := by
  refine ext_get? fun k' => ?_
  rw [get?_insert]
  by_cases e : k = k'
  · rw [if_pos e, ← e, h]
  · rw [if_neg e]

theorem insert_insert (m : OrderedMap κ ν) (k : κ) (v v' : ν) :
    (m.insert k v).insert k v' = m.insert k v' := by
  refine ext_get? fun k' => ?_
  rw [get?_insert, get?_insert, get?_insert]
  split <;> rfl

theorem map_insert (f : κ → ν → ν') (m : OrderedMap κ ν) (k : κ) (v : ν) :
    (m.insert k v).map f = (m.map f).insert k (f k v) := by
  refine ext_get? fun k' => ?_
  rw [get?_map, get?_insert, get?_insert, get?_map]
  by_cases e : k = k'
  · rw [if_pos e, if_pos e, e]
    rfl
  · rw [if_neg e, if_neg e]

theorem mem_dropBelow_iff [DecidableLE κ] {m : OrderedMap κ ν} {start : Option κ} {b : κ × ν} :
    b ∈ m.dropBelow start ↔ m.get? b.1 = some b.2 ∧ ∀ k, start = some k → k ≤ b.1 := by
  rw [get?_eq_some_iff]
  cases start with
  | none => exact ⟨fun h => ⟨h, nofun⟩, And.left⟩
  | some k => simp [dropBelow_some]

/-- What a page holds is there, and not below its start. -/
theorem of_mem_page [DecidableLE κ] {m : OrderedMap κ ν} {start : Option κ} {count : Nat}
    {b : κ × ν} (h : b ∈ m.page start count) :
    m.get? b.1 = some b.2 ∧ ∀ k, start = some k → k ≤ b.1 :=
  mem_dropBelow_iff.1 (List.mem_of_mem_take h)

/-- A page from a key that is there begins with it. -/
theorem page_of_get? [DecidableLE κ] {m : OrderedMap κ ν} {k : κ} {v : ν} (h : m.get? k = some v)
    {count : Nat} (h0 : 0 < count) : ∃ rest, m.page (some k) count = (k, v) :: rest := by
  obtain ⟨front, back, hl⟩ := List.append_of_mem (get?_eq_some_iff.1 h)
  have sorted := m.sorted
  rw [hl, List.pairwise_append] at sorted
  have below : front.filter (fun b => decide (k ≤ b.1)) = [] := by
    refine List.filter_eq_nil_iff.2 fun b hb => ?_
    have hlt := sorted.2.2 b hb _ List.mem_cons_self
    simpa using Std.not_le.2 hlt
  obtain ⟨n, rfl⟩ := Nat.exists_eq_succ_of_ne_zero (Nat.ne_of_gt h0)
  rw [page, dropBelow_some, hl, List.filter_append, below, List.nil_append,
    List.filter_cons_of_pos (by simp [Std.le_refl]), List.take_succ_cons]
  exact ⟨_, rfl⟩

theorem get?_insertAll (m : OrderedMap κ ν) (bindings : List (κ × ν)) (k : κ) :
    (m.insertAll bindings).get? k = (lookup k bindings.reverse).or (m.get? k) := by
  induction bindings generalizing m with
  | nil => rfl
  | cons b bindings ih =>
    rw [List.reverse_cons, lookup_append, Option.or_assoc]
    apply (ih (m.insert b.1 b.2)).trans
    rw [get?_insert, lookup, lookup]
    by_cases e : b.1 = k
    · rw [if_pos e, if_pos e]
      rfl
    · rw [if_neg e, if_neg e]
      rfl

theorem get?_ofList (bindings : List (κ × ν)) (k : κ) :
    (ofList bindings).get? k = lookup k bindings.reverse :=
  (get?_insertAll empty bindings k).trans Option.or_none

theorem mem_of_mem_ofList {bindings : List (κ × ν)} {b : κ × ν}
    (h : b ∈ (ofList bindings).toList) : b ∈ bindings := by
  have found := get?_eq_some_iff.2 h
  rw [get?_ofList] at found
  exact List.mem_reverse.1 (mem_of_lookup found)

/-- Putting the same bindings into a map again changes nothing. -/
theorem insertAll_ofList (bindings : List (κ × ν)) :
    (ofList bindings).insertAll bindings = ofList bindings := by
  refine ext_get? fun k => ?_
  rw [get?_insertAll, get?_ofList, Option.or_self]

end Lookups

/-! ## Related maps -/

section Matches

variable [LT κ] [LT κ'] (K : κ → κ' → Prop) (V : ν → ν' → Prop)

/-- Bindings with related keys and related values. -/
def Related (b : κ × ν) (b' : κ' × ν') : Prop := K b.1 b'.1 ∧ V b.2 b'.2

/-- Two maps with related bindings in the same order. -/
def Matches (a : OrderedMap κ ν) (b : OrderedMap κ' ν') : Prop :=
  List.Forall₂ (Related K V) a.toList b.toList

/-- Related keys are ordered alike. -/
def OrderFaithful : Prop := ∀ ⦃k k' l l'⦄, K k l → K k' l' → (k < k' ↔ l < l')

variable {K V}

theorem matches_empty : Matches K V (empty : OrderedMap κ ν) (empty : OrderedMap κ' ν') :=
  .nil

/-- Among related keys, equality is the same on both sides. -/
theorem OrderFaithful.eq_iff [LE κ] [Std.IsLinearOrder κ] [Std.LawfulOrderLT κ] [LE κ']
    [Std.IsLinearOrder κ'] [Std.LawfulOrderLT κ'] (hK : OrderFaithful K) {k k' : κ} {l l' : κ'}
    (h : K k l) (h' : K k' l') : k = k' ↔ l = l' := by
  have lt := hK h h'
  have gt := hK h' h
  constructor
  · rintro rfl
    rcases Std.lt_trichotomy l l' with hl | hl | hl
    · exact absurd (lt.2 hl) Std.lt_irrefl
    · exact hl
    · exact absurd (gt.2 hl) Std.lt_irrefl
  · rintro rfl
    rcases Std.lt_trichotomy k k' with hk | hk | hk
    · exact absurd (lt.1 hk) Std.lt_irrefl
    · exact hk
    · exact absurd (gt.1 hk) Std.lt_irrefl

/-- Each binding on the right has one on the left that is related to it. -/
theorem Matches.exists_related {a : OrderedMap κ ν} {b : OrderedMap κ' ν'} (h : Matches K V a b)
    {c' : κ' × ν'} (hc : c' ∈ b.toList) : ∃ c ∈ a.toList, Related K V c c' := by
  unfold Matches at h
  generalize a.toList = l at h ⊢
  generalize b.toList = l' at h hc
  induction h with
  | nil => exact absurd hc List.not_mem_nil
  | cons hb _ ih =>
    rcases List.mem_cons.1 hc with rfl | hc
    · exact ⟨_, List.mem_cons_self, hb⟩
    · obtain ⟨c, hm, hr⟩ := ih hc
      exact ⟨c, List.mem_cons_of_mem _ hm, hr⟩

/-- Each binding on the left has one on the right to which it is related. -/
theorem Matches.exists_related_of_left {a : OrderedMap κ ν} {b : OrderedMap κ' ν'}
    (h : Matches K V a b) {c : κ × ν} (hc : c ∈ a.toList) : ∃ c' ∈ b.toList, Related K V c c' :=
  Matches.exists_related (K := flip K) (V := flip V) (List.Forall₂.flip h) hc

theorem Matches.first? {a : OrderedMap κ ν} {b : OrderedMap κ' ν'} (h : Matches K V a b) :
    Option.Rel (Related K V) a.first? b.first? := by
  unfold Matches at h
  unfold OrderedMap.first?
  generalize a.toList = l at h ⊢
  generalize b.toList = l' at h ⊢
  cases h with
  | nil => exact .none
  | cons hb _ => exact .some hb

theorem Matches.last? {a : OrderedMap κ ν} {b : OrderedMap κ' ν'} (h : Matches K V a b) :
    Option.Rel (Related K V) a.last? b.last? := by
  have hr : List.Forall₂ (Related K V) a.toList.reverse b.toList.reverse :=
    List.forall₂_reverse_iff.2 h
  unfold OrderedMap.last?
  rw [← List.head?_reverse, ← List.head?_reverse]
  generalize a.toList.reverse = l at hr ⊢
  generalize b.toList.reverse = l' at hr ⊢
  cases hr with
  | nil => exact .none
  | cons hb _ => exact .some hb

theorem Matches.page [DecidableLT κ] [DecidableLT κ'] (hK : OrderFaithful K)
    {a : OrderedMap κ ν} {b : OrderedMap κ' ν'} (h : Matches K V a b) {k : κ} {k' : κ'}
    (hk : K k k') (count : Nat) :
    List.Forall₂ (Related K V) (a.page (some k) count) (b.page (some k') count) := by
  unfold Matches at h
  apply List.forall₂_take count
  show List.Forall₂ _ (a.toList.dropWhile _) (b.toList.dropWhile _)
  generalize a.toList = l at h ⊢
  generalize b.toList = l' at h ⊢
  induction h with
  | nil => exact .nil
  | @cons b b' l l' hb hl ih =>
    have lt := hK hb.1 hk
    by_cases e : b'.1 < k'
    · rw [List.dropWhile_cons_of_pos (by simpa using lt.2 e),
        List.dropWhile_cons_of_pos (by simpa using e)]
      exact ih
    · rw [List.dropWhile_cons_of_neg (by simpa using mt lt.1 e),
        List.dropWhile_cons_of_neg (by simpa using e)]
      exact .cons hb hl

section Linear

variable [LE κ] [Std.IsLinearOrder κ] [Std.LawfulOrderLT κ]
  [LE κ'] [Std.IsLinearOrder κ'] [Std.LawfulOrderLT κ']

theorem Matches.insert [DecidableLT κ] [DecidableLT κ'] (hK : OrderFaithful K)
    {a : OrderedMap κ ν} {b : OrderedMap κ' ν'} (h : Matches K V a b) {k : κ} {k' : κ'} {v : ν}
    {v' : ν'} (hk : K k k') (hv : V v v') :
    Matches K V (a.insert k v) (b.insert k' v') := by
  unfold Matches at h
  show List.Forall₂ _ (insertBinding k v a.toList) (insertBinding k' v' b.toList)
  generalize a.toList = l at h ⊢
  generalize b.toList = l' at h ⊢
  induction h with
  | nil => exact .cons ⟨hk, hv⟩ .nil
  | @cons b b' l l' hb hl ih =>
    have lt := hK hk hb.1
    have gt := hK hb.1 hk
    simp only [insertBinding, lt, gt]
    split_ifs
    · exact .cons ⟨hk, hv⟩ (.cons hb hl)
    · exact .cons hb ih
    · exact .cons ⟨hk, hv⟩ hl

variable [DecidableEq κ] [DecidableEq κ']

theorem Matches.erase (hK : OrderFaithful K) {a : OrderedMap κ ν} {b : OrderedMap κ' ν'}
    (h : Matches K V a b) {k : κ} {k' : κ'} (hk : K k k') :
    Matches K V (a.erase k) (b.erase k') := by
  unfold Matches at h ⊢
  rw [toList_erase, toList_erase]
  generalize a.toList = l at h ⊢
  generalize b.toList = l' at h ⊢
  induction h with
  | nil => exact .nil
  | @cons b b' l l' hb hl ih =>
    have eq := hK.eq_iff hb.1 hk
    by_cases e : b'.1 = k'
    · rw [List.filter_cons_of_neg (by simpa using eq.2 e), List.filter_cons_of_neg (by simpa using e)]
      exact ih
    · rw [List.filter_cons_of_pos (by simpa using mt eq.1 e),
        List.filter_cons_of_pos (by simpa using e)]
      exact .cons hb ih

theorem Matches.get? (hK : OrderFaithful K) {a : OrderedMap κ ν} {b : OrderedMap κ' ν'}
    (h : Matches K V a b) {k : κ} {k' : κ'} (hk : K k k') :
    Option.Rel V (a.get? k) (b.get? k') := by
  unfold Matches at h
  unfold OrderedMap.get?
  generalize a.toList = l at h ⊢
  generalize b.toList = l' at h ⊢
  induction h with
  | nil => exact .none
  | @cons b b' l l' hb hl ih =>
    have eq := hK.eq_iff hb.1 hk
    simp only [lookup, eq]
    split_ifs
    · exact .some hb.2
    · exact ih

theorem Matches.contains (hK : OrderFaithful K) {a : OrderedMap κ ν} {b : OrderedMap κ' ν'}
    (h : Matches K V a b) {k : κ} {k' : κ'} (hk : K k k') : a.contains k = b.contains k' := by
  have found := h.get? hK hk
  rw [OrderedMap.contains, OrderedMap.contains]
  generalize a.get? k = v at found ⊢
  generalize b.get? k' = v' at found ⊢
  cases found <;> rfl

end Linear

end Matches

end SnapshotStore.OrderedMap
