import SnapshotStore.Proofs.Queue.Course

/-!
A queue follows its course: each call on the partition, with what the queue makes of its answer, has
its counterpart in the course, and from these the calls on the queue are put together.
-/

namespace SnapshotStore.Queue

variable {ν α : Type} {values : ValueCodec ν} {s : Standing Unsteady} {c : Course ν}

/-- The state after a call on the partition that changes nothing. -/
def passed (s : Standing Unsteady) : Standing Unsteady :=
  { s with base := ⟨s.base.partition, s.base.fates.tail⟩ }

theorem Follows.next_eq (h : Follows values s c) : s.base.next = c.next := by
  rw [Unsteady.next, h.fates]
  rfl

theorem Follows.passed (h : Follows values s c) : Follows values (passed s) c.pass :=
  ⟨h.holds, h.head, h.tail, congrArg List.tail h.fates, h.head_nonneg, h.head_le, h.tail_lt⟩

/-- What is found at an offset up to the last one is what the course has there. -/
theorem get?_live {items : OrderedMap Int ν} {tail offset : Int} (h : offset ≤ tail) :
    (items.filter fun o _ => decide (o ≤ tail)).get? offset = items.get? offset := by
  rw [OrderedMap.get?_filter, if_pos (by simpa using h)]

/-! ## Reading entries -/

/-- An item as an entry of the typed store. -/
def typedEntry (entry : Int × ν) : Int64 × ν := (key entry.1, entry.2)

theorem readEntry_of_related {bytes : Entry} {entry : Int × ν}
    (h : OrderedMap.Related IsKeyOf (IsItemOf values) bytes entry) :
    Layout.readEntry ⟨KeyKind.signedCodec, values⟩ bytes = .ok (typedEntry entry) := by
  rw [Layout.readEntry, show KeyKind.signedCodec.decode _ = _ from h.1.decode,
    show values.decode _ = _ from h.2]
  rfl

theorem readEntries_of_related {bytes : List Entry} {entries : List (Int × ν)}
    (h : List.Forall₂ (OrderedMap.Related IsKeyOf (IsItemOf values)) bytes entries) :
    Layout.readEntries ⟨KeyKind.signedCodec, values⟩ bytes =
      .ok (entries.map typedEntry) := by
  induction h with
  | nil => rfl
  | cons hb _ ih =>
    rw [Layout.readEntries, readEntry_of_related hb, ih]
    rfl

theorem readEntry?_of_related {bytes : Option Entry} {entry : Option (Int × ν)}
    (h : Option.Rel (OrderedMap.Related IsKeyOf (IsItemOf values)) bytes entry) :
    Layout.readEntry? ⟨KeyKind.signedCodec, values⟩ bytes = .ok (entry.map typedEntry) ∧
      (entry.map typedEntry).map offsetEntry = entry := by
  cases h with
  | none => exact ⟨rfl, rfl⟩
  | some h =>
    rw [Layout.readEntry?, readEntry_of_related h]
    exact ⟨rfl, congrArg some (Prod.ext (toInt_key h.1.1 h.1.2.1) rfl)⟩

theorem readValue?_of_related {bytes : Option Bytes} {item : Option ν}
    (h : Option.Rel (IsItemOf values) bytes item) :
    Layout.readValue? ⟨KeyKind.signedCodec, values⟩ bytes = .ok item := by
  cases h with
  | none => rfl
  | some h =>
    rw [Layout.readValue?, show values.decode _ = _ from h]
    rfl

theorem offsetEntry_typedEntry {bytes : List Entry} {entries : List (Int × ν)}
    (h : List.Forall₂ (OrderedMap.Related IsKeyOf (IsItemOf values)) bytes entries) :
    (entries.map typedEntry).map offsetEntry = entries := by
  induction h with
  | nil => rfl
  | cons h _ ih =>
    rw [List.map_cons, List.map_cons, ih]
    exact congrArg (· :: _) (Prod.ext (toInt_key h.1.1 h.1.2.1) rfl)

/-! ## Calls on the partition -/

section Calls

variable {β : Type} {g : Course ν → Except StoreError β × Course ν}

/-- A call that reads, with an answer that the queue makes `a` of. -/
theorem agrees_read (h : Follows values s c) {call : Call} {read : call.Answer → Operation α}
    {f : α → Operation β} {a : α}
    (same : (s.base.partition.call call).2 = s.base.partition)
    (value : ∀ s', (read (s.base.partition.call call).1).runAlone Unsteady.call s' = (.ok a, s'))
    (go : Agrees values ((f a).runAlone Unsteady.call (passed s)) (g c.pass)) :
    Agrees values (((do read (← Operation.call call)) >>= f).runAlone Unsteady.call s)
      (c.once g) := by
  have next := h.next_eq
  rw [bind_assoc, Operation.runAlone_bind, Operation.runAlone_call, Unsteady.call, same, ite_self,
    next, Course.once]
  cases c.next with
  | done =>
    show Agrees values ((read _ >>= f).runAlone Unsteady.call (passed s)) _
    rw [Operation.runAlone_bind, value]
    exact go
  | refused e => exact ⟨rfl, h.passed⟩
  | lost e => exact ⟨rfl, h.passed⟩

/-- The item at an offset is read. -/
theorem agrees_get (h : Follows values s c) {offset : Int} (h0 : 0 ≤ offset)
    (ho : offset ≤ c.tail) {f : Option ν → Operation β}
    (go : Agrees values ((f (c.live.get? offset)).runAlone Unsteady.call (passed s)) (g c.pass)) :
    Agrees values (((Layout.get ⟨KeyKind.signedCodec, values⟩ (key offset)) >>= f).runAlone
      Unsteady.call s) (c.once g) := by
  obtain ⟨items, holds, live, -⟩ := h.holds
  have hk : IsKeyOf (KeyKind.signedCodec.encode (key offset)) offset :=
    ⟨h0, by have := h.tail_lt; omega, rfl⟩
  rw [live, get?_live ho] at go
  refine agrees_read h rfl (a := items.get? offset) (fun s' => ?_) go
  exact congrArg (·, s') (readValue?_of_related (holds.get? orderFaithful_isKeyOf hk))

/-- The first entry of a partition is the first item, or one that does not show, behind all items. -/
theorem first?_live (items : OrderedMap Int ν) (tail : Int) :
    (items.filter fun o _ => decide (o ≤ tail)).first? = items.first? ∨
      (items.filter fun o _ => decide (o ≤ tail)).first? = none ∧
        ∃ e, items.first? = some e ∧ tail < e.1 := by
  have sorted := items.sorted
  show (items.toList.filter _).head? = items.toList.head? ∨
    (items.toList.filter _).head? = none ∧ ∃ e, items.toList.head? = some e ∧ tail < e.1
  cases hl : items.toList with
  | nil => exact .inl rfl
  | cons e rest =>
    by_cases he : e.1 ≤ tail
    · rw [List.filter_cons_of_pos (by simpa using he)]
      exact .inl rfl
    · refine .inr ⟨?_, e, rfl, by omega⟩
      rw [List.head?_eq_none_iff, List.filter_eq_nil_iff]
      rw [hl, List.pairwise_cons] at sorted
      intro b hb
      rcases List.mem_cons.1 hb with rfl | hb
      · simpa using he
      · have := sorted.1 b hb
        simp only [decide_eq_true_eq]
        omega

theorem agrees_first (h : Follows values s c) (name : String) (shards : Shards Int64)
    {f : Option (Int × ν) → Operation β}
    (go : ∀ entry, (c.live.first? = entry ∨
        c.live.first? = none ∧ ∃ e, entry = some e ∧ c.tail < e.1) →
      Agrees values ((f entry).runAlone Unsteady.call (passed s)) (g c.pass)) :
    Agrees values (((ofValues name values shards).first >>= f).runAlone Unsteady.call s)
      (c.once g) := by
  obtain ⟨items, holds, live, -⟩ := h.holds
  obtain ⟨read, typed⟩ := readEntry?_of_related holds.first?
  have hassoc : (ofValues name values shards).first >>= f =
      (do Operation.ofExcept (Layout.readEntry? ⟨KeyKind.signedCodec, values⟩
        (← Operation.call .first))) >>= fun entry => f (entry.map offsetEntry) := by
    rw [first, bind_assoc]
    rfl
  rw [hassoc]
  refine agrees_read h rfl (a := items.first?.map typedEntry) (fun s' => congrArg (·, s') read) ?_
  rw [typed]
  apply go _
  rw [live]
  exact first?_live items c.tail

/-- The item at an offset is taken out. -/
theorem agrees_takeOut (h : Follows values s c) {offset : Int} (h0 : 0 ≤ offset)
    (ho : offset ≤ c.tail) {f : Unit → Operation β}
    (go : ∀ s', Follows values s' { c.pass with live := c.live.erase offset } →
      Agrees values ((f ()).runAlone Unsteady.call s')
        (g { c.pass with live := c.live.erase offset })) :
    Agrees values (((Layout.remove ⟨KeyKind.signedCodec, values⟩ (key offset)) >>= f).runAlone
      Unsteady.call s) (c.takeOut offset g) := by
  obtain ⟨items, holds, live, range⟩ := h.holds
  have hk : IsKeyOf (KeyKind.signedCodec.encode (key offset)) offset :=
    ⟨h0, by have := h.tail_lt; omega, rfl⟩
  have taken : Follows values ⟨⟨s.base.partition.remove (KeyKind.signedCodec.encode (key offset)),
      s.base.fates.tail⟩, s.head, s.tail⟩ { c.pass with live := c.live.erase offset } := by
    refine ⟨⟨items.erase offset, ?_, ?_, fun entry he => range entry (OrderedMap.mem_of_mem_erase he)⟩,
      h.head, h.tail, congrArg List.tail h.fates, h.head_nonneg, h.head_le, h.tail_lt⟩
    · rw [Holds, Partition.entries_remove]
      exact holds.erase orderFaithful_isKeyOf hk
    · show c.live.erase offset = _
      rw [live, ← OrderedMap.filter_erase]
      rfl
  have next := h.next_eq
  rw [Layout.remove, Operation.runAlone_bind, Operation.runAlone_call, Unsteady.call, next,
    Course.takeOut]
  cases c.next with
  | done => exact go _ taken
  | refused e => exact ⟨rfl, h.passed⟩
  | lost e => exact ⟨rfl, taken⟩

end Calls

/-! ## Calls on the queue -/

variable (name : String) (shards : Shards Int64)

/-- The item at an offset between the bounds is removed if it satisfies a condition. What follows
leaves the queue as it is if it was not removed. -/
theorem agrees_remove (h : Follows values s c) {offset : Int} (h0 : 0 ≤ offset)
    (ho : offset ≤ c.tail) (condition : Int → ν → Bool)
    {f : Removal (Int × ν) → Operation (QueueAnswer ν)} {k : Course ν → Course ν}
    (kept : ∀ seen s', (f ⟨seen, false⟩).runAlone Unsteady.call s' =
      (.ok (.removal ⟨seen, false⟩), s'))
    (gone : ∀ item s', Follows values s' { c.pass.pass with live := c.live.erase offset } →
      Agrees values ((f ⟨some (offset, item), true⟩).runAlone Unsteady.call s')
        (.ok (.removal ⟨some (offset, item), true⟩),
          k { c.pass.pass with live := c.live.erase offset })) :
    Agrees values (((ofValues name values shards).removeEntry offset condition >>= f).runAlone
      Unsteady.call s) (c.remove offset condition k) := by
  rw [removeEntry, bind_assoc, EntityStore.removeIf, EntityStore.locked,
    Operation.runAlone_withLock_bind, bind_assoc, Course.remove]
  apply agrees_get h h0 ho
  rw [Course.pass_live]
  cases c.live.get? offset with
  | none =>
    show Agrees values ((f ⟨none, false⟩).runAlone Unsteady.call (passed s)) _
    rw [kept]
    exact ⟨rfl, h.passed⟩
  | some item =>
    by_cases hc : condition offset item
    · simp only [if_pos hc, bind_assoc]
      exact agrees_takeOut h.passed h0 ho fun s' taken => gone item s' taken
    · simp only [if_neg hc]
      show Agrees values ((f ⟨some (offset, item), false⟩).runAlone Unsteady.call (passed s)) _
      rw [kept]
      exact ⟨rfl, h.passed⟩

end SnapshotStore.Queue
