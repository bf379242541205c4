import SnapshotStore.Proofs.Queue.Undisturbed

/-!
When a queue is empty. Whether it says so is read off its bounds, and taking the last item out by its
offset leaves the bound at the back where it is; the front never passes it from then on, as it moves
behind items only. Main statement: a queue that nothing has disturbed says that it is empty exactly
if no item is left, unless its back was taken out so and nothing was appended since
(`isEmpty_iff_unless_back_lost`).
-/

namespace SnapshotStore

variable {ν : Type}

/-- Whether a call has taken an item out. -/
def TookOut (answer : Except StoreError (QueueAnswer ν)) : Prop :=
  ∃ entry, answer = .ok (.removal ⟨some entry, true⟩)

/-- Whether a call takes the item at the back out, by its offset and while the front is before it. -/
def QueueCall.TakesBack (call : QueueCall ν) (head tail : Int)
    (answer : Except StoreError (QueueAnswer ν)) : Prop :=
  (∃ condition, call = .removeOffset tail condition) ∧ head < tail ∧ TookOut answer

theorem QueueCall.takesBack_removeOffset {offset head tail : Int} {condition : Int → ν → Bool}
    {answer : Except StoreError (QueueAnswer ν)} :
    (removeOffset offset condition).TakesBack head tail answer ↔
      offset = tail ∧ head < tail ∧ TookOut answer := by
  refine and_congr_left fun _ => ⟨?_, ?_⟩
  · rintro ⟨_, ⟨⟩⟩
    rfl
  · rintro rfl
    exact ⟨condition, rfl⟩

theorem not_tookOut_of_kept (seen : Option (Int × ν)) : ¬TookOut (.ok (.removal ⟨seen, false⟩)) := by
  rintro ⟨_, ⟨⟩⟩

namespace Course

/-- Whether nothing is at the end of a course although the front has not passed it. -/
def LacksBack (c : Course ν) : Prop := c.head ≤ c.tail ∧ c.live.get? c.tail = none

theorem not_lacksBack_opened (start : Int) (items : OrderedMap Int ν) (fates : List Fate) :
    ¬(opened start items fates).LacksBack := by
  rintro ⟨le, none⟩
  rw [opened] at le none
  cases hl : items.last? with
  | none =>
    rw [hl, OrderedMap.last?_eq_none_iff.1 hl] at le
    exact absurd (show start ≤ start - 1 from le) (by omega)
  | some back =>
    rw [hl] at none
    have found : items.get? back.1 = some back.2 :=
      OrderedMap.get?_eq_some_iff.2 (List.mem_of_getLast? hl)
    exact Option.some_ne_none _ (found.symm.trans none)

variable {c : Course ν}

/-- A course whose bounds have met has no items, and without items the bounds have met unless the
back is lacking. -/
theorem Bounded.tail_lt_head_iff (h : c.Bounded) :
    c.tail < c.head ↔ c.live.toList = [] ∧ ¬c.LacksBack := by
  constructor
  · intro empty
    exact ⟨OrderedMap.first?_eq_none_iff.1 (h.first?_eq_none empty), fun lacks => by
      have := lacks.1
      omega⟩
  · rintro ⟨empty, back⟩
    refine not_le.1 fun le => back ⟨le, OrderedMap.get?_eq_none_iff.2 fun item he => ?_⟩
    rw [empty] at he
    cases he

/-- Once an item is taken out and the front moves at most behind its place, the back is lacking if
this was the back and the front has not passed it, or if it was lacking before. -/
theorem lacksBack_erase {offset head : Int} {item : ν} (found : c.live.get? offset = some item)
    (behind : c.head ≤ offset) (before : offset ≤ c.tail) (moves : head = c.head ∨ head = offset + 1)
    (fates : List Fate) :
    LacksBack ⟨c.live.erase offset, head, c.tail, fates⟩ ↔
      offset = c.tail ∧ head ≤ c.tail ∨ c.LacksBack := by
  unfold LacksBack
  rw [OrderedMap.get?_erase]
  by_cases back : offset = c.tail
  · -- The item was there, so that nothing was lacking before.
    subst back
    simp [found]
  · rw [if_neg back]
    have inside : head ≤ c.tail ∧ c.head ≤ c.tail := by omega
    simp [back, inside]

theorem lacksBack_remove (calm : c.fates = []) {offset head : Int} (behind : c.head ≤ offset)
    (before : offset ≤ c.tail) (moves : head = c.head ∨ head = offset + 1)
    (condition : Int → ν → Bool) {f : Course ν → Course ν}
    (moved : f { c with live := c.live.erase offset } =
      { c with live := c.live.erase offset, head }) :
    (c.remove offset condition f).2.LacksBack ↔
      TookOut (c.remove offset condition f).1 ∧ offset = c.tail ∧ head ≤ c.tail ∨ c.LacksBack := by
  rw [remove, once_of_calm calm]
  cases found : c.live.get? offset with
  | none => exact (or_iff_right fun took => not_tookOut_of_kept none took.1).symm
  | some item =>
    by_cases hc : condition offset item
    · simp only [if_pos hc, takeOut_of_calm calm, moved]
      rw [lacksBack_erase found behind before moves, and_iff_right (a := TookOut _) ⟨_, rfl⟩]
    · simp only [if_neg hc]
      exact (or_iff_right fun took => not_tookOut_of_kept _ took.1).symm

/-- After a call the back is lacking if the call takes it out, or if it was lacking before and the
call appends nothing. -/
theorem lacksBack_perform (calm : c.fates = []) (bounded : c.Bounded) (call : QueueCall ν) :
    (c.perform call).2.LacksBack ↔
      call.TakesBack c.head c.tail (c.perform call).1 ∨
        c.LacksBack ∧ ∀ item, call ≠ .append item := by
  cases call with
  | append item =>
    rw [perform, once_of_calm calm]
    refine iff_of_false (fun lacks => ?_) ?_
    · have found := (OrderedMap.get?_insert c.live (c.tail + 1) (c.tail + 1) item).trans (if_pos rfl)
      exact Option.some_ne_none _ (found.symm.trans lacks.2)
    · rintro (⟨⟨_, ⟨⟩⟩, -⟩ | ⟨-, other⟩)
      exact other item rfl
  | removeFirst condition =>
    have other : ∀ item, QueueCall.removeFirst condition ≠ .append item := by simp
    rw [or_iff_right (by rintro ⟨⟨_, ⟨⟩⟩, -⟩), and_iff_left other, perform]
    by_cases empty : c.tail < c.head
    · rw [if_pos empty]
    rw [if_neg empty, once_of_calm calm]
    cases first : c.live.first? with
    | none => rfl
    | some entry =>
      -- Whatever is removed, the front passes its place, even at the back.
      obtain ⟨behind, before⟩ := bounded entry (OrderedMap.mem_of_first? first)
      refine (lacksBack_remove calm behind before (.inr rfl) condition rfl).trans ?_
      exact or_iff_right fun took => by omega
  | removeOffset offset condition =>
    have other : ∀ item, QueueCall.removeOffset offset condition ≠ .append item := by simp
    rw [and_iff_left other, perform]
    by_cases outside : c.tail < c.head ∨ offset < c.head ∨ c.tail < offset
    · rw [if_pos outside]
      exact (or_iff_right fun took => not_tookOut_of_kept none took.2.2).symm
    rw [if_neg outside]
    have behind : c.head ≤ offset := by omega
    rw [QueueCall.takesBack_removeOffset]
    by_cases front : offset = c.head
    · refine (lacksBack_remove calm behind (by omega) (.inr rfl) condition ?_).trans ?_
      · exact if_pos front
      · exact or_congr_left ⟨fun passed => by omega, fun passed => by omega⟩
    · refine (lacksBack_remove calm behind (by omega) (.inl rfl) condition ?_).trans ?_
      · exact if_neg front
      · refine or_congr_left ⟨?_, ?_⟩
        · rintro ⟨took, back, -⟩
          exact ⟨back, by omega, took⟩
        · rintro ⟨back, -, took⟩
          exact ⟨took, back, by omega⟩
  | batch start count =>
    have other : ∀ item : ν, QueueCall.batch start count ≠ .append item := by simp
    rw [or_iff_right (by rintro ⟨⟨_, ⟨⟩⟩, -⟩), and_iff_left other, perform]
    by_cases none : count = 0
    · rw [if_pos none]
    rw [if_neg none]
    by_cases behind : c.tail < max start c.head
    · rw [if_pos behind]
    · rw [if_neg behind, once_of_calm calm]

end Course

namespace Queue

variable {values : ValueCodec ν} {s : Standing Partition} {c : Course ν}

/-- Whether, among calls on a queue, one takes the back out after which nothing is appended. -/
def LosesBack (q : Queue ν) (calls : List (QueueCall ν)) (s : Standing Partition) : Prop :=
  ∃ before call rest, calls = before ++ call :: rest ∧
    call.TakesBack (after q.alone before s).head (after q.alone before s).tail
      (q.alone call (after q.alone before s)).1 ∧
    ∀ item, .append item ∉ rest

theorem losesBack_cons (q : Queue ν) (call : QueueCall ν) (calls : List (QueueCall ν))
    (s : Standing Partition) :
    q.LosesBack (call :: calls) s ↔
      call.TakesBack s.head s.tail (q.alone call s).1 ∧ (∀ item, .append item ∉ calls) ∨
        q.LosesBack calls (q.alone call s).2 := by
  constructor
  · rintro ⟨_ | ⟨first, before⟩, taking, rest, eq, takes, none⟩
    · cases eq
      exact .inl ⟨takes, none⟩
    · cases eq
      exact .inr ⟨before, taking, rest, rfl, takes, none⟩
  · rintro (⟨takes, none⟩ | ⟨before, taking, rest, rfl, takes, none⟩)
    · exact ⟨[], call, calls, rfl, takes, none⟩
    · exact ⟨call :: before, taking, rest, rfl, takes, none⟩

theorem runAlone_isEmpty (s : Standing Partition) :
    isEmpty.runAlone Partition.serve s = (.ok (decide (s.tail < s.head)), s) := rfl

/-- All batches from the first offset on are empty if and only if there is no item. -/
theorem Undisturbed.batches_eq_nil_iff (name : String) (shards : Shards Int64)
    (h : Undisturbed values s c) :
    (∀ count, 0 < count →
        ((ofValues name values shards).alone (.batch 0 count) s).1 = .ok (.items [])) ↔
      c.live.toList = [] := by
  have all : c.live.toList.filter (fun entry => decide (0 ≤ entry.1)) = c.live.toList :=
    List.filter_eq_self.2 fun entry he =>
      decide_eq_true (h.follows.head_nonneg.trans (h.bounded entry he).1)
  have answer : ∀ count, 0 < count →
      ((ofValues name values shards).alone (.batch 0 count) s).1 =
        .ok (.items (c.live.toList.take count)) := by
    intro count pos
    rw [(h.perform name shards (.batch 0 count) nofun).1]
    refine (congrArg Prod.fst (Course.line_perform h.quiet h.bounded (.batch 0 count))).trans ?_
    rw [Line.perform, if_neg pos.ne', Course.line, all]
  constructor
  · intro none
    have one := (answer 1 Nat.one_pos).symm.trans (none 1 Nat.one_pos)
    exact (List.take_eq_nil_iff.1 (QueueAnswer.items.inj (Except.ok.inj one))).resolve_left
      Nat.one_ne_zero
  · intro empty count pos
    rw [answer count pos, empty, List.take_nil]

/-- After a run the back is lacking if a call took it out and nothing was appended since. -/
theorem Undisturbed.lacksBack_after (name : String) (shards : Shards Int64)
    (h : Undisturbed values s c) {calls : List (QueueCall ν)}
    (back : QueueCall.ReadBack values calls)
    (room : c.tail + 1 + QueueCall.appends calls ≤ offsetLimit) :
    (after (fun call c => c.perform call) calls c).LacksBack ↔
      (ofValues name values shards).LosesBack calls s ∨
        c.LacksBack ∧ ∀ item, .append item ∉ calls := by
  induction calls generalizing s c with
  | nil =>
    have nothing : ¬(ofValues name values shards).LosesBack [] s := fun ⟨_, _, _, eq, _⟩ =>
      List.append_ne_nil_of_right_ne_nil _ (List.cons_ne_nil _ _) eq.symm
    rw [or_iff_right nothing, and_iff_left fun _ => List.not_mem_nil]
    rfl
  | cons call calls ih =>
    obtain ⟨answer, undisturbed, room⟩ := h.step name shards back room
    have step := Course.lacksBack_perform h.quiet h.bounded call
    rw [← answer, ← h.follows.head, ← h.follows.tail] at step
    have none : (∀ item, QueueCall.append item ∉ call :: calls) ↔
        (∀ item, call ≠ .append item) ∧ ∀ item, .append item ∉ calls := by
      simp only [List.mem_cons, not_or, forall_and, ne_comm, ne_eq]
    rw [after_cons, ih undisturbed back.tail room, losesBack_cons, step, none]
    tauto

/-- A queue that is opened over any items and that nothing disturbs says that it is empty exactly if
no item is left, unless one of its calls has taken the item at the back out by its offset, with the
front before it, and nothing was appended since. Its bounds stay offsets as long as one is left behind
all items that are appended, where the front goes when the last of them is taken. -/
theorem isEmpty_iff_unless_back_lost (name : String) (shards : Shards Int64) {p : Partition}
    {items : OrderedMap Int ν} (holds : Holds values p items) {start : Int} (h0 : 0 ≤ start)
    {calls : List (QueueCall ν)} (back : QueueCall.ReadBack values calls)
    (room : (Line.opened start items).next + QueueCall.appends calls < offsetLimit)
    (head tail : Int) :
    let q := ofValues name values shards
    ∃ opened, (q.recover start).runAlone Partition.serve ⟨p, head, tail⟩ = (.ok (), opened) ∧
      let s := after q.alone calls opened
      ∃ empty, isEmpty.runAlone Partition.serve s = (.ok empty, s) ∧
        (empty = true ↔
          (∀ count, 0 < count → (q.alone (.batch 0 count) s).1 = .ok (.items [])) ∧
            ¬q.LosesBack calls opened) ∧
        s.head ≤ s.tail + 1 ∧ s.tail + 1 < offsetLimit := by
  intro q
  have fits : (Course.opened start items []).tail + 1 + QueueCall.appends calls < offsetLimit := by
    rwa [← Course.line_opened start items []] at room
  have opened := undisturbed_opened holds h0 (by omega)
  have run := opened.run name shards back fits.le
  have last := opened.tail_after name shards back fits.le
  have lacks := opened.lacksBack_after name shards back fits.le
  rw [or_iff_left fun lacks => Course.not_lacksBack_opened start items [] lacks.1] at lacks
  have head_eq : (after q.alone calls _).head = _ := run.follows.head
  have tail_eq : (after q.alone calls _).tail = _ := run.follows.tail
  refine ⟨_, runAlone_recover name shards holds h0 head tail, _, runAlone_isEmpty _, ?_, ?_, ?_⟩
  · rw [run.batches_eq_nil_iff name shards, ← lacks, ← run.bounded.tail_lt_head_iff, ← head_eq,
      ← tail_eq]
    exact decide_eq_true_iff
  · rw [head_eq, tail_eq]
    exact run.follows.head_le
  · show (after q.alone calls _).tail + 1 < offsetLimit
    rw [last]
    exact (add_right_comm _ _ _).trans_lt fits

/-- The item at the back is taken out at 4, another one is appended at 5, and the front passes both. -/
theorem isEmpty_iff_unless_back_lost_appended :
    let items : OrderedMap Int Bytes := OrderedMap.empty.insert 3 [1]
    let p := (Partition.empty "q").put (KeyKind.signedCodec.encode (key 3)) [1]
    let calls : List (QueueCall Bytes) :=
      [.append [2], .removeOffset 4 fun _ _ => true, .append [3], .removeFirst fun _ _ => true,
        .removeFirst fun _ item => item = [3]]
    let q := ofValues "q" ValueCodec.raw ⟨1, by decide, fun _ => 0⟩
    let s := after q.alone calls ⟨p, 3, 3⟩
    Holds ValueCodec.raw p items ∧ (0 : Int) ≤ 2 ∧ QueueCall.ReadBack ValueCodec.raw calls ∧
      (Line.opened 2 items).next + QueueCall.appends calls < offsetLimit ∧
      (q.recover 2).runAlone Partition.serve ⟨p, 0, 0⟩ = (.ok (), ⟨p, 3, 3⟩) ∧
      isEmpty.runAlone Partition.serve s = (.ok true, s) ∧
      (∀ count, 0 < count → (q.alone (.batch 0 count) s).1 = .ok (.items [])) ∧
      ¬q.LosesBack calls ⟨p, 3, 3⟩ := by
  intro items p calls q s
  have holds : Holds ValueCodec.raw p items := (holds_empty rfl).put (by decide) (by decide) rfl
  have back : QueueCall.ReadBack ValueCodec.raw calls := fun _ _ => rfl
  have room : (Line.opened 2 items).next + QueueCall.appends calls < offsetLimit := by decide
  obtain ⟨opened, ran, empty, answers, truth, -⟩ :=
    isEmpty_iff_unless_back_lost "q" ⟨1, by decide, fun _ => 0⟩ holds (show (0 : Int) ≤ 2 by decide)
      back room 0 0
  obtain rfl : ⟨p, 3, 3⟩ = opened := congrArg Prod.snd ran
  have answered : isEmpty.runAlone Partition.serve s = (.ok true, s) := by
    rw [runAlone_isEmpty, decide_eq_true (by decide +kernel)]
  have yes : empty = true :=
    Except.ok.inj (congrArg Prod.fst (answers.symm.trans answered))
  exact ⟨holds, by decide, back, room, ran, answered, truth.1 yes⟩

/-- Of two items the last one is removed by its offset and then the first one. None is left, but the
front stops at the place of the last one, and the queue does not say that it is empty. -/
theorem drained_not_empty :
    let q := ofValues "q" ValueKind.stringJson.stored (Shards.ofCount 12 fun _ => 0)
    let calls : List (QueueCall String) :=
      [.append "x", .append "y", .removeOffset 1 fun _ _ => true, .removeFirst fun _ _ => true]
    let s := after q.alone calls ⟨Partition.empty "q", 0, -1⟩
    (q.recover 0).runAlone Partition.serve ⟨Partition.empty "q", 0, 0⟩ =
        (.ok (), ⟨Partition.empty "q", 0, -1⟩) ∧
      isEmpty.runAlone Partition.serve s = (.ok false, s) ∧
      ∀ count, 0 < count → (q.alone (.batch 0 count) s).1 = .ok (.items []) := by
  intro q calls s
  have back : QueueCall.ReadBack ValueKind.stringJson.stored calls := by
    intro item member
    simp only [calls, List.mem_cons, QueueCall.append.injEq, reduceCtorEq, List.not_mem_nil,
      or_false] at member
    rcases member with rfl | rfl
    · rfl
    · rfl
  have empty : Holds ValueKind.stringJson.stored (Partition.empty "q") .empty := holds_empty rfl
  have run := (undisturbed_opened empty (le_refl 0) (by decide)).run "q"
    (Shards.ofCount 12 fun _ => 0) back (by decide)
  refine ⟨rfl, ?_, (run.batches_eq_nil_iff "q" _).2 (by decide +kernel)⟩
  rw [runAlone_isEmpty, decide_eq_false (by decide +kernel)]

end Queue

end SnapshotStore
