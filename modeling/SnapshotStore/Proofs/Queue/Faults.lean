import SnapshotStore.Proofs.Queue.Opening

/-!
Queues over a partition that may fail. An append that fails does not show, even if its item was put; an
item whose append gave an offset stays there until a condition holds of it; and offsets grow. Main
statement: these three hold of every run from an empty partition (`run_under_faults`).
-/

namespace SnapshotStore

variable {ν α : Type}

/-! ## Courses under faults -/

namespace Course

variable {c : Course ν}

/-- A call as it is seen: its answer, with the bounds after it. -/
def watch (call : QueueCall ν) (c : Course ν) :
    (Except StoreError (QueueAnswer ν) × Int × Int) × Course ν :=
  (((c.perform call).1, (c.perform call).2.head, (c.perform call).2.tail), (c.perform call).2)

/-- An append that fails leaves only its fate behind. -/
theorem perform_append_error {item : ν} {e : StoreError}
    (h : (c.perform (.append item)).1 = .error e) : (c.perform (.append item)).2 = c.pass := by
  rw [perform] at h ⊢
  rcases once_cases (c := c) _ with ⟨-, eq⟩ | ⟨e', eq⟩
  · rw [eq] at h
    cases h
  · rw [eq]

theorem perform_append_ok {item : ν} {offset : Int}
    (h : (c.perform (.append item)).1 = .ok (.offset offset)) :
    (c.perform (.append item)).2.live.get? offset = some item := by
  rw [perform] at h ⊢
  rcases once_cases (c := c) _ with ⟨-, eq⟩ | ⟨e', eq⟩
  · rw [eq] at h ⊢
    cases h
    exact (OrderedMap.get?_insert _ _ _ _).trans (if_pos rfl)
  · rw [eq] at h
    cases h

/-! ## Offsets -/

/-- The last offset moves by one when an append gives an offset, and not otherwise. -/
theorem tail_perform (call : QueueCall ν) :
    (∃ offset, (c.perform call).1.toOption.bind QueueAnswer.offset? = some offset ∧
        offset = c.tail + 1 ∧ (c.perform call).2.tail = offset) ∨
      (c.perform call).1.toOption.bind QueueAnswer.offset? = none ∧
        (c.perform call).2.tail = c.tail := by
  rcases perform_cases (c := c) call with ⟨item, rfl, eq⟩ | moves
  · rw [eq]
    exact .inl ⟨c.tail + 1, rfl, rfl, rfl⟩
  · right
    generalize c.perform call = ended at moves ⊢
    cases moves with
    | still gives | taken gives => exact ⟨gives, rfl⟩

/-! ## Items -/

/-- An item stays as long as no call finds its condition true of it. -/
theorem perform_keeps {entry : Int × ν} (h : c.live.get? entry.1 = some entry.2)
    (ht : entry.1 ≤ c.tail) {call : QueueCall ν}
    (spared : ¬(c.asked call = some entry ∧ call.admits entry = true)) :
    (c.perform call).2.live.get? entry.1 = some entry.2 := by
  rcases perform_cases (c := c) call with ⟨item, rfl, eq⟩ | moves
  · have other : c.tail + 1 ≠ entry.1 := by omega
    rw [eq, OrderedMap.get?_insert, if_neg other]
    exact h
  · generalize c.perform call = ended at moves ⊢
    cases moves with
    | still => exact h
    | @taken _ _ taken _ _ found asks admitted head =>
      have other : taken.1 ≠ entry.1 := by
        intro same
        have item : taken.2 = entry.2 := by
          rw [same, h] at found
          exact (Option.some.inj found).symm
        exact spared ⟨asks.trans (congrArg some (Prod.ext same item)), Prod.ext same item ▸ admitted⟩
      rw [OrderedMap.get?_erase, if_neg other]
      exact h

/-- An item is read at its offset. -/
theorem perform_batch {entry : Int × ν} (h : c.live.get? entry.1 = some entry.2)
    (hh : c.head ≤ entry.1) (ht : entry.1 ≤ c.tail) (done : c.next = .done) {count : Nat}
    (h0 : 0 < count) :
    ∃ rest, (c.perform (.batch entry.1 count)).1 = .ok (.items (entry :: rest)) := by
  obtain ⟨rest, page⟩ := OrderedMap.page_of_get? h h0
  refine ⟨rest, ?_⟩
  rw [perform, if_neg h0.ne', max_eq_left hh, if_neg (not_lt.2 ht), once_done done]
  show Except.ok (QueueAnswer.items (c.live.page (some (max entry.1 c.head)) count)) = _
  rw [max_eq_left hh, page]

end Course

/-! ## Runs of queues -/

namespace Queue

variable {values : ValueCodec ν} {s s' : Standing Unsteady} {c : Course ν}

/-- A call as it is seen: its answer, with the bounds after it. -/
def watch (q : Queue ν) (call : QueueCall ν) (s : Standing Unsteady) :
    (Except StoreError (QueueAnswer ν) × Int × Int) × Standing Unsteady :=
  let (answer, s') := (q.perform call).runAlone Unsteady.call s
  ((answer, s'.head, s'.tail), s')

/-- The item about which a call asks its condition: the one that it shows when it is refused. -/
def asked (q : Queue ν) (call : QueueCall ν) (s : Standing Unsteady) : Option (Int × ν) :=
  (q.watch call.refusing s).1.1.toOption.bind QueueAnswer.seen

/-- Whether a queue that nothing disturbs reads an item first in each batch from its offset. -/
def Shows (q : Queue ν) (entry : Int × ν) (s : Standing Unsteady) : Prop :=
  ∀ count, 0 < count → ∃ rest,
    (q.watch (.batch entry.1 count) { s with base := ⟨s.base.partition, []⟩ }).1.1 =
      .ok (.items (entry :: rest))

section Runs

variable (name : String) (shards : Shards Int64)

theorem Follows.watch (h : Follows values s c) {call : QueueCall ν}
    (fits : call.Fits values s.tail) :
    ((ofValues name values shards).watch call s).1 = (c.watch call).1 ∧
      Follows values ((ofValues name values shards).watch call s).2 (c.watch call).2 := by
  rw [h.tail] at fits
  obtain ⟨answer, follows⟩ := agrees_perform name shards h call fits
  exact ⟨Prod.ext answer (Prod.ext follows.head follows.tail), follows⟩

theorem Follows.asked (h : Follows values s c) (call : QueueCall ν)
    (fits : call.Fits values s.tail) :
    (ofValues name values shards).asked call s = c.asked call := by
  have refusing : call.refusing.Fits values s.tail := by
    cases call with
    | append item => exact fits
    | removeFirst | removeOffset | batch => exact fun _ h => nomatch h
  rw [Queue.asked, (h.watch name shards refusing).1]
  rfl

/-- Each call of a run fits where it is made. -/
def FitsAlong (q : Queue ν) (values : ValueCodec ν) (calls : List (QueueCall ν))
    (s : Standing Unsteady) : Prop :=
  Along q.watch (fun call s => call.Fits values s.tail) calls s

/-- Runs of queues that follow the same course cannot be told apart. -/
theorem Follows.trace_eq (h : Follows values s c) {calls : List (QueueCall ν)}
    (fits : (ofValues name values shards).FitsAlong values calls s) :
    trace (ofValues name values shards).watch calls s = trace Course.watch calls c ∧
      Follows values (after (ofValues name values shards).watch calls s)
        (after Course.watch calls c) := by
  induction calls generalizing s c with
  | nil => exact ⟨rfl, h⟩
  | cons call calls ih =>
    obtain ⟨first, rest⟩ := fits
    obtain ⟨answer, follows⟩ := h.watch name shards first
    obtain ⟨answers, follows'⟩ := ih follows rest
    exact ⟨List.cons_eq_cons.2 ⟨answer, answers⟩, follows'⟩

theorem Follows.fitsAlong (h : Follows values s c) (h' : Follows values s' c)
    {calls : List (QueueCall ν)} (fits : (ofValues name values shards).FitsAlong values calls s) :
    (ofValues name values shards).FitsAlong values calls s' := by
  induction calls generalizing s s' c with
  | nil => trivial
  | cons call calls ih =>
    obtain ⟨first, rest⟩ := fits
    have first' : call.Fits values s'.tail := by rwa [h'.tail, ← h.tail]
    exact ⟨first', ih (h.watch name shards first).2 (h'.watch name shards first').2 rest⟩

/-- No call of a run finds its condition true of an item. -/
def Spares (q : Queue ν) (entry : Int × ν) (calls : List (QueueCall ν))
    (s : Standing Unsteady) : Prop :=
  Along q.watch (fun call s => ¬(q.asked call s = some entry ∧ call.admits entry = true)) calls s

/-- An item that no condition holds of stays where it is. -/
theorem Follows.keeps (h : Follows values s c) {entry : Int × ν}
    (live : c.live.get? entry.1 = some entry.2) {calls : List (QueueCall ν)}
    (fits : (ofValues name values shards).FitsAlong values calls s)
    (spared : (ofValues name values shards).Spares entry calls s) :
    (after Course.watch calls c).live.get? entry.1 = some entry.2 := by
  induction calls generalizing s c with
  | nil => exact live
  | cons call calls ih =>
    obtain ⟨first, rest⟩ := fits
    obtain ⟨spare, spared⟩ := spared
    rw [h.asked name shards call first] at spare
    have ht := (h.mem_live (OrderedMap.get?_eq_some_iff.1 live)).2
    exact ih (h.watch name shards first).2 (Course.perform_keeps live ht spare) rest spared

theorem Follows.shows (h : Follows values s c) {entry : Int × ν}
    (live : c.live.get? entry.1 = some entry.2) :
    (ofValues name values shards).Shows entry s := by
  intro count h0
  have steady : Follows values { s with base := ⟨s.base.partition, []⟩ } { c with fates := [] } :=
    ⟨h.holds, h.head, h.tail, rfl, h.head_nonneg, h.head_le, h.tail_lt⟩
  obtain ⟨hh, ht⟩ := h.mem_live (OrderedMap.get?_eq_some_iff.1 live)
  have fits : (QueueCall.batch entry.1 count : QueueCall ν).Fits values s.tail :=
    fun _ h => nomatch h
  rw [(steady.watch name shards fits).1]
  exact Course.perform_batch (c := { c with fates := [] }) live hh ht rfl h0

/-- An append that fails leaves the bounds, and all that is seen later, as if only its fate had
passed. -/
def FailsUnseen (q : Queue ν) (item : ν) (rest : List (QueueCall ν)) (s : Standing Unsteady) :
    Prop :=
  ∀ e, (q.watch (.append item) s).1.1 = .error e →
    (q.watch (.append item) s).1.2 = (s.head, s.tail) ∧
      trace q.watch rest (q.watch (.append item) s).2 = trace q.watch rest (passed s)

/-- An item whose append gives an offset shows there as long as no call finds its condition true of
it. -/
def StaysShown (q : Queue ν) (item : ν) (rest : List (QueueCall ν)) (s : Standing Unsteady) :
    Prop :=
  ∀ offset, (q.watch (.append item) s).1.1 = .ok (.offset offset) →
    q.Spares (offset, item) rest (q.watch (.append item) s).2 →
      q.Shows (offset, item) (after q.watch rest (q.watch (.append item) s).2)

theorem Follows.failsUnseen (h : Follows values s c) {item : ν} {rest : List (QueueCall ν)}
    (fits : (ofValues name values shards).FitsAlong values (.append item :: rest) s) :
    (ofValues name values shards).FailsUnseen item rest s := by
  intro e failed
  obtain ⟨first, fitsRest⟩ := fits
  obtain ⟨answer, follows⟩ := h.watch name shards first
  rw [answer] at failed ⊢
  have unmoved : (c.watch (.append item)).2 = c.pass := Course.perform_append_error failed
  rw [unmoved] at follows
  refine ⟨?_, ?_⟩
  · rw [h.head, h.tail]
    show ((c.watch (.append item)).2.head, (c.watch (.append item)).2.tail) = _
    rw [unmoved]
    rfl
  · -- Both states follow the course that an append without effect leaves.
    rw [(follows.trace_eq name shards fitsRest).1,
      (h.passed.trace_eq name shards (follows.fitsAlong name shards h.passed fitsRest)).1]

theorem Follows.staysShown (h : Follows values s c) {item : ν} {rest : List (QueueCall ν)}
    (fits : (ofValues name values shards).FitsAlong values (.append item :: rest) s) :
    (ofValues name values shards).StaysShown item rest s := by
  intro offset given spared
  obtain ⟨first, fitsRest⟩ := fits
  obtain ⟨answer, follows⟩ := h.watch name shards first
  rw [answer] at given
  have live : (c.watch (.append item)).2.live.get? (offset, item).1 = some (offset, item).2 :=
    Course.perform_append_ok given
  exact (follows.trace_eq name shards fitsRest).2.shows name shards
    (follows.keeps name shards live fitsRest spared)

end Runs

end Queue

/-- The offsets that the appends of a run gave. -/
def offsets (seen : List (Except StoreError (QueueAnswer ν) × Int × Int)) : List Int :=
  seen.filterMap fun answer => answer.1.toOption.bind QueueAnswer.offset?

/-- Each offset that an append gives is greater than all before it. -/
theorem Course.sorted_offsets (calls : List (QueueCall ν)) (c : Course ν) :
    (∀ offset ∈ offsets (trace Course.watch calls c), c.tail < offset) ∧
      (offsets (trace Course.watch calls c)).Pairwise (· < ·) := by
  induction calls generalizing c with
  | nil => exact ⟨fun _ h => absurd h List.not_mem_nil, List.Pairwise.nil⟩
  | cons call calls ih =>
    obtain ⟨above, sorted⟩ := ih (c.watch call).2
    rw [trace_cons, offsets, List.filterMap_cons]
    rcases c.tail_perform call with ⟨offset, answer, next, tail⟩ | ⟨answer, tail⟩
    · rw [show (c.watch call).1.1.toOption.bind QueueAnswer.offset? = some offset from answer]
      have below : ∀ o ∈ offsets (trace Course.watch calls (c.watch call).2), offset < o :=
        fun o ho => tail ▸ above o ho
      refine ⟨fun o ho => ?_, List.pairwise_cons.2 ⟨below, sorted⟩⟩
      rcases List.mem_cons.1 ho with rfl | ho
      · omega
      · have := below o ho
        omega
    · rw [show (c.watch call).1.1.toOption.bind QueueAnswer.offset? = none from answer]
      exact ⟨fun o ho => tail ▸ above o ho, sorted⟩

namespace Queue

variable {values : ValueCodec ν}

/-- The state of a queue that was created over a partition without entries, before the calls with the
given fates. -/
def begun (p : Partition) (start : Int) (fates : List Fate) : Standing Unsteady :=
  ⟨⟨p, fates⟩, start, start - 1⟩

/-- A queue that is created over a partition without entries begins where it is told to. Whatever
becomes of its further calls on the partition, no append that fails is seen, each item whose append
gave an offset stays there until a condition holds of it, and the offsets that appends give grow. -/
theorem run_under_faults (name : String) (shards : Shards Int64) {p : Partition}
    (empty : p.entries = .empty) {start : Int} (h0 : 0 ≤ start) (h1 : start < offsetLimit)
    (head tail : Int) :
    ((ofValues name values shards).recover start).runAlone Partition.serve ⟨p, head, tail⟩ =
        (.ok (), ⟨p, start, start - 1⟩) ∧
      ∀ fates calls, (ofValues name values shards).FitsAlong values calls (begun p start fates) →
        (∀ before item rest, calls = before ++ .append item :: rest →
          (ofValues name values shards).FailsUnseen item rest
              (after (ofValues name values shards).watch before (begun p start fates)) ∧
            (ofValues name values shards).StaysShown item rest
              (after (ofValues name values shards).watch before (begun p start fates))) ∧
        (offsets (trace (ofValues name values shards).watch calls
          (begun p start fates))).Pairwise (· < ·) := by
  have holds : Holds values p (.empty : OrderedMap Int ν) := holds_empty empty
  refine ⟨runAlone_recover name shards holds h0 head tail, fun fates calls fits => ?_⟩
  have opened : Follows values (begun p start fates)
      (Course.opened start (.empty : OrderedMap Int ν) fates) :=
    follows_opened holds h0 (show start - 1 < offsetLimit by omega) fates
  refine ⟨?_, ?_⟩
  · rintro before item rest rfl
    obtain ⟨fitsBefore, fitsRest⟩ := (along_append _).1 fits
    have follows := (opened.trace_eq name shards fitsBefore).2
    exact ⟨follows.failsUnseen name shards fitsRest, follows.staysShown name shards fitsRest⟩
  · rw [(opened.trace_eq name shards fits).1]
    exact (Course.sorted_offsets calls _).2

/-- The answer to the first append is lost: the second one gets its offset, and its item stays when
the queue is asked to remove only another. -/
theorem run_under_faults_lost :
    let q := ofValues "q" ValueCodec.raw ⟨1, by decide, fun _ => 0⟩
    let s := begun (Partition.empty "q") 5 [.lost .closed, .done, .done, .done, .refused .closed]
    let calls : List (QueueCall Bytes) := [.append [1], .append [2],
      .removeFirst fun _ item => item = [1], .batch 0 1]
    q.FitsAlong ValueCodec.raw calls s ∧
      (q.watch (.append [1]) s).1 = (.error (.storage .closed), 5, 4) ∧
      trace q.watch calls.tail (q.watch (.append [1]) s).2 = trace q.watch calls.tail (passed s) ∧
      q.Spares (5, [2]) (calls.drop 2) (after q.watch (calls.take 2) s) ∧
      q.Shows (5, [2]) (after q.watch calls s) ∧
      offsets (trace q.watch calls s) = [5] ∧ (offsets (trace q.watch calls s)).Pairwise (· < ·) := by
  intro q s calls
  have fits : q.FitsAlong ValueCodec.raw calls s := by
    refine ⟨?_, ?_, ?_, ?_, trivial⟩
    · exact fun _ _ => ⟨by decide +kernel, rfl⟩
    · exact fun _ _ => ⟨by decide +kernel, rfl⟩
    · exact fun _ h => nomatch h
    · exact fun _ h => nomatch h
  have spared : q.Spares (5, [2]) (calls.drop 2) (after q.watch (calls.take 2) s) := by
    refine ⟨?_, ?_, trivial⟩
    · decide +kernel
    · decide +kernel
  have failed : (q.watch (.append [1]) s).1 = (.error (.storage .closed), 5, 4) := rfl
  have given : (q.watch (.append [2]) (q.watch (.append [1]) s).2).1.1 = .ok (.offset 5) := rfl
  obtain ⟨-, run⟩ := @run_under_faults Bytes ValueCodec.raw "q" ⟨1, by decide, fun _ => 0⟩
    (Partition.empty "q") rfl 5 (by decide) (by decide) 0 0
  obtain ⟨appends, sorted⟩ := run _ calls fits
  obtain ⟨unseen, -⟩ := appends [] [1] calls.tail rfl
  obtain ⟨-, stays⟩ := appends [.append [1]] [2] (calls.drop 2) rfl
  have shown : q.Shows (5, [2]) (after q.watch calls s) :=
    stays 5 given spared
  have all : offsets (trace q.watch calls s) = [5] := by decide +kernel
  exact ⟨fits, failed, (unseen _ (congrArg Prod.fst failed)).2, spared, shown, all, sorted⟩

end Queue

end SnapshotStore
