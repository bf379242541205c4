import SnapshotStore.Proofs.Queue.Opening

/-!
Lines: what a queue is to those who use it while nothing fails, a finite map of items and the offset
that the next item gets. No bound of the queue shows in it. Main statement: a queue that is opened
over any items answers every list of calls as the line of these items (`answers_as_line`).
-/

namespace SnapshotStore

variable {ν : Type}

/-- Items at their offsets, and the offset of the next item. -/
structure Line (ν : Type) where
  next : Int
  live : OrderedMap Int ν

namespace Line

/-- A line with the given items; without any it begins at a given offset. -/
def opened (start : Int) (items : OrderedMap Int ν) : Line ν :=
  ⟨items.last?.elim start (·.1 + 1), items⟩

/-- Asks a condition about an item and removes it if the condition holds. -/
def ask (l : Line ν) (entry : Int × ν) (condition : Int → ν → Bool) :
    Except StoreError (QueueAnswer ν) × Line ν :=
  if condition entry.1 entry.2 then
    (.ok (.removal ⟨some entry, true⟩), { l with live := l.live.erase entry.1 })
  else (.ok (.removal ⟨some entry, false⟩), l)

/-- The answer to a call, and the line after it. -/
def perform (l : Line ν) : QueueCall ν → Except StoreError (QueueAnswer ν) × Line ν
  | .append item => (.ok (.offset l.next), ⟨l.next + 1, l.live.insert l.next item⟩)
  | .removeFirst condition =>
    match l.live.first? with
    | none => (.ok (.removal Queue.nothing), l)
    | some entry => l.ask entry condition
  | .removeOffset offset condition =>
    match l.live.get? offset with
    | none => (.ok (.removal Queue.nothing), l)
    | some item => l.ask (offset, item) condition
  | .batch start count =>
    if count = 0 then (.error (.invalidOperation .emptyBatch), l)
    else
      (.ok (.items ((l.live.toList.filter fun entry => decide (start ≤ entry.1)).take count)), l)

end Line

/-! ## Courses without disturbance -/

namespace Course

/-- The line that a course keeps. -/
def line (c : Course ν) : Line ν := ⟨c.tail + 1, c.live⟩

/-- All items lie between the bounds. -/
def Bounded (c : Course ν) : Prop := ∀ entry ∈ c.live.toList, c.head ≤ entry.1 ∧ entry.1 ≤ c.tail

variable {c : Course ν}

theorem line_opened (start : Int) (items : OrderedMap Int ν) (fates : List Fate) :
    (opened start items fates).line = Line.opened start items := by
  unfold opened line Line.opened
  cases items.last? with
  | none => simp
  | some entry => rfl

theorem once_of_calm {α : Type} (calm : c.fates = [])
    (f : Course ν → Except StoreError α × Course ν) : c.once f = f c := by
  obtain ⟨live, head, tail, fates⟩ := c
  subst calm
  rfl

theorem takeOut_of_calm {α : Type} (calm : c.fates = []) (offset : Int)
    (f : Course ν → Except StoreError α × Course ν) :
    c.takeOut offset f = f { c with live := c.live.erase offset } := by
  obtain ⟨live, head, tail, fates⟩ := c
  subst calm
  rfl

/-- Outside the bounds there is nothing. -/
theorem Bounded.get?_eq_none (h : c.Bounded) {offset : Int}
    (ho : offset < c.head ∨ c.tail < offset) : c.live.get? offset = none := by
  rw [OrderedMap.get?_eq_none_iff]
  intro item he
  have := h _ he
  dsimp only at this
  omega

theorem Bounded.first?_eq_none (h : c.Bounded) (empty : c.tail < c.head) :
    c.live.first? = none := by
  rw [Option.eq_none_iff_forall_ne_some]
  intro entry hf
  have := h entry (OrderedMap.mem_of_first? hf)
  omega

/-- A page that begins before the front begins at the front. -/
theorem Bounded.page_max (h : c.Bounded) (start : Int) (count : Nat) :
    c.live.page (some (max start c.head)) count =
      (c.live.toList.filter fun entry => decide (start ≤ entry.1)).take count := by
  rw [OrderedMap.page, OrderedMap.dropBelow_some]
  congr 1
  refine List.filter_congr fun entry he => decide_eq_decide.2 ?_
  rw [max_le_iff, and_iff_left (h entry he).1]

/-- A page that begins behind the last item is empty. -/
theorem Bounded.page_eq_nil (h : c.Bounded) {start : Int} (hs : c.tail < start) (count : Nat) :
    c.live.page (some start) count = [] := by
  have below : (c.live.toList.filter fun entry => decide (start ≤ entry.1)) = [] := by
    refine List.filter_eq_nil_iff.2 fun entry he => ?_
    have := (h entry he).2
    simp only [decide_eq_true_eq]
    omega
  rw [OrderedMap.page, OrderedMap.dropBelow_some, below, List.take_nil]

/-- An item is removed as from the line, whatever becomes of the front. -/
theorem line_remove (calm : c.fates = []) (offset : Int) (condition : Int → ν → Bool)
    {f : Course ν → Course ν} (hf : ∀ c, (f c).line = c.line) :
    Prod.map id line (c.remove offset condition f) =
      c.line.perform (.removeOffset offset condition) := by
  rw [remove, once_of_calm calm, Line.perform, line]
  cases c.live.get? offset with
  | none => rfl
  | some item =>
    by_cases hc : condition offset item
    · simp only [if_pos hc, takeOut_of_calm calm, Line.ask, Prod.map, hf]
      rfl
    · simp only [if_neg hc, Line.ask]
      rfl

/-- While no fate awaits, a course answers as its line. -/
theorem line_perform (calm : c.fates = []) (bounded : c.Bounded) (call : QueueCall ν) :
    Prod.map id line (c.perform call) = c.line.perform call := by
  cases call with
  | append item =>
    rw [perform, once_of_calm calm]
    rfl
  | removeFirst condition =>
    rw [perform]
    by_cases empty : c.tail < c.head
    · have first := bounded.first?_eq_none empty
      simp only [if_pos empty, Line.perform, line, first]
      rfl
    · rw [if_neg empty, once_of_calm calm]
      cases hf : c.live.first? with
      | none =>
        simp only [Line.perform, line, hf]
        rfl
      | some entry =>
        have item : c.live.get? entry.1 = some entry.2 :=
          OrderedMap.get?_eq_some_iff.2 (OrderedMap.mem_of_first? hf)
        refine (line_remove calm entry.1 condition (f := fun c => { c with head := entry.1 + 1 })
          fun _ => rfl).trans ?_
        simp only [Line.perform, line, hf, item]
  | removeOffset offset condition =>
    rw [perform]
    by_cases outside : c.tail < c.head ∨ offset < c.head ∨ c.tail < offset
    · have none := bounded.get?_eq_none (by omega : offset < c.head ∨ c.tail < offset)
      simp only [if_pos outside, Line.perform, line, none]
      rfl
    · rw [if_neg outside]
      refine line_remove calm offset condition fun c => ?_
      by_cases front : offset = c.head
      · rw [if_pos front]
        rfl
      · rw [if_neg front]
  | batch start count =>
    rw [perform, Line.perform]
    by_cases empty : count = 0
    · rw [if_pos empty, if_pos empty]
      rfl
    rw [if_neg empty, if_neg empty, line, ← bounded.page_max start count]
    by_cases behind : c.tail < max start c.head
    · rw [if_pos behind, bounded.page_eq_nil behind]
      rfl
    · rw [if_neg behind, once_of_calm calm]
      rfl

/-- No fate awaits after a call if none did before. -/
theorem calm_perform (calm : c.fates = []) (call : QueueCall ν) :
    (c.perform call).2.fates = [] := by
  rcases perform_cases (c := c) call with ⟨item, rfl, eq⟩ | moves
  · rw [eq, calm]
    rfl
  · generalize c.perform call = ended at moves ⊢
    cases moves with
    | still _ later | taken _ later =>
      rw [calm] at later
      exact List.suffix_nil.1 later

end Course

/-! ## Queues without disturbance -/

namespace Queue

variable {values : ValueCodec ν}

/-- The state of a queue as one in which no fate awaits. -/
def calm (s : Standing Partition) : Standing Unsteady := ⟨⟨s.base, []⟩, s.head, s.tail⟩

theorem runAlone_calm {α : Type} (op : Operation α) (s : Standing Partition) :
    op.runAlone Unsteady.call (calm s) = Prod.map id calm (op.runAlone Partition.serve s) := by
  obtain ⟨u, p, head, tail, result, hu, hp, rfl⟩ :=
    Operation.runAlone_congr Unsteady.call Partition.serve
      (R := fun u p => u = ⟨p, []⟩) (fun c u p h => by rw [h]; exact ⟨rfl, rfl⟩) op
      (a := ⟨s.base, []⟩) rfl s.head s.tail
  rw [calm, hu, hp]
  rfl

/-- The answer to a call that is made alone, and what there is after it. -/
def alone (q : Queue ν) (call : QueueCall ν) (s : Standing Partition) :
    Except StoreError (QueueAnswer ν) × Standing Partition :=
  (q.perform call).runAlone Partition.serve s

/-- A queue that nothing disturbs answers a call as its course does, and goes on following it. -/
theorem Follows.alone (name : String) (shards : Shards Int64) {s : Standing Partition}
    {c : Course ν} (h : Follows values (calm s) c) (call : QueueCall ν)
    (fits : call.Fits values c.tail) :
    ((ofValues name values shards).alone call s).1 = (c.perform call).1 ∧
      Follows values (calm ((ofValues name values shards).alone call s).2) (c.perform call).2 := by
  obtain ⟨answer, follows⟩ := agrees_perform name shards h call fits
  rw [runAlone_calm] at answer follows
  exact ⟨answer, follows⟩

/-- A queue stands as a line if it follows a course that keeps this line, and no fate awaits. -/
def StandsAs (values : ValueCodec ν) (s : Standing Partition) (l : Line ν) : Prop :=
  ∃ c : Course ν, c.fates = [] ∧ c.line = l ∧ Follows values (calm s) c

theorem standsAs_opened {p : Partition} {items : OrderedMap Int ν} (holds : Holds values p items)
    {start : Int} (h0 : 0 ≤ start) (fits : (Line.opened start items).next ≤ offsetLimit) :
    StandsAs values ⟨p, (Course.opened start items []).head, (Course.opened start items []).tail⟩
      (Line.opened start items) := by
  refine ⟨_, rfl, Course.line_opened start items [], follows_opened holds h0 ?_ []⟩
  rw [← Course.line_opened start items []] at fits
  exact Int.add_one_le_iff.1 fits

/-- One call is answered as by the line, and the queue stands as the line again. -/
theorem StandsAs.perform (name : String) (shards : Shards Int64) {s : Standing Partition}
    {l : Line ν} (h : StandsAs values s l) (call : QueueCall ν)
    (fits : call.Fits values (l.next - 1)) :
    ((ofValues name values shards).alone call s).1 = (l.perform call).1 ∧
      StandsAs values ((ofValues name values shards).alone call s).2 (l.perform call).2 := by
  obtain ⟨c, calm, rfl, follows⟩ := h
  obtain ⟨answer, follows'⟩ := follows.alone name shards call (by
    rwa [Course.line, Int.add_sub_cancel] at fits)
  have line := Course.line_perform calm (fun _ he => follows.mem_live he) call
  exact ⟨answer.trans (congrArg Prod.fst line), _, Course.calm_perform calm call,
    congrArg Prod.snd line, follows'⟩

end Queue

namespace Line

theorem next_ask (l : Line ν) (entry : Int × ν) (condition : Int → ν → Bool) :
    (l.ask entry condition).2.next = l.next := by
  rw [ask]
  by_cases hc : condition entry.1 entry.2
  · rw [if_pos hc]
  · rw [if_neg hc]

/-- Each append takes one offset, and no other call takes any. -/
theorem next_perform (l : Line ν) (call : QueueCall ν) (calls : List (QueueCall ν)) :
    (l.perform call).2.next + QueueCall.appends calls =
      l.next + QueueCall.appends (call :: calls) := by
  cases call with
  | append item =>
    show l.next + 1 + (QueueCall.appends calls : Int) = l.next + (QueueCall.appends calls + 1 : Nat)
    omega
  | removeFirst condition =>
    rw [perform]
    cases l.live.first? with
    | none => rfl
    | some entry => exact congrArg (· + _) (l.next_ask entry condition)
  | removeOffset offset condition =>
    rw [perform]
    cases l.live.get? offset with
    | none => rfl
    | some item => exact congrArg (· + _) (l.next_ask (offset, item) condition)
  | batch start count =>
    rw [perform]
    by_cases empty : count = 0
    · rw [if_pos empty]
      rfl
    · rw [if_neg empty]
      rfl

end Line

namespace Queue

variable {values : ValueCodec ν}

/-- Calls one after another are answered as by the line. -/
theorem StandsAs.trace_eq (name : String) (shards : Shards Int64) {s : Standing Partition}
    {l : Line ν} (h : StandsAs values s l) {calls : List (QueueCall ν)}
    (back : QueueCall.ReadBack values calls)
    (room : l.next + QueueCall.appends calls ≤ offsetLimit) :
    trace (ofValues name values shards).alone calls s =
      trace (fun call l => l.perform call) calls l := by
  induction calls generalizing s l with
  | nil => rfl
  | cons call calls ih =>
    have next := l.next_perform call calls
    obtain ⟨answer, stands⟩ := h.perform name shards call (by
      rintro item rfl
      refine ⟨?_, back item List.mem_cons_self⟩
      rw [QueueCall.appends] at room
      omega)
    rw [trace_cons, trace_cons, answer, ih stands back.tail (by omega)]

/-- A queue that nothing disturbs is a line: opened over a partition that holds any items, it
answers every list of calls as the line of these items does, as long as there are offsets left for the
items and for the front behind them. -/
theorem answers_as_line (name : String) (shards : Shards Int64) {p : Partition}
    {items : OrderedMap Int ν} (holds : Holds values p items) {start : Int} (h0 : 0 ≤ start)
    {calls : List (QueueCall ν)} (back : QueueCall.ReadBack values calls)
    (room : (Line.opened start items).next + QueueCall.appends calls < offsetLimit)
    (head tail : Int) :
    ∃ s, ((ofValues name values shards).recover start).runAlone Partition.serve ⟨p, head, tail⟩ =
        (.ok (), s) ∧
      trace (fun call s => ((ofValues name values shards).perform call).runAlone Partition.serve s)
          calls s =
        trace (fun call l => l.perform call) calls (Line.opened start items) :=
  ⟨_, runAlone_recover name shards holds h0 head tail,
    (standsAs_opened holds h0 (by omega)).trace_eq name shards back room.le⟩

/-- Over items at 3 and 7, the item at the back is removed, one is appended behind its place, one at
the front is kept, and a batch skips what is between. -/
theorem answers_as_line_gap :
    let items : OrderedMap Int Bytes := (OrderedMap.empty.insert 3 [1]).insert 7 [2]
    let p := ((Partition.empty "q").put (KeyKind.signedCodec.encode (key 3)) [1]).put
      (KeyKind.signedCodec.encode (key 7)) [2]
    let calls : List (QueueCall Bytes) :=
      [.removeOffset 7 fun _ _ => true, .append [5], .removeFirst fun _ item => item = [2],
        .batch (-4) 9]
    Holds ValueCodec.raw p items ∧ (0 : Int) ≤ 2 ∧ QueueCall.ReadBack ValueCodec.raw calls ∧
      (Line.opened 2 items).next + QueueCall.appends calls < offsetLimit ∧
      ∃ s, ((ofValues "q" ValueCodec.raw ⟨1, by decide, fun _ => 0⟩).recover 2).runAlone
          Partition.serve ⟨p, 0, 0⟩ = (.ok (), s) ∧
        trace (fun call s => ((ofValues "q" ValueCodec.raw ⟨1, by decide, fun _ => 0⟩).perform
            call).runAlone Partition.serve s) calls s =
          [.ok (.removal ⟨some (7, [2]), true⟩), .ok (.offset 8),
            .ok (.removal ⟨some (3, [1]), false⟩), .ok (.items [(3, [1]), (8, [5])])] := by
  intro items p calls
  have holds : Holds ValueCodec.raw p items :=
    ((holds_empty rfl).put (by decide) (by decide) rfl).put (by decide) (by decide) rfl
  have back : QueueCall.ReadBack ValueCodec.raw calls := fun _ _ => rfl
  have room : (Line.opened 2 items).next + QueueCall.appends calls < offsetLimit := by decide
  refine ⟨holds, by decide, back, room, ?_⟩
  exact answers_as_line "q" _ holds (by decide) back room 0 0

end Queue

end SnapshotStore
