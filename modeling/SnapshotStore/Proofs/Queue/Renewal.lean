import SnapshotStore.Proofs.Queue.Undisturbed

/-!
Queues that are opened anew over the partition of an old one. The bounds of the old queue may point
into gaps or at a last item that is gone, those of the new one are taken from the items, and what
both show is the same. Main statement: whatever nothing has disturbed answers alike when it is opened
anew, until something is appended, and goes on right behind its last item (`reopened_alike`).
-/

namespace SnapshotStore

variable {ν : Type}

theorem QueueCall.appends_eq_zero {calls : List (QueueCall ν)}
    (takes : ∀ item, append item ∉ calls) : appends calls = 0 := by
  induction calls with
  | nil => rfl
  | cons call calls ih =>
    have rest := ih fun item mem => takes item (List.mem_cons_of_mem _ mem)
    cases call with
    | append item => exact absurd List.mem_cons_self (takes item)
    | removeFirst _ | removeOffset _ _ | batch _ _ => exact rest

namespace Line

variable {l l' : Line ν}

theorem ask_congr (same : l.live = l'.live) (entry : Int × ν) (condition : Int → ν → Bool) :
    (l.ask entry condition).1 = (l'.ask entry condition).1 ∧
      (l.ask entry condition).2.live = (l'.ask entry condition).2.live := by
  rw [ask, ask]
  by_cases hc : condition entry.1 entry.2
  · rw [if_pos hc, if_pos hc]
    exact ⟨rfl, congrArg (·.erase entry.1) same⟩
  · rw [if_neg hc, if_neg hc]
    exact ⟨rfl, same⟩

/-- What a line answers to anything but an append depends on its items alone. -/
theorem perform_congr (same : l.live = l'.live) {call : QueueCall ν}
    (other : ∀ item, call ≠ .append item) :
    (l.perform call).1 = (l'.perform call).1 ∧
      (l.perform call).2.live = (l'.perform call).2.live := by
  cases call with
  | append item => exact absurd rfl (other item)
  | removeFirst condition =>
    rw [perform, perform, same]
    cases l'.live.first? with
    | none => exact ⟨rfl, same⟩
    | some entry => exact ask_congr same entry condition
  | removeOffset offset condition =>
    rw [perform, perform, same]
    cases l'.live.get? offset with
    | none => exact ⟨rfl, same⟩
    | some item => exact ask_congr same (offset, item) condition
  | batch start count =>
    rw [perform, perform, same]
    by_cases empty : count = 0
    · rw [if_pos empty, if_pos empty]
      exact ⟨rfl, same⟩
    · rw [if_neg empty, if_neg empty]
      exact ⟨rfl, same⟩

/-- Two lines of the same items answer alike until something is appended. -/
theorem trace_congr (same : l.live = l'.live) {calls : List (QueueCall ν)}
    (takes : ∀ item, .append item ∉ calls) :
    trace (fun call l => l.perform call) calls l = trace (fun call l => l.perform call) calls l' :=
  trace_eq_of_related (R := fun l l' : Line ν => l.live = l'.live) same
    fun _ member _ _ same => perform_congr same fun item eq => takes item (eq ▸ member)

end Line

namespace Queue

variable {values : ValueCodec ν} (name : String) (shards : Shards Int64)

theorem Undisturbed.standsAs {s : Standing Partition} {c : Course ν} (h : Undisturbed values s c) :
    StandsAs values s c.line :=
  ⟨c, h.quiet, rfl, h.follows⟩

theorem alone_append (q : Queue ν) (item : ν) (s : Standing Partition) :
    (q.alone (.append item) s).1 = .ok (.offset (s.tail + 1)) := by
  rw [alone, perform, Operation.runAlone_bind, q.runAlone_append]
  rfl

/-- Two queues that nothing has disturbed answer alike until something is appended if they have the
same items, wherever their bounds are. -/
theorem Undisturbed.trace_eq {s s' : Standing Partition} {c c' : Course ν}
    (h : Undisturbed values s c) (h' : Undisturbed values s' c') (same : c.live = c'.live)
    {calls : List (QueueCall ν)} (takes : ∀ item, .append item ∉ calls) :
    trace (ofValues name values shards).alone calls s =
      trace (ofValues name values shards).alone calls s' := by
  have back : QueueCall.ReadBack values calls := fun item member => absurd member (takes item)
  have room : ∀ {s : Standing Partition} {c : Course ν}, Undisturbed values s c →
      c.line.next + QueueCall.appends calls ≤ offsetLimit := by
    intro s c h
    have := h.follows.tail_lt
    rw [QueueCall.appends_eq_zero takes]
    show c.tail + 1 + 0 ≤ offsetLimit
    omega
  rw [h.standsAs.trace_eq name shards back (room h), h'.standsAs.trace_eq name shards back (room h')]
  exact Line.trace_congr same takes

/-- Opening a queue anew preserves what it shows. After any calls that nothing disturbs, the
partition holds items; who opens it again gets the bounds from the first and the last of these items,
or from the offset `start'` if there is none, appends right behind this end, and answers all
batches and removals as the old queue does. -/
theorem reopened_alike {p : Partition} {items : OrderedMap Int ν} (holds : Holds values p items)
    {start start' : Int} (h0 : 0 ≤ start) (h0' : 0 ≤ start') (h1 : start' < offsetLimit)
    {calls : List (QueueCall ν)} (back : QueueCall.ReadBack values calls)
    (room : (Line.opened start items).next + QueueCall.appends calls < offsetLimit)
    (head tail : Int) :
    let q := ofValues name values shards
    ∃ opened, (q.recover start).runAlone Partition.serve ⟨p, head, tail⟩ = (.ok (), opened) ∧
      let old := after q.alone calls opened
      ∃ live, Holds values old.base live ∧
        let anew : Standing Partition :=
          ⟨old.base, live.first?.elim start' (·.1), live.last?.elim (start' - 1) (·.1)⟩
        (∀ head tail, (q.recover start').runAlone Partition.serve ⟨old.base, head, tail⟩ =
            (.ok (), anew)) ∧
          (∀ item, anew.tail + 1 < offsetLimit →
            (q.alone (.append item) anew).1 = .ok (.offset (anew.tail + 1))) ∧
          ∀ more : List (QueueCall ν), (∀ item, .append item ∉ more) →
            trace q.alone more anew = trace q.alone more old := by
  intro q
  have fits : (Course.opened start items []).tail + 1 + QueueCall.appends calls < offsetLimit := by
    rwa [← Course.line_opened start items []] at room
  have undisturbed := (undisturbed_opened holds h0 (by omega)).run name shards back fits.le
  have anew := undisturbed_opened undisturbed.holds h0' (opened_tail_lt undisturbed.holds h1 [])
  exact ⟨_, runAlone_recover name shards holds h0 head tail, _, undisturbed.holds,
    runAlone_recover name shards undisturbed.holds h0', fun item _ => q.alone_append item _,
    fun more takes => anew.trace_eq name shards undisturbed rfl takes⟩

/-- Four items are appended behind one at 3. The front comes to point at the gap that 5 has left and
the back at 7, which is gone. The queue that is opened anew has only the item at 6 between its bounds,
shows what the old one does, and goes on at 7. -/
theorem reopened_alike_gap :
    let items : OrderedMap Int Bytes := OrderedMap.empty.insert 3 [1]
    let p := (Partition.empty "q").put (KeyKind.signedCodec.encode (key 3)) [1]
    let calls : List (QueueCall Bytes) :=
      [.append [2], .append [3], .append [4], .append [5], .removeOffset 5 fun _ _ => true,
        .removeFirst fun _ _ => true, .removeFirst fun _ _ => true, .removeOffset 7 fun _ _ => true]
    let more : List (QueueCall Bytes) := [.batch 0 9, .removeFirst fun _ _ => true, .batch 6 1]
    let q := ofValues "q" ValueCodec.raw ⟨1, by decide, fun _ => 0⟩
    let old := after q.alone calls ⟨p, 3, 3⟩
    Holds ValueCodec.raw p items ∧ (0 : Int) ≤ 2 ∧ (0 : Int) ≤ 9 ∧ 9 < offsetLimit ∧
      QueueCall.ReadBack ValueCodec.raw calls ∧
      (Line.opened 2 items).next + QueueCall.appends calls < offsetLimit ∧
      (q.recover 2).runAlone Partition.serve ⟨p, 0, 0⟩ = (.ok (), ⟨p, 3, 3⟩) ∧
      old.head = 5 ∧ old.tail = 7 ∧
      ∃ anew, (q.recover 9).runAlone Partition.serve ⟨old.base, 0, 0⟩ = (.ok (), anew) ∧
        anew.head = 6 ∧ anew.tail = 6 ∧ (q.alone (.append [6]) anew).1 = .ok (.offset 7) ∧
        (∀ item, .append item ∉ more) ∧ trace q.alone more anew = trace q.alone more old ∧
        trace q.alone more old =
          [.ok (.items [(6, [4])]), .ok (.removal ⟨some (6, [4]), true⟩), .ok (.items [])] := by
  intro items p calls more q old
  have holds : Holds ValueCodec.raw p items := (holds_empty rfl).put (by decide) (by decide) rfl
  have back : QueueCall.ReadBack ValueCodec.raw calls := fun _ _ => rfl
  have room : (Line.opened 2 items).next + QueueCall.appends calls < offsetLimit := by decide
  have takes : ∀ item, .append item ∉ more := fun item member => by
    simp only [more, List.mem_cons, reduceCtorEq, List.not_mem_nil, or_self] at member
  obtain ⟨opened, ran, live, -, recovers, appends, alike⟩ :=
    reopened_alike "q" ⟨1, by decide, fun _ => 0⟩ holds (show (0 : Int) ≤ 2 by decide)
      (show (0 : Int) ≤ 9 by decide) (by decide) back room 0 0
  obtain rfl : ⟨p, 3, 3⟩ = opened := congrArg Prod.snd ran
  have head : live.first?.elim 9 (·.1) = 6 :=
    (congrArg (·.2.head) (recovers 0 0)).symm.trans (by decide +kernel)
  have tail : live.last?.elim (9 - 1) (·.1) = 6 :=
    (congrArg (·.2.tail) (recovers 0 0)).symm.trans (by decide +kernel)
  refine ⟨holds, by decide, by decide, by decide, back, room, ran, by decide +kernel,
    by decide +kernel, _, recovers 0 0, head, tail, ?_, takes, alike more takes, by decide +kernel⟩
  have offset := appends [6]
  simp only [tail] at offset ⊢
  exact offset (by decide)

end Queue

end SnapshotStore
