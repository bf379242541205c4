import SnapshotStore.Proofs.Queue.Faults

/-!
Queues that are opened again over their partition, which is all that is left of them then. The bounds
are taken from the items that are still there, so an offset may be given again whose item is gone.
Main statement: offsets grow between two openings, and over all openings as long as each one finds
what it needs to go on behind the offsets given before (`offsets_grow_over_openings`).
-/

namespace SnapshotStore

variable {ν : Type}

/-- What may be done with a queue. -/
inductive QueueDeed (ν : Type) where
  | call (call : QueueCall ν)
  /-- The queue is opened over its partition. -/
  | reopen

namespace Queue

/-- The answer to a deed, and what is left after it. Opening answers nothing; if it fails, the bounds
stay as they are. -/
def act (q : Queue ν) (start : Int) :
    QueueDeed ν → Standing Unsteady → Except StoreError (Option (QueueAnswer ν)) × Standing Unsteady
  | .call call, s =>
    let (answer, s') := (q.perform call).runAlone Unsteady.call s
    (some <$> answer, s')
  | .reopen, s =>
    let (answer, s') := (q.recover start).runAlone Unsteady.call s
    ((fun _ => none) <$> answer, s')

/-- The offset that an append gave. -/
def given? (answer : Except StoreError (Option (QueueAnswer ν))) : Option Int :=
  answer.toOption.join.bind QueueAnswer.offset?

/-- The offsets that the appends among deeds give. -/
def given (q : Queue ν) (start : Int) (deeds : List (QueueDeed ν)) (s : Standing Unsteady) :
    List Int :=
  (trace (q.act start) deeds s).filterMap given?

/-- Whether each call among deeds fits where it is made. -/
def Allows (q : Queue ν) (start : Int) (values : ValueCodec ν) (deeds : List (QueueDeed ν))
    (s : Standing Unsteady) : Prop :=
  Along (q.act start) (fun deed s => ∀ call, deed = .call call → call.Fits values s.tail) deeds s

/-- Whether a queue that is opened now goes on behind an offset: there is an item at this offset or
behind it, or none at all and the queue begins behind it. -/
def GoesOnBehind (start offset : Int) (p : Partition) : Prop :=
  (∃ later, offset ≤ later ∧ later < offsetLimit ∧
      p.entries.contains (KeyKind.signedCodec.encode (key later)) = true) ∨
    p.entries.isEmpty = true ∧ offset < start

/-- Whether each opening goes on behind all offsets given before it, with those given already. -/
def GoesOn (q : Queue ν) (start : Int) :
    List (QueueDeed ν) → List Int → Standing Unsteady → Prop
  | [], _, _ => True
  | deed :: deeds, earlier, s =>
    (deed = .reopen → ∀ offset ∈ earlier, GoesOnBehind start offset s.base.partition) ∧
      q.GoesOn start deeds (earlier ++ (given? (q.act start deed s).1).toList)
        (q.act start deed s).2

variable {values : ValueCodec ν} {s : Standing Unsteady} {c : Course ν} {p : Partition}
  {items : OrderedMap Int ν} {start : Int}

/-! ## Opening while calls may fail -/

section Opening

variable (name : String) (shards : Shards Int64)

/-- An entry that is read is an item, unless the call fails. -/
theorem runAlone_readEntry {bytes : Option Entry} {entry : Option (Int × ν)}
    (related : Option.Rel (OrderedMap.Related IsKeyOf (IsItemOf values)) bytes entry)
    (call : Operation (Option Entry))
    (answered : call.runAlone Unsteady.call s =
      ((s.base.next.judge bytes).mapError .storage, passed s)) :
    Operation.runAlone Unsteady.call
        (do
          let entry ← call >>= fun entry =>
            Operation.ofExcept (Layout.readEntry? ⟨KeyKind.signedCodec, values⟩ entry)
          pure (entry.map offsetEntry)) s =
      ((s.base.next.judge entry).mapError .storage, passed s) := by
  obtain ⟨read, typed⟩ := readEntry?_of_related related
  rw [Operation.runAlone_bind, Operation.runAlone_bind, answered]
  cases s.base.next with
  | done =>
    simp only [Fate.judge, Except.mapError, Operation.runAlone_ofExcept, read]
    exact congrArg (fun entry => (Except.ok entry, passed s)) typed
  | refused e => rfl
  | lost e => rfl

theorem runAlone_first (holds : Holds values s.base.partition items) :
    (ofValues name values shards).first.runAlone Unsteady.call s =
      ((s.base.next.judge items.first?).mapError .storage, passed s) :=
  runAlone_readEntry holds.first? (Operation.call .first) (by
    rw [Operation.runAlone_call, Unsteady.call]
    cases s.base.next <;> rfl)

theorem runAlone_last (holds : Holds values s.base.partition items) :
    (ofValues name values shards).last.runAlone Unsteady.call s =
      ((s.base.next.judge items.last?).mapError .storage, passed s) :=
  runAlone_readEntry holds.last? (Operation.call .last) (by
    rw [Operation.runAlone_call, Unsteady.call]
    cases s.base.next <;> rfl)

/-- Opening sets the bounds from the items that are there, or fails and leaves them. -/
theorem recover_cases (holds : Holds values s.base.partition items) (h0 : 0 ≤ start) :
    ∃ fates,
      ((ofValues name values shards).recover start).runAlone Unsteady.call s =
          (.ok (), ⟨⟨s.base.partition, fates⟩, (Course.opened start items fates).head,
            (Course.opened start items fates).tail⟩) ∨
        ∃ e, ((ofValues name values shards).recover start).runAlone Unsteady.call s =
          (.error e, ⟨⟨s.base.partition, fates⟩, s.head, s.tail⟩) := by
  rw [recover, if_neg (not_lt.2 h0), Operation.runAlone_bind, runAlone_first name shards holds]
  cases s.base.next with
  | refused e | lost e => exact ⟨_, .inr ⟨_, rfl⟩⟩
  | done =>
    simp only [Fate.judge, Except.mapError]
    rw [Operation.runAlone_bind, runAlone_last name shards (s := passed s) holds]
    cases (passed s).base.next with
    | refused e | lost e => exact ⟨_, .inr ⟨_, rfl⟩⟩
    | done =>
      refine ⟨s.base.fates.tail.tail, .inl ?_⟩
      rw [Course.opened]
      cases hf : items.first? with
      | none =>
        rw [OrderedMap.last?_eq_none_iff.2 hf]
        rfl
      | some front =>
        cases hl : items.last? with
        | none =>
          rw [OrderedMap.last?_eq_none_iff.1 hl] at hf
          cases hf
        | some back => rfl

end Opening

/-! ## Going on -/

/-- A queue that goes on behind an offset does not end before it when it is opened. -/
theorem GoesOnBehind.le_opened_tail {offset : Int} (h : GoesOnBehind start offset p)
    (holds : Holds values p items) (h0 : 0 ≤ offset) (fates : List Fate) :
    offset ≤ (Course.opened start items fates).tail := by
  rcases h with ⟨later, behind, room, there⟩ | ⟨empty, behind⟩
  · have found : items.get? later ≠ none := by
      rw [ne_eq, ← holds.absent_iff (h0.trans behind) room]
      intro absent
      rw [OrderedMap.contains, absent] at there
      cases there
    obtain ⟨item, found⟩ := Option.ne_none_iff_exists'.1 found
    exact behind.trans (Queue.le_opened_tail found fates)
  · have matched := holds.last?
    rw [OrderedMap.last?_eq_none_iff.2 (OrderedMap.first?_eq_none_iff.2
      (List.isEmpty_iff.1 empty))] at matched
    rw [Course.opened]
    generalize items.last? = back at matched ⊢
    cases matched
    show offset ≤ start - 1
    omega

/-! ## Runs -/

variable (name : String) (shards : Shards Int64)

theorem given_cons (q : Queue ν) (deed : QueueDeed ν) (deeds : List (QueueDeed ν))
    (s : Standing Unsteady) :
    q.given start (deed :: deeds) s =
      (given? (q.act start deed s).1).toList ++ q.given start deeds (q.act start deed s).2 := by
  rw [given, trace_cons, List.filterMap_cons]
  cases given? (q.act start deed s).1 <;> rfl

/-- A call gives the offset behind the end and moves the end there, or gives none and leaves it. -/
theorem Follows.act_call (h : Follows values s c) (start : Int) {call : QueueCall ν}
    (fits : call.Fits values s.tail) :
    ∃ c', Follows values ((ofValues name values shards).act start (.call call) s).2 c' ∧
      (given? ((ofValues name values shards).act start (.call call) s).1 = some (c.tail + 1) ∧
          c'.tail = c.tail + 1 ∨
        given? ((ofValues name values shards).act start (.call call) s).1 = none ∧
          c'.tail = c.tail) := by
  rw [h.tail] at fits
  obtain ⟨answer, follows⟩ := agrees_perform name shards h call fits
  refine ⟨_, follows, ?_⟩
  have same : given? ((ofValues name values shards).act start (.call call) s).1 =
      (c.perform call).1.toOption.bind QueueAnswer.offset? := by
    rw [← answer, act]
    generalize ((ofValues name values shards).perform call).runAlone Unsteady.call s = ended
    obtain ⟨_ | _, _⟩ := ended <;> rfl
  rw [same]
  rcases c.tail_perform call with ⟨offset, gives, rfl, tail⟩ | none
  · exact .inl ⟨gives, tail⟩
  · exact .inr none

/-- Opening gives no offset, and the end is not set back behind offsets behind which it goes on. -/
theorem Follows.act_reopen (h : Follows values s c) (h0 : 0 ≤ start) (h1 : start < offsetLimit) :
    given? ((ofValues name values shards).act start .reopen s).1 = none ∧
      ∃ c', Follows values ((ofValues name values shards).act start .reopen s).2 c' ∧
        ∀ offset, 0 ≤ offset → offset ≤ c.tail →
          GoesOnBehind start offset s.base.partition → offset ≤ c'.tail := by
  obtain ⟨items, holds, live, range⟩ := h.holds
  obtain ⟨fates, opened | ⟨e, failed⟩⟩ := recover_cases name shards holds h0
  · rw [act, opened]
    exact ⟨rfl, _, follows_opened holds h0 (opened_tail_lt holds h1 []) fates,
      fun offset h0 _ goes => goes.le_opened_tail holds h0 fates⟩
  · rw [act, failed]
    exact ⟨rfl, { c with fates },
      ⟨⟨items, holds, live, range⟩, h.head, h.tail, rfl, h.head_nonneg, h.head_le, h.tail_lt⟩,
      fun _ _ le _ => le⟩

/-- Offsets that are given are greater than those given before them as long as each opening goes on
behind these. -/
theorem Follows.sorted_given (h : Follows values s c) (h0 : 0 ≤ start) (h1 : start < offsetLimit)
    {deeds : List (QueueDeed ν)} (earlier : List Int)
    (allowed : (ofValues name values shards).Allows start values deeds s)
    (below : ∀ offset ∈ earlier, 0 ≤ offset ∧ offset ≤ c.tail)
    (goes : (ofValues name values shards).GoesOn start deeds earlier s)
    (sorted : earlier.Pairwise (· < ·)) :
    (earlier ++ (ofValues name values shards).given start deeds s).Pairwise (· < ·) := by
  induction deeds generalizing s c earlier with
  | nil =>
    show (earlier ++ []).Pairwise _
    rwa [List.append_nil]
  | cons deed deeds ih =>
    obtain ⟨first, allowed⟩ := allowed
    obtain ⟨behind, goes⟩ := goes
    rw [given_cons, ← List.append_assoc]
    cases deed with
    | call call =>
      obtain ⟨c', follows, ⟨gives, tail⟩ | ⟨gives, tail⟩⟩ :=
        h.act_call name shards start (first call rfl)
      · refine ih follows _ allowed ?_ goes ?_
        · intro offset member
          rw [gives] at member
          rcases List.mem_append.1 member with before | new
          · have := below offset before
            omega
          · obtain rfl := List.mem_singleton.1 new
            have := h.head_nonneg
            have := h.head_le
            omega
        · rw [gives]
          refine List.pairwise_append.2 ⟨sorted, List.pairwise_singleton _ _, ?_⟩
          intro offset member new isNew
          obtain rfl := List.mem_singleton.1 isNew
          have := (below offset member).2
          omega
      · refine ih follows _ allowed ?_ goes ?_
        · rw [gives, tail]
          simpa using below
        · rw [gives]
          simpa using sorted
    | reopen =>
      obtain ⟨gives, c', follows, le⟩ := h.act_reopen name shards h0 h1
      refine ih follows _ allowed ?_ goes ?_
      · intro offset member
        rw [gives, Option.toList_none, List.append_nil] at member
        obtain ⟨nonneg, reached⟩ := below offset member
        exact ⟨nonneg, le offset nonneg reached (behind rfl offset member)⟩
      · rw [gives]
        simpa using sorted

theorem Follows.after_deeds (h : Follows values s c) (h0 : 0 ≤ start) (h1 : start < offsetLimit)
    {deeds : List (QueueDeed ν)}
    (allowed : (ofValues name values shards).Allows start values deeds s) :
    ∃ c', Follows values (after ((ofValues name values shards).act start) deeds s) c' := by
  induction deeds generalizing s c with
  | nil => exact ⟨c, h⟩
  | cons deed deeds ih =>
    obtain ⟨first, allowed⟩ := allowed
    cases deed with
    | call call =>
      obtain ⟨c', follows, -⟩ := h.act_call name shards start (first call rfl)
      exact ih follows allowed
    | reopen =>
      obtain ⟨-, c', follows, -⟩ := h.act_reopen name shards h0 h1
      exact ih follows allowed

/-- Where nothing is opened again there is nothing to go on behind. -/
theorem goesOn_calls (q : Queue ν) (start : Int) (calls : List (QueueCall ν)) (earlier : List Int)
    (s : Standing Unsteady) : q.GoesOn start (calls.map .call) earlier s := by
  induction calls generalizing earlier s with
  | nil => trivial
  | cons call calls ih => exact ⟨nofun, ih _ _⟩

/-- The offsets that a queue gives grow between two openings, whatever is done with it and whatever
becomes of its calls on the partition. Over all openings they grow as long as each opening finds an
item at the last of them or behind it, or no item at all and the queue begins behind it. -/
theorem offsets_grow_over_openings (holds : Holds values p items) (h0 : 0 ≤ start)
    (h1 : start < offsetLimit) (head tail : Int) :
    ∃ opened,
      ((ofValues name values shards).recover start).runAlone Partition.serve ⟨p, head, tail⟩ =
        (.ok (), opened) ∧
      ∀ fates (deeds : List (QueueDeed ν)),
        let q := ofValues name values shards
        let s : Standing Unsteady := ⟨⟨opened.base, fates⟩, opened.head, opened.tail⟩
        q.Allows start values deeds s →
          (∀ before (calls : List (QueueCall ν)) rest, deeds = before ++ (calls.map .call ++ rest) →
            (q.given start (calls.map .call) (after (q.act start) before s)).Pairwise (· < ·)) ∧
          (q.GoesOn start deeds [] s → (q.given start deeds s).Pairwise (· < ·)) := by
  refine ⟨_, runAlone_recover name shards holds h0 head tail, ?_⟩
  intro fates deeds q s allowed
  have follows : Follows values s (Course.opened start items fates) :=
    follows_opened holds h0 (opened_tail_lt holds h1 []) fates
  refine ⟨?_, fun goes => ?_⟩
  · rintro before calls rest rfl
    obtain ⟨allowedBefore, allowed⟩ := (along_append _).1 allowed
    obtain ⟨c, there⟩ := follows.after_deeds name shards h0 h1 allowedBefore
    refine there.sorted_given name shards h0 h1 [] ((along_append _).1 allowed).1
      (fun _ none => absurd none List.not_mem_nil) ?_ .nil
    exact goesOn_calls _ start calls [] _
  · exact follows.sorted_given name shards h0 h1 [] allowed
      (fun _ none => absurd none List.not_mem_nil) goes .nil

/-- The answer to the second append is lost. The opening finds its item, so that the queue goes on
behind it, although the offset was not given. -/
theorem offsets_grow_over_openings_lost :
    let q := ofValues "q" ValueCodec.raw ⟨1, by decide, fun _ => 0⟩
    let p := (Partition.empty "q").put (KeyKind.signedCodec.encode (key 3)) [1]
    let items : OrderedMap Int Bytes := OrderedMap.empty.insert 3 [1]
    let deeds : List (QueueDeed Bytes) :=
      [.call (.append [2]), .call (.append [3]), .reopen, .call (.append [4]),
        .call (.removeFirst fun _ _ => true)]
    let s : Standing Unsteady := ⟨⟨p, [.done, .lost .closed]⟩, 3, 3⟩
    Holds ValueCodec.raw p items ∧ (0 : Int) ≤ 9 ∧ 9 < offsetLimit ∧
      (q.recover 9).runAlone Partition.serve ⟨p, 0, 0⟩ = (.ok (), ⟨p, 3, 3⟩) ∧
      q.Allows 9 ValueCodec.raw deeds s ∧ q.GoesOn 9 deeds [] s ∧
      q.given 9 deeds s = [4, 6] ∧ (q.given 9 deeds s).Pairwise (· < ·) := by
  intro q p items deeds s
  have holds : Holds ValueCodec.raw p items := (holds_empty rfl).put (by decide) (by decide) rfl
  obtain ⟨opened, ran, run⟩ := offsets_grow_over_openings "q" ⟨1, by decide, fun _ => 0⟩ holds
    (show (0 : Int) ≤ 9 by decide) (by decide) 0 0
  obtain rfl : ⟨p, 3, 3⟩ = opened := congrArg Prod.snd ran
  have allowed : q.Allows 9 ValueCodec.raw deeds s := by
    refine ⟨?_, ?_, nofun, ?_, ?_, trivial⟩
    all_goals
      rintro call ⟨⟩ item h
      cases h
    · exact ⟨by decide +kernel, rfl⟩
    · exact ⟨by decide +kernel, rfl⟩
    · exact ⟨by decide +kernel, rfl⟩
  have goes : q.GoesOn 9 deeds [] s := by
    refine ⟨nofun, nofun, fun _ offset member => ?_, nofun, nofun, trivial⟩
    obtain rfl : offset = 4 := List.mem_singleton.1 member
    exact .inl ⟨5, by decide, by decide, by decide +kernel⟩
  have gives : q.given 9 deeds s = [4, 6] := by decide +kernel
  exact ⟨holds, by decide, by decide, ran, allowed, goes, gives, (run _ deeds allowed).2 goes⟩

/-- The last of two items is removed, and the opening does not find its offset: the next item gets
the same one. -/
theorem offset_given_again :
    let q := ofValues "q" ValueKind.stringJson.stored (Shards.ofCount 12 fun _ => 0)
    let deeds : List (QueueDeed String) :=
      [.call (.append "x"), .call (.append "y"), .call (.removeOffset 1 fun _ _ => true), .reopen,
        .call (.append "z")]
    let s : Standing Unsteady := ⟨⟨Partition.empty "q", []⟩, 0, -1⟩
    (q.recover 0).runAlone Partition.serve ⟨Partition.empty "q", 0, 0⟩ =
        (.ok (), ⟨Partition.empty "q", 0, -1⟩) ∧
      q.Allows 0 ValueKind.stringJson.stored deeds s ∧ q.given 0 deeds s = [0, 1, 1] ∧
      ¬(q.given 0 deeds s).Pairwise (· < ·) := by
  intro q deeds s
  have allowed : q.Allows 0 ValueKind.stringJson.stored deeds s := by
    refine ⟨?_, ?_, ?_, nofun, ?_, trivial⟩
    all_goals
      rintro call ⟨⟩ item h
      cases h
    · exact ⟨by decide +kernel, by rfl⟩
    · exact ⟨by decide +kernel, by rfl⟩
    · exact ⟨by decide +kernel, by rfl⟩
  have gives : q.given 0 deeds s = [0, 1, 1] := by decide +kernel
  refine ⟨rfl, allowed, gives, ?_⟩
  rw [gives]
  decide

end Queue

end SnapshotStore
