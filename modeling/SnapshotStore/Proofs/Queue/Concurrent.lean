import Mathlib.Data.List.Nodup
import SnapshotStore.Proofs.Queue.Line
import SnapshotStore.Proofs.Queue.Tasks

/-!
A queue that many tasks use at once. Main statement: whoever takes turns, the offsets that appends
have given follow one another, no offset is removed twice, the front never goes back, and each batch
shows items at the offsets at which they were put (`Queue.crowd_in_order`).
-/

namespace SnapshotStore

variable {ν α : Type}

/-- The offset of the item that was removed. -/
def QueueAnswer.removed? : QueueAnswer ν → Option Int
  | removal ⟨some entry, true⟩ => some entry.1
  | removal _ | offset _ | items _ => none

namespace Crowd

/-- The crowd of the tasks that make calls on a queue, none of which has begun. -/
def ofCalls (q : Queue ν) (s : Standing Partition) (calls : List (QueueCall ν)) :
    Crowd (QueueAnswer ν) :=
  ⟨s, fun _ => none, calls.map fun call => (q.perform call).run⟩

/-- The answers of the tasks that are done. -/
def answers (c : Crowd α) : List α :=
  c.tasks.filterMap fun p => p.result?.bind Except.toOption

/-- The offsets that appends have given. -/
def offsets (c : Crowd (QueueAnswer ν)) : List Int := c.answers.filterMap QueueAnswer.offset?

/-- The offsets that removals have reported. -/
def removed (c : Crowd (QueueAnswer ν)) : List Int := c.answers.filterMap QueueAnswer.removed?

/-- Whether an item was at an offset before the crowd began or is that of a task whose append gives
this offset once it is done. -/
def Appended (calls : List (QueueCall ν)) (items : OrderedMap Int ν) (c : Crowd (QueueAnswer ν))
    (offset : Int) (item : ν) : Prop :=
  items.get? offset = some item ∨ ∃ i, calls[i]? = some (.append item) ∧
    ∀ turns r, (c.play turns).result? i = some r → r = .ok (.offset offset)

/-- Whether a call may be answered so in a crowd. Of the calls only a batch of nothing fails; what is
reported as removed was seen, and at the offset that was asked for. -/
def Answers (calls : List (QueueCall ν)) (items : OrderedMap Int ν) (c : Crowd (QueueAnswer ν))
    (r : Except StoreError (QueueAnswer ν)) : QueueCall ν → Prop
  | .append _ => ∃ offset, r = .ok (.offset offset)
  | .removeFirst _ => ∃ removal, r = .ok (.removal removal) ∧
    (removal.removed = true → ∃ entry, removal.seen = some entry)
  | .removeOffset offset _ => ∃ removal, r = .ok (.removal removal) ∧
    (removal.removed = true → ∃ item, removal.seen = some (offset, item))
  | .batch _ count => count = 0 ∧ r = .error (.invalidOperation .emptyBatch) ∨
    ∃ batch, r = .ok (.items batch) ∧ batch.Pairwise (fun a b => a.1 < b.1) ∧
      ∀ entry ∈ batch, Appended calls items c entry.1 entry.2

/-- What holds at any time of a crowd that began with items up to an offset. -/
structure InOrder (calls : List (QueueCall ν)) (items : OrderedMap Int ν) (tail : Int)
    (c : Crowd (QueueAnswer ν)) : Prop where
  /-- The offsets given so far are those right behind the end. -/
  offsets : ∃ n, c.offsets.Perm ((List.range n).map fun k : Nat => tail + 1 + k)
  removed : c.removed.Nodup
  head_le : c.store.head ≤ c.store.tail + 1
  /-- Behind the end there is an offset left, so that no bound gets beyond the offsets. -/
  fits : c.store.tail + 1 < Queue.offsetLimit
  keys : ∀ key ∈ c.store.base.entries.keys, ∃ offset,
    key = KeyKind.signedCodec.encode (Queue.key offset) ∧ c.store.head ≤ offset ∧
      offset ≤ c.store.tail + 1
  answers : ∀ i call r, calls[i]? = some call → c.result? i = some r → Answers calls items c r call

theorem result?_of_getElem? {c : Crowd α} {i : Nat} {p : Script storeInterface (Except StoreError α)}
    {a : α} (task : c.tasks[i]? = some p) (answer : p.result?.bind Except.toOption = some a) :
    c.result? i = some (.ok a) := by
  obtain ⟨r, ended, ok⟩ := Option.bind_eq_some_iff.1 answer
  rw [result?, task, Option.bind_some, ended]
  cases r with
  | ok _ => rw [← Option.some.inj ok]
  | error _ => cases ok

theorem mem_answers {c : Crowd α} {a : α} : a ∈ c.answers ↔ ∃ i, c.result? i = some (.ok a) := by
  rw [answers, List.mem_filterMap]
  constructor
  · rintro ⟨p, member, answer⟩
    obtain ⟨i, task⟩ := List.mem_iff_getElem?.1 member
    exact ⟨i, result?_of_getElem? task answer⟩
  · rintro ⟨i, ended⟩
    exact ⟨_, List.mem_of_getElem? (result?_eq_some.1 ended), rfl⟩

/-- What no two tasks have in their answers is not there twice. -/
theorem nodup_filterMap_answers {β : Type} {c : Crowd α} {f : α → Option β}
    (unique : ∀ {i j a b x}, c.result? i = some (.ok a) → f a = some x →
      c.result? j = some (.ok b) → f b = some x → i = j) : (c.answers.filterMap f).Nodup := by
  rw [answers, List.filterMap_filterMap, List.Nodup, List.pairwise_filterMap,
    List.pairwise_iff_getElem]
  rintro i j hi hj lt x first y second rfl
  obtain ⟨a, answer, fa⟩ := Option.bind_eq_some_iff.1 first
  obtain ⟨b, answer', fb⟩ := Option.bind_eq_some_iff.1 second
  have same := unique (result?_of_getElem? (List.getElem?_eq_getElem hi) answer) fa
    (result?_of_getElem? (List.getElem?_eq_getElem hj) answer') fb
  exact lt.ne same

end Crowd

namespace Start

open Queue

variable {S : Start ν} {i j : Nat} {c : Crowd (QueueAnswer ν)} {w : Scene ν} {offset offset' : Int}
  {r : Except StoreError (QueueAnswer ν)}

theorem Gets.task_eq {order : List Nat} (h : S.Gets order offset i) (h' : S.Gets order offset j) :
    i = j :=
  Option.some.inj (h.2.symm.trans h'.2)

theorem Gets.offset_eq {order : List Nat} (nodup : order.Nodup) (h : S.Gets order offset i)
    (h' : S.Gets order offset' i) : offset = offset' := by
  obtain ⟨inside, -⟩ := List.getElem?_eq_some_iff.1 h.2
  have same := (List.getElem?_inj inside nodup).1 (h.2.trans h'.2.symm)
  have := h.1
  have := h'.1
  omega

/-! ## What a crowd shows -/

theorem Plays.ends (h : S.Plays c w) (ended : c.result? i = some r) :
    ∃ call, S.calls[i]? = some call ∧ S.Ends i call r w := by
  obtain ⟨call, called, safe⟩ := h.tasks (Crowd.result?_eq_some.1 ended)
  exact ⟨call, called, safe w (.refl i w) h.sound⟩

/-- An append gives the offset at which its item is. -/
theorem Plays.gets (h : S.Plays c w) (ended : c.result? i = some (.ok (.offset offset))) :
    S.Gets w.order offset i := by
  obtain ⟨call, -, ends⟩ := h.ends ended
  cases call with
  | append item =>
    obtain ⟨_, ⟨⟩, gets⟩ := ends
    exact gets
  | removeFirst condition => obtain ⟨_, _, ⟨⟩, -⟩ := ends
  | removeOffset offset condition => obtain ⟨_, ⟨⟩, -⟩ := ends
  | batch start count => obtain ⟨-, ⟨⟩⟩ | ⟨_, ⟨⟩, -⟩ := ends

/-- A task that has put its item and is not done has put the last one. -/
theorem Plays.last_of_busy (h : S.Plays c w) (among : i ∈ w.order) (busy : c.result? i = none) :
    w.order.getLast? = some i := by
  obtain ⟨item, called⟩ := h.sound.appends i among
  have inside : i < c.tasks.length := h.count ▸ (List.getElem?_eq_some_iff.1 called).1
  have task := List.getElem?_eq_getElem inside
  obtain ⟨call, -, safe⟩ := h.tasks task
  rw [Crowd.result?, task, Option.bind_some] at busy
  cases ended : c.tasks[i] with
  | done r =>
    rw [ended] at busy
    cases busy
  | ask request resume =>
    rw [ended] at safe
    exact ((safe w (.refl i w) h.sound).1 among).2

/-- The tasks that have put an item are done, but for the last one. -/
theorem Plays.exists_done (h : S.Plays c w) :
    ∃ n ≤ w.order.length, ∀ {k i}, w.order[k]? = some i → (k < n ↔ ∃ r, c.result? i = some r) := by
  by_cases all : ∀ i ∈ w.order, ∃ r, c.result? i = some r
  · refine ⟨w.order.length, le_rfl, fun {k i} put => ?_⟩
    exact iff_of_true (List.getElem?_eq_some_iff.1 put).1 (all i (List.mem_of_getElem? put))
  · simp only [not_forall, not_exists] at all
    obtain ⟨j, among, busy⟩ := all
    have busy := Option.eq_none_iff_forall_ne_some.2 busy
    obtain ⟨before, order⟩ := List.getLast?_eq_some_iff.1 (h.last_of_busy among busy)
    refine ⟨before.length, by rw [order]; simp, fun {k i} put => ⟨fun lt => ?_, fun ⟨r, ended⟩ => ?_⟩⟩
    · by_contra none
      have last := h.last_of_busy (List.mem_of_getElem? put)
        (Option.eq_none_iff_forall_ne_some.2 fun r ended => none ⟨r, ended⟩)
      have nodup := h.sound.nodup
      rw [order] at put last nodup
      rw [List.getLast?_concat] at last
      rw [List.getElem?_append_left lt] at put
      cases last
      exact (List.nodup_append.1 nodup).2.2 j (List.mem_of_getElem? put) j (by simp) rfl
    · by_contra behind
      rw [order, List.getElem?_append_right (not_lt.1 behind)] at put
      obtain rfl := List.mem_singleton.1 (List.mem_of_getElem? put)
      rw [busy] at ended
      cases ended

theorem Plays.offsets_perm (h : S.Plays c w) :
    ∃ n, c.offsets.Perm ((List.range n).map fun k : Nat => S.tail + 1 + k) := by
  obtain ⟨n, le, done⟩ := h.exists_done
  have nodup : c.offsets.Nodup := by
    refine Crowd.nodup_filterMap_answers fun {i j a b x} ended fa ended' fb => ?_
    cases a <;> cases fa
    cases b <;> cases fb
    exact (h.gets ended).task_eq (h.gets ended')
  have nodup' : ((List.range n).map fun k : Nat => S.tail + 1 + (k : Int)).Nodup :=
    List.Nodup.map (fun k l same => by simpa using same) List.nodup_range
  refine ⟨n, (List.perm_ext_iff_of_nodup nodup nodup').2 fun offset => ?_⟩
  rw [Crowd.offsets, List.mem_filterMap, List.mem_map]
  constructor
  · rintro ⟨a, member, gave⟩
    obtain ⟨i, ended⟩ := Crowd.mem_answers.1 member
    cases a <;> cases gave
    have gets := h.gets ended
    refine ⟨_, List.mem_range.2 ((done gets.2).2 ⟨_, ended⟩), ?_⟩
    have := gets.1
    omega
  · rintro ⟨k, member, rfl⟩
    have lt := List.mem_range.1 member
    have put := List.getElem?_eq_getElem (lt.trans_le le)
    obtain ⟨r, ended⟩ := (done put).1 lt
    obtain ⟨item, called⟩ := h.sound.appends _ (List.mem_of_getElem? put)
    obtain ⟨call, called', ends⟩ := h.ends ended
    rw [called] at called'
    cases called'
    obtain ⟨offset, rfl, gets⟩ := ends
    have place : S.Gets w.order (S.tail + 1 + k) w.order[k] := by
      refine ⟨by omega, ?_⟩
      rw [show (S.tail + 1 + (k : Int) - S.tail - 1).toNat = k by omega, put]
    exact ⟨_, Crowd.mem_answers.2 ⟨_, ended⟩, congrArg some (gets.offset_eq h.sound.nodup place)⟩

/-- A removal reports what its task has removed. -/
theorem Plays.took (h : S.Plays c w) {a : QueueAnswer ν} (ended : c.result? i = some (.ok a))
    (removed : a.removed? = some offset) : w.taker offset = some i := by
  have reported : ∀ {removal : Removal (Int × ν)} {k}, a = .removal removal → Took i k removal w →
      w.taker offset = some i := by
    rintro ⟨seen, gone⟩ k rfl took
    cases gone with
    | false => cases seen <;> cases removed
    | true =>
      obtain ⟨item, rfl, taken⟩ := took rfl
      cases removed
      exact taken
  obtain ⟨call, -, ends⟩ := h.ends ended
  cases call with
  | append item =>
    obtain ⟨_, ⟨⟩, -⟩ := ends
    cases removed
  | removeFirst condition =>
    obtain ⟨removal, _, eq, took⟩ := ends
    exact reported (Except.ok.inj eq) took
  | removeOffset offset condition =>
    obtain ⟨removal, eq, took⟩ := ends
    exact reported (Except.ok.inj eq) took
  | batch start count =>
    obtain ⟨-, ⟨⟩⟩ | ⟨_, ⟨⟩, -⟩ := ends
    cases removed

theorem Plays.removed_nodup (h : S.Plays c w) : c.removed.Nodup :=
  Crowd.nodup_filterMap_answers fun ended fa ended' fb =>
    Option.some.inj ((h.took ended fa).symm.trans (h.took ended' fb))

theorem Plays.exists_offset (h : S.Plays c w) {key : Bytes}
    (member : key ∈ c.store.base.entries.keys) :
    ∃ offset, key = KeyKind.signedCodec.encode (Queue.key offset) ∧ c.store.head ≤ offset ∧
      offset ≤ c.store.tail + 1 := by
  rw [h.store] at member ⊢
  obtain ⟨entry, entered, rfl⟩ := List.mem_map.1 member
  obtain ⟨⟨offset, item⟩, there, isKey, -⟩ := h.sound.holds.exists_related_of_left entered
  have range := h.sound.range (OrderedMap.get?_eq_some_iff.2 there)
  refine ⟨offset, isKey.2.2, range.1, range.2.trans ?_⟩
  rcases h.sound.pace with settled | ⟨next, -⟩ <;> omega

theorem Plays.appended (h : S.Plays c w) {item : ν} (comes : S.Comes w.order offset item) :
    Crowd.Appended S.calls S.items c offset item := by
  refine comes.imp_right fun ⟨i, gets, called⟩ => ⟨i, called, fun turns r ended => ?_⟩
  obtain ⟨w', later, onward⟩ := h.play turns
  obtain ⟨call, called', ends⟩ := later.ends ended
  rw [called] at called'
  cases called'
  obtain ⟨offset', rfl, gets'⟩ := ends
  rw [(gets.mono onward.grows).offset_eq later.sound.nodup gets']

theorem Plays.answers (h : S.Plays c w) {call : QueueCall ν} (called : S.calls[i]? = some call)
    (ended : c.result? i = some r) : Crowd.Answers S.calls S.items c r call := by
  obtain ⟨call', called', ends⟩ := h.ends ended
  rw [called] at called'
  cases called'
  cases call with
  | append item =>
    obtain ⟨offset, eq, -⟩ := ends
    exact ⟨offset, eq⟩
  | removeFirst condition =>
    obtain ⟨removal, offset, eq, took⟩ := ends
    exact ⟨removal, eq, fun removed => ⟨_, (took removed).choose_spec.1⟩⟩
  | removeOffset offset condition =>
    obtain ⟨removal, eq, took⟩ := ends
    exact ⟨removal, eq, fun removed => (took removed).imp fun _ seen => seen.1⟩
  | batch start count =>
    refine ends.imp_right fun ⟨items, eq, ascending, comes⟩ => ⟨items, eq, ascending, ?_⟩
    exact fun entry member => h.appended (comes entry member)

theorem Plays.inOrder (h : S.Plays c w) (fits : S.Fits) : c.InOrder S.calls S.items S.tail where
  offsets := h.offsets_perm
  removed := h.removed_nodup
  head_le := by
    rw [h.store]
    exact h.sound.head_le
  fits := by
    rw [h.store]
    exact (Int.add_le_add_right h.sound.tail_le_last 1).trans_lt (h.sound.last_lt fits)
  keys := fun _ => h.exists_offset
  answers := fun _ _ _ => h.answers

end Start

namespace Queue

variable {values : ValueCodec ν} {p : Partition} {items : OrderedMap Int ν} {start : Int}
  {calls : List (QueueCall ν)}

theorem fits_opened (shards : Shards Int64) (back : QueueCall.ReadBack values calls)
    (room : (Line.opened start items).next + QueueCall.appends calls < offsetLimit) :
    Start.Fits ⟨values, shards, calls, items, (Course.opened start items []).tail⟩ := by
  rw [← Course.line_opened start items []] at room
  exact ⟨back, room⟩

/-- The tasks are safe at the beginning, where none has done anything. -/
theorem plays_ofCalls (name : String) (shards : Shards Int64) (holds : Holds values p items)
    (h0 : 0 ≤ start) (back : QueueCall.ReadBack values calls)
    (room : (Line.opened start items).next + QueueCall.appends calls < offsetLimit) :
    let opened := Course.opened start items []
    let S : Start ν := ⟨values, shards, calls, items, opened.tail⟩
    let s : Standing Partition := ⟨p, opened.head, opened.tail⟩
    S.Plays (Crowd.ofCalls (ofValues name values shards) s calls) ⟨s, fun _ => none, items, [],
      fun _ => none⟩ := by
  intro opened S s
  have fits : S.Fits := fits_opened shards back room
  have limit : opened.tail < offsetLimit := by
    have : opened.tail + 1 + QueueCall.appends calls < offsetLimit := fits.room
    omega
  have follows := follows_opened holds h0 limit []
  have sound : S.Sound ⟨s, fun _ => none, items, [], fun _ => none⟩ := by
    have last : opened.tail = opened.tail + ([] : List Nat).length := by simp
    refine ⟨holds, follows.head_nonneg, follows.head_le, fun there => ?_, .inl last, .inl, .nil,
      nofun, nofun⟩
    have range := follows.mem_live (OrderedMap.get?_eq_some_iff.1 there)
    exact ⟨range.1, range.2.trans last.le⟩
  refine ⟨rfl, rfl, sound, List.length_map _, fun {i p} task => ?_⟩
  obtain ⟨call, called, rfl⟩ := Option.map_eq_some_iff.1 (List.getElem?_map ▸ task)
  exact ⟨call, called, Start.safe_perform name fits called sound List.not_mem_nil⟩

/-- A queue that any number of tasks use at once stays in order, whoever takes turns: opened over a
partition that holds any items, with an offset for each item that is appended and one behind them, to
which the front goes when the last of them is taken. -/
theorem crowd_in_order (name : String) (shards : Shards Int64) (holds : Holds values p items)
    (h0 : 0 ≤ start) (back : QueueCall.ReadBack values calls)
    (room : (Line.opened start items).next + QueueCall.appends calls < offsetLimit)
    (head tail : Int) :
    ∃ s, ((ofValues name values shards).recover start).runAlone Partition.serve ⟨p, head, tail⟩ =
        (.ok (), s) ∧
      ∀ turns,
        let c := (Crowd.ofCalls (ofValues name values shards) s calls).play turns
        c.InOrder calls items s.tail ∧ ∀ turns', c.store.head ≤ (c.play turns').store.head := by
  refine ⟨_, runAlone_recover name shards holds h0 head tail, fun turns => ?_⟩
  obtain ⟨w, plays, -⟩ := (plays_ofCalls name shards holds h0 back room).play turns
  refine ⟨plays.inOrder (fits_opened shards back room), fun turns' => ?_⟩
  obtain ⟨w', later, onward⟩ := plays.play turns'
  rw [plays.store, later.store]
  exact onward.head_le

/-- Over items at 3, 7 and 9, a task that takes from the front has found the item at 7 when another one
removes it, and a batch is read when an item has been put behind the last one but does not show. -/
theorem crowd_in_order_taken :
    let items : OrderedMap Int Bytes :=
      ((OrderedMap.empty.insert 3 [1]).insert 7 [2]).insert 9 [3]
    let p := (((Partition.empty "q").put (KeyKind.signedCodec.encode (key 3)) [1]).put
      (KeyKind.signedCodec.encode (key 7)) [2]).put (KeyKind.signedCodec.encode (key 9)) [3]
    let calls : List (QueueCall Bytes) :=
      [.removeFirst fun _ _ => true, .removeFirst fun _ _ => true, .removeOffset 7 fun _ _ => true,
        .append [5], .batch 0 9]
    let q := ofValues "q" ValueCodec.raw ⟨1, by decide, fun _ => 0⟩
    let turns := List.replicate 13 0 ++ List.replicate 7 1 ++ List.replicate 10 2 ++
      List.replicate 4 1 ++ List.replicate 4 3 ++ List.replicate 3 4 ++ List.replicate 3 3
    Holds ValueCodec.raw p items ∧ (0 : Int) ≤ 2 ∧ QueueCall.ReadBack ValueCodec.raw calls ∧
      (Line.opened 2 items).next + QueueCall.appends calls < offsetLimit ∧
      ∃ s, (q.recover 2).runAlone Partition.serve ⟨p, 0, 0⟩ = (.ok (), s) ∧
        ((Crowd.ofCalls q s calls).play turns).InOrder calls items s.tail ∧
        ((Crowd.ofCalls q s calls).play turns).answers =
          [.removal ⟨some (3, [1]), true⟩, .removal ⟨none, false⟩, .removal ⟨some (7, [2]), true⟩,
            .offset 10, .items [(9, [3])]] := by
  intro items p calls q turns
  have holds : Holds ValueCodec.raw p items :=
    (((holds_empty rfl).put (by decide) (by decide) rfl).put (by decide) (by decide) rfl).put
      (by decide) (by decide) rfl
  have back : QueueCall.ReadBack ValueCodec.raw calls := fun _ _ => rfl
  have room : (Line.opened 2 items).next + QueueCall.appends calls < offsetLimit := by decide
  refine ⟨holds, by decide, back, room, ?_⟩
  obtain ⟨s, opened, inOrder⟩ := crowd_in_order "q" _ holds (by decide) back room 0 0
  refine ⟨s, opened, (inOrder turns).1, ?_⟩
  obtain rfl := (congrArg Prod.snd opened).symm
  decide +kernel

end Queue

end SnapshotStore
