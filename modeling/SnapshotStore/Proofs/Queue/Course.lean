import SnapshotStore.Proofs.Queue.Calls
import SnapshotStore.Proofs.RunAlone
import SnapshotStore.Proofs.Unsteady

/-!
The course of a queue: its items as a finite map, its bounds, and what becomes of its next calls on
its partition. An append whose call fails does not show in it, whether the item was put or not.
What a call can do to a course is said once (`perform_cases`). `Follows` ties a queue to its course.
-/

namespace SnapshotStore

variable {ν α : Type}

/-- A queue as its items between two bounds. -/
structure Course (ν : Type) where
  live : OrderedMap Int ν
  head : Int
  tail : Int
  fates : List Fate

namespace Course

/-- The fate of the next call on the partition. -/
def next (c : Course ν) : Fate := c.fates.headD .done

/-- The course after a call on the partition that changes nothing. -/
def pass (c : Course ν) : Course ν := { c with fates := c.fates.tail }

@[simp] theorem pass_live (c : Course ν) : c.pass.live = c.live := rfl

@[simp] theorem pass_tail (c : Course ν) : c.pass.tail = c.tail := rfl

/-- Goes on once a call on the partition is done. -/
def once (c : Course ν) (f : Course ν → Except StoreError α × Course ν) :
    Except StoreError α × Course ν :=
  match c.next with
  | .done => f c.pass
  | .refused e | .lost e => (.error (.storage e), c.pass)

/-- Takes the item at an offset out and goes on; if the answer to this is lost, the item is gone. -/
def takeOut (c : Course ν) (offset : Int) (f : Course ν → Except StoreError α × Course ν) :
    Except StoreError α × Course ν :=
  let taken := { c.pass with live := c.live.erase offset }
  match c.next with
  | .done => f taken
  | .refused e => (.error (.storage e), c.pass)
  | .lost e => (.error (.storage e), taken)

/-- Removes the item at an offset if it satisfies a condition; `f` moves the front. -/
def remove (c : Course ν) (offset : Int) (condition : Int → ν → Bool)
    (f : Course ν → Course ν) : Except StoreError (QueueAnswer ν) × Course ν :=
  c.once fun c =>
    match c.live.get? offset with
    | none => (.ok (.removal Queue.nothing), c)
    | some item =>
      if condition offset item then
        c.takeOut offset fun c => (.ok (.removal ⟨some (offset, item), true⟩), f c)
      else (.ok (.removal ⟨some (offset, item), false⟩), c)

/-- The answer to a call, and the course after it. -/
def perform (c : Course ν) : QueueCall ν → Except StoreError (QueueAnswer ν) × Course ν
  | .append item =>
    c.once fun c =>
      (.ok (.offset (c.tail + 1)),
        { c with live := c.live.insert (c.tail + 1) item, tail := c.tail + 1 })
  | .removeFirst condition =>
    if c.tail < c.head then (.ok (.removal Queue.nothing), c)
    else
      c.once fun c =>
        match c.live.first? with
        | none => (.ok (.removal Queue.nothing), c)
        | some (offset, _) => c.remove offset condition fun c => { c with head := offset + 1 }
  | .removeOffset offset condition =>
    if c.tail < c.head ∨ offset < c.head ∨ c.tail < offset then (.ok (.removal Queue.nothing), c)
    else
      c.remove offset condition fun c =>
        if offset = c.head then { c with head := offset + 1 } else c
  | .batch start count =>
    if count = 0 then (.error (.invalidOperation .emptyBatch), c)
    else if c.tail < max start c.head then (.ok (.items []), c)
    else c.once fun c => (.ok (.items (c.live.page (some (max start c.head)) count)), c)

/-- The item about which a call asks its condition: the one that it shows when it is refused. -/
def asked (c : Course ν) (call : QueueCall ν) : Option (Int × ν) :=
  (c.perform call.refusing).1.toOption.bind QueueAnswer.seen

/-! ## What a call does -/

variable {c : Course ν}

theorem once_cases (f : Course ν → Except StoreError α × Course ν) :
    (c.next = .done ∧ c.once f = f c.pass) ∨ ∃ e, c.once f = (.error (.storage e), c.pass) := by
  rw [once]
  cases c.next with
  | done => exact .inl ⟨rfl, rfl⟩
  | refused e => exact .inr ⟨e, rfl⟩
  | lost e => exact .inr ⟨e, rfl⟩

theorem once_done (done : c.next = .done) (f : Course ν → Except StoreError α × Course ν) :
    c.once f = f c.pass := by
  rw [once, done]

theorem takeOut_cases (offset : Int) (f : Course ν → Except StoreError α × Course ν) :
    c.takeOut offset f = f { c.pass with live := c.live.erase offset } ∨
      ∃ e, c.takeOut offset f = (.error (.storage e), c.pass) ∨
        c.takeOut offset f = (.error (.storage e), { c.pass with live := c.live.erase offset }) := by
  rw [takeOut]
  cases c.next with
  | done => exact .inl rfl
  | refused e => exact .inr ⟨e, .inl rfl⟩
  | lost e => exact .inr ⟨e, .inr rfl⟩

/-- How a call ends that appends nothing: at most it has taken out the item that it asked about, of
which its condition holds. -/
inductive Moves (c : Course ν) (asked : Option (Int × ν)) (admits : Int × ν → Bool) :
    Except StoreError (QueueAnswer ν) × Course ν → Prop where
  | still {answer : Except StoreError (QueueAnswer ν)} {fates : List Fate}
    (gives : answer.toOption.bind QueueAnswer.offset? = none) (later : fates <:+ c.fates) :
    Moves c asked admits (answer, { c with fates })
  | taken {answer : Except StoreError (QueueAnswer ν)} {fates : List Fate} {entry : Int × ν}
    (gives : answer.toOption.bind QueueAnswer.offset? = none) (later : fates <:+ c.fates)
    (found : c.live.get? entry.1 = some entry.2) (asks : asked = some entry)
    (admitted : admits entry = true) (head : Int) :
    Moves c asked admits (answer, ⟨c.live.erase entry.1, head, c.tail, fates⟩)

variable {asked : Option (Int × ν)} {admits : Int × ν → Bool}

theorem Moves.of_pass {x : Except StoreError (QueueAnswer ν) × Course ν}
    (h : c.pass.Moves asked admits x) : c.Moves asked admits x := by
  have tail := List.tail_suffix c.fates
  cases h with
  | still gives later => exact .still gives (later.trans tail)
  | taken gives later found asks admitted head =>
    exact .taken gives (later.trans tail) found asks admitted head

theorem moves_remove (offset : Int) (condition : Int → ν → Bool) {f : Course ν → Course ν}
    (hf : ∀ c, ∃ head, f c = { c with head }) :
    c.Moves ((c.remove offset (fun _ _ => false) f).1.toOption.bind QueueAnswer.seen)
      (fun entry => condition entry.1 entry.2) (c.remove offset condition f) := by
  apply Moves.of_pass
  rw [remove, remove]
  cases next : c.next with
  | refused e | lost e =>
    simp only [once, next]
    exact .still rfl List.suffix_rfl
  | done =>
    rw [once_done next, once_done next]
    cases found : c.pass.live.get? offset with
    | none => exact .still rfl List.suffix_rfl
    | some item =>
      by_cases hc : condition offset item
      · simp only [if_pos hc]
        have tail := List.tail_suffix c.pass.fates
        rcases takeOut_cases (c := c.pass) offset _ with eq | ⟨e, eq | eq⟩ <;> rw [eq]
        · obtain ⟨head, moved⟩ := hf { c.pass.pass with live := c.pass.live.erase offset }
          rw [moved]
          exact .taken rfl tail found rfl hc head
        · exact .still rfl tail
        · exact .taken rfl tail found rfl hc c.head
      · simp only [if_neg hc]
        exact .still rfl List.suffix_rfl

/-- An append adds its item and gives its offset, and all else that can be done is to take out the
item that was asked about. -/
theorem perform_cases (call : QueueCall ν) :
    (∃ item, call = .append item ∧ c.perform call =
      (.ok (.offset (c.tail + 1)),
        ⟨c.live.insert (c.tail + 1) item, c.head, c.tail + 1, c.fates.tail⟩)) ∨
      c.Moves (c.asked call) (fun entry => call.admits entry) (c.perform call) := by
  cases call with
  | append item =>
    rw [perform]
    rcases once_cases (c := c) _ with ⟨-, eq⟩ | ⟨e, eq⟩ <;> rw [eq]
    · exact .inl ⟨item, rfl, rfl⟩
    · exact .inr (.still rfl (List.tail_suffix _))
  | removeFirst condition =>
    right
    unfold Course.asked
    rw [QueueCall.refusing, perform, perform]
    by_cases empty : c.tail < c.head
    · rw [if_pos empty, if_pos empty]
      exact .still rfl List.suffix_rfl
    rw [if_neg empty, if_neg empty]
    apply Moves.of_pass
    cases next : c.next with
    | refused e | lost e =>
      simp only [once, next]
      exact .still rfl List.suffix_rfl
    | done =>
      rw [once_done next, once_done next]
      cases c.pass.live.first? with
      | none => exact .still rfl List.suffix_rfl
      | some first => exact moves_remove first.1 condition fun c => ⟨first.1 + 1, rfl⟩
  | removeOffset offset condition =>
    right
    unfold Course.asked
    rw [QueueCall.refusing, perform, perform]
    by_cases outside : c.tail < c.head ∨ offset < c.head ∨ c.tail < offset
    · rw [if_pos outside, if_pos outside]
      exact .still rfl List.suffix_rfl
    · rw [if_neg outside, if_neg outside]
      apply moves_remove offset condition
      intro c
      by_cases front : offset = c.head
      · exact ⟨offset + 1, if_pos front⟩
      · exact ⟨c.head, if_neg front⟩
  | batch start count =>
    right
    rw [perform]
    by_cases empty : count = 0
    · rw [if_pos empty]
      exact .still rfl List.suffix_rfl
    rw [if_neg empty]
    by_cases behind : c.tail < max start c.head
    · rw [if_pos behind]
      exact .still rfl List.suffix_rfl
    rw [if_neg behind]
    rcases once_cases (c := c) _ with ⟨-, eq⟩ | ⟨e, eq⟩ <;> rw [eq]
    · exact .still rfl (List.tail_suffix _)
    · exact .still rfl (List.tail_suffix _)

end Course

/-! ## Following a course -/

namespace Queue

/-- A queue in the state `s` is where its course `c` is. Its partition holds the items of the course
and at most one more, right behind the last one, which an append has left whose answer was lost. -/
structure Follows (values : ValueCodec ν) (s : Standing Unsteady) (c : Course ν) : Prop where
  holds : ∃ items, Holds values s.base.partition items ∧
    c.live = items.filter (fun offset _ => decide (offset ≤ c.tail)) ∧
    ∀ entry ∈ items.toList, c.head ≤ entry.1 ∧ entry.1 ≤ c.tail + 1
  head : s.head = c.head
  tail : s.tail = c.tail
  fates : s.base.fates = c.fates
  head_nonneg : 0 ≤ c.head
  head_le : c.head ≤ c.tail + 1
  tail_lt : c.tail < offsetLimit

/-- An operation and its course end alike. -/
def Agrees (values : ValueCodec ν) (x : Except StoreError α × Standing Unsteady)
    (y : Except StoreError α × Course ν) : Prop :=
  x.1 = y.1 ∧ Follows values x.2 y.2

variable {values : ValueCodec ν} {s : Standing Unsteady} {c : Course ν}

theorem Follows.mem_live (h : Follows values s c) {entry : Int × ν} (he : entry ∈ c.live.toList) :
    c.head ≤ entry.1 ∧ entry.1 ≤ c.tail := by
  obtain ⟨items, -, live, range⟩ := h.holds
  rw [live] at he
  obtain ⟨hi, hle⟩ := List.mem_filter.1 he
  exact ⟨(range _ hi).1, by simpa using hle⟩

theorem Follows.setHead (h : Follows values s c) {head : Int}
    (hl : ∀ entry ∈ c.live.toList, head ≤ entry.1) (h0 : 0 ≤ head) (ht : head ≤ c.tail + 1) :
    Follows values { s with head } { c with head } := by
  obtain ⟨items, holds, live, range⟩ := h.holds
  refine ⟨⟨items, holds, live, fun entry he => ⟨?_, (range entry he).2⟩⟩, rfl, h.tail, h.fates, h0,
    ht, h.tail_lt⟩
  by_cases hle : entry.1 ≤ c.tail
  · apply hl entry
    rw [live]
    exact List.mem_filter.2 ⟨he, by simpa using hle⟩
  · show head ≤ entry.1
    omega

end Queue

end SnapshotStore
