import SnapshotStore.Proofs.Store.Envelope
import SnapshotStore.Proofs.Store.Typed
import SnapshotStore.Store.Sealed

/-!
Stores that keep texts for values. What is put is made a text first, and what is found is made a value
again (`KeyedStore.through`); sealed stores and envelope stores differ in how they do this only
(`SealedStore.keyed_eq`, `EnvelopeStore.keyed_eq`). What a call finds is read if each entry of it is
(`runAlone_get_reads`, `runAlone_entry_reads`, `runAlone_page_reads`). Over a map of texts they answer
as that map does, with values for the texts (`EntityStore.perform_through_map`), and maps of texts as
maps of what the texts stand for (`StoreMap.Alike.perform`).
-/

namespace SnapshotStore

variable {keys : KeyKind} {κ ν μ ω : Type}

/-! ## Texts for values -/

/-- The call with each value that it puts made another one, unless this fails. -/
def KeyedCall.mapM (f : ν → Except StoreError μ) :
    KeyedCall κ ν → Except StoreError (KeyedCall κ μ)
  | put key value => do pure (.put key (← f value))
  | get key => .ok (.get key)
  | remove key => .ok (.remove key)
  | contains key => .ok (.contains key)
  | first => .ok .first
  | last => .ok .last
  | page start count => .ok (.page start count)

/-- An entry with its value made another one, unless this fails. -/
def readEntry (f : ν → Except StoreError μ) (e : κ × ν) : Except StoreError (κ × μ) := do
  pure (e.1, ← f e.2)

/-- The answer with each value in it made another one, unless this fails. -/
def KeyedAnswer.mapM (f : ν → Except StoreError μ) :
    KeyedAnswer κ ν → Except StoreError (KeyedAnswer κ μ)
  | done => .ok .done
  | found value => do pure (.found (← value.mapM f))
  | there isThere => .ok (.there isThere)
  | entry e => do pure (.entry (← e.mapM (readEntry f)))
  | entries es => do pure (.entries (← es.mapM (readEntry f)))

namespace KeyedStore

/-- A store over one that keeps texts. -/
def through (texts : KeyedStore κ String) (toText : ν → Except StoreError String)
    (ofText : String → Except StoreError ν) : KeyedStore κ ν where
  put key value := do
    let text ← Operation.ofExcept (toText value)
    texts.put key text
  get key := do
    let stored ← texts.get key
    Operation.ofExcept (stored.mapM ofText)
  remove := texts.remove
  contains := texts.contains
  first := do
    let entry ← texts.first
    Operation.ofExcept (entry.mapM (readEntry ofText))
  last := do
    let entry ← texts.last
    Operation.ofExcept (entry.mapM (readEntry ofText))
  page start count := do
    let entries ← texts.page start count
    Operation.ofExcept (entries.mapM (readEntry ofText))

variable (texts : KeyedStore κ String) (toText : ν → Except StoreError String)
  (ofText : String → Except StoreError ν)

/-- A call is made one on texts, and the answer to this is read. -/
theorem perform_through (call : KeyedCall κ ν) :
    (texts.through toText ofText).perform call =
      Operation.ofExcept (call.mapM toText) >>= fun sent =>
        texts.perform sent >>= fun answer => Operation.ofExcept (answer.mapM ofText) := by
  -- What is found is read before it is made an answer or after that.
  have reads : ∀ {α β : Type} (find : Operation α) (wrap : α → KeyedAnswer κ String)
      (f : α → Except StoreError β) (g : β → KeyedAnswer κ ν),
      (∀ a, (wrap a).mapM ofText = f a >>= fun b => pure (g b)) →
      (find >>= fun a => Operation.ofExcept (f a)) >>= (fun b => pure (g b)) =
        (find >>= fun a => pure (wrap a)) >>= fun answer =>
          Operation.ofExcept (answer.mapM ofText) := by
    intro α β find wrap f g eq
    rw [bind_assoc, bind_assoc]
    refine congrArg (find >>= ·) (funext fun a => ?_)
    rw [pure_bind, eq]
    cases f a <;> rfl
  have passes : ∀ {α : Type} (find : Operation α) (wrap : α → KeyedAnswer κ String)
      (g : α → KeyedAnswer κ ν), (∀ a, (wrap a).mapM ofText = .ok (g a)) →
      find >>= (fun a => pure (g a)) =
        (find >>= fun a => pure (wrap a)) >>= fun answer =>
          Operation.ofExcept (answer.mapM ofText) := by
    intro α find wrap g eq
    rw [bind_assoc]
    refine congrArg (find >>= ·) (funext fun a => ?_)
    rw [pure_bind, eq]
    rfl
  cases call with
  | put key value =>
    rw [KeyedCall.mapM]
    show (Operation.ofExcept (toText value) >>= _) >>= _ = _
    cases toText value with
    | error e => rfl
    | ok text => exact passes (texts.put key text) (fun _ => .done) (fun _ => .done) fun _ => rfl
  | get key => exact reads (texts.get key) .found (Option.mapM ofText) .found fun _ => rfl
  | remove key => exact passes (texts.remove key) (fun _ => .done) (fun _ => .done) fun _ => rfl
  | contains key => exact passes (texts.contains key) .there .there fun _ => rfl
  | first => exact reads texts.first .entry (Option.mapM (readEntry ofText)) .entry fun _ => rfl
  | last => exact reads texts.last .entry (Option.mapM (readEntry ofText)) .entry fun _ => rfl
  | page start count =>
    exact reads (texts.page start count) .entries (List.mapM (readEntry ofText)) .entries fun _ => rfl

/-- A value that has no text is not put. -/
theorem runAlone_put_through {σ : Type} (call : (c : Call) → σ → Except StorageError c.Answer × σ)
    {toText : ν → Except StoreError String} (key : κ) {value : ν} {e : StoreError}
    (h : toText value = .error e) (s : Standing σ) :
    ((texts.through toText ofText).perform (.put key value)).runAlone call s = (.error e, s) := by
  rw [perform_through, KeyedCall.mapM, h]
  rfl

end KeyedStore

theorem SealedStore.keyed_eq (store : SealedStore κ ν) (nonce : Gcm.Nonce) :
    store.keyed nonce = store.texts.keyed.through (store.sealValue nonce) store.openText := rfl

theorem EnvelopeStore.keyed_eq (store : EnvelopeStore κ ν) (nonce : Gcm.Nonce) :
    store.keyed nonce = store.texts.keyed.through (store.sealValue nonce) store.openText := rfl

/-! ## What is found -/

/-- The entry by which a layout keeps a value under a key. -/
def Layout.written (l : Layout κ ν) (entry : κ × ν) : Entry :=
  (l.keys.encode entry.1, l.values.encode entry.2)

/-- What is put is kept. -/
theorem EntityStore.written_mem_put (store : EntityStore κ ν) (key : κ) (v : ν)
    (s : Standing Partition) :
    store.layout.written (key, v) ∈
      ((store.put key v).runAlone Partition.serve s).2.base.entries.toList := by
  refine OrderedMap.get?_eq_some_iff.1 ?_
  show (s.base.put _ _).entries.get? _ = _
  rw [Partition.entries_put, OrderedMap.get?_insert, if_pos rfl]

/-- Whether the bytes of an entry are read as a key and a value. -/
def Layout.Reads (l : Layout κ String) (ofText : String → Except StoreError ν) (bytes : Entry)
    (entry : κ × ν) : Prop :=
  ∃ text, l.readEntry bytes = .ok (entry.1, text) ∧ ofText text = .ok entry.2

namespace EntityStore

open Layout

variable {texts : EntityStore κ String} {ofText : String → Except StoreError ν}
  {s : Standing Partition}

theorem readEntry_ok {key : κ} {text : String} {v : ν} (h : ofText text = .ok v) :
    SnapshotStore.readEntry ofText (key, text) = .ok (key, v) := by
  rw [SnapshotStore.readEntry, h]
  rfl

theorem mapM_reads {bytes : List Entry} {entries : List (κ × ν)}
    (h : List.Forall₂ (texts.layout.Reads ofText) bytes entries) :
    ∃ found, texts.layout.readEntries bytes = .ok found ∧
      found.mapM (SnapshotStore.readEntry ofText) = .ok entries := by
  induction h with
  | nil => exact ⟨[], rfl, rfl⟩
  | @cons b entry bytes entries reads _ ih =>
    obtain ⟨text, read, opened⟩ := reads
    obtain ⟨found, all, openeds⟩ := ih
    refine ⟨(entry.1, text) :: found, ?_, ?_⟩
    · rw [readEntries, read, all]
      rfl
    · rw [List.mapM_cons, readEntry_ok opened, openeds]
      rfl

/-- What is found of an entry is read, whichever call has found it. -/
theorem runAlone_entry_reads {find : Operation (Option (κ × String))} {bytes : Option Entry}
    (found : find.runAlone Partition.serve s = (texts.layout.readEntry? bytes, s)) {b : Entry}
    (there : bytes = some b) {entry : κ × ν} (reads : texts.layout.Reads ofText b entry) :
    (find >>= fun e => Operation.ofExcept (e.mapM (SnapshotStore.readEntry ofText))).runAlone
      Partition.serve s = (.ok (some entry), s) := by
  obtain ⟨text, read, opened⟩ := reads
  have text_found : find.runAlone Partition.serve s = (.ok (some (entry.1, text)), s) := by
    rw [found, there, readEntry?, read]
    rfl
  rw [Operation.runAlone_bind_ok _ _ text_found, Operation.runAlone_ofExcept, Option.mapM_some,
    readEntry_ok opened]
  rfl

variable (toText : ν → Except StoreError String)

theorem runAlone_page_reads (start : Option κ) (count : Nat) {entries : List (κ × ν)}
    (reads : List.Forall₂ (texts.layout.Reads ofText)
      (s.base.entries.page (start.map texts.layout.keys.encode) count) entries) :
    ((texts.keyed.through toText ofText).page start count).runAlone Partition.serve s =
      (.ok entries, s) := by
  obtain ⟨found, read, opened⟩ := mapM_reads reads
  have texts_found : (texts.page start count).runAlone Partition.serve s = (.ok found, s) :=
    congrArg (·, s) read
  show (texts.page start count >>= _).runAlone _ _ = _
  rw [Operation.runAlone_bind_ok _ _ texts_found, Operation.runAlone_ofExcept, opened]

theorem runAlone_get_reads {key : κ} {bytes : Bytes} {v : ν}
    (there : s.base.entries.get? (texts.layout.keys.encode key) = some bytes) {text : String}
    (read : texts.layout.values.decode bytes = .ok text) (opened : ofText text = .ok v) :
    ((texts.keyed.through toText ofText).get key).runAlone Partition.serve s =
      (.ok (some v), s) := by
  have text_found : (texts.get key).runAlone Partition.serve s = (.ok (some text), s) := by
    show (readValue? _ (s.base.entries.get? _), s) = _
    rw [there, readValue?, read]
    rfl
  show (texts.get key >>= _).runAlone _ _ = _
  rw [Operation.runAlone_bind_ok _ _ text_found, Operation.runAlone_ofExcept, Option.mapM_some,
    opened]
  rfl

end EntityStore

/-- The bytes of a text and its key are read as what the text is read as. -/
theorem Layout.reads_text (key : keys.Carrier) {text : String}
    {ofText : String → Except StoreError ν} {v : ν} (h : ofText text = .ok v) :
    (Layout.texts keys).Reads ofText (keys.codec.encode key, Utf8.encode text) (key, v) :=
  ⟨text, readEntry_of_related (b := (⟨key⟩, text)) ⟨rfl, ValueCodec.decode_text text⟩, h⟩

/-! ## Maps of texts -/

/-- A store over texts answers as their map does, with the values that they are read as. A value that
has no text is not put. -/
theorem EntityStore.perform_through_map (name : String) (shards : Shards keys.Carrier)
    {s : Standing Partition} {m : StoreMap keys String} (h : Layout.Holds ValueCodec.text s.base m)
    (toText : ν → Except StoreError String) (ofText : String → Except StoreError ν)
    (call : KeyedCall keys.Carrier ν) :
    let store := (EntityStore.ofValues keys name ValueCodec.text shards).keyed.through toText ofText
    (∃ e, call.mapM toText = .error e ∧
      (store.perform call).runAlone Partition.serve s = (.error e, s)) ∨
    ∃ texts base, call.mapM toText = .ok texts ∧
      (store.perform call).runAlone Partition.serve s =
        ((m.perform texts).1.mapM ofText, { s with base }) ∧
      Layout.Holds ValueCodec.text base (m.perform texts).2 := by
  intro store
  rw [KeyedStore.perform_through]
  cases call.mapM toText with
  | error e => exact .inl ⟨e, rfl, rfl⟩
  | ok texts =>
    have back : texts.ReadsBack ValueCodec.text := fun _ text _ => ValueCodec.decode_text text
    obtain ⟨base, ran, holds⟩ := perform_map name shards h back
    refine .inr ⟨texts, base, rfl, ?_, holds⟩
    exact Operation.runAlone_bind_ok _ _ ran _

/-! ## Maps with related values -/

section Alike

variable (V : ν → μ → Prop)

/-- Calls that differ in the value that is put. -/
inductive KeyedCall.Alike : KeyedCall κ ν → KeyedCall κ μ → Prop
  | put (key : κ) {v : ν} {w : μ} (h : V v w) : Alike (.put key v) (.put key w)
  | get (key : κ) : Alike (.get key) (.get key)
  | remove (key : κ) : Alike (.remove key) (.remove key)
  | contains (key : κ) : Alike (.contains key) (.contains key)
  | first : Alike .first .first
  | last : Alike .last .last
  | page (start : Option κ) (count : Nat) : Alike (.page start count) (.page start count)

/-- Answers that differ in the values. -/
inductive KeyedAnswer.Alike : KeyedAnswer κ ν → KeyedAnswer κ μ → Prop
  | done : Alike .done .done
  | found {v : Option ν} {w : Option μ} (h : Option.Rel V v w) : Alike (.found v) (.found w)
  | there (isThere : Bool) : Alike (.there isThere) (.there isThere)
  | entry {e : Option (κ × ν)} {e' : Option (κ × μ)}
    (h : Option.Rel (fun a b => a.1 = b.1 ∧ V a.2 b.2) e e') : Alike (.entry e) (.entry e')
  | entries {es : List (κ × ν)} {es' : List (κ × μ)}
    (h : List.Forall₂ (fun a b => a.1 = b.1 ∧ V a.2 b.2) es es') : Alike (.entries es) (.entries es')

/-- Maps that have the same keys with related values. -/
def StoreMap.Alike (m : StoreMap keys ν) (m' : StoreMap keys μ) : Prop :=
  OrderedMap.Matches Eq V m m'

variable {V}

theorem orderFaithful_eq : OrderedMap.OrderFaithful (Eq : StoreKey keys → StoreKey keys → Prop) := by
  rintro _ _ _ _ rfl rfl
  exact .rfl

theorem StoreMap.Alike.entries {bs : List (StoreKey keys × ν)} {bs' : List (StoreKey keys × μ)}
    (h : List.Forall₂ (OrderedMap.Related Eq V) bs bs') :
    List.Forall₂ (fun a b => a.1 = b.1 ∧ V a.2 b.2) (bs.map entry) (bs'.map entry) := by
  rw [List.forall₂_map_left_iff, List.forall₂_map_right_iff]
  exact h.imp fun _ _ related => ⟨congrArg StoreKey.key related.1, related.2⟩

theorem StoreMap.Alike.map_entry {b : Option (StoreKey keys × ν)} {b' : Option (StoreKey keys × μ)}
    (h : Option.Rel (OrderedMap.Related Eq V) b b') :
    Option.Rel (fun a b => a.1 = b.1 ∧ V a.2 b.2) (b.map entry) (b'.map entry) := by
  cases h with
  | none => exact .none
  | some related => exact .some ⟨congrArg StoreKey.key related.1, related.2⟩

/-- Maps with related values answer alike, and stay so. -/
theorem StoreMap.Alike.perform {m : StoreMap keys ν} {m' : StoreMap keys μ} (h : m.Alike V m')
    {call : KeyedCall keys.Carrier ν} {call' : KeyedCall keys.Carrier μ} (calls : call.Alike V call') :
    (m.perform call).1.Alike V (m'.perform call').1 ∧
      (m.perform call).2.Alike V (m'.perform call').2 := by
  cases calls with
  | put key value => exact ⟨.done, OrderedMap.Matches.insert orderFaithful_eq h rfl value⟩
  | get key => exact ⟨.found (OrderedMap.Matches.get? orderFaithful_eq h rfl), h⟩
  | remove key => exact ⟨.done, OrderedMap.Matches.erase orderFaithful_eq h rfl⟩
  | contains key =>
    refine ⟨?_, h⟩
    have same : m.contains ⟨key⟩ = m'.contains ⟨key⟩ :=
      OrderedMap.Matches.contains orderFaithful_eq h rfl
    rw [StoreMap.perform, StoreMap.perform, same]
    exact .there _
  | first => exact ⟨.entry (map_entry (OrderedMap.Matches.first? h)), h⟩
  | last => exact ⟨.entry (map_entry (OrderedMap.Matches.last? h)), h⟩
  | page start count =>
    refine ⟨.entries (entries ?_), h⟩
    cases start with
    | none => exact List.forall₂_take count h
    | some start => exact OrderedMap.Matches.page orderFaithful_eq h rfl count

theorem readEntry_alike {f : ν → Except StoreError ω} {g : μ → Except StoreError ω}
    (same : ∀ v w, V v w → f v = g w) {e : κ × ν} {e' : κ × μ}
    (h : e.1 = e'.1 ∧ V e.2 e'.2) : readEntry f e = readEntry g e' := by
  rw [readEntry, readEntry, h.1, same _ _ h.2]

/-- Answers that are alike give the same if related values do. -/
theorem KeyedAnswer.Alike.mapM_eq {a : KeyedAnswer κ ν} {b : KeyedAnswer κ μ} (h : a.Alike V b)
    {f : ν → Except StoreError ω} {g : μ → Except StoreError ω} (same : ∀ v w, V v w → f v = g w) :
    a.mapM f = b.mapM g := by
  have pairs : ∀ (e : κ × ν) e', e.1 = e'.1 ∧ V e.2 e'.2 → readEntry f e = readEntry g e' :=
    fun _ _ => readEntry_alike same
  cases h with
  | done => rfl
  | there isThere => rfl
  | found h =>
    cases h with
    | none => rfl
    | some h => simp only [KeyedAnswer.mapM, Option.mapM_some, same _ _ h]
  | entry h =>
    cases h with
    | none => rfl
    | some h => simp only [KeyedAnswer.mapM, Option.mapM_some, pairs _ _ h]
  | @entries es es' h =>
    have all : es.mapM (readEntry f) = es'.mapM (readEntry g) := by
      induction h with
      | nil => rfl
      | cons first _ ih => rw [List.mapM_cons, List.mapM_cons, pairs _ _ first, ih]
    rw [KeyedAnswer.mapM, KeyedAnswer.mapM, all]

end Alike

end SnapshotStore
