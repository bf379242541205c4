import SnapshotStore.Proofs.Store.Texts

/-!
Values that were stored without envelopes, read through envelope stores. A store takes the text of
such a value for what it is unless the value itself resembles an envelope. Main statement: whatever
else a partition holds, these values are read as they are (`EnvelopeStore.reads_legacy`).
-/

namespace SnapshotStore

variable {κ ν : Type}

/-- Whether a value is read back from its text, and this could not be taken for an envelope. -/
def JsonCodec.Plain (json : JsonCodec ν) (v : ν) : Prop :=
  json.readText (json.write v) = .ok v ∧ ¬Envelope.Resembles (json.toJson v)

namespace ValueKind

/-- Whether a store can keep a value of a kind, it has no decimals, and its text could not be taken
for an envelope. -/
def Unmistakable : (kind : ValueKind) → kind.Carrier → Prop
  | value, v => v.Integral ∧ v.depth ≤ nestingLimit ∧ ¬Envelope.Resembles v
  | string, _ | signed, _ | bytes, _ | twin, _ => True

theorem Unmistakable.integral {kind : ValueKind} {v : kind.Carrier} (h : kind.Unmistakable v) :
    kind.Integral v := by
  cases kind with
  | value => exact ⟨h.1, h.2.1⟩
  | string | signed | bytes | twin => trivial

theorem Unmistakable.not_resembles {kind : ValueKind} {v : kind.Carrier}
    (h : kind.Unmistakable v) : ¬Envelope.Resembles (kind.json.toJson v) := by
  cases kind with
  | value => exact h.2.2
  | string | signed => exact nofun
  | bytes =>
    intro resembles
    generalize text : bytes.json.toJson v = json at resembles
    cases v with
    | nil => cases text; cases resembles
    | cons b v => cases text; cases resembles
  | twin =>
    intro resembles
    generalize text : twin.json.toJson v = json at resembles
    cases resembles with
    | pair => cases text
    | record flag _ =>
      cases text
      simp at flag

theorem Unmistakable.plain {kind : ValueKind} {v : kind.Carrier} (h : kind.Unmistakable v) :
    kind.json.Plain v :=
  ⟨readText_write h.integral.storable, h.not_resembles⟩

end ValueKind

namespace EnvelopeStore

variable (store : EnvelopeStore κ ν)

/-- A text without an envelope is read as the value that it was written for. -/
theorem openText_write {v : ν} (h : store.json.Plain v) :
    store.openText (store.json.write v) = .ok v := by
  have none : Envelope.ofText? (store.json.write v) = none := by
    rw [Envelope.ofText?, JsonCodec.write, Spelling.read?_render, Option.bind_some]
    exact Option.eq_none_iff_forall_ne_some.2 fun e read => h.2 (Envelope.resembles_of_read? read)
  rw [openText, none]
  exact h.1

end EnvelopeStore

/-! ## Entries -/

namespace EnvelopeStore

open Layout

variable {keys : KeyKind} {s : Standing Partition}

/-- Whether the bytes of an entry are read as a key and a value. -/
def Opens (store : EnvelopeStore κ ν) (bytes : Entry) (entry : κ × ν) : Prop :=
  ∃ text, store.texts.layout.readEntry bytes = .ok (entry.1, text) ∧
    store.openText text = .ok entry.2

variable (store : EnvelopeStore κ ν)

theorem runAlone_opens {find : Operation (Option (κ × String))} {bytes : Option Entry}
    (found : find.runAlone Partition.serve s = (Layout.readEntry? store.texts.layout bytes, s))
    {b : Entry} (there : bytes = some b) {entry : κ × ν} (opens : store.Opens b entry) :
    (do Operation.ofExcept ((← find).mapM store.openEntry)).runAlone Partition.serve s =
      (.ok (some entry), s) :=
  EntityStore.runAlone_entry_reads found there opens

theorem runAlone_page_opens (start : Option κ) (count : Nat) {entries : List (κ × ν)}
    (opens : List.Forall₂ store.Opens
      (s.base.entries.page (start.map store.texts.layout.keys.encode) count) entries) :
    (store.page start count).runAlone Partition.serve s = (.ok entries, s) :=
  EntityStore.runAlone_page_reads (store.sealValue (.ofSerial 0)) start count opens

theorem runAlone_get_opens {key : κ} {bytes : Bytes} {v : ν}
    (there : s.base.entries.get? (store.texts.layout.keys.encode key) = some bytes) {text : String}
    (read : store.texts.layout.values.decode bytes = .ok text) (opened : store.openText text = .ok v) :
    (store.get key).runAlone Partition.serve s = (.ok (some v), s) :=
  EntityStore.runAlone_get_reads (store.sealValue (.ofSerial 0)) there read opened

variable (name : String) (shards : Shards keys.Carrier) (encryptor : Option Encryptor)

theorem opens_text (json : JsonCodec ν) (key : keys.Carrier) {text : String} {v : ν}
    (h : (ofTexts name shards encryptor json).openText text = .ok v) :
    (ofTexts name shards encryptor json).Opens (keys.codec.encode key, Utf8.encode text) (key, v) :=
  reads_text key h

theorem opens_written (json : JsonCodec ν) (key : keys.Carrier) {v : ν} (h : json.Plain v) :
    (ofTexts name shards encryptor json).Opens
      (Layout.written ⟨keys.codec, json.stored⟩ (key, v)) (key, v) :=
  opens_text name shards encryptor json key (openText_write _ h)

/-- Values that were stored without envelopes are read as they are through an envelope store, with an
encryptor or without one, whatever else the partition holds; of a page, the other entries must be
readable, too. Only JSON values can be mistaken: of those without decimals, the ones that resemble an
envelope. -/
theorem reads_legacy (json : JsonCodec ν) (s : Standing Partition) :
    let plain := EntityStore.ofValues keys name json.stored shards
    let store := ofTexts name shards encryptor json
    (∀ key v, plain.layout.written (key, v) ∈
      ((plain.put key v).runAlone Partition.serve s).2.base.entries.toList) ∧
    (∀ key v, json.Plain v → plain.layout.written (key, v) ∈ s.base.entries.toList →
      (store.get key).runAlone Partition.serve s = (.ok (some v), s)) ∧
    (∀ key v, json.Plain v → s.base.entries.first? = some (plain.layout.written (key, v)) →
      store.first.runAlone Partition.serve s = (.ok (some (key, v)), s)) ∧
    (∀ key v, json.Plain v → s.base.entries.last? = some (plain.layout.written (key, v)) →
      store.last.runAlone Partition.serve s = (.ok (some (key, v)), s)) ∧
    (∀ start count entries,
      List.Forall₂ (fun bytes entry =>
          bytes = plain.layout.written entry ∧ json.Plain entry.2 ∨ store.Opens bytes entry)
        (s.base.entries.page (start.map keys.codec.encode) count) entries →
      (store.page start count).runAlone Partition.serve s = (.ok entries, s)) ∧
    ∀ (kind : ValueKind) (v : kind.Carrier), kind.Unmistakable v → kind.json.Plain v := by
  intro plain store
  refine ⟨fun key v => ?_, fun key v keeps there => ?_, fun key v keeps there => ?_,
    fun key v keeps there => ?_, fun start count entries there => ?_,
    fun _ _ keeps => keeps.plain⟩
  · refine OrderedMap.get?_eq_some_iff.1 ?_
    show (s.base.put _ _).entries.get? _ = _
    rw [Partition.entries_put, OrderedMap.get?_insert, if_pos rfl]
  · exact store.runAlone_get_opens (OrderedMap.get?_eq_some_iff.2 there) (ValueCodec.decode_text _)
      (store.openText_write keeps)
  · exact store.runAlone_opens rfl there (opens_written name shards encryptor json key keeps)
  · exact store.runAlone_opens rfl there (opens_written name shards encryptor json key keeps)
  · refine store.runAlone_page_opens start count (there.imp ?_)
    rintro bytes ⟨key, v⟩ (⟨rfl, keeps⟩ | opens)
    · exact opens_written name shards encryptor json key keeps
    · exact opens

/-- An object with the names of an envelope but no payload, an envelope, and an array of one truth
value, read through a store without an encryptor. -/
theorem reads_legacy_mixed :
    let keys : KeyKind := .string
    let json := ValueKind.anyJson
    let v : Json := .object [("encrypted", .bool true), ("payload", .null)]
    let w : Json := .array [.bool false]
    let shards : Shards keys.Carrier := Shards.ofCount 12 fun _ => 0
    let plain := EntityStore.ofValues keys "t" json.stored shards
    let store := ofTexts "t" shards none json
    let p := (((Partition.empty "t").put (keys.codec.encode "a") (json.stored.encode v)).put
      (keys.codec.encode "b") (Utf8.encode (Envelope.toJson ⟨false, "7"⟩).render)).put
      (keys.codec.encode "c") (json.stored.encode w)
    let s : Standing Partition := ⟨p, 0, 0⟩
    json.Plain v ∧ json.Plain w ∧
      plain.layout.written ("a", v) ∈ p.entries.toList ∧
      (store.get "a").runAlone Partition.serve s = (.ok (some v), s) ∧
      store.first.runAlone Partition.serve s = (.ok (some ("a", v)), s) ∧
      store.last.runAlone Partition.serve s = (.ok (some ("c", w)), s) ∧
      (store.page (some "a") 9).runAlone Partition.serve s =
        (.ok [("a", v), ("b", .int 7), ("c", w)], s) := by
  intro keys json v w shards plain store p s
  obtain ⟨-, get, first, last, page, kinds⟩ :=
    reads_legacy "t" shards none json s
  have plain_v : json.Plain v := by
    refine kinds .value v ⟨?_, by decide, ?_⟩
    · show Json.Integral (.ofMembers [("encrypted", .bool true), ("payload", .null)])
      refine .object ?_
      simp only [List.forall_mem_cons]
      exact ⟨.bool true, .null, nofun⟩
    · show ¬Envelope.Resembles (.object [("encrypted", .bool true), ("payload", .null)])
      rintro (_ | ⟨-, text⟩)
      simp at text
  have plain_w : json.Plain w := by
    refine kinds .value w ⟨.array ?_, by decide, ?_⟩
    · simp only [List.forall_mem_cons]
      exact ⟨.bool false, nofun⟩
    · show ¬Envelope.Resembles (.array [.bool false])
      exact nofun
  have there : plain.layout.written ("a", v) ∈ p.entries.toList := by decide +kernel
  have paged : p.entries.page (some (keys.codec.encode "a")) 9 =
      [plain.layout.written ("a", v),
        (keys.codec.encode "b", Utf8.encode (Envelope.toJson ⟨false, "7"⟩).render),
        plain.layout.written ("c", w)] := by decide +kernel
  have seven : store.openText (Envelope.toJson ⟨false, "7"⟩).render = .ok (.int 7) := by
    rw [openText, Envelope.ofText?_render]
    rfl
  have opens : store.Opens
      (keys.codec.encode "b", Utf8.encode (Envelope.toJson ⟨false, "7"⟩).render) ("b", .int 7) :=
    opens_text "t" shards none json (show keys.Carrier from "b") seven
  refine ⟨plain_v, plain_w, there, get "a" v plain_v there, first "a" v plain_v (by decide +kernel),
    last "c" w plain_w (by decide +kernel), page (some "a") 9 _ ?_⟩
  rw [Option.map_some, paged]
  exact .cons (.inl ⟨rfl, plain_v⟩) (.cons (.inr opens) (.cons (.inl ⟨rfl, plain_w⟩) .nil))

/-- A value that is written as an envelope is, with another member beside those of an envelope, or as an
array of what an envelope holds, is taken for an envelope, and its text for the payload. -/
theorem envelope_shapes_misread :
    let keys : KeyKind := .string
    let json := ValueKind.anyJson
    let shards : Shards keys.Carrier := Shards.ofCount 12 fun _ => 0
    let plain := EntityStore.ofValues keys "twins" json.stored shards
    let store := ofTexts "twins" shards none json
    let s := fun v =>
      ((plain.put "d" v).runAlone Partition.serve ⟨Partition.empty "twins", 0, 0⟩).2
    ∀ v ∈ [Json.object [("encrypted", .bool false), ("payload", .string "5")],
        .object [("encrypted", .bool false), ("note", .null), ("payload", .string "5")],
        .array [.bool false, .string "5"]],
      v.Proper ∧ v.depth = 1 ∧
        (plain.get "d").runAlone Partition.serve (s v) = (.ok (some v), s v) ∧
        (store.get "d").runAlone Partition.serve (s v) = (.ok (some (.int 5)), s v) ∧ .int 5 ≠ v := by
  intro keys json shards plain store s
  have misread : ∀ v : Json, v.Proper → v.depth = 1 →
      (s v).base.entries.get? (keys.codec.encode "d") = some (json.stored.encode v) →
      Envelope.ofText? (json.write v) = some ⟨false, "5"⟩ →
      v.Proper ∧ v.depth = 1 ∧
        (plain.get "d").runAlone Partition.serve (s v) = (.ok (some v), s v) ∧
        (store.get "d").runAlone Partition.serve (s v) = (.ok (some (.int 5)), s v) ∧ .int 5 ≠ v := by
    intro v proper depth there sealed
    have back : json.readText (json.write v) = .ok v :=
      @ValueKind.readText_write .value v ⟨proper, depth ▸ by decide⟩
    have opened : store.openText (json.write v) = .ok (.int 5) := by
      rw [openText, sealed]
      rfl
    have ne : .int 5 ≠ v := by
      rintro rfl
      exact absurd depth (by decide)
    refine ⟨proper, depth, ?_, store.runAlone_get_opens there (ValueCodec.decode_text _) opened, ne⟩
    show (readValue? ⟨keys.codec, json.stored⟩ ((s v).base.entries.get? (keys.codec.encode "d")), _) = _
    rw [there, readValue?, show ValueCodec.decode _ _ = _ from back]
    rfl
  simp only [List.forall_mem_cons]
  refine ⟨misread _ (.object (by decide) ?_) (by decide) ?_ ?_,
    misread _ (.object (by decide) ?_) (by decide) ?_ ?_,
    misread _ (.array ?_) (by decide) ?_ ?_, List.forall_mem_nil _⟩
  · simp only [List.forall_mem_cons]
    exact ⟨.bool false, .string "5", List.forall_mem_nil _⟩
  · decide +kernel
  · decide +kernel
  · simp only [List.forall_mem_cons]
    exact ⟨.bool false, .null, .string "5", List.forall_mem_nil _⟩
  · decide +kernel
  · decide +kernel
  · simp only [List.forall_mem_cons]
    exact ⟨.bool false, .string "5", List.forall_mem_nil _⟩
  · decide +kernel
  · decide +kernel

end EnvelopeStore

end SnapshotStore
