import SnapshotStore.Proofs.Store.Texts

/-!
Encrypted values as finite maps. A sealed store answers as the map of the values that were last put,
and so does an envelope store even if some values were put without encryption; without an encryptor,
it reads just these (`Corpus.answer`). Main statement: this holds of every run, with each encryptor
that decrypts what it has encrypted (`encrypted_answer_as_map`).
-/

namespace SnapshotStore

variable {keys : KeyKind} {κ ν μ : Type}

/-! ## Calls -/

/-- Whether an encryptor decrypts each text that it has encrypted. -/
def Encryptor.Undoes (encryptor : Encryptor) : Prop :=
  ∀ nonce text secret, encryptor.encrypt nonce text = .ok secret → encryptor.decrypt secret = .ok text

/-- A call through a store that has the encryptor, or through one that has none. -/
structure SealedCall (κ ν : Type) where
  encrypts : Bool
  nonce : Gcm.Nonce
  call : KeyedCall κ ν

namespace SealedCall

/-- What the text of a value is made before it is stored. -/
def payload (encryptor : Encryptor) (json : JsonCodec ν) (c : SealedCall κ ν) (v : ν) :
    Except StoreError String :=
  if c.encrypts then encryptor.encrypt c.nonce (json.write v) else .ok (json.write v)

variable (name : String) (shards : Shards keys.Carrier) (encryptor : Encryptor) (json : JsonCodec ν)

/-- Makes a call on a sealed store. -/
def onSeals (c : SealedCall keys.Carrier ν) (s : Standing Partition) :
    Except StoreError (KeyedAnswer keys.Carrier ν) × Standing Partition :=
  let store : SealedStore keys.Carrier ν := ⟨⟨name, Layout.texts keys, shards⟩, encryptor, json⟩
  ((store.keyed c.nonce).perform c.call).runAlone Partition.serve s

/-- Makes a call on an envelope store with the encryptor or without one. -/
def onEnvelopes (c : SealedCall keys.Carrier ν) (s : Standing Partition) :
    Except StoreError (KeyedAnswer keys.Carrier ν) × Standing Partition :=
  let store := EnvelopeStore.ofTexts name shards (if c.encrypts then some encryptor else none) json
  ((store.keyed c.nonce).perform c.call).runAlone Partition.serve s

end SealedCall

/-! ## Maps -/

/-- The answer to a call and the map after it, where a value that cannot be sealed is not put. -/
def StoreMap.offer (toText : ν → Except StoreError String) (call : KeyedCall keys.Carrier ν)
    (m : StoreMap keys ν) : Except StoreError (KeyedAnswer keys.Carrier ν) × StoreMap keys ν :=
  match call.mapM toText with
  | .error e => (.error e, m)
  | .ok _ => (.ok (m.perform call).1, (m.perform call).2)

/-- The call with each value that it puts made another one. -/
def KeyedCall.map (f : ν → μ) : KeyedCall κ ν → KeyedCall κ μ
  | put key value => .put key (f value)
  | get key => .get key
  | remove key => .remove key
  | contains key => .contains key
  | first => .first
  | last => .last
  | page start count => .page start count

/-- Values with a mark whether they are encrypted. -/
abbrev Corpus (keys : KeyKind) (ν : Type) := StoreMap keys (Bool × ν)

namespace Corpus

/-- What a store reads of a value: without the encryptor it cannot read encrypted ones. -/
def read (name : String) (encrypts : Bool) (entry : Bool × ν) : Except StoreError ν :=
  if entry.1 && !encrypts then .error (.decryptionFailed (.noEncryptor name)) else .ok entry.2

/-- The answer to a call and the values after it, where a value that cannot be sealed is not put. -/
def answer (name : String) (encryptor : Encryptor) (json : JsonCodec ν)
    (c : SealedCall keys.Carrier ν) (m : Corpus keys ν) :
    Except StoreError (KeyedAnswer keys.Carrier ν) × Corpus keys ν :=
  match c.call.mapM (c.payload encryptor json) with
  | .error e => (.error e, m)
  | .ok _ =>
    let (answer, m) := m.perform (c.call.map (c.encrypts, ·))
    (answer.mapM (read name c.encrypts), m)

end Corpus

/-! ## Partitions of texts -/

/-- Whether a partition holds texts that stand for the values of a map. -/
def KeepsTexts (V : String → μ → Prop) (p : Partition) (m : StoreMap keys μ) : Prop :=
  ∃ texts : StoreMap keys String, Layout.Holds ValueCodec.text p texts ∧ texts.Alike V m

theorem keepsTexts_empty {V : String → μ → Prop} {p : Partition} (h : p.entries = .empty) :
    KeepsTexts V p (.empty : StoreMap keys μ) :=
  ⟨.empty, Layout.holds_empty h, OrderedMap.matches_empty⟩

/-- A call is made one on texts that stand for its values. -/
theorem KeyedCall.alike_of_mapM {V : String → μ → Prop} {toText : ν → Except StoreError String}
    {f : ν → μ} {call : KeyedCall κ ν} {texts : KeyedCall κ String}
    (h : call.mapM toText = .ok texts)
    (each : ∀ key v text, call = .put key v → toText v = .ok text → V text (f v)) :
    texts.Alike V (call.map f) := by
  cases call with
  | put key v =>
    rw [KeyedCall.mapM] at h
    cases text : toText v with
    | error e =>
      rw [text] at h
      cases h
    | ok text' =>
      rw [text] at h
      cases h
      exact .put key (each key v text' rfl text)
  | get key => cases h; exact .get key
  | remove key => cases h; exact .remove key
  | contains key => cases h; exact .contains key
  | first => cases h; exact .first
  | last => cases h; exact .last
  | page start count => cases h; exact .page start count

/-- A store over texts answers as the map of what they stand for. -/
theorem perform_through_keeps (name : String) (shards : Shards keys.Carrier)
    {V : String → μ → Prop} {s : Standing Partition} {m : StoreMap keys μ}
    (h : KeepsTexts V s.base m) {toText : ν → Except StoreError String}
    {ofText : String → Except StoreError ν} {look : μ → Except StoreError ν} {f : ν → μ}
    (reads : ∀ text v, V text v → ofText text = look v) {call : KeyedCall keys.Carrier ν}
    (each : ∀ key v text, call = .put key v → toText v = .ok text → V text (f v)) :
    let store := (EntityStore.ofValues keys name ValueCodec.text shards).keyed.through toText ofText
    (∃ e, call.mapM toText = .error e ∧
      (store.perform call).runAlone Partition.serve s = (.error e, s)) ∨
    ∃ texts base, call.mapM toText = .ok texts ∧
      (store.perform call).runAlone Partition.serve s =
        ((m.perform (call.map f)).1.mapM look, { s with base }) ∧
      KeepsTexts V base (m.perform (call.map f)).2 := by
  intro store
  obtain ⟨texts, holds, alike⟩ := h
  rcases EntityStore.perform_through_map name shards holds toText ofText call with
    failed | ⟨call', base, sent, ran, after⟩
  · exact .inl failed
  · obtain ⟨answers, stays⟩ := alike.perform (KeyedCall.alike_of_mapM sent each)
    refine .inr ⟨call', base, sent, ?_, _, after, stays⟩
    rw [ran, answers.mapM_eq reads]

/-! ## Sealed stores and envelope stores -/

theorem KeyedAnswer.mapM_ok (a : KeyedAnswer κ ν) : a.mapM .ok = .ok a := by
  have entry : ∀ e : κ × ν, readEntry .ok e = .ok e := fun _ => rfl
  cases a with
  | done | there _ => rfl
  | found v => cases v <;> rfl
  | entry e => cases e <;> rfl
  | entries es =>
    have all : es.mapM (readEntry (.ok : ν → Except StoreError ν)) = .ok es := by
      induction es with
      | nil => rfl
      | cons e es ih => rw [List.mapM_cons, ih]; rfl
    rw [KeyedAnswer.mapM, all]
    rfl

theorem KeyedCall.map_id (call : KeyedCall κ ν) : call.map (fun v => v) = call := by
  cases call <;> rfl

section

variable (name : String) (shards : Shards keys.Carrier) {encryptor : Encryptor} {json : JsonCodec ν}

/-- Whether a text is encrypted from that of a value. -/
def Encryptor.Hides (encryptor : Encryptor) (json : JsonCodec ν) (text : String) (v : ν) : Prop :=
  encryptor.decrypt text = .ok (json.write v) ∧ json.readText (json.write v) = .ok v

theorem SealedCall.onSeals_offer (undoes : encryptor.Undoes) {c : SealedCall keys.Carrier ν}
    (back : c.call.ReadsBack json.stored) {s : Standing Partition} {m : StoreMap keys ν}
    (h : KeepsTexts (encryptor.Hides json) s.base m) :
    (c.onSeals name shards encryptor json s).1 =
        (m.offer (fun v => encryptor.encrypt c.nonce (json.write v)) c.call).1 ∧
      KeepsTexts (encryptor.Hides json) (c.onSeals name shards encryptor json s).2.base
        (m.offer (fun v => encryptor.encrypt c.nonce (json.write v)) c.call).2 := by
  let store : SealedStore keys.Carrier ν := ⟨⟨name, Layout.texts keys, shards⟩, encryptor, json⟩
  have reads : ∀ text v, encryptor.Hides json text v → store.openText text = .ok v := by
    rintro text v ⟨decrypted, read⟩
    rw [SealedStore.openText, decrypted]
    exact read
  have each : ∀ key v text, c.call = .put key v → store.sealValue c.nonce v = .ok text →
      encryptor.Hides json text v :=
    fun key v text puts hidden => ⟨undoes _ _ _ hidden, back key v puts⟩
  rcases perform_through_keeps name shards h (f := fun v => v) reads each with
    ⟨e, failed, ran⟩ | ⟨texts, base, sent, ran, keeps⟩
  · have failed : c.call.mapM (fun v => encryptor.encrypt c.nonce (json.write v)) = .error e := failed
    have ended : c.onSeals name shards encryptor json s = (.error e, s) := ran
    rw [ended, StoreMap.offer, failed]
    exact ⟨rfl, h⟩
  · have sent : c.call.mapM (fun v => encryptor.encrypt c.nonce (json.write v)) = .ok texts := sent
    rw [KeyedCall.map_id, KeyedAnswer.mapM_ok] at ran
    rw [KeyedCall.map_id] at keeps
    have ended : c.onSeals name shards encryptor json s =
      (.ok (m.perform c.call).1, { s with base }) := ran
    rw [ended, StoreMap.offer, sent]
    exact ⟨rfl, keeps⟩

/-- Whether a text is an envelope around the text of a value. -/
def Encryptor.Wraps (encryptor : Encryptor) (json : JsonCodec ν) (text : String) (entry : Bool × ν) :
    Prop :=
  ∃ payload, Envelope.ofText? text = some ⟨entry.1, payload⟩ ∧
    (if entry.1 then encryptor.decrypt payload else .ok payload) = .ok (json.write entry.2) ∧
    json.readText (json.write entry.2) = .ok entry.2

/-- Sealing fails if there is no payload, and puts the payload in an envelope else. -/
theorem EnvelopeStore.sealValue_eq {c : SealedCall keys.Carrier ν} (v : ν) :
    (EnvelopeStore.ofTexts name shards (if c.encrypts then some encryptor else none) json).sealValue
        c.nonce v =
      c.payload encryptor json v >>= fun payload =>
        pure (Envelope.toJson ⟨c.encrypts, payload⟩).render := by
  rw [SealedCall.payload, EnvelopeStore.sealValue, EnvelopeStore.envelop, EnvelopeStore.ofTexts]
  cases c.encrypts with
  | false => rfl
  | true =>
    show (encryptor.encrypt c.nonce (json.write v) >>= _) >>= _ = encryptor.encrypt _ _ >>= _
    cases encryptor.encrypt c.nonce (json.write v) <;> rfl

theorem KeyedCall.mapM_bind {f : ν → Except StoreError μ} {g : μ → String} (call : KeyedCall κ ν) :
    call.mapM (fun v => f v >>= fun w => pure (g w)) =
      call.mapM f >>= fun sent => pure (sent.map g) := by
  cases call with
  | put key v =>
    rw [KeyedCall.mapM, KeyedCall.mapM]
    cases f v <;> rfl
  | get _ | remove _ | contains _ | first | last | page _ _ => rfl

variable {c : SealedCall keys.Carrier ν}

/-- A store reads an envelope unless this is encrypted and the store has no encryptor. -/
theorem Encryptor.Wraps.openText {text : String} {entry : Bool × ν}
    (h : encryptor.Wraps json text entry) :
    (EnvelopeStore.ofTexts name shards (if c.encrypts then some encryptor else none) json).openText
        text = Corpus.read name c.encrypts entry := by
  obtain ⟨encrypted, v⟩ := entry
  obtain ⟨payload, wrapped, opened, read⟩ := h
  rw [EnvelopeStore.openText, wrapped, Corpus.read]
  cases encrypted with
  | false =>
    obtain rfl : payload = json.write v := Except.ok.inj opened
    exact read
  | true =>
    cases encrypts : c.encrypts with
    | false => rfl
    | true =>
      show encryptor.decrypt payload >>= json.readText = .ok v
      rw [show encryptor.decrypt payload = _ from opened]
      exact read

theorem SealedCall.wraps_payload (undoes : encryptor.Undoes) {v : ν} {payload : String}
    (back : json.readText (json.write v) = .ok v) (hidden : c.payload encryptor json v = .ok payload) :
    encryptor.Wraps json (Envelope.toJson ⟨c.encrypts, payload⟩).render (c.encrypts, v) := by
  refine ⟨payload, Envelope.ofText?_render _, ?_, back⟩
  rw [SealedCall.payload] at hidden
  show (if c.encrypts = true then _ else _) = _
  cases encrypts : c.encrypts with
  | false =>
    rw [encrypts] at hidden
    exact hidden.symm
  | true =>
    rw [encrypts] at hidden
    exact undoes _ _ _ hidden

theorem SealedCall.onEnvelopes_answer (undoes : encryptor.Undoes)
    (back : c.call.ReadsBack json.stored) {s : Standing Partition} {m : Corpus keys ν}
    (h : KeepsTexts (encryptor.Wraps json) s.base m) :
    (c.onEnvelopes name shards encryptor json s).1 = (m.answer name encryptor json c).1 ∧
      KeepsTexts (encryptor.Wraps json) (c.onEnvelopes name shards encryptor json s).2.base
        (m.answer name encryptor json c).2 := by
  let store := EnvelopeStore.ofTexts name shards (if c.encrypts then some encryptor else none) json
  let wrap := fun payload => (Envelope.toJson ⟨c.encrypts, payload⟩).render
  have seals : store.sealValue c.nonce =
      fun v => c.payload encryptor json v >>= fun payload => pure (wrap payload) :=
    funext (EnvelopeStore.sealValue_eq name shards)
  have each : ∀ key v text, c.call = .put key v → store.sealValue c.nonce v = .ok text →
      encryptor.Wraps json text (c.encrypts, v) := by
    intro key v text puts sealed
    rw [seals] at sealed
    dsimp only at sealed
    cases hidden : c.payload encryptor json v with
    | error e =>
      rw [hidden] at sealed
      cases sealed
    | ok payload =>
      rw [hidden] at sealed
      cases sealed
      exact SealedCall.wraps_payload undoes (back key v puts) hidden
  have ran := perform_through_keeps name shards h (f := fun v => (c.encrypts, v))
    (fun _ _ wraps => wraps.openText name shards (c := c)) each
  rw [seals, KeyedCall.mapM_bind] at ran
  rw [Corpus.answer]
  cases sent : c.call.mapM (c.payload encryptor json) with
  | error e =>
    rw [sent] at ran
    rcases ran with ⟨_, ⟨⟩, ran⟩ | ⟨_, _, ⟨⟩, _⟩
    have ended : c.onEnvelopes name shards encryptor json s = (.error e, s) := by
      rw [← ran, ← seals]
      rfl
    rw [ended]
    exact ⟨rfl, h⟩
  | ok payloads =>
    rw [sent] at ran
    rcases ran with ⟨_, ⟨⟩, _⟩ | ⟨_, base, -, ran, keeps⟩
    have ended : c.onEnvelopes name shards encryptor json s =
        ((m.perform (c.call.map (c.encrypts, ·))).1.mapM (Corpus.read name c.encrypts),
          { s with base }) := by
      rw [← ran, ← seals]
      rfl
    rw [ended]
    exact ⟨rfl, keeps⟩

/-! ## Reading with the encryptor -/

/-- Whether a call reads values. -/
def KeyedCall.looks : KeyedCall κ ν → Bool
  | get _ | first | last | page _ _ => true
  | put _ _ | remove _ | contains _ => false

theorem KeyedCall.alike_map {V : μ → ν → Prop} {f : ν → μ} (h : ∀ v, V (f v) v)
    (call : KeyedCall κ ν) : (call.map f).Alike V call := by
  cases call with
  | put key v => exact .put key (h v)
  | get key => exact .get key
  | remove key => exact .remove key
  | contains key => exact .contains key
  | first => exact .first
  | last => exact .last
  | page start count => exact .page start count

/-- If values are read with the encryptor only, it does not matter which of them are encrypted. -/
theorem Corpus.answer_offer {m : Corpus keys ν} {values : StoreMap keys ν}
    (h : m.Alike (fun entry v => entry.2 = v) values)
    (reads : c.call.looks = true → c.encrypts = true) :
    (m.answer name encryptor json c).1 = (values.offer (c.payload encryptor json) c.call).1 ∧
      (m.answer name encryptor json c).2.Alike (fun entry v => entry.2 = v)
        (values.offer (c.payload encryptor json) c.call).2 := by
  rw [answer, StoreMap.offer]
  cases c.call.mapM (c.payload encryptor json) with
  | error e => exact ⟨rfl, h⟩
  | ok _ =>
    obtain ⟨answers, stays⟩ := h.perform (KeyedCall.alike_map (f := (c.encrypts, ·)) (fun _ => rfl) c.call)
    refine ⟨?_, stays⟩
    show KeyedAnswer.mapM (read name c.encrypts) _ = _
    cases encrypts : c.encrypts with
    | true =>
      rw [encrypts] at answers
      have all : ∀ (entry : Bool × ν) v, entry.2 = v → read name true entry = .ok v := by
        rintro ⟨encrypted, _⟩ v rfl
        cases encrypted <;> rfl
      rw [answers.mapM_eq all, KeyedAnswer.mapM_ok]
    | false =>
      rw [encrypts] at reads
      cases call : c.call with
      | put | remove => rfl
      | contains key =>
        show Except.ok (KeyedAnswer.there (m.contains ⟨key⟩)) = .ok (.there (values.contains ⟨key⟩))
        rw [OrderedMap.Matches.contains orderFaithful_eq h rfl]
      | get | first | last | page =>
        rw [call] at reads
        cases reads rfl

end

/-! ## Runs -/

section

variable (name : String) (shards : Shards keys.Carrier) {encryptor : Encryptor} {json : JsonCodec ν}
  {p : Partition}

/-- From an empty partition on, a sealed store answers as the map of the values that were last put.
An envelope store does so as a map of values of which some are encrypted, which a store without the
encryptor cannot read; if values are read with the encryptor only, it answers as the map of all. What
cannot be encrypted is not put. -/
theorem encrypted_answer_as_map (undoes : encryptor.Undoes) (empty : p.entries = .empty)
    (head tail : Int) {calls : List (SealedCall keys.Carrier ν)}
    (back : ∀ c ∈ calls, c.call.ReadsBack json.stored) :
    trace (SealedCall.onSeals name shards encryptor json) calls ⟨p, head, tail⟩ =
        trace (fun c (m : StoreMap keys ν) =>
          m.offer (fun v => encryptor.encrypt c.nonce (json.write v)) c.call) calls .empty ∧
      trace (SealedCall.onEnvelopes name shards encryptor json) calls ⟨p, head, tail⟩ =
        trace (fun c (m : Corpus keys ν) => m.answer name encryptor json c) calls .empty ∧
      ((∀ c ∈ calls, c.call.looks = true → c.encrypts = true) →
        trace (SealedCall.onEnvelopes name shards encryptor json) calls ⟨p, head, tail⟩ =
          trace (fun c (m : StoreMap keys ν) => m.offer (c.payload encryptor json) c.call) calls
            .empty) ∧
      ∀ (s : Standing Partition) (nonce : Gcm.Nonce) key v e,
        encryptor.encrypt nonce (json.write v) = .error e →
          SealedCall.onSeals name shards encryptor json ⟨true, nonce, .put key v⟩ s = (.error e, s) ∧
          SealedCall.onEnvelopes name shards encryptor json ⟨true, nonce, .put key v⟩ s =
            (.error e, s) := by
  have sealed := trace_eq_of_related (R := fun (s : Standing Partition) (m : StoreMap keys ν) =>
      KeepsTexts (encryptor.Hides json) s.base m) (s := ⟨p, head, tail⟩) (keepsTexts_empty empty)
    fun c member s m h => SealedCall.onSeals_offer name shards undoes (back c member) h
  have enveloped := trace_eq_of_related (R := fun (s : Standing Partition) (m : Corpus keys ν) =>
      KeepsTexts (encryptor.Wraps json) s.base m) (s := ⟨p, head, tail⟩) (keepsTexts_empty empty)
    fun c member s m h => SealedCall.onEnvelopes_answer name shards undoes (back c member) h
  refine ⟨sealed, enveloped, fun reads => ?_, fun s nonce key v e failed => ⟨?_, ?_⟩⟩
  · exact enveloped.trans (trace_eq_of_related OrderedMap.matches_empty
      fun c member m values h => Corpus.answer_offer name h (reads c member))
  · let store : SealedStore keys.Carrier ν := ⟨⟨name, Layout.texts keys, shards⟩, encryptor, json⟩
    have refused : store.sealValue nonce v = .error e := failed
    show ((store.keyed nonce).perform (.put key v)).runAlone Partition.serve s = _
    rw [SealedStore.keyed_eq]
    exact KeyedStore.runAlone_put_through _ _ _ key refused s
  · let store := EnvelopeStore.ofTexts name shards (some encryptor) json
    have refused : store.sealValue nonce v = .error e := by
      have payload : SealedCall.payload encryptor json (⟨true, nonce, .put key v⟩ : SealedCall _ ν) v =
          .error e := failed
      have sealed : store.sealValue nonce v = _ :=
        EnvelopeStore.sealValue_eq name shards (c := (⟨true, nonce, .put key v⟩ : SealedCall _ ν)) v
      rw [sealed, payload]
      rfl
    show ((store.keyed nonce).perform (.put key v)).runAlone Partition.serve s = _
    rw [EnvelopeStore.keyed_eq]
    exact KeyedStore.runAlone_put_through _ _ _ key refused s

/-- Texts that are put with an encryptor that turns them round and without it. One looks like an
envelope, and one cannot be encrypted. -/
theorem encrypted_answer_as_map_mixed :
    let keys : KeyKind := .string
    let json := ValueKind.stringJson
    let shards : Shards keys.Carrier := Shards.ofCount 12 fun _ => 0
    let turned := fun text : String => String.ofList text.toList.reverse
    let encryptor : Encryptor :=
      ⟨fun _ text => if text.length < 3 then .error (.encryptionFailed (.stated "refused"))
        else .ok (turned text), fun text => .ok (turned text)⟩
    let nonce := Gcm.Nonce.ofSerial 1
    let v := "\x7b\"encrypted\":true,\"payload\":\"5\"\x7d"
    let puts : List (SealedCall keys.Carrier String) :=
      [⟨true, nonce, .put "b" v⟩, ⟨false, nonce, .put "a" "\n"⟩, ⟨true, nonce, .put "a" ""⟩,
        ⟨true, nonce, .page none 9⟩]
    let calls := puts ++ [⟨false, nonce, .get "a"⟩, ⟨false, nonce, .get "b"⟩]
    let s : Standing Partition := ⟨Partition.empty "notes", 0, 0⟩
    let refused : Except StoreError (KeyedAnswer keys.Carrier String) :=
      .error (.encryptionFailed (.stated "refused"))
    encryptor.Undoes ∧ (∀ c ∈ calls, c.call.ReadsBack json.stored) ∧
      trace (SealedCall.onSeals "notes" shards encryptor json) calls s =
        [.ok .done, .ok .done, refused, .ok (.entries [("a", "\n"), ("b", v)]),
          .ok (.found (some "\n")), .ok (.found (some v))] ∧
      trace (SealedCall.onEnvelopes "notes" shards encryptor json) calls s =
        [.ok .done, .ok .done, refused, .ok (.entries [("a", "\n"), ("b", v)]),
          .ok (.found (some "\n")), .error (.decryptionFailed (.noEncryptor "notes"))] ∧
      trace (SealedCall.onEnvelopes "notes" shards encryptor json) puts s =
        trace (fun c (m : StoreMap keys String) => m.offer (c.payload encryptor json) c.call) puts
          .empty ∧
      SealedCall.onEnvelopes "notes" shards encryptor json ⟨true, nonce, .put "a" ""⟩ s =
        (refused, s) := by
  intro keys json shards turned encryptor nonce v puts calls s refused
  have undoes : encryptor.Undoes := by
    intro nonce text secret encrypted
    show Except.ok (turned secret) = .ok text
    have encrypted : (if text.length < 3 then _ else Except.ok (turned text)) = _ := encrypted
    split_ifs at encrypted
    obtain rfl := Except.ok.inj encrypted
    simp only [turned, String.toList_ofList, List.reverse_reverse, String.ofList_toList]
  have back : ∀ c : SealedCall keys.Carrier String, c.call.ReadsBack json.stored :=
    fun c key value _ =>
      JsonCodec.decode_encode json (@ValueKind.readText_write .string _ trivial)
  have run := encrypted_answer_as_map "notes" shards undoes
    (show (Partition.empty "notes").entries = .empty from rfl) 0 0 fun c (_ : c ∈ calls) => back c
  have putting := encrypted_answer_as_map "notes" shards undoes
    (show (Partition.empty "notes").entries = .empty from rfl) 0 0 fun c (_ : c ∈ puts) => back c
  refine ⟨undoes, fun c _ => back c, run.1.trans ?_, run.2.1.trans ?_, putting.2.2.1 ?_,
    (run.2.2.2 s nonce "a" "" _ ?_).2⟩
  · decide +kernel
  · decide +kernel
  · simp only [puts, List.forall_mem_cons]
    exact ⟨nofun, nofun, nofun, fun _ => trivial, nofun⟩
  · decide +kernel

end

end SnapshotStore
