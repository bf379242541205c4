import SnapshotStore.Proofs.Cipher.Encryptor
import SnapshotStore.Proofs.Store.Texts

/-!
Values that were stored before encryption, read through sealed stores. The JSON text of such a value
is no frame under any key: it begins with a character that base 64 does not have, or it is too short
(`Json.Integral.rejectedEarly`), so that it is taken for what it is. Main statement: whatever else a
partition holds, these values are read as they are, without encryption and under every key
(`SealedStore.reads_unsealed`).
-/

namespace SnapshotStore

/-! ## Texts that are no frames -/

namespace Encryptor

/-- Whether a text is rejected under a key before anything is authenticated: it is not base 64, or too
short. -/
def RejectedEarly (key : Aes.Key) (text : String) : Prop :=
  Unreadable key text .notBase64 ∨ Unreadable key text .tooShort

variable {key : Aes.Key} {text : String}

theorem RejectedEarly.decrypt (h : RejectedEarly key text) :
    ∃ fault, (aes key).decrypt text = .error (.decryptionFailed fault) := by
  rcases h with other | short
  · exact ⟨_, other.unframe⟩
  · exact ⟨_, short.unframe⟩

/-- A text with a character that base 64 does not have is rejected. -/
theorem rejectedEarly_of_mem {c : Char} (mem : c ∈ text.toList) (noDigit : Base64.value? c = none)
    (noFill : c ≠ '=') : RejectedEarly key text := by
  refine .inl (.notBase64 ?_)
  rintro bytes rfl
  rw [Base64.encode, String.toList_ofList] at mem
  rcases Base64.of_mem_encodeChars mem with digit | fill
  · exact digit noDigit
  · exact noFill fill

/-- A text of less than forty characters is rejected. -/
theorem rejectedEarly_of_short (short : text.toList.length < 40) : RejectedEarly key text := by
  by_cases base64 : ∃ bytes, text = Base64.encode bytes
  · obtain ⟨bytes, rfl⟩ := base64
    rw [Base64.encode, String.toList_ofList] at short
    exact .inr (.tooShort (Base64.length_lt_of_encodeChars short))
  · exact .inl (.notBase64 fun bytes h => base64 ⟨bytes, h⟩)

end Encryptor

/-! ## Texts of values -/

namespace Json

open Encryptor

variable (key : Aes.Key)

theorem rejectedEarly_string (text : String) : RejectedEarly key (Json.string text).render :=
  rejectedEarly_of_mem (c := '"') (by simp [render, compact, quoted]) (by decide) (by decide)

theorem rejectedEarly_array (items : List Json) : RejectedEarly key (Json.array items).render := by
  refine rejectedEarly_of_mem (c := '[') ?_ (by decide) (by decide)
  cases items <;> simp [render, compact]

theorem rejectedEarly_object (members : List (String × Json)) :
    RejectedEarly key (Json.object members).render := by
  refine rejectedEarly_of_mem (c := '\x7b') ?_ (by decide) (by decide)
  cases members <;> simp [render, compact]

/-- A whole number of 64 bits begins with a minus or has at most twenty digits. -/
theorem rejectedEarly_int {n : Int} (low : -9223372036854775808 ≤ n)
    (high : n ≤ 18446744073709551615) : RejectedEarly key (Json.int n).render := by
  have chars : (Json.int n).render.toList = (Int.repr n).toList := by
    rw [int, render, compact, Number.chars, String.toList_ofList]
    rfl
  rw [Int.repr_eq_if] at chars
  split at chars
  · refine rejectedEarly_of_short ?_
    have digits : (Nat.toDigits 10 n.toNat).length ≤ 20 :=
      (Nat.length_toDigits_le_iff (by decide) (by decide)).2 (by omega)
    rw [chars, Nat.toList_repr]
    omega
  · refine rejectedEarly_of_mem (c := '-') ?_ (by decide) (by decide)
    rw [chars, String.toList_append]
    exact List.mem_append_left _ (by decide)

/-- The text of a value without decimals is no frame. -/
theorem Integral.rejectedEarly {v : Json} (h : v.Integral) : RejectedEarly key v.render := by
  cases h with
  | null => exact rejectedEarly_of_short (by decide)
  | bool b =>
    refine rejectedEarly_of_short ?_
    cases b <;> decide
  | int low high => exact rejectedEarly_int key low high
  | string text => exact rejectedEarly_string key text
  | array => exact rejectedEarly_array key _
  | object => exact rejectedEarly_object key _

end Json

namespace ValueKind

variable {kind : ValueKind} {v : kind.Carrier}

theorem Integral.rejectedEarly (h : kind.Integral v) (key : Aes.Key) :
    Encryptor.RejectedEarly key (kind.json.write v) := by
  cases kind with
  | string => exact Json.rejectedEarly_string key v
  | signed =>
    have low := v.le_toInt
    have high := v.toInt_lt
    exact Json.rejectedEarly_int key (by omega) (by omega)
  | bytes => exact Json.rejectedEarly_array key _
  | value => exact h.1.rejectedEarly key
  | twin => exact Json.rejectedEarly_object key _

end ValueKind

/-! ## Sealed stores -/

/-- The sealed store of a name. -/
def SealedStore.ofTexts {keys : KeyKind} {ν : Type} (name : String) (shards : Shards keys.Carrier)
    (encryptor : Encryptor) (json : JsonCodec ν) : SealedStore keys.Carrier ν :=
  ⟨⟨name, Layout.texts keys, shards⟩, encryptor, json⟩

namespace SealedStore

open Layout

variable {keys : KeyKind} {κ ν : Type} {kind : ValueKind}

theorem openText_null (store : SealedStore κ ν) (null : store.encryptor = .null) (text : String) :
    store.openText text = store.json.readText text := by
  rw [openText, null]
  rfl

theorem openText_of_rejected (store : SealedStore κ ν) {text : String} {e : StoreError}
    (rejected : store.encryptor.decrypt text = .error e) :
    store.openText text = store.json.readText text := by
  rw [openText, rejected]

/-- The text of a value that was stored before encryption is read as this value. -/
theorem openText_write (store : SealedStore κ kind.Carrier) (json : store.json = kind.json)
    (ready : store.encryptor = .null ∨ ∃ key, store.encryptor = .aes key) {v : kind.Carrier}
    (h : kind.Integral v) : store.openText (kind.json.write v) = .ok v := by
  have read : store.json.readText (kind.json.write v) = .ok v := by
    rw [json]
    exact ValueKind.readText_write h.storable
  rcases ready with null | ⟨key, aes⟩
  · rw [store.openText_null null, read]
  · obtain ⟨fault, rejected⟩ := (h.rejectedEarly key).decrypt
    rw [store.openText_of_rejected (aes ▸ rejected), read]

/-- What was sealed under the key of a store is read as what it was sealed for. -/
theorem openText_frame (store : SealedStore κ kind.Carrier) (json : store.json = kind.json)
    {key : Aes.Key} (aes : store.encryptor = .aes key) (nonce : Gcm.Nonce) {v : kind.Carrier}
    (h : kind.Storable v) :
    store.openText (Encryptor.frame key nonce (kind.json.write v)) = .ok v := by
  have plaintext : store.encryptor.decrypt (Encryptor.frame key nonce (kind.json.write v)) =
      .ok (kind.json.write v) := by
    rw [aes]
    exact Encryptor.unframe_frame key nonce _
  rw [openText, plaintext, json]
  exact ValueKind.readText_write h

/-- Values that were stored before encryption are read as they are through a sealed store, without
encryption or under any key, whatever else the partition holds; of a page, the other entries must be
readable, too. Under a key, the text of such a value is rejected before anything is authenticated. -/
theorem reads_unsealed (name : String) (shards : Shards keys.Carrier) {encryptor : Encryptor}
    (ready : encryptor = .null ∨ ∃ key, encryptor = .aes key) (s : Standing Partition) :
    let plain := EntityStore.ofValues keys name kind.json.stored shards
    let store := ofTexts name shards encryptor kind.json
    (∀ key v, plain.layout.written (key, v) ∈
      ((plain.put key v).runAlone Partition.serve s).2.base.entries.toList) ∧
    (∀ key v, kind.Integral v → plain.layout.written (key, v) ∈ s.base.entries.toList →
      (store.get key).runAlone Partition.serve s = (.ok (some v), s)) ∧
    (∀ key v, kind.Integral v → s.base.entries.first? = some (plain.layout.written (key, v)) →
      store.first.runAlone Partition.serve s = (.ok (some (key, v)), s)) ∧
    (∀ key v, kind.Integral v → s.base.entries.last? = some (plain.layout.written (key, v)) →
      store.last.runAlone Partition.serve s = (.ok (some (key, v)), s)) ∧
    (∀ start count entries,
      List.Forall₂ (fun bytes entry =>
          bytes = plain.layout.written entry ∧ kind.Integral entry.2 ∨
            store.texts.layout.Reads store.openText bytes entry)
        (s.base.entries.page (start.map keys.codec.encode) count) entries →
      (store.page start count).runAlone Partition.serve s = (.ok entries, s)) ∧
    ∀ v, kind.Integral v → ∀ key, Encryptor.RejectedEarly key (kind.json.write v) := by
  intro plain store
  have opens : ∀ v, kind.Integral v → store.openText (kind.json.write v) = .ok v :=
    fun v h => store.openText_write rfl ready h
  refine ⟨fun key v => plain.written_mem_put key v s, fun key v h there => ?_,
    fun key v h there => ?_, fun key v h there => ?_, fun start count entries there => ?_,
    fun v h key => h.rejectedEarly key⟩
  · exact EntityStore.runAlone_get_reads (store.sealValue (.ofSerial 0))
      (OrderedMap.get?_eq_some_iff.2 there) (ValueCodec.decode_text _) (opens v h)
  · exact EntityStore.runAlone_entry_reads rfl there (reads_text key (opens v h))
  · exact EntityStore.runAlone_entry_reads rfl there (reads_text key (opens v h))
  · refine EntityStore.runAlone_page_reads (store.sealValue (.ofSerial 0)) start count
      (there.imp ?_)
    rintro bytes ⟨key, v⟩ (⟨rfl, h⟩ | reads)
    · exact reads_text key (opens v h)
    · exact reads

/-- A word of base 64 characters and the greatest number, which is canonical base 64, with a value
between them that was sealed. -/
theorem reads_unsealed_words :
    let keys : KeyKind := .string
    let kind : ValueKind := .value
    let key : Aes.Key := ⟨List.replicate 32 7, rfl⟩
    let v : Json := .null
    let w : Json := .int 18446744073709551615
    let sealedText := Encryptor.frame key (.ofSerial 1) (kind.json.write (.bool true))
    let shards : Shards keys.Carrier := Shards.ofCount 12 fun _ => 0
    let plain := EntityStore.ofValues keys "t" kind.json.stored shards
    let store : SealedStore keys.Carrier kind.Carrier := ofTexts "t" shards (.aes key) kind.json
    let entries := [plain.layout.written ("a", v), (keys.codec.encode "b", Utf8.encode sealedText),
      plain.layout.written ("c", w)]
    let p := entries.foldl (fun p entry => p.put entry.1 entry.2) (Partition.empty "t")
    let s : Standing Partition := ⟨p, 0, 0⟩
    (Encryptor.aes key = .null ∨ ∃ key', Encryptor.aes key = .aes key') ∧
      kind.Integral v ∧ kind.Integral w ∧ plain.layout.written ("a", v) ∈ p.entries.toList ∧
      (store.get "a").runAlone Partition.serve s = (.ok (some v), s) ∧
      store.first.runAlone Partition.serve s = (.ok (some ("a", v)), s) ∧
      store.last.runAlone Partition.serve s = (.ok (some ("c", w)), s) ∧
      (store.page none 9).runAlone Partition.serve s =
        (.ok [("a", v), ("b", .bool true), ("c", w)], s) := by
  intro keys kind key v w sealedText shards plain store entries p s
  have ready : Encryptor.aes key = .null ∨ ∃ key', Encryptor.aes key = .aes key' := .inr ⟨key, rfl⟩
  have word : kind.Integral v := ⟨.null, by decide⟩
  have number : kind.Integral w := ⟨.int (by decide) (by decide), by decide⟩
  have opened : store.openText sealedText = .ok (.bool true) :=
    store.openText_frame rfl rfl (.ofSerial 1) (v := Json.bool true) ⟨.bool true, by decide⟩
  have ascending : (entries.map Prod.fst).Pairwise (· < ·) := by decide +kernel
  have filled : p.entries = OrderedMap.empty.insertAll entries := rfl
  have listed : p.entries.toList = entries := by
    rw [filled]
    exact OrderedMap.toList_insertAll (m := .empty) (l := entries) (List.pairwise_map.1 ascending)
  obtain ⟨-, get, first, last, page, -⟩ := @reads_unsealed keys kind "t" shards _ ready s
  have there : plain.layout.written ("a", v) ∈ p.entries.toList := by
    rw [listed]
    exact List.mem_cons_self
  refine ⟨ready, word, number, there, get "a" v word there, first "a" v word ?_, last "c" w number ?_,
    page none 9 _ ?_⟩
  · show p.entries.toList.head? = _
    rw [listed]
    rfl
  · show p.entries.toList.getLast? = _
    rw [listed]
    rfl
  · show List.Forall₂ _ (p.entries.toList.take 9) _
    rw [listed]
    exact .cons (.inl ⟨rfl, word⟩) (.cons (.inr (reads_text _ opened))
      (.cons (.inl ⟨rfl, number⟩) .nil))

end SealedStore

end SnapshotStore
