import SnapshotStore.Cipher.Encryptor
import SnapshotStore.Store.Entity

/-!
Envelope stores: entity stores of texts, where a text is a JSON record that holds the JSON of a
value and tells whether it is encrypted. Encryption may be turned on and off over one partition. A
text that is no such record is taken for the JSON of a value that was stored without one.
-/

namespace SnapshotStore

/-- The record in which a value is stored. -/
structure Envelope where
  encrypted : Bool
  payload : String
  deriving DecidableEq, Repr

namespace Envelope

def toJson (e : Envelope) : Json :=
  .object [("encrypted", .bool e.encrypted), ("payload", .string e.payload)]

/-- The truth value that a spelling means. -/
def flag? : Spelling → Option Bool
  | .bool b => some b
  | _ => none

/-- The envelope that a spelling means. -/
def read? (s : Spelling) : Option Envelope := do
  match ← s.fields? ["encrypted", "payload"] with
  | [encrypted, payload] => pure ⟨← flag? encrypted, ← payload.text?⟩
  | _ => none

/-- The envelope that a text spells. -/
def ofText? (text : String) : Option Envelope :=
  (Spelling.read? (Utf8.encode text)).bind read?

end Envelope

/-- A store of values in envelopes. -/
structure EnvelopeStore (κ ν : Type) where
  texts : EntityStore κ String
  encryptor : Option Encryptor
  json : JsonCodec ν

namespace EnvelopeStore

variable {κ ν : Type} (s : EnvelopeStore κ ν)

def encryptsWrites : Bool := s.encryptor.isSome

/-- The envelope of a value. -/
def envelop (nonce : Gcm.Nonce) (value : ν) : Except StoreError Envelope :=
  match s.encryptor with
  | none => .ok ⟨false, s.json.write value⟩
  | some encryptor => do
    let payload ← encryptor.encrypt nonce (s.json.write value)
    pure ⟨true, payload⟩

def sealValue (nonce : Gcm.Nonce) (value : ν) : Except StoreError String := do
  let envelope ← s.envelop nonce value
  pure envelope.toJson.render

def openText (stored : String) : Except StoreError ν :=
  match Envelope.ofText? stored with
  | none => s.json.readText stored
  | some ⟨false, payload⟩ => s.json.readText payload
  | some ⟨true, payload⟩ =>
    match s.encryptor with
    | none => .error (.decryptionFailed (.noEncryptor s.texts.name))
    | some encryptor => do
      let text ← encryptor.decrypt payload
      s.json.readText text

def openEntry (entry : κ × String) : Except StoreError (κ × ν) := do
  pure (entry.1, ← s.openText entry.2)

def put (nonce : Gcm.Nonce) (key : κ) (value : ν) : Operation Unit := do
  let text ← Operation.ofExcept (s.sealValue nonce value)
  s.texts.put key text

def get (key : κ) : Operation (Option ν) := do
  let stored ← s.texts.get key
  Operation.ofExcept (stored.mapM s.openText)

def remove (key : κ) : Operation Unit := s.texts.remove key

def contains (key : κ) : Operation Bool := s.texts.contains key

def first : Operation (Option (κ × ν)) := do
  let entry ← s.texts.first
  Operation.ofExcept (entry.mapM s.openEntry)

def last : Operation (Option (κ × ν)) := do
  let entry ← s.texts.last
  Operation.ofExcept (entry.mapM s.openEntry)

def page (start : Option κ) (count : Nat) : Operation (List (κ × ν)) := do
  let entries ← s.texts.page start count
  Operation.ofExcept (entries.mapM s.openEntry)

/-- The operations that stores have in common, where a value that is put is sealed with a nonce. -/
def keyed (nonce : Gcm.Nonce) : KeyedStore κ ν :=
  ⟨s.put nonce, s.get, s.remove, s.contains, s.first, s.last, s.page⟩

end EnvelopeStore

end SnapshotStore
