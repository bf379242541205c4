import SnapshotStore.Cipher.Encryptor
import SnapshotStore.Store.Entity

/-!
Sealed stores: entity stores of texts, where a text is the encrypted JSON of a value. A text that
cannot be decrypted is taken for the JSON of a value that was stored before encryption.
-/

namespace SnapshotStore

/-- A store of values as encrypted JSON. -/
structure SealedStore (κ ν : Type) where
  texts : EntityStore κ String
  encryptor : Encryptor
  json : JsonCodec ν

namespace SealedStore

variable {κ ν : Type} (s : SealedStore κ ν)

def sealValue (nonce : Gcm.Nonce) (value : ν) : Except StoreError String :=
  s.encryptor.encrypt nonce (s.json.write value)

def openText (stored : String) : Except StoreError ν :=
  match s.encryptor.decrypt stored with
  | .ok text => s.json.readText text
  | .error _ => s.json.readText stored

def openEntry (entry : κ × String) : Except StoreError (κ × ν) := do
  pure (entry.1, ← s.openText entry.2)

def put (nonce : Gcm.Nonce) (key : κ) (value : ν) : Operation Unit := do
  let text ← Operation.ofExcept (s.sealValue nonce value)
  s.texts.put key text

def get (key : κ) : Operation (Option ν) := do
  let stored ← s.texts.get key
  Operation.ofExcept (stored.mapM s.openText)

def remove (key : κ) : Operation Unit := s.texts.remove key

def contains (key : κ) : Operation Bool := s.texts.contains key

def first : Operation (Option (κ × ν)) := do
  let entry ← s.texts.first
  Operation.ofExcept (entry.mapM s.openEntry)

def last : Operation (Option (κ × ν)) := do
  let entry ← s.texts.last
  Operation.ofExcept (entry.mapM s.openEntry)

def page (start : Option κ) (count : Nat) : Operation (List (κ × ν)) := do
  let entries ← s.texts.page start count
  Operation.ofExcept (entries.mapM s.openEntry)

/-- The operations that stores have in common, where a value that is put is sealed with a nonce. -/
def keyed (nonce : Gcm.Nonce) : KeyedStore κ ν :=
  ⟨s.put nonce, s.get, s.remove, s.contains, s.first, s.last, s.page⟩

end SealedStore

end SnapshotStore
