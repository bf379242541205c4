import SnapshotStore.Text.Duration
import SnapshotStore.Text.Quoted
import SnapshotStore.Text.Utf8

/-!
The errors of the library, as causes. `StorageError` is what a partition call or a provider of
partitions can answer, `StoreError` what the typed layers can. Each has one wording (`message`) and
one form for a listing (`inspect`), which shows the cause's kind and its fields.
-/

namespace SnapshotStore

/-! ## Files -/

/-- Why a file operation failed. -/
inductive DiskFault where
  | missing
  /-- The device fails, which no state of the files foretells. -/
  | device
  | alreadyExists
  | notDirectory
  | isDirectory
  | nameTooLong
  | invalidArgument
  /-- A path holds the character U+0000, which ends names. -/
  | nulInPath
  deriving DecidableEq, Repr, Inhabited

namespace DiskFault

/-- The number by which an operating system knows the fault, unless it never gets to see the
call. -/
def code? : DiskFault → Option Nat
  | missing => some 2
  | device => some 5
  | alreadyExists => some 17
  | notDirectory => some 20
  | isDirectory => some 21
  | invalidArgument => some 22
  | nameTooLong => some 36
  | nulInPath => none

def kind : DiskFault → String
  | missing => "NotFound"
  | device => "Uncategorized"
  | alreadyExists => "AlreadyExists"
  | notDirectory => "NotADirectory"
  | isDirectory => "IsADirectory"
  | nameTooLong => "InvalidFilename"
  | invalidArgument | nulInPath => "InvalidInput"

def reason : DiskFault → String
  | missing => "No such file or directory"
  | device => "Input/output error"
  | alreadyExists => "File exists"
  | notDirectory => "Not a directory"
  | isDirectory => "Is a directory"
  | nameTooLong => "File name too long"
  | invalidArgument => "Invalid argument"
  | nulInPath => "file name contained an unexpected NUL byte"

def message (fault : DiskFault) : String :=
  match fault.code? with
  | some code => s!"{fault.reason} (os error {code})"
  | none => fault.reason

def inspect (fault : DiskFault) : String :=
  let cause := "kind: " ++ fault.kind ++ ", message: " ++ Quoted.quote fault.reason ++ " \x7d"
  match fault.code? with
  | some code => "Os \x7b code: " ++ toString code ++ ", " ++ cause
  | none => "Error \x7b " ++ cause

end DiskFault

/-! ## Listings -/

/-- A kind of error with named fields in a listing. -/
def listing (kind : String) (fields : List (String × String)) : String :=
  kind ++ " \x7b " ++ ", ".intercalate (fields.map fun (name, text) => name ++ ": " ++ text) ++
    " \x7d"

/-- A kind of error with one thing inside in a listing. -/
def listingOf (kind inside : String) : String := kind ++ "(" ++ inside ++ ")"

/-! ## Partitions -/

/-- Why a partition call, or a call on a provider of partitions, failed. -/
inductive StorageError where
  | io (fault : DiskFault)
  /-- The space guard refused a write to a partition. -/
  | storageFull (entity : String)
  /-- A call did not end within its time budget. -/
  | timeout (operation : String) (nanos : Nat)
  | closed
  | corrupted (detail : String)
  | usageUnavailable (detail : String)
  /-- Nothing is there to run a periodic task. -/
  | noRuntime
  deriving DecidableEq, Repr, Inhabited

namespace StorageError

def message : StorageError → String
  | io fault => s!"I/O error: {fault.message}"
  | storageFull entity => s!"storage full: write to {entity} refused"
  | timeout operation nanos => s!"operation {operation} timed out after {Duration.ofNanos nanos}"
  | closed => "storage is closed"
  | corrupted detail => s!"storage corrupted: {detail}"
  | usageUnavailable detail => s!"usage unavailable: {detail}"
  | noRuntime => "no async runtime available: nothing runs periodic tasks here"

def kind : StorageError → String
  | io _ => "Io"
  | storageFull _ => "StorageFull"
  | timeout _ _ => "Timeout"
  | closed => "Closed"
  | corrupted _ => "Corrupted"
  | usageUnavailable _ => "UsageUnavailable"
  | noRuntime => "NoRuntime"

/-- The error in a listing: its kind with what it holds. -/
def inspect (error : StorageError) : String :=
  match error with
  | io fault => listingOf error.kind fault.inspect
  | storageFull entity => listing error.kind [("entity", Quoted.quote entity)]
  | timeout operation nanos =>
    listing error.kind [("operation", Quoted.quote operation), ("after", Duration.ofNanos nanos)]
  | closed => error.kind
  | corrupted detail | usageUnavailable detail => listingOf error.kind (Quoted.quote detail)
  | noRuntime => listingOf error.kind (Quoted.quote "nothing runs periodic tasks here")

end StorageError

/-! ## Causes of the typed layers -/

/-- Why a request was refused as it stands. -/
inductive Refusal where
  | negativeHead (offset : Int)
  | emptyBatch
  /-- A name is open with another store, key or value type. -/
  | otherType (entity : String)
  | backupNotConfigured
  | backupClosed
  /-- A partition was not read to its end in the expected number of pages. -/
  | endlessPages
  | stated (reason : String)
  deriving DecidableEq, Repr, Inhabited

def Refusal.message : Refusal → String
  | negativeHead offset => s!"default head offset must be non-negative, got {offset}"
  | emptyBatch => "batch size must be positive"
  | otherType entity => s!"entity {entity} is already open as a different store type"
  | backupNotConfigured => "backup is not configured"
  | backupClosed => "backup manager is closed"
  | endlessPages => "more pages than expected"
  | stated reason => reason

/-- Why bytes or a name could not be decoded. -/
inductive CodecFault where
  | keyNotText (fault : Utf8.Fault)
  | offsetKeySize (length : Nat)
  | keySize (length : Nat)
  | valueNotText (fault : Utf8.Fault)
  | truncatedEscape (name : String)
  | badEscape (digits name : String)
  | nameNotText (fault : Utf8.Fault)
  | taggedRecords
  | cbor
  | notArray
  | entryNotPair
  | entryNotArray
  | stated (reason : String)
  deriving DecidableEq, Repr, Inhabited

def CodecFault.message : CodecFault → String
  | keyNotText fault => s!"key is not UTF-8: {fault.message}"
  | offsetKeySize length => s!"offset key must be 8 bytes, got {length}"
  | keySize length => s!"key must be 8 bytes, got {length}"
  | valueNotText fault => s!"value is not UTF-8: {fault.message}"
  | truncatedEscape name => s!"truncated escape in {Quoted.quote name}"
  | badEscape digits name => s!"bad escape %{digits} in {Quoted.quote name}"
  | nameNotText fault => s!"entity name is not UTF-8: {fault.message}"
  | taggedRecords => "invalid protobuf snapshot: malformed message"
  | cbor => "invalid CBOR snapshot: malformed data item"
  | notArray => "CBOR snapshot is not an array"
  | entryNotPair => "CBOR entry is not a pair of byte strings"
  | entryNotArray => "CBOR entry is not an array"
  | stated reason => reason

/-- Why a backup manifest could not be used. -/
inductive ManifestFault where
  | unreadable
  /-- The current backup is in another format than the configured one. -/
  | formatMismatch (id found configured : String)
  | stated (reason : String)
  deriving DecidableEq, Repr, Inhabited

def ManifestFault.message : ManifestFault → String
  | unreadable => "meta.json: not a backup manifest"
  | formatMismatch id found configured =>
    s!"backup {id} is {found} but the configured format is {configured}"
  | stated reason => reason

/-- Why nothing could be encrypted. -/
inductive EncryptionFault where
  | keyNotBase64
  | stated (reason : String)
  deriving DecidableEq, Repr, Inhabited

def EncryptionFault.message : EncryptionFault → String
  | keyNotBase64 => "key is not base64: malformed text"
  | stated reason => reason

/-- Why a stored text could not be decrypted. -/
inductive DecryptionFault where
  | notBase64
  | tooShort
  | authentication
  | notText (fault : Utf8.Fault)
  /-- An encrypted value was met by a store without an encryptor. -/
  | noEncryptor (entity : String)
  | stated (reason : String)
  deriving DecidableEq, Repr, Inhabited

def DecryptionFault.message : DecryptionFault → String
  | notBase64 => "not base64: malformed text"
  | tooShort => "ciphertext too short"
  | authentication => "authentication failed"
  | notText fault => s!"plaintext is not UTF-8: {fault.message}"
  | noEncryptor entity =>
    s!"entity {entity} holds encrypted values but no encryptor is configured"
  | stated reason => reason

/-! ## Typed layers -/

/-- Why an operation of the typed layers failed. -/
inductive StoreError where
  | storage (error : StorageError)
  | io (fault : DiskFault)
  /-- A stored text is no JSON value of the store's value type. -/
  | serialization
  /-- A key holds no value; `key` is the key as a listing shows it. -/
  | valueNotFound (entity key : String)
  | invalidOperation (refusal : Refusal)
  | backupFailed (entity : String) (source : StoreError)
  | restoreFailed (entity : String) (source : StoreError)
  | malformedMetadata (fault : ManifestFault)
  | codec (fault : CodecFault)
  | encryptionFailed (fault : EncryptionFault)
  | decryptionFailed (fault : DecryptionFault)
  | invalidKeySize (expected actual : Nat)
  deriving DecidableEq, Repr, Inhabited

namespace StoreError

def message : StoreError → String
  | storage error => s!"storage error: {error.message}"
  | io fault => s!"I/O error: {fault.message}"
  | serialization => "serialization error: not a JSON value of the expected type"
  | valueNotFound entity key => s!"value not found for key {key} in entity {entity}"
  | invalidOperation refusal => s!"invalid operation: {refusal.message}"
  | backupFailed entity source => s!"backup of entity {entity} failed: {source.message}"
  | restoreFailed entity source => s!"restore of entity {entity} failed: {source.message}"
  | malformedMetadata fault => s!"malformed backup metadata: {fault.message}"
  | codec fault => s!"snapshot codec error: {fault.message}"
  | encryptionFailed fault => s!"encryption failed: {fault.message}"
  | decryptionFailed fault => s!"decryption failed: {fault.message}"
  | invalidKeySize expected actual =>
    s!"invalid key size: expected {expected} bytes, got {actual}"

def kind : StoreError → String
  | storage _ => "Storage"
  | io _ => "Io"
  | serialization => "Serialization"
  | valueNotFound _ _ => "ValueNotFound"
  | invalidOperation _ => "InvalidOperation"
  | backupFailed _ _ => "BackupFailed"
  | restoreFailed _ _ => "RestoreFailed"
  | malformedMetadata _ => "MalformedMetadata"
  | codec _ => "Codec"
  | encryptionFailed _ => "EncryptionFailed"
  | decryptionFailed _ => "DecryptionFailed"
  | invalidKeySize _ _ => "InvalidKeySize"

/-- The error in a listing: its kind with what it holds. -/
def inspect (error : StoreError) : String :=
  match error with
  | storage cause => listingOf error.kind cause.inspect
  | io fault => listingOf error.kind fault.inspect
  | serialization => listingOf error.kind "Error(\"not a JSON value of the expected type\")"
  | valueNotFound entity key =>
    listing error.kind [("entity", Quoted.quote entity), ("key", Quoted.quote key)]
  | invalidOperation refusal => stated refusal.message
  | backupFailed entity source | restoreFailed entity source =>
    listing error.kind [("entity", Quoted.quote entity), ("source", source.inspect)]
  | malformedMetadata fault => stated fault.message
  | codec fault => stated fault.message
  | encryptionFailed fault => stated fault.message
  | decryptionFailed fault => stated fault.message
  | invalidKeySize expected actual =>
    listing error.kind [("expected", toString expected), ("actual", toString actual)]
where
  /-- The kind with the wording of the cause. -/
  stated (text : String) : String := listing error.kind [("message", Quoted.quote text)]

/-- Whether a write was refused for want of space. -/
def isStorageFull : StoreError → Bool
  | storage (.storageFull _) => true
  | _ => false

def isTimeout : StoreError → Bool
  | storage (.timeout _ _) => true
  | _ => false

end StoreError

end SnapshotStore
