/-
  Published device records and the bindings that resolve a device through a mailbox.

  `DeviceDb` holds two key families: the records, keyed by identity and device, and the
  bindings, keyed by mailbox and device, which name the identity that owns the device.
  Both publication routes write them, `saveDeviceRecord` for device records (version 1)
  and `saveSignalV2Authorization` for signal bundles (version 2), and a backfill at start
  writes the bindings of records stored before there were any.

  * `authorizeMailboxDevice` is the lookup every mailbox route goes through;
  * `DeviceState.step` is one transaction of a route or of the backfill;
  * `save_device_cases` and `authorize_cases` say what the two routes do to the store.
-/
import Mathlib.Data.Char
import Mathlib.Logic.Function.Basic
import Echolet.Lib.SortedMap
import Echolet.Lib.Runs
import Echolet.Relay.PreKeyBundle

namespace Echolet

/-- The value under the key of a device record, as the current model decodes it. -/
inductive StoredRecord where
  | decoded (record : DeviceRecord)
  | null
  | undecodable
  deriving DecidableEq

structure DeviceDb where
  deviceRecord : SortedMap Text StoredRecord
  deviceMailbox : Text → Option Text

def deviceRecordKey (identityID deviceID : Text) : Text := identityID ++ ':' :: deviceID

def deviceMailboxBindingKey (mailboxID deviceID : Text) : Text := mailboxID ++ ':' :: deviceID

/-- A key of the prefix scan over one identity. -/
def hasIdentityPrefix (identityID key : Text) : Bool := (identityID ++ [':']).isPrefixOf key

def maxDevicesPerIdentity : ℕ := 16

/-! ## Validation -/

/-- `RawURLEncoding` without its line ends; the trailing bits are dropped. -/
def decodeRawChars : Text → Option (List ℕ)
  | [] => some []
  | [_] => none
  | [a, b] => do
    let x ← base64Value a
    let y ← base64Value b
    some [4 * x + y / 16]
  | [a, b, c] => do
    let x ← base64Value a
    let y ← base64Value b
    let z ← base64Value c
    some [4 * x + y / 16, 16 * (y % 16) + z / 4]
  | a :: b :: c :: d :: t => do
    let x ← base64Value a
    let y ← base64Value b
    let z ← base64Value c
    let w ← base64Value d
    let rest ← decodeRawChars t
    some ((4 * x + y / 16) :: (16 * (y % 16) + z / 4) :: (64 * (z % 4) + w) :: rest)

/-- `base64.RawURLEncoding.DecodeString`, which passes over line ends. -/
def decodeRawURL (t : Text) : Option (List ℕ) :=
  decodeRawChars (t.filter fun c => c ≠ '\r' ∧ c ≠ '\n')

section
variable (verify : DeviceRecord → List ℕ → List ℕ → Bool)

/-- `VerifyCanonicalJSONSignature`; `verify` checks a signature of the canonical record under
    a public key. -/
def verifyCanonicalJSONSignature (record : DeviceRecord) : Bool :=
  match decodeRawURL record.signature, decodeRawURL record.identityId with
  | some signature, some publicKey =>
    decide (signature.length = 64) && decide (publicKey.length = 32) &&
      verify record signature publicKey
  | _, _ => false

def validateDeviceRecord (record : DeviceRecord) : Except ValidationError Unit :=
  if record.type ≠ "device_record".toList then
    .error ⟨"INVALID_SCHEMA", "type must be device_record"⟩
  else if record.version ≠ 1 then .error ⟨"INVALID_SCHEMA", "version must be 1"⟩
  else if record.identityId = [] then .error ⟨"INVALID_SCHEMA", "identity_id is required"⟩
  else if record.deviceId = [] then .error ⟨"INVALID_SCHEMA", "device_id is required"⟩
  else if utf8Length record.identityId > maxIdentifierBytes then
    .error ⟨"INVALID_SCHEMA", "identity_id exceeds the maximum identifier length"⟩
  else if utf8Length record.deviceId > maxIdentifierBytes then
    .error ⟨"INVALID_SCHEMA", "device_id exceeds the maximum identifier length"⟩
  else if record.devicePubKey = [] then .error ⟨"INVALID_SCHEMA", "device_pubkey is required"⟩
  else if record.signature = [] then .error ⟨"INVALID_SIGNATURE", "signature is required"⟩
  else if verifyCanonicalJSONSignature verify record then .ok ()
  else .error ⟨"INVALID_SIGNATURE", "signature verification failed"⟩

end

/-! ## Publishing -/

/-- `ensureDeviceCapacity` refuses a new device of an identity that holds the maximum. -/
def ensureDeviceCapacity (db : DeviceDb) (identityID deviceID : Text) : Except PreKeyError Unit :=
  if (db.deviceRecord.get (deviceRecordKey identityID deviceID)).isSome then .ok ()
  else if maxDevicesPerIdentity ≤
      db.deviceRecord.entries.countP fun entry => hasIdentityPrefix identityID entry.1 then
    .error .tooManyDevices
  else .ok ()

section
variable (deriveMailboxID : Text → Text)

/-- `SaveDeviceMailboxBinding`: the first publication wins. -/
def saveDeviceMailboxBinding (db : DeviceDb) (record : DeviceRecord) : DeviceDb :=
  if record.identityId = [] ∨ record.deviceId = [] then db
  else
    let key := deviceMailboxBindingKey (deriveMailboxID record.identityId) record.deviceId
    match db.deviceMailbox key with
    | some _ => db
    | none =>
      { db with deviceMailbox := Function.update db.deviceMailbox key (some record.identityId) }

/-- Write a record under its key and bind it. -/
def setDeviceRecord (db : DeviceDb) (record : DeviceRecord) : DeviceDb :=
  saveDeviceMailboxBinding deriveMailboxID { db with
    deviceRecord := db.deviceRecord.insert (deviceRecordKey record.identityId record.deviceId)
      (.decoded record) } record

/-- `DeviceRecordRepository.Save`. -/
def saveDeviceRecord (db : DeviceDb) (record : DeviceRecord) : Except PreKeyError DeviceDb :=
  (ensureDeviceCapacity db record.identityId record.deviceId).map fun _ =>
    setDeviceRecord deriveMailboxID db record

def saveSignalV2Authorization (db : DeviceDb) (record : DeviceRecord) :
    Except PreKeyError DeviceDb :=
  match db.deviceRecord.get (deviceRecordKey record.identityId record.deviceId) with
  | some (.decoded stored) =>
    if stored.identityId ≠ record.identityId ∨ stored.deviceId ≠ record.deviceId ∨
        stored.devicePubKey ≠ record.devicePubKey then
      .error .bundleConflict
    else .ok (saveDeviceMailboxBinding deriveMailboxID db record)
  -- null leaves the decoded record empty, and its identity is never the one published
  | some .null => .error .bundleConflict
  | some .undecodable => .error .undecodable
  | none => saveDeviceRecord deriveMailboxID db record

/-! ## Resolving -/

inductive ResolveError where
  | keyNotFound
  | undecodable
  | mailboxOwnershipMismatch
  deriving DecidableEq

/-- `GetByMailboxAndDevice`. -/
def getByMailboxAndDevice (db : DeviceDb) (mailboxID deviceID : Text) :
    Except ResolveError DeviceRecord :=
  if mailboxID = [] ∨ deviceID = [] then .error .keyNotFound
  else
    match db.deviceMailbox (deviceMailboxBindingKey mailboxID deviceID) with
    | none => .error .keyNotFound
    | some identityID =>
      match db.deviceRecord.get (deviceRecordKey identityID deviceID) with
      | none => .error .keyNotFound
      | some .null => .error .keyNotFound
      | some .undecodable => .error .undecodable
      | some (.decoded record) => .ok record

def authorizeMailboxDevice (db : DeviceDb) (recipientMailboxID deviceID : Text) :
    Except ResolveError DeviceRecord := do
  let record ← getByMailboxAndDevice db recipientMailboxID deviceID
  if deriveMailboxID record.identityId ≠ recipientMailboxID then
    .error .mailboxOwnershipMismatch
  else .ok record

/-! ## The backfill of bindings, and the steps -/

/-- The records the scan of `BackfillDeviceMailboxBindings` collects, in key order. -/
def pendingBindings (db : DeviceDb) : List DeviceRecord :=
  db.deviceRecord.entries.filterMap fun entry =>
    match entry.2 with
    | .decoded record =>
      if record.identityId = [] ∨ record.deviceId = [] then none else some record
    | _ => none

/-- The store, and the records a running backfill still has to bind. -/
structure DeviceState where
  db : DeviceDb
  pending : Option (List DeviceRecord)

inductive DeviceAct where
  /-- A version 1 publication that validated. -/
  | save (record : DeviceRecord)
  /-- The device record of a version 2 publication. -/
  | authorize (record : DeviceRecord)
  | backfillScan
  | backfillBind (record : DeviceRecord)
  | backfillStop
  deriving DecidableEq

/-- One transaction; a refused publication leaves the store as it was. -/
def DeviceState.step (s : DeviceState) : DeviceAct → Option DeviceState
  | .save record => some <|
    match saveDeviceRecord deriveMailboxID s.db record with
    | .ok db => { s with db := db }
    | .error _ => s
  | .authorize record => some <|
    match saveSignalV2Authorization deriveMailboxID s.db record with
    | .ok db => { s with db := db }
    | .error _ => s
  | .backfillScan => some { s with pending := some (pendingBindings s.db) }
  | .backfillBind record =>
    match s.pending with
    | some (first :: rest) =>
      if first = record then
        some ⟨saveDeviceMailboxBinding deriveMailboxID s.db record, some rest⟩
      else none
    | _ => none
  | .backfillStop => some { s with pending := none }

end

/-! ## What the routes do -/

variable {deriveMailboxID : Text → Text} {db db' : DeviceDb} {record : DeviceRecord}

@[simp] theorem saveDeviceMailboxBinding_deviceRecord :
    (saveDeviceMailboxBinding deriveMailboxID db record).deviceRecord = db.deviceRecord := by
  unfold saveDeviceMailboxBinding
  split_ifs
  · rfl
  · simp only
    split <;> rfl

/-- **What binding a record does**: it fills its own key where that is free. -/
theorem deviceMailbox_bound (k : Text) :
    (saveDeviceMailboxBinding deriveMailboxID db record).deviceMailbox k =
      if record.identityId ≠ [] ∧ record.deviceId ≠ [] ∧ db.deviceMailbox k = none ∧
          k = deviceMailboxBindingKey (deriveMailboxID record.identityId) record.deviceId then
        some record.identityId
      else db.deviceMailbox k := by
  unfold saveDeviceMailboxBinding
  by_cases he : record.identityId = [] ∨ record.deviceId = []
  · rw [if_pos he, if_neg (by rintro ⟨hi, hd, -⟩; exact he.elim hi hd)]
  · rw [if_neg he]
    rw [not_or] at he
    simp only
    split
    · next i hs =>
      rw [if_neg]
      rintro ⟨-, -, hn, rfl⟩
      rw [hs] at hn; cases hn
    · next hn =>
      by_cases hk : k = deviceMailboxBindingKey (deriveMailboxID record.identityId) record.deviceId
      · subst hk
        rw [if_pos ⟨he.1, he.2, hn, rfl⟩]
        exact Function.update_self _ _ _
      · rw [if_neg fun h => hk h.2.2.2]
        exact Function.update_of_ne hk _ _

theorem saveDeviceMailboxBinding_keeps {k i : Text} (h : db.deviceMailbox k = some i) :
    (saveDeviceMailboxBinding deriveMailboxID db record).deviceMailbox k = some i := by
  rw [deviceMailbox_bound, if_neg, h]
  rintro ⟨-, -, hn, -⟩
  rw [h] at hn; cases hn

/-- A record with ids is bound afterwards. -/
theorem saveDeviceMailboxBinding_binds (hi : record.identityId ≠ []) (hd : record.deviceId ≠ []) :
    ((saveDeviceMailboxBinding deriveMailboxID db record).deviceMailbox
      (deviceMailboxBindingKey (deriveMailboxID record.identityId) record.deviceId)).isSome = true := by
  rw [deviceMailbox_bound]
  split_ifs with h
  · rfl
  · rw [Option.isSome_iff_ne_none]
    exact fun hn => h ⟨hi, hd, hn, rfl⟩

variable (deriveMailboxID db record) in
/-- **A version 1 publication** writes its record, or is refused for its number of devices. -/
theorem save_device_cases :
    saveDeviceRecord deriveMailboxID db record = .error .tooManyDevices ∨
    saveDeviceRecord deriveMailboxID db record = .ok (setDeviceRecord deriveMailboxID db record) := by
  unfold saveDeviceRecord ensureDeviceCapacity
  split_ifs
  · exact Or.inr rfl
  · exact Or.inl rfl
  · exact Or.inr rfl

/-- **A version 2 publication** finds a record of its device with its key, or writes one where
    there is none. -/
theorem authorize_cases (h : saveSignalV2Authorization deriveMailboxID db record = .ok db') :
    (∃ stored, db.deviceRecord.get (deviceRecordKey record.identityId record.deviceId) =
        some (.decoded stored) ∧ stored.devicePubKey = record.devicePubKey ∧
      db' = saveDeviceMailboxBinding deriveMailboxID db record) ∨
    db.deviceRecord.get (deviceRecordKey record.identityId record.deviceId) = none ∧
      db' = setDeviceRecord deriveMailboxID db record := by
  unfold saveSignalV2Authorization at h
  split at h
  next stored hs =>
    split_ifs at h with hn
    cases h
    rw [not_or, not_or, not_not, not_not, not_not] at hn
    exact Or.inl ⟨stored, hs, hn.2.2, rfl⟩
  next => cases h
  next => cases h
  next hs =>
    rcases save_device_cases deriveMailboxID db record with he | he
    · rw [he] at h; cases h
    · rw [he] at h
      cases h
      exact Or.inr ⟨hs, rfl⟩

end Echolet
