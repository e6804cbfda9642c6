/-
  The cap on the devices of one identity key, under concurrent publications.

  Both publication routes run as optimistic transactions of the store.  A publication of a
  new device counts the records whose key starts with its identity id, in its snapshot; the
  iterator's keys are not among those Badger checks at the end of the transaction, and the
  identity id is one of several texts that decode to the same Ed25519 key.

  * `publicationTx` is the transaction of a request, `publication_alone` says that on the
    store itself it is the sequential publication;
  * `SawDevices` is the condition on the end of an attempt: its scan counted every stored
    device of the key;
  * `device_cap`: under it no key exceeds the cap, and a published device is never refused
    by it; `device_cap_exceeded` is a run without it.
-/
import Echolet.Lib.Optimistic
import Echolet.Relay.DeviceKeys

namespace Echolet

/-! ## The transactions -/

inductive StoreKey (H : Type) where
  | deviceRecord (key : Text)
  | deviceMailbox (key : Text)
  | bundle (id : Text)
  | otkTuple (digest : H)
  | otkPublic (digest : H)
  | available (key : Text)
  deriving DecidableEq

inductive StoreWrite (H : Type) where
  | deviceRecord (key : Text) (record : StoredRecord)
  | deviceMailbox (key identityID : Text)
  | bundle (id : Text) (b : SignalPreKeyBundleV2)
  | otkTuple (digest : H) (id : Text)
  | otkPublic (digest : H) (id : Text)
  | available (key id : Text)

def StoreWrite.key {H : Type} : StoreWrite H → StoreKey H
  | .deviceRecord key _ => .deviceRecord key
  | .deviceMailbox key _ => .deviceMailbox key
  | .bundle id _ => .bundle id
  | .otkTuple digest _ => .otkTuple digest
  | .otkPublic digest _ => .otkPublic digest
  | .available key _ => .available key

/-- Set one key of the store. -/
def PreKeyDb.write {H : Type} [DecidableEq H] (db : PreKeyDb H) : StoreWrite H → PreKeyDb H
  | .deviceRecord key record => { db with deviceRecord := db.deviceRecord.insert key record }
  | .deviceMailbox key identityID =>
    { db with deviceMailbox := Function.update db.deviceMailbox key (some identityID) }
  | .bundle id b => { db with bundle := Function.update db.bundle id (some b) }
  | .otkTuple digest id => { db with otkTuple := Function.update db.otkTuple digest (some id) }
  | .otkPublic digest id => { db with otkPublic := Function.update db.otkPublic digest (some id) }
  | .available key id => { db with available := db.available.insert key id }

abbrev StoreAttempt (H : Type) := Attempt (StoreKey H) (StoreWrite H)

inductive PublicationRequest where
  | deviceRecord (record : DeviceRecord)
  | signal (raw : List UInt8) (nowMS : ℤ)

inductive PublicationError where
  | invalid (e : ValidationError)
  | refused (e : PreKeyError)
  deriving DecidableEq

section
variable {H : Type} [DecidableEq H] (hash : Text → H) (deriveMailboxID : Text → Text)
  (readOrdered : List UInt8 → Option Value) (signed : Value → Bool)
  (verify : DeviceRecord → List ℕ → List ℕ → Bool)

/-- `SaveDeviceMailboxBinding` in a transaction. -/
def bindingTx (db : DeviceDb) (record : DeviceRecord) : StoreAttempt H :=
  if record.identityId = [] ∨ record.deviceId = [] then .empty
  else
    let key := deviceMailboxBindingKey (deriveMailboxID record.identityId) record.deviceId
    match db.deviceMailbox key with
    | some _ => ⟨[.deviceMailbox key], []⟩
    | none => ⟨[.deviceMailbox key], [.deviceMailbox key record.identityId]⟩

/-- `DeviceRecordRepository.Save`. Of the capacity check only the `Get` of the device is a
    read that Badger records: the iterator counts keys without taking an item. -/
def saveDeviceRecordTx (db : DeviceDb) (record : DeviceRecord) :
    Except PreKeyError (StoreAttempt H) :=
  (ensureDeviceCapacity db record.identityId record.deviceId).map fun _ =>
    let key := deviceRecordKey record.identityId record.deviceId
    ⟨[.deviceRecord key], [.deviceRecord key (.decoded record)]⟩ ++
      bindingTx deriveMailboxID db record

def saveSignalV2AuthorizationTx (db : DeviceDb) (record : DeviceRecord) :
    Except PreKeyError (StoreAttempt H) :=
  let key := deviceRecordKey record.identityId record.deviceId
  match db.deviceRecord.get key with
  | some (.decoded stored) =>
    if stored.identityId ≠ record.identityId ∨ stored.deviceId ≠ record.deviceId ∨
        stored.devicePubKey ≠ record.devicePubKey then
      .error .bundleConflict
    else .ok (⟨[.deviceRecord key], []⟩ ++ bindingTx deriveMailboxID db record)
  | some .null => .error .bundleConflict
  | some .undecodable => .error .undecodable
  | none => saveDeviceRecordTx deriveMailboxID db record

/-- `SaveSignalV2`. -/
def saveSignalV2Tx (db : PreKeyDb H) (b : SignalPreKeyBundleV2) :
    Except PreKeyError (StoreAttempt H) :=
  if b.deviceRecord.identityId ≠ b.identityId ∨ b.deviceRecord.deviceId ≠ b.deviceId ∨
      b.deviceRecord.devicePubKey = [] then
    .error .schema
  else
    match db.bundle b.bundleId with
    | some stored =>
      if stored.raw = b.raw then
        (saveSignalV2AuthorizationTx deriveMailboxID db.toDeviceDb b.deviceRecord).map fun a =>
          ⟨[.bundle b.bundleId], []⟩ ++ a
      else .error .bundleConflict
    | none =>
      if (db.otkTuple (tupleDigest hash b)).isSome then .error .preKeyReused
      else if (db.otkPublic (publicDigest hash b)).isSome then .error .preKeyReused
      else
        (saveSignalV2AuthorizationTx deriveMailboxID db.toDeviceDb b.deviceRecord).map fun a =>
          ⟨[.bundle b.bundleId, .otkTuple (tupleDigest hash b), .otkPublic (publicDigest hash b)],
            [.otkTuple (tupleDigest hash b) b.bundleId, .otkPublic (publicDigest hash b) b.bundleId,
              .bundle b.bundleId b]⟩ ++ a ++ ⟨[], [.available (availableKey b) b.bundleId]⟩

/-- A publication: its checks, and its transaction on a snapshot. -/
def publicationTx : PublicationRequest → PreKeyDb H → Except PublicationError (StoreAttempt H)
  | .deviceRecord record, db =>
    match validateDeviceRecord verify record with
    | .error e => .error (.invalid e)
    | .ok () => (saveDeviceRecordTx deriveMailboxID db.toDeviceDb record).mapError .refused
  | .signal raw nowMS, db =>
    match validateSignalPreKeyBundleV2 readOrdered signed raw nowMS with
    | .error e => .error (.refused e)
    | .ok b => (saveSignalV2Tx hash deriveMailboxID db b).mapError .refused

def deviceRecordConflictRetries : ℕ := 64

abbrev PublicationService (H : Type) :=
  Optimistic PublicationRequest (PreKeyDb H) (StoreKey H) PublicationError

/-- A step of concurrent publications; both routes retry as often. -/
def PublicationService.step (s : PublicationService H) :
    OptimisticAct PublicationRequest → Option (PublicationService H) :=
  Optimistic.step (publicationTx hash deriveMailboxID readOrdered signed verify) PreKeyDb.write
    StoreWrite.key deviceRecordConflictRetries s

/-- The device record a valid request publishes. -/
def publishedRecord : PublicationRequest → Option DeviceRecord
  | .deviceRecord record =>
    match validateDeviceRecord verify record with
    | .error _ => none
    | .ok () => some record
  | .signal raw nowMS =>
    match validateSignalPreKeyBundleV2 readOrdered signed raw nowMS with
    | .error _ => none
    | .ok b => some b.deviceRecord

/-! ## Alone, a transaction is the sequential publication -/

variable {hash deriveMailboxID readOrdered signed verify}
variable {db : PreKeyDb H} {record : DeviceRecord}

theorem bindingTx_commit (db : PreKeyDb H) :
    (bindingTx deriveMailboxID db.toDeviceDb record).commit PreKeyDb.write db =
      { db with toDeviceDb := saveDeviceMailboxBinding deriveMailboxID db.toDeviceDb record } := by
  unfold bindingTx saveDeviceMailboxBinding
  split_ifs with he
  · rfl
  · simp only
    cases hm : db.deviceMailbox (deviceMailboxBindingKey (deriveMailboxID record.identityId)
      record.deviceId) <;> rfl

omit [DecidableEq H] in
/-- A binding depends on the bindings of the store alone. -/
theorem bindingTx_congr (db db' : DeviceDb) (h : db.deviceMailbox = db'.deviceMailbox) :
    (bindingTx deriveMailboxID db record : StoreAttempt H) = bindingTx deriveMailboxID db' record := by
  unfold bindingTx
  rw [h]

theorem saveDeviceRecordTx_alone :
    (saveDeviceRecordTx deriveMailboxID db.toDeviceDb record).map
        (fun a => a.commit PreKeyDb.write db) =
      (saveDeviceRecord deriveMailboxID db.toDeviceDb record).map
        fun devices => { db with toDeviceDb := devices } := by
  unfold saveDeviceRecordTx saveDeviceRecord
  cases ensureDeviceCapacity db.toDeviceDb record.identityId record.deviceId with
  | error e => rfl
  | ok u =>
    simp only [Except.map, Attempt.commit_append]
    rw [bindingTx_congr db.toDeviceDb (db.write (.deviceRecord (deviceRecordKey
      record.identityId record.deviceId) (.decoded record))).toDeviceDb rfl]
    exact congrArg Except.ok (bindingTx_commit _)

variable (deriveMailboxID db record) in
theorem saveSignalV2AuthorizationTx_alone :
    (saveSignalV2AuthorizationTx deriveMailboxID db.toDeviceDb record).map
        (fun a => a.commit PreKeyDb.write db) =
      (saveSignalV2Authorization deriveMailboxID db.toDeviceDb record).map
        fun devices => { db with toDeviceDb := devices } := by
  unfold saveSignalV2AuthorizationTx saveSignalV2Authorization
  simp only
  cases db.deviceRecord.get (deviceRecordKey record.identityId record.deviceId) with
  | none => exact saveDeviceRecordTx_alone
  | some stored =>
    cases stored with
    | null => rfl
    | undecodable => rfl
    | decoded stored =>
      simp only
      split_ifs
      · rfl
      · simp only [Except.map, Attempt.commit_append]
        exact congrArg Except.ok (bindingTx_commit _)

theorem except_map_ok {E A B : Type} {x : Except E A} {f : A → B} {y : B} (h : x.map f = .ok y) :
    ∃ a, x = .ok a ∧ f a = y := by
  cases x with
  | error e => cases h
  | ok a => cases h; exact ⟨a, rfl, rfl⟩

theorem except_mapError_ok {E E' A : Type} {x : Except E A} {f : E → E'} {a : A}
    (h : x.mapError f = .ok a) : x = .ok a := by
  cases x with
  | error e => cases h
  | ok a => cases h; rfl

theorem except_map_error {E A B : Type} {x : Except E A} {f : A → B} {e : E}
    (h : x.map f = .error e) : x = .error e := by
  cases x with
  | error e => cases h; rfl
  | ok a => cases h

theorem except_mapError_error {E E' A : Type} {x : Except E A} {f : E → E'} {e' : E'}
    (h : x.mapError f = .error e') : ∃ e, x = .error e ∧ f e = e' := by
  cases x with
  | error e => cases h; exact ⟨e, rfl, rfl⟩
  | ok a => cases h

theorem except_map_map {E A B C : Type} (f : A → B) (g : B → C) (x : Except E A) :
    (x.map f).map g = x.map fun a => g (f a) := by
  cases x <;> rfl

variable (db) in
/-- The authorization between two other parts of a transaction. -/
theorem saveSignalV2AuthorizationTx_between (before after : StoreAttempt H) :
    ((saveSignalV2AuthorizationTx deriveMailboxID (before.commit PreKeyDb.write db).toDeviceDb
        record).map fun a => before ++ a ++ after).map (fun a => a.commit PreKeyDb.write db) =
      (saveSignalV2Authorization deriveMailboxID (before.commit PreKeyDb.write db).toDeviceDb
        record).map fun devices => after.commit PreKeyDb.write
          { before.commit PreKeyDb.write db with toDeviceDb := devices } := by
  have ha := congrArg (Except.map fun db => after.commit PreKeyDb.write db)
    (saveSignalV2AuthorizationTx_alone deriveMailboxID (before.commit PreKeyDb.write db) record)
  rw [except_map_map, except_map_map] at ha
  simpa only [except_map_map, Attempt.commit_append] using ha

/-- **On the store itself the transaction of a bundle is its publication.** -/
theorem saveSignalV2Tx_alone {b : SignalPreKeyBundleV2} :
    (saveSignalV2Tx hash deriveMailboxID db b).map (fun a => a.commit PreKeyDb.write db) =
      (saveSignalV2 hash deriveMailboxID db b).map (·.2) := by
  unfold saveSignalV2Tx saveSignalV2
  by_cases hs : b.deviceRecord.identityId ≠ b.identityId ∨ b.deviceRecord.deviceId ≠ b.deviceId ∨
      b.deviceRecord.devicePubKey = []
  · rw [if_pos hs, if_pos hs]; rfl
  rw [if_neg hs, if_neg hs]
  cases db.bundle b.bundleId with
  | some stored =>
    simp only
    split_ifs with hraw
    · have h := saveSignalV2AuthorizationTx_alone deriveMailboxID db b.deviceRecord
      rw [except_map_map]
      simp only [Attempt.commit_append]
      refine h.trans ?_
      cases saveSignalV2Authorization deriveMailboxID db.toDeviceDb b.deviceRecord <;> rfl
    · rfl
  | none =>
    simp only [reserveOneTimeKey]
    by_cases ht : (db.otkTuple (tupleDigest hash b)).isSome = true
    · rw [if_pos ht, if_pos ht]; rfl
    by_cases hp : (db.otkPublic (publicDigest hash b)).isSome = true
    · rw [if_neg ht, if_pos hp, if_neg ht, if_pos hp]; rfl
    rw [if_neg ht, if_neg hp, if_neg ht, if_neg hp]
    refine (saveSignalV2AuthorizationTx_between db ⟨_, _⟩ ⟨_, _⟩).trans ?_
    change Except.map _ (saveSignalV2Authorization deriveMailboxID db.toDeviceDb b.deviceRecord) = _
    cases h : saveSignalV2Authorization deriveMailboxID db.toDeviceDb b.deviceRecord with
    | error e => simp only [bind, Except.bind, h]; rfl
    | ok devices => simp only [bind, Except.bind, h]; rfl

/-! ## What a transaction does to the device records -/

@[simp] theorem bindingTx_deviceRecord (db : DeviceDb) (db' : PreKeyDb H) :
    ((bindingTx deriveMailboxID db record).commit PreKeyDb.write db').deviceRecord =
      db'.deviceRecord := by
  unfold bindingTx
  split_ifs
  · rfl
  · simp only
    split <;> rfl

/-- The attempt leaves the device records of every store as they are, or writes one record
    that the capacity check of its snapshot admitted. -/
def WritesDevice (snapshot : DeviceDb) (record : DeviceRecord) (a : StoreAttempt H) : Prop :=
  (∀ db : PreKeyDb H, (a.commit PreKeyDb.write db).deviceRecord = db.deviceRecord) ∨
    ensureDeviceCapacity snapshot record.identityId record.deviceId = .ok () ∧
      ∀ db : PreKeyDb H, (a.commit PreKeyDb.write db).deviceRecord = db.deviceRecord.insert
        (deviceRecordKey record.identityId record.deviceId) (.decoded record)

/-- Parts of a transaction that write no device record do not matter. -/
theorem WritesDevice.between {snapshot : DeviceDb} {a before after : StoreAttempt H}
    (h : WritesDevice snapshot record a)
    (hb : ∀ db : PreKeyDb H, (before.commit PreKeyDb.write db).deviceRecord = db.deviceRecord)
    (ha : ∀ db : PreKeyDb H, (after.commit PreKeyDb.write db).deviceRecord = db.deviceRecord) :
    WritesDevice snapshot record (before ++ a ++ after) := by
  rcases h with h | ⟨hc, h⟩
  · exact Or.inl fun db => by simp only [Attempt.commit_append, ha, h, hb]
  · exact Or.inr ⟨hc, fun db => by simp only [Attempt.commit_append, ha, h, hb]⟩

theorem saveDeviceRecordTx_writes {snapshot : DeviceDb} {a : StoreAttempt H}
    (h : saveDeviceRecordTx deriveMailboxID snapshot record = .ok a) :
    WritesDevice snapshot record a := by
  unfold saveDeviceRecordTx at h
  cases hc : ensureDeviceCapacity snapshot record.identityId record.deviceId with
  | error e => rw [hc] at h; cases h
  | ok u =>
    rw [hc] at h
    cases h
    refine Or.inr ⟨hc, fun db => ?_⟩
    rw [Attempt.commit_append, bindingTx_deviceRecord]
    rfl

theorem saveSignalV2AuthorizationTx_writes {snapshot : DeviceDb} {a : StoreAttempt H}
    (h : saveSignalV2AuthorizationTx deriveMailboxID snapshot record = .ok a) :
    WritesDevice snapshot record a := by
  unfold saveSignalV2AuthorizationTx at h
  simp only at h
  split at h
  · split_ifs at h
    cases h
    refine Or.inl fun db => ?_
    rw [Attempt.commit_append, bindingTx_deviceRecord]
    rfl
  · cases h
  · cases h
  · exact saveDeviceRecordTx_writes h

variable (hash deriveMailboxID) in
/-- The transaction of a bundle is the authorization of its device between parts that write no
    device record, or is refused on other grounds than the cap. -/
theorem saveSignalV2Tx_cases (snapshot : PreKeyDb H) (b : SignalPreKeyBundleV2) :
    (∃ before after : StoreAttempt H,
      (∀ db : PreKeyDb H, (before.commit PreKeyDb.write db).deviceRecord = db.deviceRecord) ∧
      (∀ db : PreKeyDb H, (after.commit PreKeyDb.write db).deviceRecord = db.deviceRecord) ∧
      saveSignalV2Tx hash deriveMailboxID snapshot b =
        (saveSignalV2AuthorizationTx deriveMailboxID snapshot.toDeviceDb b.deviceRecord).map
          fun a => before ++ a ++ after) ∨
    ∃ e, e ≠ PreKeyError.tooManyDevices ∧
      saveSignalV2Tx hash deriveMailboxID snapshot b = .error e := by
  unfold saveSignalV2Tx
  by_cases hs : b.deviceRecord.identityId ≠ b.identityId ∨ b.deviceRecord.deviceId ≠ b.deviceId ∨
      b.deviceRecord.devicePubKey = []
  · rw [if_pos hs]
    exact Or.inr ⟨_, by decide, rfl⟩
  rw [if_neg hs]
  cases snapshot.bundle b.bundleId with
  | some stored =>
    simp only
    split_ifs
    · refine Or.inl ⟨⟨[.bundle b.bundleId], []⟩, .empty, fun _ => rfl, fun _ => rfl, ?_⟩
      simp only [Attempt.append_empty]
    · exact Or.inr ⟨_, by decide, rfl⟩
  | none =>
    simp only
    split_ifs
    · exact Or.inr ⟨_, by decide, rfl⟩
    · exact Or.inr ⟨_, by decide, rfl⟩
    · exact Or.inl ⟨_, _, fun _ => rfl, fun _ => rfl, rfl⟩

theorem saveSignalV2Tx_writes {snapshot : PreKeyDb H} {b : SignalPreKeyBundleV2}
    {a : StoreAttempt H} (h : saveSignalV2Tx hash deriveMailboxID snapshot b = .ok a) :
    WritesDevice snapshot.toDeviceDb b.deviceRecord a := by
  rcases saveSignalV2Tx_cases hash deriveMailboxID snapshot b with
    ⟨before, after, hb, ha, he⟩ | ⟨e, -, he⟩
  · rw [he] at h
    obtain ⟨a', ha', rfl⟩ := except_map_ok h
    exact (saveSignalV2AuthorizationTx_writes ha').between hb ha
  · rw [he] at h; cases h

omit [DecidableEq H] in
theorem saveDeviceRecordTx_tooMany {snapshot : DeviceDb}
    (h : saveDeviceRecordTx (H := H) deriveMailboxID snapshot record = .error .tooManyDevices) :
    snapshot.deviceRecord.get (deviceRecordKey record.identityId record.deviceId) = none := by
  have h := except_map_error h
  unfold ensureDeviceCapacity at h
  split_ifs at h with hn
  simpa using hn

theorem saveSignalV2Tx_tooMany {snapshot : PreKeyDb H} {b : SignalPreKeyBundleV2}
    (h : saveSignalV2Tx hash deriveMailboxID snapshot b = .error .tooManyDevices) :
    snapshot.deviceRecord.get (deviceRecordKey b.deviceRecord.identityId b.deviceRecord.deviceId) =
      none := by
  rcases saveSignalV2Tx_cases hash deriveMailboxID snapshot b with
    ⟨before, after, -, -, he⟩ | ⟨e, hne, he⟩
  · rw [he] at h
    have h := except_map_error h
    unfold saveSignalV2AuthorizationTx at h
    simp only at h
    split at h
    · split_ifs at h; cases h
    · cases h
    · cases h
    · assumption
  · rw [he] at h
    cases h
    exact absurd rfl hne

/-- **What the transaction of a publication does**: its request is valid, and of the device
    records it writes the one it publishes at most. -/
theorem publicationTx_ok {request : PublicationRequest} {snapshot : PreKeyDb H} {a : StoreAttempt H}
    (h : publicationTx hash deriveMailboxID readOrdered signed verify request snapshot = .ok a) :
    ∃ record, publishedRecord readOrdered signed verify request = some record ∧
      Admissible record ∧ WritesDevice snapshot.toDeviceDb record a := by
  cases request with
  | deviceRecord record =>
    simp only [publicationTx] at h
    simp only [publishedRecord]
    cases hv : validateDeviceRecord verify record with
    | error e => rw [hv] at h; cases h
    | ok u =>
      rw [hv] at h
      exact ⟨record, rfl, validateDeviceRecord_admissible hv,
        saveDeviceRecordTx_writes (except_mapError_ok h)⟩
  | signal raw now =>
    simp only [publicationTx] at h
    simp only [publishedRecord]
    cases hv : validateSignalPreKeyBundleV2 readOrdered signed raw now with
    | error e => rw [hv] at h; cases h
    | ok b =>
      rw [hv] at h
      exact ⟨b.deviceRecord, rfl, validateSignal_admissible hv,
        saveSignalV2Tx_writes (except_mapError_ok h)⟩

theorem validateSignal_ne_tooMany {raw : List UInt8} {now : ℤ} :
    validateSignalPreKeyBundleV2 readOrdered signed raw now ≠ .error .tooManyDevices := by
  unfold validateSignalPreKeyBundleV2
  split
  · intro h; cases h
  · split
    · intro h; cases h
    · split_ifs <;> intro h <;> cases h

/-- **A transaction is refused by the cap** only for a device its snapshot does not hold. -/
theorem publicationTx_tooMany {request : PublicationRequest} {snapshot : PreKeyDb H}
    (h : publicationTx hash deriveMailboxID readOrdered signed verify request snapshot =
      .error (.refused .tooManyDevices)) :
    ∃ record, publishedRecord readOrdered signed verify request = some record ∧
      snapshot.deviceRecord.get (deviceRecordKey record.identityId record.deviceId) = none := by
  cases request with
  | deviceRecord record =>
    simp only [publicationTx] at h
    simp only [publishedRecord]
    cases hv : validateDeviceRecord verify record with
    | error e => rw [hv] at h; cases h
    | ok u =>
      rw [hv] at h
      obtain ⟨e, he, hr⟩ := except_mapError_error h
      cases hr
      exact ⟨record, rfl, saveDeviceRecordTx_tooMany he⟩
  | signal raw now =>
    simp only [publicationTx] at h
    simp only [publishedRecord]
    cases hv : validateSignalPreKeyBundleV2 readOrdered signed raw now with
    | error e =>
      rw [hv] at h
      cases h
      exact absurd hv validateSignal_ne_tooMany
    | ok b =>
      rw [hv] at h
      obtain ⟨e, he, hr⟩ := except_mapError_error h
      cases hr
      exact ⟨b.deviceRecord, rfl, saveSignalV2Tx_tooMany he⟩

/-! ## The cap -/

/-- The record's signature was verified under `key`, the Ed25519 key its identity id decodes to. -/
def HasKey (key : List ℕ) (entry : Text × StoredRecord) : Bool :=
  match entry.2 with
  | .decoded r => decide (decodeRawURL r.identityId = some key)
  | _ => false

/-- How many stored device records one identity key holds. -/
def deviceCount (key : List ℕ) (db : DeviceDb) : ℕ := db.deviceRecord.entries.countP (HasKey key)

/-- Every stored device of the record's identity key was there for the scan of the snapshot. -/
def SawAll (snapshot db : DeviceDb) (record : DeviceRecord) : Prop :=
  ∀ key ∈ decodeRawURL record.identityId, ∀ entry ∈ db.deviceRecord.entries,
    HasKey key entry = true → hasIdentityPrefix record.identityId entry.1 = true ∧
      (snapshot.deviceRecord.get entry.1).isSome = true

instance (snapshot db : DeviceDb) (record : DeviceRecord) : Decidable (SawAll snapshot db record) :=
  inferInstanceAs (Decidable (∀ key ∈ _, _))

variable (readOrdered signed verify) in
/-- An attempt to publish a device that its snapshot does not hold ends only where its scan saw
    every stored device of the identity key. -/
def SawDevices (s : PublicationService H) : OptimisticAct PublicationRequest → Prop
  | .finish i =>
    match s.flights i with
    | some ⟨request, _, some (snapshot, _)⟩ =>
      ∀ record ∈ publishedRecord readOrdered signed verify request,
        snapshot.deviceRecord.get (deviceRecordKey record.identityId record.deviceId) = none →
          SawAll snapshot.toDeviceDb s.db.toDeviceDb record
    | _ => True
  | _ => True

/-- Records are decoded and stand under their own keys, and no key holds more than the maximum. -/
structure WithinCap (db : DeviceDb) : Prop where
  filed : ∀ {k v}, db.deviceRecord.get k = some v → ∃ r, v = .decoded r ∧
    k = deviceRecordKey r.identityId r.deviceId ∧ Admissible r
  capped : ∀ key, deviceCount key db ≤ maxDevicesPerIdentity

/-- The devices of a key that a scan saw are no more than it counted. -/
theorem SawAll.count_le {snapshot db : DeviceDb} {record : DeviceRecord} {key : List ℕ}
    (h : SawAll snapshot db record) (hk : decodeRawURL record.identityId = some key) :
    deviceCount key db ≤ snapshot.deviceRecord.entries.countP fun entry =>
      hasIdentityPrefix record.identityId entry.1 := by
  have hnodup : ((db.deviceRecord.entries.filter (HasKey key)).map (·.1)).Nodup :=
    db.deviceRecord.keys_nodup.sublist (List.filter_sublist.map _)
  have hsub : (db.deviceRecord.entries.filter (HasKey key)).map (·.1) ⊆
      (snapshot.deviceRecord.entries.filter fun entry =>
        hasIdentityPrefix record.identityId entry.1).map (·.1) := by
    intro k hk'
    obtain ⟨entry, he, rfl⟩ := List.mem_map.1 hk'
    obtain ⟨hmem, hkey⟩ := List.mem_filter.1 he
    obtain ⟨hp, hs⟩ := h key hk entry hmem hkey
    obtain ⟨v, hv⟩ := Option.isSome_iff_exists.1 hs
    exact List.mem_map.2 ⟨(entry.1, v), List.mem_filter.2 ⟨SortedMap.mem_entries.2 hv, hp⟩, rfl⟩
  have hlen := (List.subperm_of_subset hnodup hsub).length_le
  simpa only [deviceCount, List.countP_eq_length_filter, List.length_map] using hlen

/-- **Writing a record the cap admitted keeps it.** -/
theorem WithinCap.insert {snapshot db : DeviceDb} {record : DeviceRecord} (h : WithinCap db)
    (hr : Admissible record)
    (hle : ∀ k, (snapshot.deviceRecord.get k).isSome = true → (db.deviceRecord.get k).isSome = true)
    (hc : ensureDeviceCapacity snapshot record.identityId record.deviceId = .ok ())
    (hs : snapshot.deviceRecord.get (deviceRecordKey record.identityId record.deviceId) = none →
      SawAll snapshot db record) {db' : DeviceDb}
    (hdb : db'.deviceRecord = db.deviceRecord.insert
      (deviceRecordKey record.identityId record.deviceId) (.decoded record)) : WithinCap db' := by
  refine ⟨fun {k v} hk => ?_, fun key => ?_⟩
  · rw [hdb, SortedMap.get_insert] at hk
    split_ifs at hk with he
    · cases hk; exact ⟨record, rfl, he, hr⟩
    · exact h.filed hk
  · unfold deviceCount
    rw [hdb]
    by_cases hkey : decodeRawURL record.identityId = some key
    · cases hn : snapshot.deviceRecord.get (deviceRecordKey record.identityId record.deviceId) with
      | none =>
        -- a new device: the scan counted all of them and one more fits
        have hcount := (hs hn).count_le hkey
        have hins := db.deviceRecord.countP_insert_le
          (deviceRecordKey record.identityId record.deviceId) (.decoded record) (HasKey key)
        unfold ensureDeviceCapacity at hc
        rw [hn] at hc
        simp only [Option.isSome_none, Bool.false_eq_true, if_false] at hc
        split_ifs at hc with hmax
        unfold deviceCount at hcount
        split_ifs at hins <;> omega
      | some v =>
        -- a published device: its record is replaced by one of the same key
        obtain ⟨w, hw⟩ := Option.isSome_iff_exists.1 (hle _ (by rw [hn]; rfl))
        obtain ⟨r, rfl, hkr, hra⟩ := h.filed hw
        have hid : record.identityId = r.identityId :=
          (join_inj_left hr.colon_notMem hra.colon_notMem hkr).1
        refine (SortedMap.countP_insert_of_get hw fun _ => ?_).trans (h.capped key)
        simpa [HasKey, ← hid] using hkey
    · have hins := db.deviceRecord.countP_insert_le
        (deviceRecordKey record.identityId record.deviceId) (.decoded record) (HasKey key)
      rw [if_neg (by simpa [HasKey] using hkey)] at hins
      exact hins.trans (h.capped key)

/-! ## Runs -/

/-- The store holds a record of the device. -/
def Holds (key : Text) (db : PreKeyDb H) : Prop := (db.deviceRecord.get key).isSome = true

theorem Holds.write {key : Text} (db : PreKeyDb H) (w : StoreWrite H) (h : Holds key db) :
    Holds key (db.write w) := by
  cases w with
  | deviceRecord k record =>
    simp only [Holds, PreKeyDb.write, SortedMap.get_insert]
    split_ifs
    · rfl
    · exact h
  | _ => exact h

/-- Snapshots hold no device that the store does not. -/
def Behind (_ : ℕ) (snapshot db : PreKeyDb H) : Prop := ∀ key, Holds key snapshot → Holds key db

variable {s s' : PublicationService H}

theorem behind_step {act : OptimisticAct PublicationRequest} (h : s.Snapshots Behind)
    (hst : s.step hash deriveMailboxID readOrdered signed verify act = some s') :
    s'.Snapshots Behind :=
  h.step (fun _ _ hk => hk) (fun _ _ a hb key hk => a.commit_keeps Holds.write (hb key hk)) hst

/-- **One step keeps the cap** where its scan saw every device of the key. -/
theorem WithinCap.step {act : OptimisticAct PublicationRequest} (h : WithinCap s.db.toDeviceDb)
    (hb : s.Snapshots Behind) (hc : SawDevices readOrdered signed verify s act)
    (hst : s.step hash deriveMailboxID readOrdered signed verify act = some s') :
    WithinCap s'.db.toDeviceDb := by
  cases Optimistic.step_cases hst with
  | submitted => exact h
  | started => exact h
  | refused => exact h
  | aborted => exact h
  | dropped => exact h
  | @committed i f snapshot since a hf hr ha _ =>
    obtain ⟨record, hrec, hadm, hw⟩ := publicationTx_ok ha
    rcases hw with hsame | ⟨hcap, hins⟩
    · refine ⟨fun {k v} hk => h.filed (k := k) ?_, fun key => ?_⟩
      · exact (congrArg (fun m : SortedMap Text StoredRecord => m.get k) (hsame s.db)).symm.trans hk
      · exact (congrArg (fun m : SortedMap Text StoredRecord => m.entries.countP (HasKey key))
          (hsame s.db)).trans_le (h.capped key)
    · have hsaw : snapshot.deviceRecord.get (deviceRecordKey record.identityId record.deviceId) =
          none → SawAll snapshot.toDeviceDb s.db.toDeviceDb record := by
        obtain ⟨request, aborted, running⟩ := f
        subst hr
        simp only [SawDevices, hf] at hc
        exact hc record hrec
      exact h.insert hadm (hb i f snapshot since hf hr) hcap hsaw (hins s.db)

/-- The request `i` publishes a device that is stored, and was when its attempts began. -/
structure Republishes (i : ℕ) (request : PublicationRequest) (key : Text)
    (s : PublicationService H) : Prop where
  stored : Holds key s.db
  snapshots : s.Snapshots fun j snapshot _ => j = i → Holds key snapshot
  answer : s.Concerns i request fun answer => answer ≠ .error (some (.refused .tooManyDevices))

/-- A request for a stored device, just submitted. -/
theorem Republishes.submitted {i : ℕ} {request : PublicationRequest} {key : Text}
    (hd : Holds key s.db) {t : PublicationService H}
    (h : Optimistic.Does (publicationTx hash deriveMailboxID readOrdered signed verify)
      PreKeyDb.write StoreWrite.key s (.submit i request) t) : Republishes i request key t := by
  cases h with
  | submitted hf ha =>
    refine ⟨hd, fun j f snapshot since hj hr hij => ?_, Or.inl ⟨_, Function.update_self .., rfl, ha⟩⟩
    subst hij
    simp only [Function.update_self, Option.some.injEq] at hj
    subst hj
    cases hr

/-- **One step** does not refuse the publication of a stored device for the cap. -/
theorem Republishes.step {i : ℕ} {request : PublicationRequest} {record : DeviceRecord}
    (hrec : publishedRecord readOrdered signed verify request = some record)
    (h : Republishes i request (deviceRecordKey record.identityId record.deviceId) s)
    {act : OptimisticAct PublicationRequest}
    (hst : s.step hash deriveMailboxID readOrdered signed verify act = some s') :
    Republishes i request (deviceRecordKey record.identityId record.deviceId) s' := by
  refine ⟨?_, h.snapshots.step (fun _ _ => h.stored) (fun _ _ _ hk => hk) hst,
    h.answer.step hst (fun he => by cases he) (fun he => by cases he) ?_⟩
  · cases Optimistic.step_cases hst with
    | @committed i f snapshot since a hf hr ha hc => exact a.commit_keeps Holds.write h.stored
    | _ => exact h.stored
  · rintro f snapshot since e hf hr he hcap
    cases hcap
    obtain ⟨record', hrec', hn⟩ := publicationTx_tooMany he
    rw [hrec] at hrec'
    cases hrec'
    have hk := h.snapshots i f snapshot since hf hr rfl
    rw [Holds, hn] at hk
    cases hk

/-- **The cap on the devices of an identity key.** In every run of concurrent publications in
    which each attempt to publish a new device ends with every stored device of its key seen by
    its scan, no key holds more than the maximum; and in every run at all, a publication of a
    device that is stored is never refused for the cap. -/
theorem device_cap {db : PreKeyDb H} (hdb : WithinCap db.toDeviceDb) :
    (∀ s, Run (PublicationService.step hash deriveMailboxID readOrdered signed verify)
        (SawDevices readOrdered signed verify) (.init db) s →
      ∀ key, deviceCount key s.db.toDeviceDb ≤ maxDevicesPerIdentity) ∧
    ∀ s, Run (PublicationService.step hash deriveMailboxID readOrdered signed verify) Any
        (.init db) s →
      ∀ i request record t s', publishedRecord readOrdered signed verify request = some record →
        (s.db.deviceRecord.get (deviceRecordKey record.identityId record.deviceId)).isSome = true →
        s.step hash deriveMailboxID readOrdered signed verify (.submit i request) = some t →
        Run (PublicationService.step hash deriveMailboxID readOrdered signed verify) Any t s' →
        s'.answers i ≠ some (.error (some (.refused .tooManyDevices))) := by
  constructor
  · intro s hr
    have hi := hr.invariant (I := fun s : PublicationService H => WithinCap s.db.toDeviceDb ∧
        s.Snapshots Behind)
      (fun t a t' hi hc hst => ⟨hi.1.step hi.2 hc hst, behind_step hi.2 hst⟩)
      ⟨hdb, Optimistic.Snapshots.init _ _⟩
    exact hi.1.capped
  · intro s _ i request record t s' hrec hd hsub hr
    have hi := hr.invariant (fun t a t' hi _ hst => Republishes.step hrec hi hst)
      (.submitted hd (Optimistic.step_cases hsub))
    intro ha
    rcases hi.answer with ⟨f, -, -, hn⟩ | ⟨-, answer, ha', hne⟩
    · rw [ha] at hn; cases hn
    · rw [ha] at ha'; cases ha'
      exact hne rfl

end

/-! ## Runs with and without the condition -/

/-- Where every signature of a record is good and no bundle is published. -/
def plainPublication : PublicationService Text → OptimisticAct PublicationRequest →
    Option (PublicationService Text) :=
  PublicationService.step id id (fun _ => none) (fun _ => true) fun _ _ _ => true

abbrev plainSawDevices : PublicationService Text → OptimisticAct PublicationRequest → Prop :=
  SawDevices (fun _ => none) (fun _ => true) fun _ _ _ => true

instance {H : Type} (readOrdered : List UInt8 → Option Value) (signed : Value → Bool)
    (verify : DeviceRecord → List ℕ → List ℕ → Bool) (s : PublicationService H)
    (act : OptimisticAct PublicationRequest) :
    Decidable (SawDevices readOrdered signed verify s act) := by
  cases act <;> simp only [SawDevices] <;> try infer_instance
  split <;> infer_instance

/-- A device of one identity key, in a spelling of that key. -/
def spelledDevice (last d : Char) : DeviceRecord :=
  { deviceWithKey 'k' with identityId := List.replicate 42 'A' ++ [last], deviceId := [d] }

def publishDevice (last d : Char) : PublicationRequest := .deviceRecord (spelledDevice last d)

/-- The `n` devices from `a` on, published one after the other. -/
def publishInTurn (n : ℕ) : List (OptimisticAct PublicationRequest) :=
  (List.range n).flatMap fun i =>
    [.submit i (publishDevice 'A' (Char.ofNat (97 + i))), .start i, .finish i]

theorem WithinCap.init : WithinCap (PreKeyDb.init Text).toDeviceDb where
  filed h := by cases h
  capped _ := Nat.zero_le _

theorem device_cap_twice : ∃ s t s', Run plainPublication plainSawDevices (.init (.init Text)) s ∧
    plainPublication s (.submit 1 (publishDevice 'A' 'a')) = some t ∧
    Run plainPublication Any t s' ∧ (∀ key, deviceCount key s.db.toDeviceDb ≤ 16) ∧
    deviceCount (List.replicate 32 0) s.db.toDeviceDb = 1 ∧
    s'.answers 1 ≠ some (.error (some (.refused .tooManyDevices))) := by
  let s := (replay plainPublication plainSawDevices (publishInTurn 1) (.init (.init Text))).get
    (by decide)
  let t := (plainPublication s (.submit 1 (publishDevice 'A' 'a'))).get (by decide)
  let s' := (replay plainPublication Any [.start 1, .finish 1] t).get (by decide)
  have hs : Run plainPublication plainSawDevices (.init (.init Text)) s :=
    Run.of_replay (Option.some_get _).symm
  have ht : plainPublication s (.submit 1 (publishDevice 'A' 'a')) = some t :=
    (Option.some_get _).symm
  have hs' : Run plainPublication Any t s' := Run.of_replay (Option.some_get _).symm
  have hcap := @device_cap Text _ id id (fun _ => none) (fun _ => true) (fun _ _ _ => true) _
    WithinCap.init
  exact ⟨s, t, s', hs, ht, hs', hcap.1 s hs, by decide,
    hcap.2 s hs.any 1 _ (spelledDevice 'A' 'a') t s' (by decide +kernel) (by decide +kernel) ht hs'⟩

/-- A run that ends with a number of devices of one key. -/
theorem run_deviceCount {acts : List (OptimisticAct PublicationRequest)} {key : List ℕ} {n : ℕ}
    (h : (replay plainPublication Any acts (.init (.init Text))).map
      (fun s => deviceCount key s.db.toDeviceDb) = some n) :
    ∃ s, Run plainPublication Any (.init (.init Text)) s ∧ deviceCount key s.db.toDeviceDb = n := by
  obtain ⟨s, hs, hn⟩ := Option.map_eq_some_iff.1 h
  exact ⟨s, Run.of_replay hs, hn⟩

/-- Two new devices of one identity are published at once beside fifteen stored ones. -/
theorem device_cap_exceeded : ¬ ∀ s, Run plainPublication Any (.init (.init Text)) s →
    ∀ key, deviceCount key s.db.toDeviceDb ≤ maxDevicesPerIdentity := by
  intro h
  obtain ⟨s, hr, hn⟩ := @run_deviceCount (publishInTurn 15 ++ [.submit 15 (publishDevice 'A' 'x'), .submit 16 (publishDevice 'A' 'y'),
    .start 15, .start 16, .finish 15, .finish 16]) (List.replicate 32 0) 17 (by decide +kernel)
  have hle := h s hr (List.replicate 32 0)
  rw [hn] at hle
  exact absurd hle (by decide)

/-- One device after the other, the last under another spelling of the identity key. -/
theorem device_cap_respelled : ¬ ∀ s, Run plainPublication Any (.init (.init Text)) s →
    ∀ key, deviceCount key s.db.toDeviceDb ≤ maxDevicesPerIdentity := by
  intro h
  obtain ⟨s, hr, hn⟩ := @run_deviceCount (publishInTurn 16 ++ [.submit 16 (publishDevice 'B' 'x'), .start 16,
    .finish 16]) (List.replicate 32 0) 17 (by decide +kernel)
  have hle := h s hr (List.replicate 32 0)
  rw [hn] at hle
  exact absurd hle (by decide)

end Echolet
