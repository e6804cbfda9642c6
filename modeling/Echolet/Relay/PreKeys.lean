/-
  The relay's prekey repository, version 2: publications and claims of one-time prekeys.

  `PreKeyDb` adds to the device records and their mailbox bindings the bundles, the two
  families of one-time key reservations, the index of available bundles in key order and the
  claims.  `saveSignalV2` and `claimSignalV2` are one
  transaction each; an error leaves the store as it was.
-/
import Echolet.Relay.Devices

namespace Echolet

structure SignalClaimV2 where
  identityId : Text
  deviceId : Option Text
  bundle : List UInt8
  bundleId : Text
  claimedAtMs : ℤ
  deriving DecidableEq

/-- The store; `H` is the type of digests. -/
structure PreKeyDb (H : Type) extends DeviceDb where
  bundle : Text → Option SignalPreKeyBundleV2
  otkTuple : H → Option Text
  otkPublic : H → Option Text
  available : SortedMap Text Text
  claim : Text → Option SignalClaimV2

def PreKeyDb.init (H : Type) : PreKeyDb H :=
  ⟨⟨.empty, fun _ => none⟩, fun _ => none, fun _ => none, fun _ => none, .empty, fun _ => none⟩

/-- The digits of a creation time in the keys of the available bundles. -/
def createdDigits : ℕ := 16

/-- The key of an available bundle, without the constant `v2:available:` in front. -/
def availableKey (b : SignalPreKeyBundleV2) : Text :=
  (b.identityId ++ ':' :: padded createdDigits b.createdAtMs) ++ ':' :: b.bundleId

section
variable {H : Type} [DecidableEq H] (hash : Text → H) (deriveMailboxID : Text → Text)

/-! ## Publishing -/

/-- The digest of the tuple that names a one-time key. -/
def tupleDigest (b : SignalPreKeyBundleV2) : H :=
  hash (Json.render (.arr [.str b.identityId, .str b.deviceId, .str b.signalIdentity,
    .int b.oneTimeKeyId]))

/-- The digest of a one-time public key. -/
def publicDigest (b : SignalPreKeyBundleV2) : H := hash b.oneTimePublicKey

/-- Reserve the tuple and the public key of a bundle for it. -/
def reserveOneTimeKey (db : PreKeyDb H) (b : SignalPreKeyBundleV2) :
    Except PreKeyError (PreKeyDb H) :=
  if (db.otkTuple (tupleDigest hash b)).isSome then .error .preKeyReused
  else if (db.otkPublic (publicDigest hash b)).isSome then .error .preKeyReused
  else .ok { db with
    otkTuple := Function.update db.otkTuple (tupleDigest hash b) (some b.bundleId)
    otkPublic := Function.update db.otkPublic (publicDigest hash b) (some b.bundleId) }

/-- `SaveSignalV2`: whether the stored publication can be claimed, and the store. -/
def saveSignalV2 (db : PreKeyDb H) (b : SignalPreKeyBundleV2) :
    Except PreKeyError (Bool × PreKeyDb H) :=
  if b.deviceRecord.identityId ≠ b.identityId ∨ b.deviceRecord.deviceId ≠ b.deviceId ∨
      b.deviceRecord.devicePubKey = [] then
    .error .schema
  else
    match db.bundle b.bundleId with
    | some stored =>
      if stored.raw = b.raw then do
        let devices ← saveSignalV2Authorization deriveMailboxID db.toDeviceDb b.deviceRecord
        return (!stored.claimed, { db with toDeviceDb := devices })
      else .error .bundleConflict
    | none => do
      let db ← reserveOneTimeKey hash db b
      let devices ← saveSignalV2Authorization deriveMailboxID db.toDeviceDb b.deviceRecord
      return (true, { db with
        toDeviceDb := devices
        bundle := Function.update db.bundle b.bundleId (some b)
        available := db.available.insert (availableKey b) b.bundleId })

/-! ## Claiming -/

/-- The scan passes a bundle by. -/
def skipped (b : SignalPreKeyBundleV2) (deviceID : Option Text) (nowMS : ℤ) : Bool :=
  b.claimed = true ∨ nowMS < b.createdAtMs ∨ nowMS ≥ b.expiresAtMs ∨
    deviceID.any (fun d => b.deviceId ≠ d) = true

/-- The scan of a claim over the index: the first entry whose bundle is not passed by. -/
def findAvailable (db : PreKeyDb H) (deviceID : Option Text) (nowMS : ℤ) :
    List (Text × Text) → Except PreKeyError (Text × SignalPreKeyBundleV2)
  | [] => .error .unavailable
  | entry :: entries =>
    match db.bundle entry.2 with
    | none => .error .keyNotFound
    | some b =>
      if skipped b deviceID nowMS then findAvailable db deviceID nowMS entries
      else .ok (entry.1, b)

/-- `ClaimSignalV2`. -/
def claimSignalV2 (db : PreKeyDb H) (claimID identityID : Text) (deviceID : Option Text)
    (nowMS : ℤ) : Except PreKeyError (List UInt8 × PreKeyDb H) :=
  match db.claim claimID with
  | some claim =>
    if claim.identityId ≠ identityID ∨ claim.deviceId ≠ deviceID then .error .claimConflict
    else .ok (claim.bundle, db)
  | none => do
    let (key, b) ← findAvailable db deviceID nowMS
      (db.available.entries.filter fun entry => hasIdentityPrefix identityID entry.1)
    return (b.raw, { db with
      bundle := Function.update db.bundle b.bundleId (some { b with claimed := true })
      available := db.available.erase key
      claim := Function.update db.claim claimID
        (some ⟨identityID, deviceID, b.raw, b.bundleId, nowMS⟩) })

/-! ## The service and its steps -/

variable (readOrdered : List UInt8 → Option Value) (signed : Value → Bool)

def publishSignalPreKeyBundleV2Claimable (db : PreKeyDb H) (raw : List UInt8) (nowMS : ℤ) :
    Except PreKeyError (Bool × PreKeyDb H) := do
  let b ← validateSignalPreKeyBundleV2 readOrdered signed raw nowMS
  saveSignalV2 hash deriveMailboxID db b

def claimSignalPreKeyBundleV2 (db : PreKeyDb H) (claimID identityID : Text)
    (deviceID : Option Text) (nowMS : ℤ) : Except PreKeyError (List UInt8 × PreKeyDb H) := do
  validateSignalSelector claimID identityID deviceID
  claimSignalV2 db claimID identityID deviceID nowMS

inductive PreKeyAct where
  | publish (raw : List UInt8) (nowMS : ℤ)
  | claim (claimID identityID : Text) (deviceID : Option Text) (nowMS : ℤ)
  | saveDevice (record : DeviceRecord)

/-- The store after a request; a refused one leaves it as it was. -/
def PreKeyDb.step (db : PreKeyDb H) : PreKeyAct → Option (PreKeyDb H)
  | .publish raw nowMS => some <|
    match publishSignalPreKeyBundleV2Claimable hash deriveMailboxID readOrdered signed db raw
      nowMS with
    | .ok (_, db') => db'
    | .error _ => db
  | .claim claimID identityID deviceID nowMS => some <|
    match claimSignalPreKeyBundleV2 db claimID identityID deviceID nowMS with
    | .ok (_, db') => db'
    | .error _ => db
  | .saveDevice record => some <|
    match saveDeviceRecord deriveMailboxID db.toDeviceDb record with
    | .ok devices => { db with toDeviceDb := devices }
    | .error _ => db

end

end Echolet
