/-
  The messages of version 1 signatures: what the client signs and what the relay verifies.

  * `canonicalJson` sorts the members of an object and leaves the objects inside as they were
    made; `marshalCanonicalJSONWithoutSignature` sorts at every depth and takes the signatures
    out at every depth;
  * `deviceRecord_differs`, `preKeyBundle_differs`: so no record and no bundle of the client is
    verified over the bytes it signed, whatever is in it.
-/
import Mathlib.Data.List.Sort
import Echolet.Lib.GoText
import Echolet.Lib.Sha256

namespace Echolet

open Document

/-- A string of 16-bit units. -/
structure Utf16 where
  units : List ℕ
  units_lt : ∀ u ∈ units, u < 0x10000
  deriving DecidableEq

def Utf16.ofText (t : Text) : Utf16 := ⟨utf16Units t, utf16Units_lt⟩

/-- `JSON.stringify` -/
def jsWriter : Writer Utf16 where
  quote s := quoteUnits s.units
  numeral := Number.text
  units := Utf16.units
  reads s r := parseQuoted_quoteUnits s.units_lt r
  numeral_comma := Number.comma_notMem_text

/-- Members in the order of their names. -/
def sortMembers {σ α : Type} (name : σ → List ℕ) (ms : List (σ × α)) : List (σ × α) :=
  ms.insertionSort fun m m' => name m.1 ≤ name m'.1

namespace V1

/-! ## The client -/

/-- `canonicalJson`.  No object here has an array index as a name, which would come first. -/
def canonicalJson : Document Utf16 → Text
  | .obj ms => jsWriter.write
      (.obj (sortMembers Utf16.units (ms.filter fun m => m.1 ≠ .ofText "signature".toList)))
  | .arr xs => jsWriter.write (.obj (xs.zipIdx.map fun x => (.ofText (decimal x.2), x.1)))
  | d => jsWriter.write d

def object (ms : List (Text × Document Utf16)) : Document Utf16 :=
  .obj (ms.map fun m => (.ofText m.1, m.2))

/-- What the packages under the client compute. -/
structure Packages where
  signUtf8Message : Text → Utf16 → Utf16
  deriveSessionKeyPairFromSeed : Utf16 → Utf16 → Utf16

variable (pk : Packages)

def signCanonicalJson (d : Document Utf16) (secretKey : Utf16) : Utf16 :=
  pk.signUtf8Message (canonicalJson d) secretKey

structure UnsignedDeviceRecord where
  type : Utf16
  version : Number
  identityId : Utf16
  deviceId : Utf16
  devicePubKey : Utf16
  /-- A label that is undefined is not written. -/
  deviceLabel : Option Utf16
  capabilities : List (Text × Bool)
  createdAtMs : Number

structure DeviceRecord extends UnsignedDeviceRecord where
  signature : Utf16

def UnsignedDeviceRecord.document (r : UnsignedDeviceRecord) : Document Utf16 :=
  object ([("type".toList, .str r.type), ("version".toList, .number r.version),
    ("identity_id".toList, .str r.identityId), ("device_id".toList, .str r.deviceId),
    ("device_pubkey".toList, .str r.devicePubKey)] ++
    (r.deviceLabel.map fun label => ("device_label".toList, Document.str label)).toList ++
    [("capabilities".toList, object (r.capabilities.map fun c => (c.1, .bool c.2))),
      ("created_at_ms".toList, .number r.createdAtMs)])

def createSignedDeviceRecord (identityId deviceId devicePubKey identitySecretKey : Utf16)
    (deviceLabel : Option Utf16) (now : Number) : DeviceRecord :=
  let record : UnsignedDeviceRecord := {
    type := .ofText "device_record".toList
    version := .ofNat 1
    identityId
    deviceId
    devicePubKey
    deviceLabel
    capabilities := [("mailbox_poll".toList, true), ("receipts".toList, true),
      ("attachments".toList, false)]
    createdAtMs := now }
  { record with signature := signCanonicalJson pk record.document identitySecretKey }

structure SignedPreKey where
  keyId : Utf16
  publicKey : Utf16
  createdAtMs : Number
  /-- Above every double there is no number. -/
  expiresAtMs : Option Number
  signature : Utf16

structure OneTimePreKey where
  keyId : Utf16
  publicKey : Utf16

structure PreKeyBundle where
  type : Utf16
  version : Number
  bundleId : Utf16
  identityId : Utf16
  deviceId : Utf16
  devicePubKey : Utf16
  signedPreKey : SignedPreKey
  oneTimePreKeys : List OneTimePreKey
  createdAtMs : Number
  signature : Utf16

def SignedPreKey.document (k : SignedPreKey) : Document Utf16 :=
  object [("key_id".toList, .str k.keyId), ("public_key".toList, .str k.publicKey),
    ("created_at_ms".toList, .number k.createdAtMs),
    ("expires_at_ms".toList, k.expiresAtMs.elim (.infinite false) .number),
    ("signature".toList, .str k.signature)]

def OneTimePreKey.document (k : OneTimePreKey) : Document Utf16 :=
  object [("key_id".toList, .str k.keyId), ("public_key".toList, .str k.publicKey)]

def PreKeyBundle.document (b : PreKeyBundle) : Document Utf16 :=
  object [("type".toList, .str b.type), ("version".toList, .number b.version),
    ("bundle_id".toList, .str b.bundleId), ("identity_id".toList, .str b.identityId),
    ("device_id".toList, .str b.deviceId), ("device_pubkey".toList, .str b.devicePubKey),
    ("signed_prekey".toList, b.signedPreKey.document),
    ("one_time_prekeys".toList, .arr (b.oneTimePreKeys.map OneTimePreKey.document)),
    ("created_at_ms".toList, .number b.createdAtMs), ("signature".toList, .str b.signature)]

structure IdentityProfile where
  identityId : Utf16
  identitySecretKey : Utf16
  deviceId : Utf16
  devicePubKey : Utf16
  deviceSecretKey : Utf16
  sessionPubKey : Utf16
  seed : Utf16

structure CreateSignedPreKeyBundleOptions where
  oneTimePreKeyCount : Option ℕ
  createdAtMs : Option Number

/-- `bundleId` and `now` are what `uuidv7` and `Date.now` give. -/
def createSignedPreKeyBundle (profile : IdentityProfile)
    (options : CreateSignedPreKeyBundleOptions) (bundleId : Utf16) (now : Number) : PreKeyBundle :=
  let createdAtMs := options.createdAtMs.getD now
  let oneTimePreKeyCount := options.oneTimePreKeyCount.getD 5
  let unsignedPreKey : SignedPreKey := {
    keyId := .ofText "spk-001".toList
    publicKey := profile.sessionPubKey
    createdAtMs
    expiresAtMs := createdAtMs.add (.ofNat (7 * 24 * 60 * 60 * 1000))
    signature := .ofText [] }
  let signedPreKey := { unsignedPreKey with
    signature := signCanonicalJson pk unsignedPreKey.document profile.deviceSecretKey }
  let oneTimePreKeys := (List.range oneTimePreKeyCount).map fun index =>
    let keyId := Utf16.ofText ("otk-".toList ++ padded 3 (index + 1))
    { keyId, publicKey := pk.deriveSessionKeyPairFromSeed profile.seed keyId : OneTimePreKey }
  let bundle : PreKeyBundle := {
    type := .ofText "prekey_bundle".toList
    version := .ofNat 1
    bundleId
    identityId := profile.identityId
    deviceId := profile.deviceId
    devicePubKey := profile.devicePubKey
    signedPreKey
    oneTimePreKeys
    createdAtMs
    signature := .ofText [] }
  { bundle with signature := signCanonicalJson pk bundle.document profile.identitySecretKey }

/-! ## The relay -/

namespace Model

/-- `model.DeviceRecord` -/
structure DeviceRecord where
  type : Text
  version : ℤ
  identityId : Text
  deviceId : Text
  devicePubKey : Text
  deviceLabel : Option Text
  capabilities : List (Text × Bool)
  createdAtMs : ℤ
  signature : Text

/-- `model.SignedPreKey` -/
structure SignedPreKey where
  keyId : Text
  publicKey : Text
  createdAtMs : ℤ
  expiresAtMs : ℤ
  signature : Text

/-- `model.OneTimePreKey` -/
structure OneTimePreKey where
  keyId : Text
  publicKey : Text

/-- `model.PreKeyBundle` -/
structure PreKeyBundle where
  type : Text
  version : ℤ
  bundleId : Text
  identityId : Text
  deviceId : Text
  devicePubKey : Text
  signedPreKey : SignedPreKey
  oneTimePreKeys : List OneTimePreKey
  createdAtMs : ℤ
  signature : Text

/-- The integer as the double that `json.Unmarshal` makes of it. -/
def float64 (n : ℤ) : Document Text :=
  .number ⟨decide (n < 0), (Number.round n.natAbs).getD n.natAbs⟩

/-- `json.Marshal`, and `json.Unmarshal` into a value of any type. -/
def DeviceRecord.decoded (r : DeviceRecord) : Document Text :=
  .obj ([("type".toList, .str r.type), ("version".toList, float64 r.version),
    ("identity_id".toList, .str r.identityId), ("device_id".toList, .str r.deviceId),
    ("device_pubkey".toList, .str r.devicePubKey)] ++
    (r.deviceLabel.map fun label => ("device_label".toList, Document.str label)).toList ++
    [("capabilities".toList, .obj (r.capabilities.map fun c => (c.1, .bool c.2))),
      ("created_at_ms".toList, float64 r.createdAtMs), ("signature".toList, .str r.signature)])

def SignedPreKey.decoded (k : SignedPreKey) : Document Text :=
  .obj [("key_id".toList, .str k.keyId), ("public_key".toList, .str k.publicKey),
    ("created_at_ms".toList, float64 k.createdAtMs), ("expires_at_ms".toList, float64 k.expiresAtMs),
    ("signature".toList, .str k.signature)]

def OneTimePreKey.decoded (k : OneTimePreKey) : Document Text :=
  .obj [("key_id".toList, .str k.keyId), ("public_key".toList, .str k.publicKey)]

def PreKeyBundle.decoded (b : PreKeyBundle) : Document Text :=
  .obj [("type".toList, .str b.type), ("version".toList, float64 b.version),
    ("bundle_id".toList, .str b.bundleId), ("identity_id".toList, .str b.identityId),
    ("device_id".toList, .str b.deviceId), ("device_pubkey".toList, .str b.devicePubKey),
    ("signed_prekey".toList, b.signedPreKey.decoded),
    ("one_time_prekeys".toList, .arr (b.oneTimePreKeys.map OneTimePreKey.decoded)),
    ("created_at_ms".toList, float64 b.createdAtMs), ("signature".toList, .str b.signature)]

end Model

mutual
def stripSignatureFields : Document Text → Document Text
  | .obj ms => .obj (stripMembers ms)
  | .arr xs => .arr (stripElems xs)
  | d => d

def stripElems : List (Document Text) → List (Document Text)
  | [] => []
  | x :: xs => stripSignatureFields x :: stripElems xs

def stripMembers : List (Text × Document Text) → List (Text × Document Text)
  | [] => []
  | (k, x) :: ms =>
    if k = "signature".toList then stripMembers ms else (k, stripSignatureFields x) :: stripMembers ms
end

mutual
/-- The members of every object in the order of their names. -/
def sorted : Document Text → Document Text
  | .obj ms => .obj (sortMembers utf8Bytes (sortedMembers ms))
  | .arr xs => .arr (sortedElems xs)
  | d => d

def sortedElems : List (Document Text) → List (Document Text)
  | [] => []
  | x :: xs => sorted x :: sortedElems xs

def sortedMembers : List (Text × Document Text) → List (Text × Document Text)
  | [] => []
  | (k, x) :: ms => (k, sorted x) :: sortedMembers ms
end

/-- `writeCanonicalJSON` -/
def writeCanonicalJSON (d : Document Text) : Text := goWriter.write (sorted d)

/-- `MarshalCanonicalJSONWithoutSignature`, from what it decodes. -/
def marshalCanonicalJSONWithoutSignature (decoded : Document Text) : Text :=
  writeCanonicalJSON (stripSignatureFields decoded)

/-! ## On the way to the relay -/

/-- A numeral in a field of type `int64`. -/
def int64 (n : Number) : Option ℤ :=
  let parsed : Option ℤ := match n.text with
    | '-' :: digits => (parseDecimal digits).map fun m => -(m : ℤ)
    | digits => (parseDecimal digits).map fun m => (m : ℤ)
  parsed.filter fun m => -2 ^ 63 ≤ m ∧ m < 2 ^ 63

/-- What `json.Unmarshal` makes of the record's `JSON.stringify`. -/
def DeviceRecord.received (r : DeviceRecord) : Option Model.DeviceRecord := do
  let version ← int64 r.version
  let createdAtMs ← int64 r.createdAtMs
  return {
    type := toText r.type.units
    version
    identityId := toText r.identityId.units
    deviceId := toText r.deviceId.units
    devicePubKey := toText r.devicePubKey.units
    deviceLabel := r.deviceLabel.map fun label => toText label.units
    capabilities := r.capabilities
    createdAtMs
    signature := toText r.signature.units }

def SignedPreKey.received (k : SignedPreKey) : Option Model.SignedPreKey := do
  let createdAtMs ← int64 k.createdAtMs
  -- `null` leaves the field as it was
  let expiresAtMs ← k.expiresAtMs.elim (some 0) int64
  return {
    keyId := toText k.keyId.units
    publicKey := toText k.publicKey.units
    createdAtMs
    expiresAtMs
    signature := toText k.signature.units }

def OneTimePreKey.received (k : OneTimePreKey) : Model.OneTimePreKey :=
  ⟨toText k.keyId.units, toText k.publicKey.units⟩

def PreKeyBundle.received (b : PreKeyBundle) : Option Model.PreKeyBundle := do
  let version ← int64 b.version
  let signedPreKey ← b.signedPreKey.received
  let createdAtMs ← int64 b.createdAtMs
  return {
    type := toText b.type.units
    version
    bundleId := toText b.bundleId.units
    identityId := toText b.identityId.units
    deviceId := toText b.deviceId.units
    devicePubKey := toText b.devicePubKey.units
    signedPreKey
    oneTimePreKeys := b.oneTimePreKeys.map OneTimePreKey.received
    createdAtMs
    signature := toText b.signature.units }

/-- The message over which the relay checks the signature of a record, if it can read it. -/
def DeviceRecord.verified (r : DeviceRecord) : Option Text :=
  r.received.map fun received => marshalCanonicalJSONWithoutSignature received.decoded

def PreKeyBundle.verified (b : PreKeyBundle) : Option Text :=
  b.received.map fun received => marshalCanonicalJSONWithoutSignature received.decoded

/-! ## The two messages -/

/-- The text under the signature of a record. -/
def DeviceRecord.signedText (r : DeviceRecord) : Text :=
  canonicalJson r.toUnsignedDeviceRecord.document

/-- The bundle is signed with an empty signature. -/
def PreKeyBundle.signedText (b : PreKeyBundle) : Text :=
  canonicalJson { b with signature := .ofText [] }.document

/-- The capabilities of a record come first in both messages, and in another order in each. -/
theorem deviceRecord_differs (identityId deviceId devicePubKey identitySecretKey : Utf16)
    (deviceLabel : Option Utf16) (now : Number) :
    let r := createSignedDeviceRecord pk identityId deviceId devicePubKey identitySecretKey
      deviceLabel now
    r.verified ≠ some r.signedText := by
  intro r h
  obtain ⟨g, hg, he⟩ := Option.map_eq_some_iff.1 h
  simp only [DeviceRecord.received, Option.bind_eq_bind, Option.bind_eq_some_iff,
    Option.pure_def, Option.some.injEq] at hg
  obtain ⟨version, -, createdAtMs, -, rfl⟩ := hg
  rw [← List.append_nil (marshalCanonicalJSONWithoutSignature _),
    ← List.append_nil (DeviceRecord.signedText _)] at he
  have hnames : utf16Units "attachments".toList ≠ (Utf16.ofText "mailbox_poll".toList).units := by
    decide
  -- the order of the members depends on whether there is a label
  cases deviceLabel with
  | none =>
    obtain ⟨-, hv⟩ := Writer.members_inj (Writer.obj_inj he)
    exact hnames (Writer.members_inj (Writer.obj_inj hv)).1
  | some label =>
    obtain ⟨-, hv⟩ := Writer.members_inj (Writer.obj_inj he)
    exact hnames (Writer.members_inj (Writer.obj_inj hv)).1

open Writer in
/-- The keys of the pool are written one after the other in both messages. -/
theorem oneTimePreKeys_endAlike (ks : List OneTimePreKey) :
    List.Forall₂ (EndAlike goWriter jsWriter)
      (sortedElems (stripElems ((ks.map OneTimePreKey.received).map Model.OneTimePreKey.decoded)))
      (ks.map OneTimePreKey.document) := by
  induction ks with
  | nil => exact .nil
  | cons k ks ih =>
    refine .cons (endAlike_obj ?_) ih
    exact .cons (endAlike_str _ _) (.cons (endAlike_str _ _) .nil)

open Writer in
/-- The members before the signed key end alike.  In the key the relay writes the times first,
    which the client made after the names. -/
theorem preKeyBundle_differs (profile : IdentityProfile)
    (options : CreateSignedPreKeyBundleOptions) (bundleId : Utf16) (now : Number) :
    let b := createSignedPreKeyBundle pk profile options bundleId now
    b.verified ≠ some b.signedText := by
  intro b h
  obtain ⟨g, hg, he⟩ := Option.map_eq_some_iff.1 h
  simp only [PreKeyBundle.received, Option.bind_eq_bind, Option.bind_eq_some_iff,
    Option.pure_def, Option.some.injEq] at hg
  obtain ⟨version, -, key, hkey, createdAtMs, -, rfl⟩ := hg
  rw [← List.append_nil (marshalCanonicalJSONWithoutSignature _),
    ← List.append_nil (PreKeyBundle.signedText _)] at he
  have hcreated := endAlike_str _ _ _ _ (members_inj (obj_inj he)).2
  have hdevice := number_inj (members_inj hcreated).2
  have hpubkey := endAlike_str _ _ _ _ (members_inj hdevice).2
  have hidentity := endAlike_str _ _ _ _ (members_inj hpubkey).2
  have hpool := endAlike_str _ _ _ _ (members_inj hidentity).2
  have hsigned := endAlike_arr (oneTimePreKeys_endAlike b.oneTimePreKeys) _ _ (members_inj hpool).2
  have hnames : utf16Units "created_at_ms".toList ≠ (Utf16.ofText "key_id".toList).units := by
    decide
  exact hnames (members_inj (obj_inj (members_inj hsigned).2)).1

/-- **No signature of the client is checked over what it signed**: the relay verifies every
    record and every bundle over another message, or cannot read it at all. -/
theorem canonical_json_differs :
    (∀ (identityId deviceId devicePubKey identitySecretKey : Utf16) (deviceLabel : Option Utf16)
      (now : Number),
      let r := createSignedDeviceRecord pk identityId deviceId devicePubKey identitySecretKey
        deviceLabel now
      r.verified ≠ some r.signedText) ∧
    ∀ (profile : IdentityProfile) (options : CreateSignedPreKeyBundleOptions) (bundleId : Utf16)
      (now : Number),
      let b := createSignedPreKeyBundle pk profile options bundleId now
      b.verified ≠ some b.signedText :=
  ⟨deviceRecord_differs pk, preKeyBundle_differs pk⟩

/-- The first record of a device: the messages agree up to the capabilities. -/
theorem canonical_json_record :
    let r := createSignedDeviceRecord ⟨fun _ key => key, fun seed _ => seed⟩ (.ofText "A".toList)
      (.ofText "D".toList) (.ofText "K".toList) (.ofText "S".toList) none (.ofNat 1700000000000)
    r.signedText = ("\x7b\"capabilities\":\x7b\"mailbox_poll\":true,\"receipts\":true," ++
      "\"attachments\":false\x7d,\"created_at_ms\":1700000000000,\"device_id\":\"D\"," ++
      "\"device_pubkey\":\"K\",\"identity_id\":\"A\",\"type\":\"device_record\"," ++
      "\"version\":1\x7d").toList ∧
    r.verified = some ("\x7b\"capabilities\":\x7b\"attachments\":false,\"mailbox_poll\":true," ++
      "\"receipts\":true\x7d,\"created_at_ms\":1700000000000,\"device_id\":\"D\"," ++
      "\"device_pubkey\":\"K\",\"identity_id\":\"A\",\"type\":\"device_record\"," ++
      "\"version\":1\x7d").toList ∧
    r.verified ≠ some r.signedText := by
  decide +kernel

end V1

end Echolet
