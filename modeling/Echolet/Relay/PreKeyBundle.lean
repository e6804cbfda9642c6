/-
  Signal prekey bundles, version 2: the record the relay stores and the validation of a
  published document.

  * `Value` is a document as the token decoder of the validation reads it: objects with
    their members in order, numbers as rationals, no arrays;
  * `validateSignalPreKeyBundleV2` checks the members, the clock and the signatures and
    gives the record, which is a function of the published bytes (`validate_parsed`);
  * `WellFormed` is what the repository relies on afterwards (`parsedBundle_wellFormed`).

  Decoding bytes to a `Value` and checking the two signatures of a document are parameters.
-/
import Mathlib.Data.Rat.Defs
import Mathlib.Tactic.NormNum
import Echolet.Relay.Envelope

namespace Echolet

inductive Value where
  | null
  | bool (b : Bool)
  | number (n : ℚ)
  | str (t : Text)
  | obj (ms : List (String × Value))

structure DeviceRecord where
  type : Text
  version : ℤ
  identityId : Text
  deviceId : Text
  devicePubKey : Text
  deviceLabel : Option Text
  capabilities : List (String × Bool)
  createdAtMs : ℤ
  signature : Text
  deriving DecidableEq

structure SignalPreKeyBundleV2 where
  bundleId : Text
  identityId : Text
  deviceId : Text
  deviceRecord : DeviceRecord
  signalIdentity : Text
  oneTimeKeyId : ℕ
  oneTimePublicKey : Text
  createdAtMs : ℕ
  expiresAtMs : ℕ
  raw : List UInt8
  claimed : Bool
  deriving DecidableEq

/-- The errors of the publication and claim routes; `keyNotFound` is the store's own and
    `undecodable` that of decoding a stored value. -/
inductive PreKeyError where
  | schema
  | signature
  | expired
  | bundleConflict
  | preKeyReused
  | claimConflict
  | unavailable
  | tooManyDevices
  | keyNotFound
  | undecodable
  deriving DecidableEq

/-! ## Checks of single members -/

/-- `orderedObject.get`: a missing member reads as null. -/
def getMember (o : List (String × Value)) (key : String) : Value :=
  ((o.find? fun p => p.1 = key).map (·.2)).getD .null

/-- `object`: the members are the allowed ones and every required one is there. -/
def objectMembers (v : Value) (required optional : List String) :
    Option (List (String × Value)) :=
  match v with
  | .obj ms =>
    if (∀ p ∈ ms, p.1 ∈ required ++ optional) ∧ ∀ k ∈ required, k ∈ ms.map (·.1) then some ms
    else none
  | _ => none

def text : Value → Option Text
  | .str t => some t
  | _ => none

/-- `number`: an integer from 0 to `max`. -/
def number (v : Value) (max : ℕ) : Option ℕ :=
  match v with
  | .number n => if 0 ≤ n ∧ n ≤ max ∧ n.den = 1 then some n.num.toNat else none
  | _ => none

/-- The value of a character of the URL alphabet of base64. -/
def base64Value (c : Char) : Option ℕ :=
  if 'A' ≤ c ∧ c ≤ 'Z' then some (c.toNat - 65)
  else if 'a' ≤ c ∧ c ≤ 'z' then some (c.toNat - 71)
  else if '0' ≤ c ∧ c ≤ '9' then some (c.toNat + 4)
  else if c = '-' then some 62
  else if c = '_' then some 63
  else none

/-- The bytes of a text in unpadded base64 whose trailing bits are zero. -/
def decodeBase64 : Text → Option (List ℕ)
  | [] => some []
  | [_] => none
  | [a, b] => do
    let x ← base64Value a
    let y ← base64Value b
    if y % 16 = 0 then some [4 * x + y / 16] else none
  | [a, b, c] => do
    let x ← base64Value a
    let y ← base64Value b
    let z ← base64Value c
    if z % 4 = 0 then some [4 * x + y / 16, 16 * (y % 16) + z / 4] else none
  | a :: b :: c :: d :: t => do
    let x ← base64Value a
    let y ← base64Value b
    let z ← base64Value c
    let w ← base64Value d
    let rest ← decodeBase64 t
    some ((4 * x + y / 16) :: (16 * (y % 16) + z / 4) :: (64 * (z % 4) + w) :: rest)

/-- `b64`: the canonical text of `n` bytes, the first one `lead` where that is given. -/
def b64Text (t : Text) (n : ℕ) (lead : Option ℕ) : Bool :=
  match decodeBase64 t with
  | some bytes => bytes.length = n ∧ (lead = none ∨ bytes.head? = lead)
  | none => false

def b64 (v : Value) (n : ℕ) (lead : Option ℕ) : Option Text :=
  (text v).filter fun t => b64Text t n lead

def isLowerHex (c : Char) : Bool := ('0' ≤ c ∧ c ≤ '9') ∨ ('a' ≤ c ∧ c ≤ 'f')

/-- The digit groups of `uuidV2`. -/
def uuidV2Groups : List (Char → Bool) :=
  List.replicate 8 isLowerHex ++ [fun c => decide (c = '-')] ++ List.replicate 4 isLowerHex ++
    [fun c => decide (c = '-')] ++ [fun c => decide ('1' ≤ c ∧ c ≤ '8')] ++
    List.replicate 3 isLowerHex ++ [fun c => decide (c = '-')] ++
    [fun c => decide (c ∈ ['8', '9', 'a', 'b'])] ++ List.replicate 3 isLowerHex ++
    [fun c => decide (c = '-')] ++ List.replicate 12 isLowerHex

def maxUUID : Text := "ffffffff-ffff-ffff-ffff-ffffffffffff".toList

def uuidV2 (t : Text) : Bool := matchesAll uuidV2Groups t || t = nilUUID || t = maxUUID

def validUUID (v : Value) : Option Text := (text v).filter fun t => uuidV2 t

/-- `ValidateSignalSelector`. -/
def validateSignalSelector (claimID identityID : Text) (deviceID : Option Text) :
    Except PreKeyError Unit :=
  if uuidV2 claimID = false ∨ b64Text identityID 32 none = false ∨
      deviceID.any (fun d => !uuidV2 d) = true then
    .error .schema
  else .ok ()

/-! ## The document -/

def maxSafeInteger : ℕ := 9007199254740991

/-- The longest window of a bundle: seven days. -/
def maxBundleWindowMs : ℕ := 7 * 24 * 60 * 60 * 1000

/-- The label of a device record, if it has one, is a text of at most 256 UTF-16 units. -/
def readDeviceLabel (dr : List (String × Value)) : Option (Option Text) :=
  match dr.find? fun p => p.1 = "device_label" with
  | none => some none
  | some p => ((text p.2).filter fun t => utf16Length t ≤ 256).map some

/-- Every capability is a boolean. -/
def readCapabilities : List (String × Value) → Option (List (String × Bool))
  | [] => some []
  | (k, .bool b) :: caps => (readCapabilities caps).map ((k, b) :: ·)
  | _ => none

def readDeviceRecord (v : Value) : Option DeviceRecord := do
  let dr ← objectMembers v ["type", "version", "identity_id", "device_id", "device_pubkey",
    "capabilities", "created_at_ms", "signature"] ["device_label"]
  let type ← (text (getMember dr "type")).filter fun t => t = "device_record".toList
  let version ← (number (getMember dr "version") maxSafeInteger).filter fun n => n = 1
  let identityId ← b64 (getMember dr "identity_id") 32 none
  let devicePubKey ← b64 (getMember dr "device_pubkey") 32 none
  let signature ← b64 (getMember dr "signature") 64 none
  let deviceId ← validUUID (getMember dr "device_id")
  let createdAtMs ← number (getMember dr "created_at_ms") maxSafeInteger
  let deviceLabel ← readDeviceLabel dr
  let caps ← objectMembers (getMember dr "capabilities") []
    ["mailbox_poll", "receipts", "attachments"]
  let capabilities ← readCapabilities caps
  return ⟨type, version, identityId, deviceId, devicePubKey, deviceLabel, capabilities,
    createdAtMs, signature⟩

/-- A signed key of the document: its id, a public key of `n` bytes with a leading byte, and
    a signature. -/
def checkSignedKey (v : Value) (n lead : ℕ) : Option Unit := do
  let key ← objectMembers v ["key_id", "public_key", "signature"] []
  let _ ← number (getMember key "key_id") 4294967295
  let _ ← b64 (getMember key "public_key") n (some lead)
  let _ ← b64 (getMember key "signature") 64 none
  return ()

/-- The schema checks of a document and the record read from it. -/
def readBundle (raw : List UInt8) (value : Value) : Option SignalPreKeyBundleV2 := do
  let root ← objectMembers value ["type", "version", "suite", "bundle_id", "created_at_ms",
    "expires_at_ms", "device_record", "registration_id", "signal_identity_key", "signed_prekey",
    "kyber_prekey", "one_time_prekey", "signature"] []
  let _ ← (text (getMember root "type")).filter fun t => t = "signal_prekey_bundle".toList
  let _ ← (number (getMember root "version") maxSafeInteger).filter fun n => n = 2
  let _ ← (text (getMember root "suite")).filter fun t => t = "libsignal-pq-v1".toList
  let bundleId ← validUUID (getMember root "bundle_id")
  let created ← number (getMember root "created_at_ms") maxSafeInteger
  let expires ← (number (getMember root "expires_at_ms") maxSafeInteger).filter fun n =>
    created < n ∧ n - created ≤ maxBundleWindowMs
  let dr ← readDeviceRecord (getMember root "device_record")
  let _ ← (number (getMember root "registration_id") 16380).filter fun n => n ≠ 0
  let signalIdentity ← b64 (getMember root "signal_identity_key") 33 (some 5)
  let _ ← b64 (getMember root "signature") 64 none
  checkSignedKey (getMember root "signed_prekey") 33 5
  checkSignedKey (getMember root "kyber_prekey") 1569 8
  let op ← objectMembers (getMember root "one_time_prekey") ["key_id", "public_key"] []
  let oneTimeKeyId ← number (getMember op "key_id") 4294967295
  let oneTimePublicKey ← b64 (getMember op "public_key") 33 (some 5)
  return ⟨bundleId, dr.identityId, dr.deviceId, dr, signalIdentity, oneTimeKeyId,
    oneTimePublicKey, created, expires, raw, false⟩

section
variable (readOrdered : List UInt8 → Option Value) (signed : Value → Bool)

def validateSignalPreKeyBundleV2 (raw : List UInt8) (now : ℤ) :
    Except PreKeyError SignalPreKeyBundleV2 :=
  match readOrdered raw with
  | none => .error .schema
  | some value =>
    match readBundle raw value with
    | none => .error .schema
    | some b =>
      if now < 0 ∨ (b.createdAtMs : ℤ) > now ∨ now ≥ b.expiresAtMs ∨
          b.deviceRecord.createdAtMs > b.createdAtMs then
        .error .expired
      else if signed value then .ok b
      else .error .signature

/-! ## What validation promises -/

theorem length_decodeBase64 : ∀ {t : Text} {bytes : List ℕ}, decodeBase64 t = some bytes →
    bytes.length = t.length * 3 / 4 := by
  intro t
  induction t using decodeBase64.induct with
  | case1 => intro _ h; cases h; rfl
  | case2 => intro _ h; cases h
  | case3 a b =>
    intro bytes h
    simp only [decodeBase64, Option.bind_eq_bind, Option.bind_eq_some_iff] at h
    obtain ⟨x, -, y, -, h⟩ := h
    split_ifs at h
    cases h
    simp
  | case4 a b c =>
    intro bytes h
    simp only [decodeBase64, Option.bind_eq_bind, Option.bind_eq_some_iff] at h
    obtain ⟨x, -, y, -, z, -, h⟩ := h
    split_ifs at h
    cases h
    simp
  | case5 a b c d t ih =>
    intro bytes h
    simp only [decodeBase64, Option.bind_eq_bind, Option.bind_eq_some_iff] at h
    obtain ⟨x, -, y, -, z, -, w, -, rest, hr, h⟩ := h
    cases h
    simp only [List.length_cons, ih hr]
    omega

theorem isSome_base64Value : ∀ {t : Text} {bytes : List ℕ}, decodeBase64 t = some bytes →
    ∀ c ∈ t, (base64Value c).isSome := by
  intro t
  induction t using decodeBase64.induct with
  | case1 => intro _ _ c hc; cases hc
  | case2 => intro _ h; cases h
  | case3 a b =>
    intro bytes h
    simp only [decodeBase64, Option.bind_eq_bind, Option.bind_eq_some_iff] at h
    obtain ⟨x, hx, y, hy, -⟩ := h
    simp [hx, hy]
  | case4 a b c =>
    intro bytes h
    simp only [decodeBase64, Option.bind_eq_bind, Option.bind_eq_some_iff] at h
    obtain ⟨x, hx, y, hy, z, hz, -⟩ := h
    simp [hx, hy, hz]
  | case5 a b c d t ih =>
    intro bytes h
    simp only [decodeBase64, Option.bind_eq_bind, Option.bind_eq_some_iff] at h
    obtain ⟨x, hx, y, hy, z, hz, w, hw, rest, hr, -⟩ := h
    simpa [hx, hy, hz, hw] using ih hr

theorem colon_notMem_b64 {t : Text} {n : ℕ} {lead : Option ℕ} (h : b64Text t n lead = true) :
    ':' ∉ t := by
  unfold b64Text at h
  split at h
  next bytes hb =>
    intro hc
    exact absurd (isSome_base64Value hb ':' hc) (by decide)
  next => cases h

theorem colon_notMem_uuidV2 {t : Text} (h : uuidV2 t = true) : ':' ∉ t := by
  simp only [uuidV2, Bool.or_eq_true, decide_eq_true_eq] at h
  rcases h with (h | rfl) | rfl
  · exact notMem_of_matchesAll (by decide) h
  · decide
  · decide

theorem b64_eq_some {v : Value} {n : ℕ} {lead : Option ℕ} {t : Text} (h : b64 v n lead = some t) :
    b64Text t n lead = true := (Option.filter_eq_some_iff.1 h).2

theorem validUUID_eq_some {v : Value} {t : Text} (h : validUUID v = some t) : uuidV2 t = true :=
  (Option.filter_eq_some_iff.1 h).2

theorem number_le {v : Value} {max n : ℕ} (h : number v max = some n) : n ≤ max := by
  unfold number at h
  split at h
  next q =>
    split_ifs at h with hq
    obtain ⟨h0, hmax, hden⟩ := hq
    cases h
    have hnum : (q.num : ℚ) = q := Rat.coe_int_num_of_den_eq_one hden
    rw [← hnum] at hmax
    have : q.num ≤ max := by exact_mod_cast hmax
    omega
  next => cases h

/-- What the repository relies on in a validated record. -/
structure WellFormed (b : SignalPreKeyBundleV2) : Prop where
  identity : ':' ∉ b.identityId
  id : ':' ∉ b.bundleId
  created : b.createdAtMs ≤ maxSafeInteger
  unclaimed : b.claimed = false

theorem readDeviceRecord_identity {v : Value} {dr : DeviceRecord}
    (h : readDeviceRecord v = some dr) : b64Text dr.identityId 32 none = true := by
  simp only [readDeviceRecord, Option.bind_eq_bind, Option.bind_eq_some_iff] at h
  obtain ⟨_, -, _, -, _, -, identityId, hid, _, -, _, -, _, -, _, -, _, -, _, -, _, -, h⟩ := h
  cases h
  exact b64_eq_some hid

theorem readBundle_wellFormed {raw : List UInt8} {v : Value} {b : SignalPreKeyBundleV2}
    (h : readBundle raw v = some b) : WellFormed b ∧ b.raw = raw := by
  simp only [readBundle, Option.bind_eq_bind, Option.bind_eq_some_iff] at h
  obtain ⟨_, -, _, -, _, -, _, -, bundleId, hid, created, hc, expires, -, dr, hdr, _, -, _, -,
    _, -, _, -, _, -, _, -, _, -, _, -, h⟩ := h
  cases h
  exact ⟨⟨colon_notMem_b64 (readDeviceRecord_identity hdr),
    colon_notMem_uuidV2 (validUUID_eq_some hid), number_le hc, rfl⟩, rfl⟩

/-- The record published bytes are read as. -/
def parsedBundle (raw : List UInt8) : Option SignalPreKeyBundleV2 :=
  (readOrdered raw).bind (readBundle raw)

variable {readOrdered signed}

theorem parsedBundle_wellFormed {raw : List UInt8} {b : SignalPreKeyBundleV2}
    (h : parsedBundle readOrdered raw = some b) : WellFormed b ∧ b.raw = raw := by
  obtain ⟨value, -, hb⟩ := Option.bind_eq_some_iff.1 h
  exact readBundle_wellFormed hb

/-- What is accepted at any time is what the bytes are read as. -/
theorem validate_parsed {raw : List UInt8} {now : ℤ} {b : SignalPreKeyBundleV2}
    (h : validateSignalPreKeyBundleV2 readOrdered signed raw now = .ok b) :
    parsedBundle readOrdered raw = some b := by
  unfold validateSignalPreKeyBundleV2 at h
  split at h
  next => cases h
  next value hv =>
    split at h
    next => cases h
    next b' hb =>
      split_ifs at h
      cases h
      exact Option.bind_eq_some_iff.2 ⟨value, hv, hb⟩

end

end Echolet
