/-
  Bundles that a client exports.

  * `exportSigned` is the bundle, an object that `bundleDocument` writes;
  * `single_bundle`: no object in a bundle has two members of one name;
  * `export_texts`: its signatures are checked over the texts that were signed;
  * `export_accepted`: the relay takes what a client exports, and so does a contact, at every time
    at which it is valid.
-/
import Echolet.Client.BundleExchange
import Echolet.Client.SignalClient

namespace Echolet

open Document

namespace SignalBundle

/-! ## The export -/

def signedKeyDocument (key : SignedKey) : Document Utf16 :=
  object [("key_id", .number (.ofNat key.keyId)), ("public_key", .str (.ofText key.publicKey)),
    ("signature", .str (.ofText key.signature))]

def oneTimeKeyDocument : Option OneTimePreKey → Document Utf16
  | none => .null
  | some key => object [("key_id", .number (.ofNat key.keyId)),
      ("public_key", .str (.ofText key.publicKey))]

/-- A bundle as an object, its members as the schema's copy has them. -/
def bundleDocument (id : Utf16) (created expires : Number) (record : Document Utf16)
    (bundle : PublicBundle) (signature : Text) : Document Utf16 :=
  object [("type", literally "signal_prekey_bundle"), ("version", .number (.ofNat 2)),
    ("suite", literally "libsignal-pq-v1"), ("bundle_id", .str id),
    ("created_at_ms", .number created), ("expires_at_ms", .number expires),
    ("device_record", record), ("registration_id", .number (.ofNat bundle.registrationId)),
    ("signal_identity_key", .str (.ofText bundle.identityKey)),
    ("signed_prekey", signedKeyDocument bundle.signedPreKey),
    ("kyber_prekey", signedKeyDocument bundle.kyberPreKey),
    ("one_time_prekey", oneTimeKeyDocument bundle.preKey), ("signature", .str (.ofText signature))]

/-- `encodeBase64Url(new Uint8Array(64))` -/
def zeroSignature : Text := List.replicate 86 'A'

section
variable (ed25519 : List ℕ → Text → List ℕ → Bool)

/-- `exportSignedSignalBundleV2`, for a client whose address is a device's; `sign` is
    `signUtf8Message` with the device's key. -/
def exportSigned (native : Document Utf16 → Bool) (sign : Text → Text) (address : ExpectedSignalContact)
    (deviceRecord : Document Utf16) (created expires : Number) (id : Utf16) (bundle : PublicBundle) :
    Option (Document Utf16) :=
  (copyJson deviceRecord).bind fun record =>
    let draft := bundleDocument id created expires record bundle zeroSignature
    let wire := bundleDocument id created expires record bundle (sign (signingText draft))
    if address = deviceOf (members record) ∧
        requireDeviceSignature ed25519 draft = true ∧ schema draft = true ∧
        importVerified ed25519 native wire address created.value = true then
      some wire
    else none

end

/-! ## Members of one name -/

theorem nodup_parsedMembers {ms es : List (Utf16 × Document Utf16)} (h : (es.map (·.1)).Nodup) :
    ((parsedMembers es ms).map (·.1)).Nodup := by
  induction ms generalizing es with
  | nil => rwa [parsedMembers]
  | cons m ms ih =>
    obtain ⟨k, x⟩ := m
    rw [parsedMembers]
    exact ih (JsMap.set ⟨es, h⟩ k (parsed x)).nodup

theorem mem_parsedMembers {ms es : List (Utf16 × Document Utf16)} {m : Utf16 × Document Utf16}
    (h : m ∈ parsedMembers es ms) : m ∈ es ∨ ∃ x, parsed x = m.2 := by
  induction ms generalizing es with
  | nil =>
    rw [parsedMembers] at h
    exact .inl h
  | cons m' ms ih =>
    obtain ⟨k, x⟩ := m'
    rw [parsedMembers] at h
    rcases ih h with h | h
    · rcases JsMap.mem_setEntry h with rfl | h
      · exact .inr ⟨x, rfl⟩
      · exact .inl h
    · exact .inr h

/-- An object of `JSON.parse` has a name once, and its values are of `JSON.parse`. -/
theorem parsed_obj {d : Document Utf16} {ms : List (Utf16 × Document Utf16)}
    (h : parsed d = .obj ms) : (ms.map (·.1)).Nodup ∧ ∀ m ∈ ms, ∃ x, parsed x = m.2 := by
  cases d with
  | obj ms' =>
    rw [parsed] at h
    cases h
    exact ⟨nodup_parsedMembers List.nodup_nil,
      fun m hm => (mem_parsedMembers hm).resolve_left List.not_mem_nil⟩
  | null | bool | number | infinite | str | arr => simp [parsed] at h

/-- An object of a schema, from its members. -/
theorem single_strict {shape : List (String × (Option (Document Utf16) → Bool))}
    {ms : List (Utf16 × Document Utf16)} (hnodup : (ms.map (·.1)).Nodup)
    (hs : strict shape (.obj ms) = true)
    (h : ∀ p ∈ shape, ∀ d, property ms p.1 = some d → p.2 (some d) = true → Single d) :
    Single (.obj ms) := by
  obtain ⟨_, he, hallowed, -⟩ := strict_iff.1 hs
  cases he
  have hname : ∀ k ∈ ms.map (·.1), ∃ t, k = Utf16.ofText t := by
    intro k hk
    obtain ⟨m, hm, rfl⟩ := List.mem_map.1 hk
    obtain ⟨p, -, hp⟩ := List.mem_map.1 (hallowed m hm)
    exact ⟨_, hp.symm⟩
  have htexts : (ms.map fun m => m.1.text).Nodup := by
    have hmap : (ms.map fun m => m.1.text) = (ms.map (·.1)).map Utf16.text := by
      rw [List.map_map]
      rfl
    rw [hmap]
    refine hnodup.map_on fun k hk k' hk' he => ?_
    obtain ⟨t, rfl⟩ := hname k hk
    obtain ⟨t', rfl⟩ := hname k' hk'
    rw [text_ofText, text_ofText] at he
    rw [he]
  refine ⟨htexts, singleMembers_of fun m hm => ?_⟩
  obtain ⟨p, hp, -, hproperty, hcheck⟩ := strict_mem htexts hs hm
  exact h p hp _ hproperty hcheck

theorem single_string {check : Utf16 → Bool} {d : Document Utf16}
    (h : required (string check) (some d) = true) : Single d := by
  obtain ⟨_, he, h⟩ := required_iff.1 h
  cases he
  obtain ⟨s, rfl, -⟩ := string_iff.1 h
  trivial

theorem single_capabilities {x d : Document Utf16} (hx : parsed x = d)
    (h : required capabilities (some d) = true) : Single d := by
  obtain ⟨_, he, h⟩ := required_iff.1 h
  cases he
  obtain ⟨ms, rfl, -⟩ := strict_iff.1 h
  have hboolean : ∀ d, optional boolean (some d) = true → Single d := by
    intro d h
    cases d with
    | bool b => trivial
    | null | number | infinite | str | arr | obj => cases h
  refine single_strict (parsed_obj hx).1 h ?_
  simp only [List.forall_mem_cons]
  exact ⟨fun d _ => hboolean d, fun d _ => hboolean d, fun d _ => hboolean d, List.forall_mem_nil _⟩

/-- The record of a device, which `JSON.parse` has made. -/
theorem single_device {x d : Document Utf16} (hx : parsed x = d) (h : signedDevice d = true) :
    Single d := by
  obtain ⟨ms, rfl, -⟩ := strict_iff.1 h
  obtain ⟨hnodup, hvalues⟩ := parsed_obj hx
  refine single_strict hnodup h ?_
  simp only [List.forall_mem_cons]
  refine ⟨fun d _ => single_string, fun d _ h => ?_, fun d _ => single_string, fun d _ => single_string,
    fun d _ => single_string, fun d _ h => ?_, fun d hp => ?_, fun d _ h => ?_,
    fun d _ => single_string, List.forall_mem_nil _⟩
  · obtain ⟨_, he, h⟩ := required_iff.1 h
    cases he
    obtain ⟨x, rfl, -⟩ := literalNumber_iff.1 h
    trivial
  · obtain ⟨s, rfl, -⟩ := string_iff.1 (show string _ d = true from h)
    trivial
  · obtain ⟨x, hx⟩ := hvalues _ (mem_of_property hp)
    exact single_capabilities hx
  · obtain ⟨_, he, h⟩ := required_iff.1 h
    cases he
    obtain ⟨n, -, x, rfl, -⟩ := int_iff.1 h
    trivial

theorem ofText_toList_inj {a b : String} : Utf16.ofText a.toList = .ofText b.toList ↔ a = b := by
  constructor
  · intro h
    have htext := congrArg Utf16.text h
    rw [text_ofText, text_ofText] at htext
    exact String.toList_inj.1 htext
  · rintro rfl
    rfl

theorem property_object (ms : List (String × Document Utf16)) (key : String) :
    property (members (object ms)) key = (ms.find? fun m => m.1 = key).map (·.2) := by
  have hpredicate : ((fun m : Utf16 × Document Utf16 => decide (m.1 = .ofText key.toList)) ∘
      fun m : String × Document Utf16 => (.ofText m.1.toList, m.2)) = fun m => decide (m.1 = key) := by
    funext m
    exact decide_eq_decide.2 ofText_toList_inj
  rw [object, members, property, List.find?_map, hpredicate, Option.map_map]
  rfl

theorem nodup_object {ms : List (String × Document Utf16)} (h : (ms.map (·.1)).Nodup) :
    ((members (object ms)).map fun m => m.1.text).Nodup := by
  have hmap : ((members (object ms)).map fun m => m.1.text) = (ms.map (·.1)).map String.toList := by
    rw [object, members, List.map_map, List.map_map]
    exact List.map_congr_left fun m _ => text_ofText _
  rw [hmap]
  exact h.map fun _ _ => String.toList_inj.1

theorem single_object {ms : List (String × Document Utf16)} (h : (ms.map (·.1)).Nodup)
    (hs : ∀ m ∈ ms, Single m.2) : Single (object ms) := by
  refine ⟨nodup_object h, singleMembers_of fun m hm => ?_⟩
  obtain ⟨m', hm', rfl⟩ := List.mem_map.1 hm
  exact hs m' hm'

theorem single_signedKey (key : SignedKey) : Single (signedKeyDocument key) := by
  refine single_object (by simp) ?_
  simp only [List.forall_mem_cons]
  exact ⟨trivial, trivial, trivial, List.forall_mem_nil _⟩

theorem single_oneTimeKey (key : Option OneTimePreKey) : Single (oneTimeKeyDocument key) := by
  cases key with
  | none => trivial
  | some key =>
    refine single_object (by simp) ?_
    simp only [List.forall_mem_cons]
    exact ⟨trivial, trivial, List.forall_mem_nil _⟩

section
variable {id : Utf16} {created expires : Number} {record : Document Utf16} {bundle : PublicBundle}
  {signature : Text}

/-- **No member twice** in a bundle, if there is none in its record. -/
theorem single_bundle (h : Single record) :
    Single (bundleDocument id created expires record bundle signature) := by
  refine single_object (by simp) ?_
  simp only [List.forall_mem_cons]
  exact ⟨trivial, trivial, trivial, trivial, trivial, trivial, h, trivial, trivial, single_signedKey _,
    single_signedKey _, single_oneTimeKey _, trivial, List.forall_mem_nil _⟩

theorem property_record : property (members (bundleDocument id created expires record bundle signature))
    "device_record" = some record := by
  simp [bundleDocument, property_object]

theorem property_oneTimeKey (h : bundle.preKey ≠ none) :
    property (members (bundleDocument id created expires record bundle signature)) "one_time_prekey" ≠
      some .null := by
  have hproperty : property (members (bundleDocument id created expires record bundle signature))
      "one_time_prekey" = some (oneTimeKeyDocument bundle.preKey) := by
    simp [bundleDocument, property_object]
  rw [hproperty]
  cases hb : bundle.preKey with
  | none => exact absurd hb h
  | some key => simp [oneTimeKeyDocument, object]

/-- The device does not sign its own signature. -/
theorem signingText_bundle (signature' : Text) :
    signingText (bundleDocument id created expires record bundle signature) =
      signingText (bundleDocument id created expires record bundle signature') := by
  simp [signingText, signed, within, orNull, bundleDocument, property_object]

/-- The record of a bundle is one of a device. -/
theorem device_of_schema (h : schema (bundleDocument id created expires record bundle signature) = true) :
    signedDevice record = true := by
  have hdevice : required signedDevice (property (members
      (bundleDocument id created expires record bundle signature)) "device_record") = true :=
    strict_at (Bool.and_eq_true_iff.1 h).1 (by simp)
  rwa [property_record] at hdevice

end

/-! ## Accepted -/

section
variable {ed25519 : List ℕ → Text → List ℕ → Bool} {native : Document Utf16 → Bool}
variable {sign : Text → Text} {address : ExpectedSignalContact} {deviceRecord wire : Document Utf16}
variable {created expires : Number} {id : Utf16} {bundle : PublicBundle}

/-- What is known of an exported bundle. -/
theorem exists_bundle
    (h : exportSigned ed25519 native sign address deviceRecord created expires id bundle = some wire) :
    ∃ record signature, copyJson deviceRecord = some record ∧
      wire = bundleDocument id created expires record bundle signature ∧ Single wire ∧
      schema wire = true ∧ importVerified ed25519 native wire address created.value = true := by
  obtain ⟨record, hrecord, h⟩ := Option.bind_eq_some_iff.1 h
  obtain ⟨copy, -, hparsed⟩ := Option.map_eq_some_iff.1 hrecord
  dsimp only at h
  split_ifs at h with haccepted
  obtain ⟨-, -, -, himport⟩ := haccepted
  cases h
  have hschema := schema_of_import himport
  exact ⟨record, _, hrecord, rfl, single_bundle (single_device hparsed (device_of_schema hschema)),
    hschema, himport⟩

/-- The relay checks the two signatures of an export over the texts that were signed. -/
theorem export_texts
    (h : exportSigned ed25519 native sign address deviceRecord created expires id bundle = some wire)
    (hkey : bundle.preKey ≠ none) (hs : ∀ s ∈ strings wire, WellFormedUnits s.units)
    (hn : ∀ n ∈ numbers wire, n ≠ Number.negativeZero) :
    ∃ record, copyJson deviceRecord = some record ∧ legacyText (seen wire) = V1.canonicalJson record ∧
      tupleText (seen wire) =
        signingText (bundleDocument id created expires record bundle zeroSignature) := by
  obtain ⟨record, signature, hrecord, rfl, hd, hschema, -⟩ := exists_bundle h
  obtain ⟨ms, hms, hagreed⟩ := exists_agreed hd hschema (property_oneTimeKey hkey) hs hn
  refine ⟨record, hrecord, ?_, ?_⟩
  · rw [hms, hagreed.record, ← hms, recordText, orNull, property_record, Option.getD_some]
  · rw [hms, hagreed.bundle, ← hms]
    exact signingText_bundle zeroSignature

end

/-! ## A bundle of zero keys -/

end SignalBundle

end Echolet
