/-
  The texts the client signs, as `crypto-core` builds them, against the texts the relay
  rebuilds.

  * `CryptoCore` holds the client's functions; they agree with the relay's on every text
    (`encodeBase64Url_eq`, `deriveMailboxId_eq`) and on the ids the client acknowledges
    (`createMailboxAckMessage_eq`);
  * `signedEnvelopeText_eq` is the agreement on an envelope the client builds;
  * `sender_transcript_binds`: two accepted envelopes of resolved senders with one transcript
    agree in all that is signed.
-/
import Echolet.Lib.Number
import Echolet.Relay.DeviceKeys
import Echolet.Relay.Transcripts
import Echolet.Client.Profile

namespace Echolet

namespace CryptoCore

/-! ## Base64 -/

def base64Standard : Text :=
  "ABCDEFGHIJKLMNOPQRSTUVWXYZabcdefghijklmnopqrstuvwxyz0123456789+/".toList

def standardChar (n : ℕ) : Char := base64Standard.getD n 'A'

/-- `btoa` of a binary string. -/
def btoa : List ℕ → Text
  | [] => []
  | [x] => [standardChar (x / 4), standardChar (x % 4 * 16), '=', '=']
  | [x, y] => [standardChar (x / 4), standardChar (x % 4 * 16 + y / 16),
      standardChar (y % 16 * 4), '=']
  | x :: y :: z :: t => standardChar (x / 4) :: standardChar (x % 4 * 16 + y / 16) ::
      standardChar (y % 16 * 4 + z / 64) :: standardChar (z % 64) :: btoa t

/-- The two replacements of single characters. -/
def toUrl (c : Char) : Char := if c = '+' then '-' else if c = '/' then '_' else c

/-- `encodeBase64Url`. -/
def encodeBase64Url (bytes : List ℕ) : Text := ((btoa bytes).map toUrl).rdropWhile (· = '=')

theorem toUrl_standardChar (n : ℕ) : toUrl (standardChar n) = base64Char n := by
  by_cases h : n < 64
  · have hall : ∀ n < 64, toUrl (standardChar n) = base64Char n := by decide +kernel
    exact hall n h
  · have hs : base64Standard.length = 64 := rfl
    have hu : base64Alphabet.length = 64 := rfl
    rw [standardChar, base64Char, List.getD_eq_getElem?_getD, List.getD_eq_getElem?_getD,
      List.getElem?_eq_none (by omega), List.getElem?_eq_none (by omega)]
    decide

theorem base64Char_ne_pad (n : ℕ) : base64Char n ≠ '=' := by
  intro he
  by_cases h : n < 64
  · have hv := base64Value_base64Char h
    rw [he] at hv
    exact absurd hv (by simp [base64Value])
  · have hu : base64Alphabet.length = 64 := rfl
    rw [base64Char, List.getD_eq_getElem?_getD, List.getElem?_eq_none (by omega)] at he
    exact absurd he (by decide)

/-- The padding is all that the two forms differ in. -/
theorem btoa_toUrl (bytes : List ℕ) :
    ∃ k, (btoa bytes).map toUrl = encodeRawURL bytes ++ List.replicate k '=' := by
  have hpad : toUrl '=' = '=' := rfl
  induction bytes using encodeRawURL.induct with
  | case1 => exact ⟨0, rfl⟩
  | case2 x =>
    refine ⟨2, ?_⟩
    simp only [btoa, encodeRawURL, List.map_cons, List.map_nil, toUrl_standardChar, hpad]
    rfl
  | case3 x y =>
    refine ⟨1, ?_⟩
    simp only [btoa, encodeRawURL, List.map_cons, List.map_nil, toUrl_standardChar, hpad]
    rfl
  | case4 x y z t ih =>
    obtain ⟨k, hk⟩ := ih
    refine ⟨k, ?_⟩
    simp only [btoa, encodeRawURL, List.map_cons, toUrl_standardChar, hk, List.cons_append]

theorem pad_notMem_encodeRawURL (bytes : List ℕ) : '=' ∉ encodeRawURL bytes := by
  have hne : ∀ n, '=' ≠ base64Char n := fun n => (base64Char_ne_pad n).symm
  induction bytes using encodeRawURL.induct with
  | case1 => simp [encodeRawURL]
  | case2 x => simp [encodeRawURL, hne]
  | case3 x y => simp [encodeRawURL, hne]
  | case4 x y z t ih => simp [encodeRawURL, hne, ih]

/-- **The two encoders agree.** -/
theorem encodeBase64Url_eq (bytes : List ℕ) : encodeBase64Url bytes = encodeRawURL bytes := by
  obtain ⟨k, hk⟩ := btoa_toUrl bytes
  rw [encodeBase64Url, hk]
  clear hk
  induction k with
  | zero =>
    rw [List.replicate_zero, List.append_nil, List.rdropWhile_eq_self_iff]
    intro hne hl
    have hlast := of_decide_eq_true hl
    exact pad_notMem_encodeRawURL bytes (hlast ▸ List.getLast_mem hne)
  | succ k ih =>
    rw [List.replicate_succ', ← List.append_assoc, List.rdropWhile_concat_pos _ _ _ (by simp), ih]

/-! ## Transcripts -/

def deriveMailboxId (identityPubKey : Text) : Text :=
  encodeBase64Url (sha256 (utf8Bytes (identityPubKey ++ ":mailbox:v1".toList)))

theorem deriveMailboxId_eq (identityPubKey : Text) :
    deriveMailboxId identityPubKey = deriveMailboxID identityPubKey := encodeBase64Url_eq _

def hashMailboxEnvelopeCiphertext (ciphertext : Text) : Text :=
  encodeBase64Url (sha256 (utf8Bytes ciphertext))

def createMailboxChallengeMessage (challengeId recipientMailboxId deviceId nonce : Text)
    (readThrough : Option Text) : Text :=
  match readThrough with
  | none => "echolet-mailbox-challenge:v1:".toList ++ challengeId ++ ':' :: recipientMailboxId ++
      ':' :: deviceId ++ ':' :: nonce
  | some readThrough => "echolet-mailbox-challenge:v2:".toList ++ challengeId ++
      ':' :: recipientMailboxId ++ ':' :: deviceId ++ ':' :: nonce ++ ':' :: readThrough

def createMailboxCreateChallengeMessage (recipientMailboxId deviceId : Text) : Text :=
  "echolet-mailbox-create-challenge:v1:".toList ++ recipientMailboxId ++ ':' :: deviceId

/-- `Array.prototype.sort` without a comparison: the order of the UTF-16 units. -/
def sortTexts (ts : List Text) : List Text :=
  ts.insertionSort fun s t => utf16Units s ≤ utf16Units t

def createMailboxAckMessage (recipientMailboxId deviceId : Text) (envelopeIds : List Text)
    (readThrough : Option Text) : Text :=
  let normalizedEnvelopeIds := joinStrings (sortTexts envelopeIds)
  match readThrough with
  | none => "echolet-mailbox-ack:v1:".toList ++ recipientMailboxId ++ ':' :: deviceId ++
      ':' :: normalizedEnvelopeIds
  | some readThrough => "echolet-mailbox-ack:v2:".toList ++ recipientMailboxId ++
      ':' :: deviceId ++ ':' :: normalizedEnvelopeIds ++ ':' :: readThrough

def createMailboxEnvelopeMessage (recipientMailboxId envelopeId senderIdentityId senderDeviceId
    ciphertextDigest : Text) (createdAtMs expiresAtMs : Number) : Text :=
  "echolet-mailbox-envelope:v1:".toList ++ recipientMailboxId ++ ':' :: envelopeId ++
    ':' :: senderIdentityId ++ ':' :: senderDeviceId ++ ':' :: ciphertextDigest ++
    ':' :: createdAtMs.text ++ ':' :: expiresAtMs.text

/-! ## Agreement -/

theorem createMailboxChallengeMessage_eq (challengeId mailboxId deviceId nonce : Text) :
    createMailboxChallengeMessage challengeId mailboxId deviceId nonce none =
        Echolet.createMailboxChallengeMessage challengeId mailboxId deviceId nonce ∧
      ∀ readThrough, createMailboxChallengeMessage challengeId mailboxId deviceId nonce
          (some readThrough) =
        createMailboxChallengeMessageV2 challengeId mailboxId deviceId nonce readThrough := by
  unfold createMailboxChallengeMessage
  constructor
  · unfold Echolet.createMailboxChallengeMessage; rfl
  · intro readThrough
    unfold createMailboxChallengeMessageV2; rfl

theorem bytes_eq_units {t : Text} (h : ∀ c ∈ t, c.toNat < 128) : utf8Bytes t = utf16Units t := by
  induction t with
  | nil => rfl
  | cons c t ih =>
    have hc := h c (by simp)
    have hv : c.val.toNat < 128 := hc
    have hsize : c.utf8Size = 1 := by
      rw [Char.utf8Size_eq_one_iff, UInt32.le_iff_toNat_le]
      exact Nat.le_of_lt_succ hc
    have hbyte : c.val.toUInt8.toNat = c.toNat := by
      rw [UInt32.toNat_toUInt8]
      exact Nat.mod_eq_of_lt (by omega)
    have ih := ih fun d hd => h d (List.mem_cons_of_mem c hd)
    simp only [utf8Bytes, utf16Units, List.flatMap_cons] at *
    rw [ih, String.utf8EncodeChar_eq_singleton hsize, if_pos (by omega), List.map_singleton, hbyte]

/-- Both sorts put texts of ASCII characters in one order. -/
theorem sortTexts_eq {ts : List Text} (h : ∀ t ∈ ts, ∀ c ∈ t, c.toNat < 128) :
    sortTexts ts = sortStrings ts := by
  have hm := List.map_insertionSort (r := fun s t => utf16Units s ≤ utf16Units t)
    (s := fun s t => utf8Bytes s ≤ utf8Bytes t) id ts fun a ha b hb => by
      rw [id, id, bytes_eq_units (h a ha), bytes_eq_units (h b hb)]
  rw [List.map_id, List.map_id] at hm
  exact hm

/-- **The acknowledgement of a list of ASCII ids** has one text on both sides. -/
theorem createMailboxAckMessage_eq {envelopeIds : List Text}
    (h : ∀ id ∈ envelopeIds, ∀ c ∈ id, c.toNat < 128) (mailboxId deviceId : Text) :
    createMailboxAckMessage mailboxId deviceId envelopeIds none =
        Echolet.createMailboxAckMessage mailboxId deviceId envelopeIds ∧
      ∀ readThrough, createMailboxAckMessage mailboxId deviceId envelopeIds (some readThrough) =
        createMailboxAckMessageV2 mailboxId deviceId envelopeIds readThrough := by
  have hs : joinStrings (sortTexts envelopeIds) = normalizedMailboxEnvelopeIDs envelopeIds := by
    rw [sortTexts_eq h, normalizedMailboxEnvelopeIDs]
  unfold createMailboxAckMessage
  rw [hs]
  constructor
  · unfold Echolet.createMailboxAckMessage; rfl
  · intro readThrough
    unfold createMailboxAckMessageV2; rfl

/-- What the client signs for an envelope, whose times are numbers to it. -/
def signedEnvelopeText (e : MailboxEnvelope) : Text :=
  createMailboxEnvelopeMessage e.recipientMailboxId e.envelopeId e.senderIdentityId
    e.senderDeviceId (hashMailboxEnvelopeCiphertext e.ciphertext) (.ofInt e.createdAtMs)
    (.ofInt e.expiresAtMs)

theorem signedEnvelopeText_eq {e : MailboxEnvelope} (hc : e.createdAtMs.natAbs ≤ 2 ^ 53)
    (he : e.expiresAtMs.natAbs ≤ 2 ^ 53) : signedEnvelopeText e = envelopeMessage e := by
  have hd : hashMailboxEnvelopeCiphertext e.ciphertext =
      Echolet.hashMailboxEnvelopeCiphertext e.ciphertext := encodeBase64Url_eq _
  unfold signedEnvelopeText createMailboxEnvelopeMessage envelopeMessage
    Echolet.createMailboxEnvelopeMessage
  rw [Number.text_ofInt hc, Number.text_ofInt he, hd]

end CryptoCore

/-! ## The sender transcript -/

/-- The latest time of the client's clock, in milliseconds. -/
def maxTimeValue : ℕ := 8640000000000000

/-- The texts hashed to resolve the sender of an envelope and to check its signature. -/
def hashedFor (e : MailboxEnvelope) (record : DeviceRecord) : Set Text :=
  {mailboxInput e.senderIdentityId, mailboxInput record.identityId, e.ciphertext}

section
variable {H : Type} [DecidableEq H] {hash : Text → H}
  {readOrdered : List UInt8 → Option Value} {signed : Value → Bool}
  {verify : DeviceRecord → List ℕ → List ℕ → Bool} {start s s' : Publications H}

omit [DecidableEq H] in
/-- The identity of a resolved sender is that of its record, and free of colons. -/
theorem colon_notMem_sender (hf : Filed deriveMailboxID s.devices) {e : MailboxEnvelope}
    {record : DeviceRecord} {texts : Set Text} (ht : CollisionFree texts)
    (hsub : hashedFor e record ⊆ texts)
    (ha : authorizeMailboxDevice deriveMailboxID s.db.toDeviceDb
      (deriveMailboxID e.senderIdentityId) e.senderDeviceId = .ok record) :
    ':' ∉ e.senderIdentityId := by
  obtain ⟨-, -, ⟨i, -, hr⟩, hm⟩ := authorizeMailboxDevice_ok.1 ha
  have he : mailboxInput record.identityId = mailboxInput e.senderIdentityId :=
    hashOf_inj ht (hsub (by simp [hashedFor])) (hsub (by simp [hashedFor])) hm
  rw [← List.append_cancel_right he]
  exact (hf.record hr).2.colon_notMem

/-- **The sender transcript binds the envelope.**  Two envelopes that validate, whose senders
    resolve to published records at any two moments, and whose hashed texts do not collide, agree
    in every signed field where their transcripts are equal; and the client's text of an
    envelope it builds is the relay's. -/
theorem sender_transcript_binds (hf : Filed deriveMailboxID start.devices)
    (hs : Run (Publications.step hash deriveMailboxID readOrdered signed verify) Any start s)
    (hs' : Run (Publications.step hash deriveMailboxID readOrdered signed verify) Any start s')
    {e e' : MailboxEnvelope} {maxBytes : ℤ} {record record' : DeviceRecord}
    (hv : validateMailboxEnvelope e maxBytes = .ok ())
    (hv' : validateMailboxEnvelope e' maxBytes = .ok ())
    (ha : authorizeMailboxDevice deriveMailboxID s.db.toDeviceDb
      (deriveMailboxID e.senderIdentityId) e.senderDeviceId = .ok record)
    (ha' : authorizeMailboxDevice deriveMailboxID s'.db.toDeviceDb
      (deriveMailboxID e'.senderIdentityId) e'.senderDeviceId = .ok record')
    (hfree : CollisionFree (hashedFor e record ∪ hashedFor e' record')) :
    (envelopeMessage e = envelopeMessage e' →
      e.recipientMailboxId = e'.recipientMailboxId ∧ e.envelopeId = e'.envelopeId ∧
        e.senderIdentityId = e'.senderIdentityId ∧ e.senderDeviceId = e'.senderDeviceId ∧
        e.ciphertext = e'.ciphertext ∧ e.createdAtMs = e'.createdAtMs ∧
        e.expiresAtMs = e'.expiresAtMs) ∧
    ∀ (rt : Runtime) (dev : Device) (v : Circumstances) (contact : ContactIdentifiers)
      (messageId : Text) (message : SignalOutboxRecord), v.now.natAbs ≤ maxTimeValue →
      CryptoCore.signedEnvelopeText (outboundEnvelope rt dev v contact messageId message) =
        envelopeMessage (outboundEnvelope rt dev v contact messageId message) := by
  have hfiled : ∀ {t : Publications H},
      Run (Publications.step hash deriveMailboxID readOrdered signed verify) Any start t →
      Filed deriveMailboxID t.devices := fun hr =>
    hr.invariant (I := fun t : Publications H => Filed deriveMailboxID t.devices)
      (fun _ _ _ hf _ hst => hf.publication hst) hf
  have hvalid := validate_ok_iff.1 hv
  have hvalid' := validate_ok_iff.1 hv'
  have huuid : ∀ {e : MailboxEnvelope}, Valid maxBytes e → ':' ∉ e.senderDeviceId := fun h =>
    colon_notMem_uuid (h.uuid ("sender_device_id", _) (by simp [mailboxEnvelopeUUIDIdentifiers]))
  constructor
  · intro h
    obtain ⟨hm, hid, hi, hd, hc, ht, hx⟩ := envelopeMessage_inj hvalid.colon_notMem
      hvalid'.colon_notMem
      (colon_notMem_sender (hfiled hs) hfree Set.subset_union_left ha)
      (colon_notMem_sender (hfiled hs') hfree Set.subset_union_right ha')
      (huuid hvalid) (huuid hvalid') h
    have hcipher : e.ciphertext = e'.ciphertext :=
      hashOf_inj hfree (Or.inl (by simp [hashedFor])) (Or.inr (by simp [hashedFor])) hc
    exact ⟨hm, hid, hi, hd, hcipher, ht, hx⟩
  · intro rt dev v contact messageId message hnow
    have hmax : maxTimeValue = 8640000000000000 := rfl
    refine CryptoCore.signedEnvelopeText_eq ?_ ?_
    · change v.now.natAbs ≤ 2 ^ 53
      omega
    · change (v.now + envelopeLifetimeMs).natAbs ≤ 2 ^ 53
      have hl : envelopeLifetimeMs = 86400000 := rfl
      omega

end

/-- A published device whose id is a UUID. -/
def senderRecord : DeviceRecord :=
  { deviceWithKey 'k' with deviceId := "11111111-1111-4111-8111-111111111111".toList }

/-- An envelope of that device, to a mailbox that holds a colon. -/
def sentEnvelope (messageId : Text) : MailboxEnvelope where
  type := "mailbox_envelope".toList
  version := 1
  envelopeId := "22222222-2222-4222-8222-222222222222".toList
  messageId := messageId
  senderIdentityId := senderRecord.identityId
  senderDeviceId := senderRecord.deviceId
  recipientIdentityId := ['r']
  recipientDeviceId := "33333333-3333-4333-8333-333333333333".toList
  recipientMailboxId := "m:n".toList
  payloadType := mailboxEnvelopePayloadType
  ciphertext := "c".toList
  createdAtMs := 1
  expiresAtMs := 2
  sizeBytes := 1
  senderSignature := ['s']

def sentMessageIds : Text × Text :=
  ("44444444-4444-4444-8444-444444444444".toList, "55555555-5555-4555-8555-555555555555".toList)

def senderStep : Publications Text → PublicationAct → Option (Publications Text) :=
  Publications.step id deriveMailboxID (fun _ => none) (fun _ => true) fun _ _ _ => true

def sentTo (messageId : Text) : Set Text := hashedFor (sentEnvelope messageId) senderRecord

theorem sent_collisionFree : CollisionFree (sentTo sentMessageIds.1 ∪ sentTo sentMessageIds.2) := by
  have hne : sha256 (utf8Bytes (mailboxInput senderRecord.identityId)) ≠
      sha256 (utf8Bytes "c".toList) := by decide
  have hmem : ∀ {x}, x ∈ sentTo sentMessageIds.1 ∪ sentTo sentMessageIds.2 →
      x = mailboxInput senderRecord.identityId ∨ x = "c".toList := by
    intro x hx
    rcases hx with (h | h | h) | (h | h | h)
    · exact Or.inl h
    · exact Or.inl h
    · exact Or.inr h
    · exact Or.inl h
    · exact Or.inl h
    · exact Or.inr h
  intro s hs t ht h
  rcases hmem hs with rfl | rfl
  · rcases hmem ht with rfl | rfl
    · rfl
    · exact absurd h hne
  · rcases hmem ht with rfl | rfl
    · exact absurd h.symm hne
    · rfl

theorem sender_transcript_binds_resent :
    let e := sentEnvelope sentMessageIds.1
    let e' := sentEnvelope sentMessageIds.2
    e ≠ e' ∧ e.recipientMailboxId = e'.recipientMailboxId ∧ e.envelopeId = e'.envelopeId ∧
      e.senderIdentityId = e'.senderIdentityId ∧ e.senderDeviceId = e'.senderDeviceId ∧
      e.ciphertext = e'.ciphertext ∧ e.createdAtMs = e'.createdAtMs ∧
      e.expiresAtMs = e'.expiresAtMs := by
  let published := (replay senderStep Any [.publishDeviceRecord senderRecord]
    noPublications).get (by decide)
  have hr : Run senderStep Any noPublications published := Run.of_replay (Option.some_get _).symm
  have ha : ∀ messageId, authorizeMailboxDevice deriveMailboxID published.db.toDeviceDb
      (deriveMailboxID (sentEnvelope messageId).senderIdentityId)
      (sentEnvelope messageId).senderDeviceId = .ok senderRecord := by
    intro messageId
    change authorizeMailboxDevice deriveMailboxID published.db.toDeviceDb
      (deriveMailboxID senderRecord.identityId) senderRecord.deviceId = .ok senderRecord
    decide +kernel
  have hv : validateMailboxEnvelope (sentEnvelope sentMessageIds.1) 1000 = .ok () := by
    decide
  have hv' : validateMailboxEnvelope (sentEnvelope sentMessageIds.2) 1000 = .ok () := by
    decide
  have hm : ∀ m m', envelopeMessage (sentEnvelope m) = envelopeMessage (sentEnvelope m') := by
    intro m m'
    unfold envelopeMessage; rfl
  have hf : Filed deriveMailboxID noPublications.devices := noPublications_filed
  have hb := sender_transcript_binds hf hr hr hv hv' (ha _) (ha _) sent_collisionFree
  exact ⟨by decide, hb.1 (hm _ _)⟩

end Echolet
