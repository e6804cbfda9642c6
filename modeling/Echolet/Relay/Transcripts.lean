/-
  The texts a device signs for the relay, as `cryptoutil` builds them.

  Fields stand between colons, so a transcript names its fields where all but the first are
  free of colons (`joined_inj`).  The two digests are texts in the URL alphabet:

  * `decodeRawChars_encodeRawURL` is the round trip of the encoding, and with it a digest
    names what was hashed among texts that do not collide (`hashOf_inj`);
  * `envelopeMessage_inj` reads the fields of an envelope off its transcript.
-/
import Mathlib.Data.List.Sort
import Mathlib.Data.Set.Function
import Echolet.Lib.Sha256
import Echolet.Lib.Json
import Echolet.Relay.Devices

namespace Echolet

/-! ## Base64 -/

def base64Alphabet : Text :=
  "ABCDEFGHIJKLMNOPQRSTUVWXYZabcdefghijklmnopqrstuvwxyz0123456789-_".toList

def base64Char (n : ℕ) : Char := base64Alphabet.getD n 'A'

/-- `base64.RawURLEncoding.EncodeToString`. -/
def encodeRawURL : List ℕ → Text
  | [] => []
  | [x] => [base64Char (x / 4), base64Char (x % 4 * 16)]
  | [x, y] => [base64Char (x / 4), base64Char (x % 4 * 16 + y / 16), base64Char (y % 16 * 4)]
  | x :: y :: z :: t => base64Char (x / 4) :: base64Char (x % 4 * 16 + y / 16) ::
      base64Char (y % 16 * 4 + z / 64) :: base64Char (z % 64) :: encodeRawURL t

theorem base64Value_base64Char {n : ℕ} (h : n < 64) : base64Value (base64Char n) = some n := by
  have hall : ∀ n < 64, base64Value (base64Char n) = some n := by decide +kernel
  exact hall n h

theorem colon_ne_base64Char (n : ℕ) : ':' ≠ base64Char n := by
  by_cases h : n < 64
  · intro he
    have hv := base64Value_base64Char h
    rw [← he] at hv
    exact absurd hv (by simp [base64Value])
  · have hl : base64Alphabet.length = 64 := rfl
    rw [base64Char, List.getD_eq_getElem?_getD, List.getElem?_eq_none (by omega)]
    decide

theorem colon_notMem_encodeRawURL (bytes : List ℕ) : ':' ∉ encodeRawURL bytes := by
  induction bytes using encodeRawURL.induct with
  | case1 => simp [encodeRawURL]
  | case2 x => simp [encodeRawURL, colon_ne_base64Char]
  | case3 x y => simp [encodeRawURL, colon_ne_base64Char]
  | case4 x y z t ih => simp [encodeRawURL, colon_ne_base64Char, ih]

/-- **Decoding undoes encoding.** -/
theorem decodeRawChars_encodeRawURL {bytes : List ℕ} (h : ∀ b ∈ bytes, b < 256) :
    decodeRawChars (encodeRawURL bytes) = some bytes := by
  induction bytes using encodeRawURL.induct with
  | case1 => rfl
  | case2 x =>
    have hx := h x (by simp)
    simp only [encodeRawURL, decodeRawChars, Option.bind_eq_bind,
      base64Value_base64Char (show x / 4 < 64 by omega),
      base64Value_base64Char (show x % 4 * 16 < 64 by omega), Option.bind_some]
    congr 2; omega
  | case3 x y =>
    have hx := h x (by simp)
    have hy := h y (by simp)
    simp only [encodeRawURL, decodeRawChars, Option.bind_eq_bind,
      base64Value_base64Char (show x / 4 < 64 by omega),
      base64Value_base64Char (show x % 4 * 16 + y / 16 < 64 by omega),
      base64Value_base64Char (show y % 16 * 4 < 64 by omega), Option.bind_some]
    congr 2
    · omega
    · congr 1; omega
  | case4 x y z t ih =>
    have hx := h x (by simp)
    have hy := h y (by simp)
    have hz := h z (by simp)
    simp only [encodeRawURL, decodeRawChars, Option.bind_eq_bind,
      base64Value_base64Char (show x / 4 < 64 by omega),
      base64Value_base64Char (show x % 4 * 16 + y / 16 < 64 by omega),
      base64Value_base64Char (show y % 16 * 4 + z / 64 < 64 by omega),
      base64Value_base64Char (show z % 64 < 64 by omega), Option.bind_some,
      ih fun b hb => h b (by simp [hb])]
    congr 2
    · omega
    · congr 1
      · omega
      · congr 1; omega

theorem encodeRawURL_inj {bytes bytes' : List ℕ} (h : ∀ b ∈ bytes, b < 256)
    (h' : ∀ b ∈ bytes', b < 256) (he : encodeRawURL bytes = encodeRawURL bytes') :
    bytes = bytes' := by
  have hd := congrArg decodeRawChars he
  rw [decodeRawChars_encodeRawURL h, decodeRawChars_encodeRawURL h'] at hd
  exact Option.some.inj hd

/-! ## Digests -/

/-- The digest of a text, as a text. -/
def hashOf (t : Text) : Text := encodeRawURL (sha256 (utf8Bytes t))

theorem colon_notMem_hashOf (t : Text) : ':' ∉ hashOf t := colon_notMem_encodeRawURL _

/-- Texts whose SHA-256 digests differ where they do. -/
def CollisionFree (texts : Set Text) : Prop := Set.InjOn (fun t => sha256 (utf8Bytes t)) texts

theorem hashOf_inj {texts : Set Text} (h : CollisionFree texts) {s t : Text} (hs : s ∈ texts)
    (ht : t ∈ texts) (he : hashOf s = hashOf t) : s = t :=
  h hs ht (encodeRawURL_inj (sha256_lt _) (sha256_lt _) he)

/-- What `DeriveMailboxID` hashes. -/
def mailboxInput (identityPubKey : Text) : Text := identityPubKey ++ ":mailbox:v1".toList

def deriveMailboxID (identityPubKey : Text) : Text := hashOf (mailboxInput identityPubKey)

def hashMailboxEnvelopeCiphertext (ciphertext : Text) : Text := hashOf ciphertext

/-! ## The transcripts -/

def createMailboxChallengeMessage (challengeID recipientMailboxID deviceID nonce : Text) : Text :=
  "echolet-mailbox-challenge:v1:".toList ++ challengeID ++ ':' :: recipientMailboxID ++
    ':' :: deviceID ++ ':' :: nonce

def createMailboxChallengeMessageV2
    (challengeID recipientMailboxID deviceID nonce readThrough : Text) : Text :=
  "echolet-mailbox-challenge:v2:".toList ++ challengeID ++ ':' :: recipientMailboxID ++
    ':' :: deviceID ++ ':' :: nonce ++ ':' :: readThrough

def createMailboxCreateChallengeMessage (recipientMailboxID deviceID : Text) : Text :=
  "echolet-mailbox-create-challenge:v1:".toList ++ recipientMailboxID ++ ':' :: deviceID

/-- `sort.Strings`: the order of the bytes. -/
def sortStrings (ts : List Text) : List Text :=
  ts.insertionSort fun s t => utf8Bytes s ≤ utf8Bytes t

/-- `strings.Join`. -/
def joinStrings (ts : List Text) : Text := [','].intercalate ts

def normalizedMailboxEnvelopeIDs (envelopeIDs : List Text) : Text :=
  joinStrings (sortStrings envelopeIDs)

def createMailboxAckMessage (recipientMailboxID deviceID : Text) (envelopeIDs : List Text) : Text :=
  "echolet-mailbox-ack:v1:".toList ++ recipientMailboxID ++ ':' :: deviceID ++
    ':' :: normalizedMailboxEnvelopeIDs envelopeIDs

def createMailboxAckMessageV2 (recipientMailboxID deviceID : Text) (envelopeIDs : List Text)
    (readThrough : Text) : Text :=
  "echolet-mailbox-ack:v2:".toList ++ recipientMailboxID ++ ':' :: deviceID ++
    ':' :: normalizedMailboxEnvelopeIDs envelopeIDs ++ ':' :: readThrough

def createMailboxEnvelopeMessage (recipientMailboxID envelopeID senderIdentityID senderDeviceID
    ciphertextDigest : Text) (createdAtMs expiresAtMs : ℤ) : Text :=
  "echolet-mailbox-envelope:v1:".toList ++ recipientMailboxID ++ ':' :: envelopeID ++
    ':' :: senderIdentityID ++ ':' :: senderDeviceID ++ ':' :: ciphertextDigest ++
    ':' :: Json.renderInt createdAtMs ++ ':' :: Json.renderInt expiresAtMs

/-- What the relay rebuilds from an envelope. -/
def envelopeMessage (e : MailboxEnvelope) : Text :=
  createMailboxEnvelopeMessage e.recipientMailboxId e.envelopeId e.senderIdentityId
    e.senderDeviceId (hashMailboxEnvelopeCiphertext e.ciphertext) e.createdAtMs e.expiresAtMs

/-- `VerifyMessageSignature`; `ed25519` verifies a signature under a public key. -/
def verifyMessageSignature (ed25519 : List ℕ → Text → List ℕ → Bool)
    (message signature publicKey : Text) : Bool :=
  match decodeRawURL signature, decodeRawURL publicKey with
  | some signature, some publicKey =>
    decide (signature.length = 64) && decide (publicKey.length = 32) &&
      ed25519 publicKey message signature
  | _, _ => false

/-! ## Reading fields off a transcript -/

theorem notMem_decimal {c : Char} (hc : c.isDigit = false) (n : ℕ) : c ∉ decimal n := by
  intro h
  rw [isDigit_of_mem_decimal h] at hc
  cases hc

theorem colon_notMem_renderInt (n : ℤ) : ':' ∉ Json.renderInt n := by
  cases n with
  | ofNat n => exact notMem_decimal rfl n
  | negSucc n =>
    intro h
    rcases List.mem_cons.1 h with h | h
    · exact absurd h (by decide)
    · exact notMem_decimal rfl _ h

theorem renderInt_inj {m n : ℤ} (h : Json.renderInt m = Json.renderInt n) : m = n := by
  have hne : ∀ {k l : ℕ}, decimal k ≠ '-' :: decimal l := by
    intro k l he
    exact absurd (show '-' ∈ decimal k by rw [he]; simp) (notMem_decimal rfl k)
  cases m with
  | ofNat m =>
    cases n with
    | ofNat n => rw [decimal_inj h]
    | negSucc n => exact absurd h hne
  | negSucc m =>
    cases n with
    | ofNat n => exact absurd h.symm hne
    | negSucc n =>
      have := decimal_inj (List.cons.inj h).2
      rw [Nat.succ.inj this]

/-- **Equal envelope transcripts have equal fields**, where all but the mailbox are free of
    colons; the mailbox is any text. -/
theorem envelopeMessage_inj {e e' : MailboxEnvelope} (he : ':' ∉ e.envelopeId)
    (he' : ':' ∉ e'.envelopeId) (hs : ':' ∉ e.senderIdentityId) (hs' : ':' ∉ e'.senderIdentityId)
    (hd : ':' ∉ e.senderDeviceId) (hd' : ':' ∉ e'.senderDeviceId)
    (h : envelopeMessage e = envelopeMessage e') :
    e.recipientMailboxId = e'.recipientMailboxId ∧ e.envelopeId = e'.envelopeId ∧
      e.senderIdentityId = e'.senderIdentityId ∧ e.senderDeviceId = e'.senderDeviceId ∧
      hashOf e.ciphertext = hashOf e'.ciphertext ∧ e.createdAtMs = e'.createdAtMs ∧
      e.expiresAtMs = e'.expiresAtMs := by
  let fields (e : MailboxEnvelope) : List Text := [e.envelopeId, e.senderIdentityId,
    e.senderDeviceId, hashOf e.ciphertext, Json.renderInt e.createdAtMs,
    Json.renderInt e.expiresAtMs]
  have hfree : ∀ {e : MailboxEnvelope}, ':' ∉ e.envelopeId → ':' ∉ e.senderIdentityId →
      ':' ∉ e.senderDeviceId → ∀ f ∈ fields e, ':' ∉ f := by
    intro e h1 h2 h3 f hf
    simp only [fields, List.mem_cons, List.not_mem_nil, or_false] at hf
    rcases hf with rfl | rfl | rfl | rfl | rfl | rfl
    · exact h1
    · exact h2
    · exact h3
    · exact colon_notMem_hashOf _
    · exact colon_notMem_renderInt _
    · exact colon_notMem_renderInt _
  let first (e : MailboxEnvelope) : Text :=
    "echolet-mailbox-envelope:v1:".toList ++ e.recipientMailboxId
  have hj : joined ':' (first e) (fields e) = joined ':' (first e') (fields e') := h
  obtain ⟨hm, hf⟩ := joined_inj (hfree he hs hd) (hfree he' hs' hd') rfl hj
  simp only [fields, List.cons.injEq, and_true] at hf
  obtain ⟨h1, h2, h3, h4, h5, h6⟩ := hf
  exact ⟨List.append_cancel_left hm, h1, h2, h3, h4, renderInt_inj h5, renderInt_inj h6⟩

end Echolet
