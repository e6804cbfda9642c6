/-
  The session of `crypto-core`: two chains of keys, one for each direction, and one counter.

  * `CryptoCore.createOutboundSession`, `createInboundSession`, `encryptMessage` and
    `decryptMessage` are the functions of the source; X25519 and the secretbox are parameters,
    `Nacl.Correct` is what they promise;
  * `Conversation` is two parties with the messages in flight to each, delivered in order;
  * `conversation_survives`: what is encrypted while nothing is in flight to its sender arrives
    as it was, and both can go on; `crossing_rejected`: two messages that cross are refused.
-/
import Echolet.Lib.Document
import Echolet.Lib.Runs
import Echolet.Lib.Utf8
import Echolet.Client.MailboxAuth

namespace Echolet

abbrev Octets := List ℕ

def IsOctets (bytes : Octets) : Prop := ∀ b ∈ bytes, b < 256

/-- What the session uses of `tweetnacl`; the keys and nonces it is given have the lengths that it
    checks. -/
structure Nacl where
  scalarMult : Octets → Octets → Octets
  /-- `nacl.scalarMult.base`, which gives public keys. -/
  scalarMultBase : Octets → Octets
  secretbox : Octets → Octets → Octets → Octets
  /-- `nacl.secretbox.open`. -/
  secretboxOpen : Octets → Octets → Octets → Option Octets

/-- Two secret keys agree on one secret; a box is bytes, and opens under its nonce and key. -/
structure Nacl.Correct (nacl : Nacl) : Prop where
  agrees : ∀ a b, a.length = 32 → b.length = 32 →
    nacl.scalarMult a (nacl.scalarMultBase b) = nacl.scalarMult b (nacl.scalarMultBase a)
  isOctets : ∀ message nonce key, IsOctets message → IsOctets (nacl.secretbox message nonce key)
  opens : ∀ message nonce key, IsOctets message → nonce.length = 24 → key.length = 32 →
    nacl.secretboxOpen (nacl.secretbox message nonce key) nonce key = some message

namespace CryptoCore

/-! ## Encodings -/

/-- `atob`: the standard alphabet, white space and padding passed over. -/
def atob (t : Text) : Option Octets :=
  let t := t.filter fun c => c ∉ [' ', '\t', '\n', '\r', '\x0c']
  let t := if t.length % 4 = 0 then
      if t.drop (t.length - 2) = ['=', '='] then t.take (t.length - 2)
      else if t.drop (t.length - 1) = ['='] then t.take (t.length - 1) else t
    else t
  if t.any (fun c => c ∈ ['-', '_']) = true then none else decodeRawChars (t.map toUrl)

def toStandard (c : Char) : Char := if c = '-' then '+' else if c = '_' then '/' else c

def decodeBase64Url (base64url : Text) : Option Octets := atob (base64url.map toStandard)

/-- `new TextEncoder().encode`. -/
def encodeText (us : List ℕ) : Octets := utf8Bytes (toText us)

/-- `new TextDecoder().decode`, which passes over a byte order mark. -/
def decodeText (bytes : Octets) : List ℕ :=
  let t := decodeUtf8 bytes
  utf16Units (if t.head? = some '\uFEFF' then t.tail else t)

/-! ## Keys -/

/-- The loop of `hkdf`, which ends once there are enough bytes. -/
def hkdfLoop (prk info : Octets) (length : ℕ) : ℕ → Octets → Octets → ℕ → Octets
  | 0, okm, _, _ => okm
  | fuel + 1, okm, t, i =>
    if okm.length < length then
      let t := hmacSha256 prk (t ++ info ++ [(i + 1) % 256])
      hkdfLoop prk info length fuel (okm ++ t) t (i + 1)
    else okm

def hkdf (input salt info : Octets) (length : ℕ) : Octets :=
  (hkdfLoop (hmacSha256 salt input) info length length [] [] 0).take length

def noSalt : Octets := List.replicate 32 0

def deriveRootKey (sharedSecret : Octets) : Octets :=
  hkdf sharedSecret noSalt (utf8Bytes "Echolet_Root".toList) 32

inductive Direction where
  | initiatorToRecipient
  | recipientToInitiator

def Direction.text : Direction → Text
  | initiatorToRecipient => "initiator->recipient".toList
  | recipientToInitiator => "recipient->initiator".toList

def deriveDirectionalChainKey (rootKey : Octets) (direction : Direction) : Octets :=
  hkdf rootKey noSalt (utf8Bytes ("Echolet_Chain:".toList ++ direction.text)) 32

/-- The message key and the nonce. -/
def deriveMessageKeyMaterial (chainKey : Octets) (counter : ℕ) : Octets × Octets :=
  let material := hkdf chainKey noSalt
    (utf8Bytes ("Echolet_Message:".toList ++ (Number.ofNat counter).text)) 56
  (material.take 32, material.drop 32)

def rotateChainKey (chainKey : Octets) : Octets :=
  hkdf chainKey noSalt (utf8Bytes "Echolet_Chain:next".toList) 32

/-! ## Sessions -/

structure SessionState where
  sessionId : Text
  localIdentityId : Text
  localDeviceId : Text
  remoteIdentityId : Text
  remoteDeviceId : Text
  sendingChainKey : Text
  receivingChainKey : Option Text
  rootKey : Text
  counter : ℕ

inductive SessionError where
  /-- `assertKeyLength`, with the name of the key. -/
  | keyLength (label : Text)
  /-- `JSON.parse`, or a property of null. -/
  | malformed
  | unsupportedVersion
  /-- `atob`. -/
  | invalidBase64
  | unexpectedCounter (expected : ℕ) (got : Option (Document (List ℕ)))
  | failedToDecrypt

def assertKeyLength (key : Octets) (label : Text) : Except SessionError Unit :=
  if key.length ≠ 32 then .error (.keyLength label) else .ok ()

/-- `counter + 1` of a double. -/
def nextCounter (counter : ℕ) : ℕ := if counter < 2 ^ 53 then counter + 1 else counter

section
variable (nacl : Nacl)

def createOutboundSession (localIdentityId localDeviceId remoteIdentityId remoteDeviceId : Text)
    (remotePreKey localIdentityKey : Octets) (now : ℕ) : Except SessionError SessionState := do
  assertKeyLength remotePreKey "remotePreKey".toList
  assertKeyLength localIdentityKey "localIdentityKey".toList
  let rootKeyMaterial := deriveRootKey (nacl.scalarMult localIdentityKey remotePreKey)
  return {
    sessionId := localDeviceId ++ ':' :: remoteDeviceId ++ ':' :: (Number.ofNat now).text
    localIdentityId := localIdentityId
    localDeviceId := localDeviceId
    remoteIdentityId := remoteIdentityId
    remoteDeviceId := remoteDeviceId
    sendingChainKey := encodeBase64Url
      (deriveDirectionalChainKey rootKeyMaterial .initiatorToRecipient)
    receivingChainKey := some (encodeBase64Url
      (deriveDirectionalChainKey rootKeyMaterial .recipientToInitiator))
    rootKey := encodeBase64Url rootKeyMaterial
    counter := 0 }

def createInboundSession (localIdentityId localDeviceId remoteIdentityId remoteDeviceId : Text)
    (localPreKey remoteIdentityKey : Octets) (now : ℕ) : Except SessionError SessionState := do
  assertKeyLength localPreKey "localPreKey".toList
  assertKeyLength remoteIdentityKey "remoteIdentityKey".toList
  let rootKeyMaterial := deriveRootKey (nacl.scalarMult localPreKey remoteIdentityKey)
  return {
    sessionId := remoteDeviceId ++ ':' :: localDeviceId ++ ':' :: (Number.ofNat now).text
    localIdentityId := localIdentityId
    localDeviceId := localDeviceId
    remoteIdentityId := remoteIdentityId
    remoteDeviceId := remoteDeviceId
    sendingChainKey := encodeBase64Url
      (deriveDirectionalChainKey rootKeyMaterial .recipientToInitiator)
    receivingChainKey := some (encodeBase64Url
      (deriveDirectionalChainKey rootKeyMaterial .initiatorToRecipient))
    rootKey := encodeBase64Url rootKeyMaterial
    counter := 0 }

/-- The object an encrypted message is. -/
def encryptedPayload (counter : ℕ) (ciphertext : Text) : Document (List ℕ) :=
  .obj [(utf16Units ['v'], .number (.ofNat 1)),
    (utf16Units "counter".toList, .number (.ofNat counter)),
    (utf16Units "ciphertext".toList, .str (utf16Units ciphertext))]

def encryptMessage (sessionState : SessionState) (plaintext : List ℕ) :
    Except SessionError (Text × SessionState) :=
  match decodeBase64Url sessionState.sendingChainKey with
  | none => .error .invalidBase64
  | some currentChainKey =>
    let (messageKey, nonce) := deriveMessageKeyMaterial currentChainKey sessionState.counter
    let ciphertextBytes := nacl.secretbox (encodeText plaintext) nonce messageKey
    let payload := encryptedPayload sessionState.counter (encodeBase64Url ciphertextBytes)
    .ok (payload.stringify, { sessionState with
      sendingChainKey := encodeBase64Url (rotateChainKey currentChainKey)
      counter := nextCounter sessionState.counter })

/-- A property of a parsed value; null has none. -/
def property (payload : Document (List ℕ)) (name : Text) :
    Except SessionError (Option (Document (List ℕ))) :=
  match payload with
  | .null => .error .malformed
  | .obj ms => .ok ((ms.reverse.find? fun m => m.1 = utf16Units name).map (·.2))
  | _ => .ok none

/-- `===` with a number that is not below zero. -/
def isCount (x : Option (Document (List ℕ))) (n : ℕ) : Bool :=
  match x with
  | some (.number m) => decide (m.value = n)
  | _ => false

def decryptMessage (sessionState : SessionState) (ciphertext : Text) :
    Except SessionError (List ℕ × SessionState) := do
  let some payload := Document.parse ciphertext | .error .malformed
  let v ← property payload ['v']
  if isCount v 1 = false then .error .unsupportedVersion
  else
    let some currentChainKey := decodeBase64Url
      (sessionState.receivingChainKey.getD sessionState.sendingChainKey) | .error .invalidBase64
    let counter ← property payload "counter".toList
    if isCount counter sessionState.counter = false then
      .error (.unexpectedCounter sessionState.counter counter)
    else
      let (messageKey, nonce) := deriveMessageKeyMaterial currentChainKey sessionState.counter
      let some (.str box) ← property payload "ciphertext".toList | .error .malformed
      let some ciphertextBytes := decodeBase64Url (toText box) | .error .invalidBase64
      match nacl.secretboxOpen ciphertextBytes nonce messageKey with
      | none => .error .failedToDecrypt
      | some plaintextBytes => .ok (decodeText plaintextBytes, { sessionState with
          receivingChainKey := some (encodeBase64Url (rotateChainKey currentChainKey))
          counter := nextCounter sessionState.counter })

end

/-! ## Round trips -/

theorem mem_encodeRawURL {c : Char} {bytes : List ℕ} (h : c ∈ encodeRawURL bytes) :
    ∃ n < 64, c = base64Char n := by
  have hchar : ∀ n, ∃ m < 64, base64Char n = base64Char m := by
    intro n
    by_cases hn : n < 64
    · exact ⟨n, hn, rfl⟩
    · have hl : base64Alphabet.length = 64 := rfl
      refine ⟨0, by decide, ?_⟩
      rw [base64Char, List.getD_eq_getElem?_getD, List.getElem?_eq_none (by omega)]
      rfl
  induction bytes using encodeRawURL.induct with
  | case1 => cases h
  | case2 x =>
    simp only [encodeRawURL, List.mem_cons, List.not_mem_nil, or_false] at h
    rcases h with rfl | rfl <;> exact hchar _
  | case3 x y =>
    simp only [encodeRawURL, List.mem_cons, List.not_mem_nil, or_false] at h
    rcases h with rfl | rfl | rfl <;> exact hchar _
  | case4 x y z t ih =>
    simp only [encodeRawURL, List.mem_cons] at h
    rcases h with rfl | rfl | rfl | rfl | h
    · exact hchar _
    · exact hchar _
    · exact hchar _
    · exact hchar _
    · exact ih h

/-- **The client decodes what it encoded.** -/
theorem decodeBase64Url_encodeBase64Url {bytes : Octets} (h : IsOctets bytes) :
    decodeBase64Url (encodeBase64Url bytes) = some bytes := by
  rw [encodeBase64Url_eq, decodeBase64Url]
  have hall : ∀ n < 64, toStandard (base64Char n) ∉ [' ', '\t', '\n', '\r', '\x0c'] ∧
      toStandard (base64Char n) ≠ '=' ∧ toStandard (base64Char n) ∉ ['-', '_'] ∧
      toUrl (toStandard (base64Char n)) = base64Char n := by decide +kernel
  have hmem : ∀ c ∈ (encodeRawURL bytes).map toStandard, c ∉ [' ', '\t', '\n', '\r', '\x0c'] ∧
      c ≠ '=' ∧ c ∉ ['-', '_'] := by
    intro c hc
    obtain ⟨d, hd, rfl⟩ := List.mem_map.1 hc
    obtain ⟨n, hn, rfl⟩ := mem_encodeRawURL hd
    exact ⟨(hall n hn).1, (hall n hn).2.1, (hall n hn).2.2.1⟩
  have hback : ((encodeRawURL bytes).map toStandard).map toUrl = encodeRawURL bytes := by
    rw [List.map_map]
    refine (List.map_congr_left fun c hc => ?_).trans (List.map_id _)
    obtain ⟨n, hn, rfl⟩ := mem_encodeRawURL hc
    exact (hall n hn).2.2.2
  generalize (encodeRawURL bytes).map toStandard = t at hmem hback
  have hfilter : (t.filter fun c => c ∉ [' ', '\t', '\n', '\r', '\x0c']) = t :=
    List.filter_eq_self.2 fun c hc => decide_eq_true (hmem c hc).1
  have hpad : ∀ n, ∀ pad : Text, '=' ∈ pad → t.drop n ≠ pad := by
    rintro n pad hp rfl
    exact (hmem '=' (List.mem_of_mem_drop hp)).2.1 rfl
  have hany : ¬ t.any (fun c => decide (c ∈ ['-', '_'])) = true := by
    intro ha
    obtain ⟨c, hc, hd⟩ := List.any_eq_true.1 ha
    exact (hmem c hc).2.2 (of_decide_eq_true hd)
  unfold atob
  simp only [hfilter, if_neg (hpad _ ['=', '='] (by decide)), if_neg (hpad _ ['='] (by decide)),
    ite_self, if_neg hany, hback]
  exact decodeRawChars_encodeRawURL h

/-- Well-formed text that does not begin with a byte order mark. -/
def Encodable (plaintext : List ℕ) : Prop :=
  utf16Units (toText plaintext) = plaintext ∧ (toText plaintext).head? ≠ some '\uFEFF'

instance (plaintext : List ℕ) : Decidable (Encodable plaintext) := by
  unfold Encodable; infer_instance

theorem encodeText_isOctets (plaintext : List ℕ) : IsOctets (encodeText plaintext) := by
  intro b hb
  obtain ⟨c, -, hc⟩ := List.mem_flatMap.1 hb
  obtain ⟨u, -, rfl⟩ := List.mem_map.1 hc
  exact UInt8.toNat_lt u

theorem decodeText_encodeText {plaintext : List ℕ} (h : Encodable plaintext) :
    decodeText (encodeText plaintext) = plaintext := by
  unfold decodeText encodeText
  rw [decodeUtf8_utf8Bytes]
  simp only [if_neg h.2]
  exact h.1

/-! ## Lengths -/

theorem hkdfLoop_isOctets {prk info : Octets} {length : ℕ} : ∀ {fuel : ℕ} {okm t : Octets} {i : ℕ},
    IsOctets okm → IsOctets (hkdfLoop prk info length fuel okm t i)
  | 0, _, _, _, h => h
  | fuel + 1, okm, t, i, h => by
    rw [hkdfLoop]
    split_ifs
    · refine hkdfLoop_isOctets fun b hb => ?_
      rcases List.mem_append.1 hb with hb | hb
      · exact h b hb
      · exact hmacSha256_lt _ _ b hb
    · exact h

/-- Every round of the loop gives 32 bytes. -/
theorem le_length_hkdfLoop {prk info : Octets} {length : ℕ} :
    ∀ {fuel : ℕ} {okm t : Octets} {i : ℕ}, length ≤ okm.length + 32 * fuel →
      length ≤ (hkdfLoop prk info length fuel okm t i).length
  | 0, _, _, _, h => by simpa [hkdfLoop] using h
  | fuel + 1, okm, t, i, h => by
    rw [hkdfLoop]
    split_ifs with hl
    · refine le_length_hkdfLoop ?_
      rw [List.length_append, length_hmacSha256]
      omega
    · omega

theorem hkdf_isOctets (input salt info : Octets) (length : ℕ) :
    IsOctets (hkdf input salt info length) := fun b hb =>
  hkdfLoop_isOctets (fun _ hb => by cases hb) b (List.mem_of_mem_take hb)

theorem length_hkdf (input salt info : Octets) (length : ℕ) :
    (hkdf input salt info length).length = length := by
  rw [hkdf, List.length_take]
  refine Nat.min_eq_left (le_length_hkdfLoop ?_)
  rw [List.length_nil]
  omega

theorem length_keyMaterial (chainKey : Octets) (counter : ℕ) :
    (deriveMessageKeyMaterial chainKey counter).1.length = 32 ∧
      (deriveMessageKeyMaterial chainKey counter).2.length = 24 := by
  constructor
  · rw [deriveMessageKeyMaterial, List.length_take, length_hkdf]
    rfl
  · rw [deriveMessageKeyMaterial, List.length_drop, length_hkdf]

/-! ## One message -/

section
variable {nacl : Nacl}

/-- The text of a message under a chain key and a counter. -/
def sealed (nacl : Nacl) (chainKey : Octets) (counter : ℕ) (plaintext : List ℕ) : Text :=
  let material := deriveMessageKeyMaterial chainKey counter
  (encryptedPayload counter
    (encodeBase64Url (nacl.secretbox (encodeText plaintext) material.2 material.1))).stringify

theorem encryptMessage_eq (nacl : Nacl) {sessionState : SessionState} {chainKey : Octets} (hb : IsOctets chainKey)
    (h : sessionState.sendingChainKey = encodeBase64Url chainKey) (plaintext : List ℕ) :
    encryptMessage nacl sessionState plaintext =
      .ok (sealed nacl chainKey sessionState.counter plaintext, { sessionState with
        sendingChainKey := encodeBase64Url (rotateChainKey chainKey)
        counter := nextCounter sessionState.counter }) := by
  rw [encryptMessage, h, decodeBase64Url_encodeBase64Url hb]
  rfl

theorem nextCounter_le {n : ℕ} (h : n ≤ 2 ^ 53) : nextCounter n ≤ 2 ^ 53 := by
  unfold nextCounter
  split_ifs <;> omega

/-- The payload is read back. -/
theorem parse_encryptedPayload {counter : ℕ} (h : counter ≤ 2 ^ 53) (ciphertext : Text) :
    Document.parse (encryptedPayload counter ciphertext).stringify =
      some (encryptedPayload counter ciphertext) := by
  have hs : (encryptedPayload counter ciphertext).strings = [utf16Units ['v'],
      utf16Units "counter".toList, utf16Units "ciphertext".toList, utf16Units ciphertext] := by
    unfold encryptedPayload; rfl
  have hn : (encryptedPayload counter ciphertext).numbers = [.ofNat 1, .ofNat counter] := by
    unfold encryptedPayload; rfl
  rw [Document.parse_stringify ?_ ⟨?_, ?_⟩, Document.map_eq_self (f := id) (fun _ _ => rfl)]
  · intro n hmem
    have hz : ∀ k : ℕ, (Number.ofNat k).unsignedZero = Number.ofNat k := by
      intro k
      rw [Number.unsignedZero]
      split_ifs with hk
      · have hk0 : (k : ℚ≥0) = 0 := hk
        rw [Number.ofNat, hk0]
      · rfl
    rw [hn] at hmem
    rcases List.mem_cons.1 hmem with rfl | hmem
    · exact hz 1
    · rw [List.mem_singleton] at hmem
      rw [hmem]
      exact hz counter
  · unfold encryptedPayload
    exact ⟨trivial, trivial, trivial, trivial⟩
  · intro us hus u hu
    rw [hs] at hus
    simp only [List.mem_cons, List.not_mem_nil, or_false] at hus
    rcases hus with rfl | rfl | rfl | rfl <;> exact utf16Units_lt u hu
  · intro n hmem
    rw [hn] at hmem
    rcases List.mem_cons.1 hmem with rfl | hmem
    · exact ⟨1, by norm_num, rfl⟩
    · rw [List.mem_singleton] at hmem
      rw [hmem]
      exact ⟨counter, h, rfl⟩

/-- The properties of the payload. -/
theorem property_encryptedPayload (counter : ℕ) (ciphertext : Text) :
    property (encryptedPayload counter ciphertext) ['v'] = .ok (some (.number (.ofNat 1))) ∧
      property (encryptedPayload counter ciphertext) "counter".toList =
        .ok (some (.number (.ofNat counter))) ∧
      property (encryptedPayload counter ciphertext) "ciphertext".toList =
        .ok (some (.str (utf16Units ciphertext))) := by
  unfold property encryptedPayload
  exact ⟨rfl, rfl, rfl⟩

theorem isCount_ofNat (n m : ℕ) : isCount (some (.number (.ofNat n))) m = decide (n = m) := by
  have hv : (Number.ofNat n).value = n := by simp [Number.value, Number.ofNat]
  simp [isCount, hv]

/-- **A message decrypts under its chain key and counter.** -/
theorem decryptMessage_sealed (hn : nacl.Correct) {sessionState : SessionState} {chainKey : Octets}
    (hb : IsOctets chainKey) (h : sessionState.receivingChainKey = some (encodeBase64Url chainKey))
    (hc : sessionState.counter ≤ 2 ^ 53) {plaintext : List ℕ} (ht : Encodable plaintext) :
    decryptMessage nacl sessionState (sealed nacl chainKey sessionState.counter plaintext) =
      .ok (plaintext, { sessionState with
        receivingChainKey := some (encodeBase64Url (rotateChainKey chainKey))
        counter := nextCounter sessionState.counter }) := by
  obtain ⟨hv, hcount, hcipher⟩ := property_encryptedPayload sessionState.counter (encodeBase64Url
    (nacl.secretbox (encodeText plaintext)
      (deriveMessageKeyMaterial chainKey sessionState.counter).2
      (deriveMessageKeyMaterial chainKey sessionState.counter).1))
  obtain ⟨hkey, hnonce⟩ := length_keyMaterial chainKey sessionState.counter
  have hopen := hn.opens (encodeText plaintext) _ _ (encodeText_isOctets _) hnonce hkey
  simp only [decryptMessage, sealed, parse_encryptedPayload hc, hv, hcount, hcipher, h,
    isCount_ofNat, decide_true, Option.getD_some, decodeBase64Url_encodeBase64Url hb,
    toText_utf16Units, decodeBase64Url_encodeBase64Url (hn.isOctets _ _ _ (encodeText_isOctets _)), hopen,
    decodeText_encodeText ht, Bool.true_eq_false, if_false, bind, Except.bind]

/-- A message with another counter is refused. -/
theorem decryptMessage_unexpected (nacl : Nacl) {sessionState : SessionState} (chainKey : Octets)
    {key : Octets} (hb : IsOctets key)
    (h : sessionState.receivingChainKey = some (encodeBase64Url key)) {counter : ℕ}
    (hc : counter ≤ 2 ^ 53) (hne : counter ≠ sessionState.counter) (plaintext : List ℕ) :
    decryptMessage nacl sessionState (sealed nacl chainKey counter plaintext) =
      .error (.unexpectedCounter sessionState.counter (some (.number (.ofNat counter)))) := by
  obtain ⟨hv, hcount, -⟩ := property_encryptedPayload counter (encodeBase64Url
    (nacl.secretbox (encodeText plaintext) (deriveMessageKeyMaterial chainKey counter).2
      (deriveMessageKeyMaterial chainKey counter).1))
  simp only [decryptMessage, sealed, parse_encryptedPayload hc, hv, hcount, h, isCount_ofNat,
    decide_true, Option.getD_some, decodeBase64Url_encodeBase64Url hb, hne, decide_false,
    Bool.true_eq_false, if_false, if_true, bind, Except.bind]

end

/-! ## Two parties -/

inductive Party where
  | initiator
  | recipient
  deriving DecidableEq

def Party.other : Party → Party
  | initiator => recipient
  | recipient => initiator

/-- Two sessions and what is between them. -/
structure Conversation where
  session : Party → SessionState
  /-- The messages on the way to a party, the oldest first, each with what was encrypted. -/
  inFlight : Party → List (Text × List ℕ)
  /-- Ghost: what was encrypted, and what became of it; the latest first. -/
  log : List (List ℕ × Except SessionError (List ℕ))

inductive ConversationAct where
  | encrypt (p : Party) (plaintext : List ℕ)
  /-- The oldest message on the way to a party. -/
  | deliver (p : Party)

def Conversation.start (initiator recipient : SessionState) : Conversation where
  session
    | .initiator => initiator
    | .recipient => recipient
  inFlight _ := []
  log := []

/-- After a party has encrypted. -/
def Conversation.sent (s : Conversation) (p : Party) (plaintext : List ℕ) (ciphertext : Text)
    (session : SessionState) : Conversation :=
  { s with
    session := Function.update s.session p session
    inFlight := Function.update s.inFlight p.other
      (s.inFlight p.other ++ [(ciphertext, plaintext)]) }

section
variable (nacl : Nacl)

def Conversation.step (s : Conversation) : ConversationAct → Option Conversation
  | .encrypt p plaintext => some <|
    match encryptMessage nacl (s.session p) plaintext with
    | .ok (ciphertext, session) => s.sent p plaintext ciphertext session
    | .error e => { s with log := (plaintext, .error e) :: s.log }
  | .deliver p =>
    match s.inFlight p with
    | [] => none
    | (ciphertext, plaintext) :: rest => some <|
      let s := { s with inFlight := Function.update s.inFlight p rest }
      match decryptMessage nacl (s.session p) ciphertext with
      | .ok (decrypted, session) => { s with
          session := Function.update s.session p session
          log := (plaintext, .ok decrypted) :: s.log }
      | .error e => { s with log := (plaintext, .error e) :: s.log }

/-- Everything arrived as it was encrypted, and once nothing is in flight both can go on. -/
def Conversation.Survives (s : Conversation) : Prop :=
  (∀ entry ∈ s.log, entry.2 = .ok entry.1) ∧
  ((∀ p, s.inFlight p = []) → ∀ p plaintext, Encodable plaintext →
    ∃ ciphertext mine theirs,
      encryptMessage nacl (s.session p) plaintext = .ok (ciphertext, mine) ∧
      decryptMessage nacl (s.session p.other) ciphertext = .ok (plaintext, theirs))

/-- Nothing is in flight to a party that encrypts, and its text is encodable. -/
def Conversation.Calm (s : Conversation) : ConversationAct → Prop
  | .encrypt p plaintext => s.inFlight p = [] ∧ Encodable plaintext
  | .deliver _ => True

instance (s : Conversation) (a : ConversationAct) : Decidable (s.Calm a) := by
  cases a <;> simp only [Conversation.Calm] <;> infer_instance

/-- Messages that follow each other under a chain key and a counter. -/
def Carried : Octets → ℕ → List (Text × List ℕ) → Prop
  | _, _, [] => True
  | chainKey, counter, (ciphertext, plaintext) :: rest =>
    Encodable plaintext ∧ ciphertext = sealed nacl chainKey counter plaintext ∧
      Carried (rotateChainKey chainKey) (nextCounter counter) rest

/-- One direction: the chain of the receiver is behind that of the sender by what is in flight. -/
def Chained (s : Conversation) (base : ℕ) (p : Party) : Prop :=
  ∃ chainKey, IsOctets chainKey ∧
    (s.session p).receivingChainKey = some (encodeBase64Url chainKey) ∧
    (s.session p.other).sendingChainKey =
      encodeBase64Url (rotateChainKey^[(s.inFlight p).length] chainKey) ∧
    Carried nacl chainKey base (s.inFlight p)

/-- The two sessions are in step: at most one direction has messages in flight, and the counter of
    its sender is ahead by these. -/
structure InStep (s : Conversation) (base : ℕ) : Prop where
  base_le : base ≤ 2 ^ 53
  counter : ∀ p, (s.session p).counter = nextCounter^[(s.inFlight p.other).length] base
  oneWay : ∀ p, s.inFlight p = [] ∨ s.inFlight p.other = []
  chained : ∀ p, Chained nacl s base p
  arrived : ∀ entry ∈ s.log, entry.2 = .ok entry.1

end

section
variable {nacl : Nacl} {s s' : Conversation} {base : ℕ}

theorem Party.other_ne (p : Party) : p.other ≠ p := by cases p <;> decide

@[simp] theorem Party.other_other (p : Party) : p.other.other = p := by cases p <;> rfl

theorem Party.eq_or (p q : Party) : q = p ∨ q = p.other := by
  cases p <;> cases q <;> decide

theorem rotateChainKey_isOctets (chainKey : Octets) : IsOctets (rotateChainKey chainKey) :=
  hkdf_isOctets _ _ _ _

theorem rotations_isOctets {chainKey : Octets} (h : IsOctets chainKey) (n : ℕ) :
    IsOctets (rotateChainKey^[n] chainKey) := by
  cases n with
  | zero => exact h
  | succ n =>
    rw [Function.iterate_succ_apply']
    exact rotateChainKey_isOctets _

theorem Carried.append {plaintext : List ℕ} (ht : Encodable plaintext) :
    ∀ {chainKey : Octets} {counter : ℕ} {q : List (Text × List ℕ)}, Carried nacl chainKey counter q →
      Carried nacl chainKey counter (q ++ [(sealed nacl (rotateChainKey^[q.length] chainKey)
        (nextCounter^[q.length] counter) plaintext, plaintext)])
  | _, _, [], _ => ⟨ht, rfl, trivial⟩
  | _, _, (_, _) :: _, ⟨h1, h2, h3⟩ => ⟨h1, h2, h3.append ht⟩

/-- The parties after a handshake are in step. -/
theorem inStep_start {initiator recipient : SessionState} {forth back : Octets}
    (hf : IsOctets forth) (hb : IsOctets back)
    (h1 : initiator.sendingChainKey = encodeBase64Url forth)
    (h2 : recipient.receivingChainKey = some (encodeBase64Url forth))
    (h3 : recipient.sendingChainKey = encodeBase64Url back)
    (h4 : initiator.receivingChainKey = some (encodeBase64Url back))
    (hi : initiator.counter = 0) (hr : recipient.counter = 0) :
    InStep nacl (.start initiator recipient) 0 where
  base_le := Nat.zero_le _
  counter p := by
    cases p with
    | initiator => exact hi
    | recipient => exact hr
  oneWay _ := Or.inl rfl
  chained p := by
    cases p with
    | initiator => exact ⟨back, hb, h4, h3, trivial⟩
    | recipient => exact ⟨forth, hf, h2, h1, trivial⟩
  arrived _ h := by cases h

theorem Conversation.step_encrypt {p : Party} {plaintext : List ℕ} {ciphertext : Text}
    {session : SessionState}
    (h : encryptMessage nacl (s.session p) plaintext = .ok (ciphertext, session)) :
    s.step nacl (.encrypt p plaintext) = some (s.sent p plaintext ciphertext session) := by
  simp only [Conversation.step, h]

/-- **A party that has everything encrypts.** -/
theorem InStep.encrypt (h : InStep nacl s base) {p : Party} {plaintext : List ℕ}
    (hc : s.Calm (.encrypt p plaintext)) (hst : s.step nacl (.encrypt p plaintext) = some s') :
    InStep nacl s' base := by
  obtain ⟨hnone, ht⟩ := hc
  obtain ⟨chainKey, hk, hrecv, hsend, hcar⟩ := h.chained p.other
  rw [Party.other_other] at hsend
  have henc := encryptMessage_eq nacl (rotations_isOctets hk _) hsend plaintext
  rw [h.counter p] at henc
  cases (Conversation.step_encrypt henc).symm.trans hst
  have hne := p.other_ne
  unfold Conversation.sent
  refine ⟨h.base_le, fun q => ?_, fun q => ?_, fun q => ?_, h.arrived⟩
  · rcases p.eq_or q with rfl | rfl
    · simp only [Function.update_self, List.length_append, List.length_singleton,
        Function.iterate_succ_apply']
    · have hc := h.counter p.other
      rw [Party.other_other] at hc
      simp only [Function.update_of_ne hne, Party.other_other, Function.update_of_ne hne.symm]
      exact hc
  · rcases p.eq_or q with rfl | rfl
    · left
      simp only [Function.update_of_ne hne.symm, hnone]
    · right
      simp only [Party.other_other, Function.update_of_ne hne.symm, hnone]
  · rcases p.eq_or q with rfl | rfl
    · obtain ⟨back, hb, hrecv', hsend', hcar'⟩ := h.chained q
      refine ⟨back, hb, ?_, ?_, ?_⟩
      · simp only [Function.update_self]
        exact hrecv'
      · simp only [Function.update_of_ne hne, Function.update_of_ne hne.symm]
        exact hsend'
      · simp only [Function.update_of_ne hne.symm, hnone]
        trivial
    · refine ⟨chainKey, hk, ?_, ?_, ?_⟩
      · simp only [Function.update_of_ne hne]
        exact hrecv
      · simp only [Party.other_other, Function.update_self, List.length_append,
          List.length_singleton, Function.iterate_succ_apply']
      · simp only [Function.update_self]
        exact hcar.append ht

/-- **The oldest message in flight arrives.** -/
theorem InStep.deliver (hn : nacl.Correct) (h : InStep nacl s base) {p : Party}
    (hst : s.step nacl (.deliver p) = some s') : InStep nacl s' (nextCounter base) := by
  have hne := p.other_ne
  cases hq : s.inFlight p with
  | nil => simp only [Conversation.step, hq] at hst; cases hst
  | cons m rest =>
    obtain ⟨ciphertext, plaintext⟩ := m
    have hback : s.inFlight p.other = [] := by
      rcases h.oneWay p with he | he
      · rw [hq] at he; cases he
      · exact he
    obtain ⟨chainKey, hk, hrecv, hsend, hcar⟩ := h.chained p
    rw [hq] at hcar hsend
    obtain ⟨ht, rfl, hrest⟩ := hcar
    have hcount : (s.session p).counter = base := by
      have hc := h.counter p
      rwa [hback] at hc
    have hdec := decryptMessage_sealed hn hk hrecv (by rw [hcount]; exact h.base_le) ht
    rw [hcount] at hdec
    simp only [Conversation.step, hq, hdec, Option.some.injEq] at hst
    subst hst
    refine ⟨nextCounter_le h.base_le, fun q => ?_, fun q => ?_, fun q => ?_, ?_⟩
    · rcases p.eq_or q with rfl | rfl
      · simp only [Function.update_self, Function.update_of_ne hne, hback]
        rfl
      · have hc := h.counter p.other
        rw [Party.other_other, hq, List.length_cons, Function.iterate_succ_apply] at hc
        simp only [Function.update_of_ne hne, Party.other_other, Function.update_self]
        exact hc
    · rcases p.eq_or q with rfl | rfl
      · right
        simp only [Function.update_of_ne hne, hback]
      · left
        simp only [Function.update_of_ne hne, hback]
    · rcases p.eq_or q with rfl | rfl
      · refine ⟨rotateChainKey chainKey, rotateChainKey_isOctets _, ?_, ?_, ?_⟩
        · simp only [Function.update_self]
        · rw [List.length_cons, Function.iterate_succ_apply] at hsend
          simp only [Function.update_of_ne hne, Function.update_self]
          exact hsend
        · simp only [Function.update_self]
          exact hrest
      · obtain ⟨back, hb, hrecv', hsend', -⟩ := h.chained p.other
        rw [hback] at hsend'
        refine ⟨back, hb, ?_, ?_, ?_⟩
        · simp only [Function.update_of_ne hne]
          exact hrecv'
        · simp only [Party.other_other, Function.update_self, Function.update_of_ne hne, hback] at hsend' ⊢
          exact hsend'
        · simp only [Function.update_of_ne hne, hback]
          trivial
    · intro entry he
      rcases List.mem_cons.1 he with rfl | he
      · rfl
      · exact h.arrived entry he

/-- Sessions in step survive. -/
theorem InStep.survives (hn : nacl.Correct) (h : InStep nacl s base) : s.Survives nacl := by
  refine ⟨h.arrived, fun hnone p plaintext ht => ?_⟩
  have hcount : ∀ q, (s.session q).counter = base := by
    intro q
    rw [h.counter q, hnone]
    rfl
  obtain ⟨chainKey, hk, hrecv, hsend, -⟩ := h.chained p.other
  rw [Party.other_other, hnone] at hsend
  have henc := encryptMessage_eq nacl hk hsend plaintext
  have hdec := decryptMessage_sealed hn hk hrecv (by rw [hcount]; exact h.base_le) ht
  rw [hcount] at henc hdec
  exact ⟨_, _, _, henc, hdec⟩

/-- A message and its delivery, while nothing else is in flight. -/
theorem InStep.exchange (hn : nacl.Correct) (h : InStep nacl s base)
    (hnone : ∀ p, s.inFlight p = []) (p : Party) {plaintext : List ℕ} (ht : Encodable plaintext) :
    ∃ s', Run (Conversation.step nacl) Conversation.Calm s s' ∧ InStep nacl s' (nextCounter base) ∧
      (∀ p, s'.inFlight p = []) ∧ s'.log = (plaintext, .ok plaintext) :: s.log := by
  have hne := p.other_ne
  have hcount : ∀ q, (s.session q).counter = base := by
    intro q
    rw [h.counter q, hnone]
    rfl
  obtain ⟨forth, hf, hrecv, hsend, -⟩ := h.chained p.other
  rw [Party.other_other, hnone] at hsend
  have henc := encryptMessage_eq nacl hf hsend plaintext
  have hdec := decryptMessage_sealed hn hf hrecv (by rw [hcount]; exact h.base_le) ht
  rw [hcount] at henc hdec
  have hst := Conversation.step_encrypt henc
  have hcalm : s.Calm (.encrypt p plaintext) := ⟨hnone p, ht⟩
  have hin := h.encrypt hcalm hst
  have hdel : ∃ s', (s.sent p plaintext (sealed nacl forth base plaintext) { s.session p with
      sendingChainKey := encodeBase64Url (rotateChainKey forth)
      counter := nextCounter base }).step nacl (.deliver p.other) = some s' ∧
      (∀ p, s'.inFlight p = []) ∧ s'.log = (plaintext, .ok plaintext) :: s.log := by
    simp only [Conversation.step, Conversation.sent, Function.update_self,
      Function.update_of_ne hne, hnone, List.nil_append, hdec]
    refine ⟨_, rfl, fun q => ?_, rfl⟩
    rcases p.eq_or q with rfl | rfl
    · simp only [Function.update_of_ne hne.symm, hnone]
    · simp only [Function.update_self]
  obtain ⟨s', hst', hnone', hlog⟩ := hdel
  exact ⟨s', (Run.single hcalm hst).tail (a := .deliver p.other) trivial hst', hin.deliver hn hst', hnone', hlog⟩

/-- **Messages that cross are refused.**  Where both parties encrypt before either message is
    delivered, the first delivery fails. -/
theorem InStep.crossing_rejected (h : InStep nacl s base) (hlt : base < 2 ^ 53)
    (hnone : ∀ p, s.inFlight p = []) (p : Party) (plaintext plaintext' : List ℕ) :
    ∃ s₁ s₂ s₃, s.step nacl (.encrypt p plaintext) = some s₁ ∧
      s₁.step nacl (.encrypt p.other plaintext') = some s₂ ∧
      s₂.step nacl (.deliver p.other) = some s₃ ∧
      s₃.log = (plaintext, .error (.unexpectedCounter (base + 1)
        (some (.number (.ofNat base))))) :: s.log := by
  have hne := p.other_ne
  have hcount : ∀ q, (s.session q).counter = base := by
    intro q
    rw [h.counter q, hnone]
    rfl
  have hnext : nextCounter base = base + 1 := if_pos hlt
  obtain ⟨forth, hf, hrecv, hsend, -⟩ := h.chained p.other
  obtain ⟨back, hb, -, hsend', -⟩ := h.chained p
  rw [Party.other_other, hnone] at hsend
  rw [hnone] at hsend'
  have henc := encryptMessage_eq nacl hf hsend plaintext
  have henc' := encryptMessage_eq nacl hb hsend' plaintext'
  rw [hcount] at henc henc'
  generalize hmine : ({ s.session p with
    sendingChainKey := encodeBase64Url (rotateChainKey forth)
    counter := nextCounter base } : SessionState) = mine at henc
  generalize htheirs : ({ s.session p.other with
    sendingChainKey := encodeBase64Url (rotateChainKey back)
    counter := nextCounter base } : SessionState) = theirs at henc'
  have hsame : (s.sent p plaintext (sealed nacl forth base plaintext) mine).session p.other =
      s.session p.other := Function.update_of_ne hne _ _
  have hexp : theirs.counter = base + 1 := by rw [← htheirs, hnext]
  have hkeep : theirs.receivingChainKey = some (encodeBase64Url forth) := by
    rw [← htheirs]
    exact hrecv
  have hdec := decryptMessage_unexpected nacl forth hf hkeep (le_of_lt hlt)
    (by rw [hexp]; exact Nat.ne_of_lt (Nat.lt_succ_self base)) plaintext
  rw [hexp] at hdec
  have hdel : ∃ s₃, ((s.sent p plaintext (sealed nacl forth base plaintext) mine).sent p.other
      plaintext' (sealed nacl back base plaintext') theirs).step nacl (.deliver p.other) = some s₃ ∧
      s₃.log = (plaintext, .error (.unexpectedCounter (base + 1)
        (some (.number (.ofNat base))))) :: s.log := by
    simp only [Conversation.step, Conversation.sent, Party.other_other, Function.update_self,
      Function.update_of_ne hne, hnone, List.nil_append, hdec]
    exact ⟨_, rfl, rfl⟩
  obtain ⟨s₃, h₃, hlog⟩ := hdel
  exact ⟨_, _, s₃, Conversation.step_encrypt henc,
    Conversation.step_encrypt (by rw [hsame]; exact henc'), h₃, hlog⟩

/-- The two sessions of one handshake. -/
structure Handshake (nacl : Nacl) (out inb : SessionState) : Prop where
  made : ∃ initiatorKey recipientPreKey : Octets, ∃ a b c d a' b' c' d' : Text, ∃ now now' : ℕ,
    createOutboundSession nacl a b c d (nacl.scalarMultBase recipientPreKey) initiatorKey now =
      .ok out ∧
    createInboundSession nacl a' b' c' d' recipientPreKey (nacl.scalarMultBase initiatorKey) now' =
      .ok inb

theorem Handshake.inStep (hn : nacl.Correct) {out inb : SessionState}
    (h : Handshake nacl out inb) : InStep nacl (.start out inb) 0 := by
  obtain ⟨initiatorKey, recipientPreKey, a, b, c, d, a', b', c', d', now, now', ho, hi⟩ := h.made
  simp only [createOutboundSession, assertKeyLength, bind, Except.bind, pure, Except.pure] at ho
  simp only [createInboundSession, assertKeyLength, bind, Except.bind, pure, Except.pure] at hi
  split_ifs at ho hi with h1 h2 h3 h4
  rw [not_not] at h2 h3
  cases ho
  cases hi
  have hagree := hn.agrees initiatorKey recipientPreKey h2 h3
  refine inStep_start (hkdf_isOctets _ _ _ _) (hkdf_isOctets _ _ _ _) rfl ?_ ?_ rfl rfl rfl
  · simp only [hagree]
    rfl
  · simp only [hagree]
    rfl

/-- **Sessions survive messages that do not cross.**  In every run in which a party encrypts only
    while nothing is in flight to it, and encodable text: whatever was delivered decrypted to what
    was encrypted, and once nothing is in flight both parties can go on. -/
theorem conversation_survives (hn : nacl.Correct) {out inb : SessionState}
    (hs : Handshake nacl out inb)
    (h : Run (Conversation.step nacl) Conversation.Calm (.start out inb) s) : s.Survives nacl := by
  have hinv : ∃ base, InStep nacl s base := by
    refine h.invariant (I := fun s => ∃ base, InStep nacl s base) ?_ ⟨0, hs.inStep hn⟩
    rintro t a t' ⟨base, ht⟩ hc hst
    cases a with
    | encrypt p plaintext => exact ⟨base, ht.encrypt hc hst⟩
    | deliver p => exact ⟨nextCounter base, ht.deliver hn hst⟩
  obtain ⟨base, hb⟩ := hinv
  exact hb.survives hn

end

/-- A `Nacl` that hides nothing: a shared secret is the sum of the keys, and a box its message. -/
def openNacl : Nacl where
  scalarMult a b := List.zipWith (· + ·) a b
  scalarMultBase := id
  secretbox message _ _ := message
  secretboxOpen box _ _ := some box

theorem openNacl_correct : openNacl.Correct where
  agrees _ _ _ _ := List.zipWith_comm_of_comm Nat.add_comm
  isOctets _ _ _ h := h
  opens _ _ _ _ _ _ := rfl

theorem aliceBob_handshake : ∃ out inb, Handshake openNacl out inb :=
  ⟨_, _, ⟨List.replicate 32 9, List.replicate 32 7, ['a'], ['1'], ['b'], ['2'], ['b'], ['2'], ['a'],
    ['1'], 1000, 1001, rfl, rfl⟩⟩

/-- A message and its answer. -/
theorem conversation_survives_answer : ∃ out inb s, Handshake openNacl out inb ∧
    Run (Conversation.step openNacl) Conversation.Calm (.start out inb) s ∧ s.log.length = 2 ∧
    s.Survives openNacl := by
  obtain ⟨out, inb, hs⟩ := aliceBob_handshake
  obtain ⟨s, hr, hin, hnone, hlog⟩ := (hs.inStep openNacl_correct).exchange openNacl_correct
    (fun _ => rfl) .initiator (show Encodable (utf16Units "hello".toList) by decide)
  obtain ⟨s', hr', -, -, hlog'⟩ := hin.exchange openNacl_correct hnone .recipient
    (show Encodable (utf16Units "hi".toList) by decide)
  have hrun := hr.trans hr'
  refine ⟨out, inb, s', hs, hrun, ?_, conversation_survives openNacl_correct hs hrun⟩
  rw [hlog', hlog]
  rfl

/-- **Two messages that cross end the conversation.** -/
theorem crossing_messages_lost : ∃ nacl : Nacl, nacl.Correct ∧ ∃ out inb s,
    Handshake nacl out inb ∧ Run (Conversation.step nacl) Any (.start out inb) s ∧
    ¬ s.Survives nacl := by
  obtain ⟨out, inb, hs⟩ := aliceBob_handshake
  obtain ⟨s₁, s₂, s₃, h₁, h₂, h₃, hlog⟩ := (hs.inStep openNacl_correct).crossing_rejected
    (by norm_num) (fun _ => rfl) .initiator (utf16Units "hello".toList) (utf16Units "hi".toList)
  have hrun := ((Run.single (C := Any) trivial h₁).tail trivial h₂).tail trivial h₃
  refine ⟨openNacl, openNacl_correct, out, inb, s₃, hs, hrun, fun hsv => ?_⟩
  have hbad := hsv.1 _ (by rw [hlog]; exact List.mem_cons_self)
  cases hbad

end CryptoCore

end Echolet
