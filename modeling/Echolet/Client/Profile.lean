/-
  The transactions of a profile, each an operation on its store.

  * `importContact` pins the four identifiers of a contact;
  * `acceptOne` records the message of an envelope and queues its acknowledgement; `pendingAcks`
    and `forgetAcks` read that queue and shorten it;
  * `claimIdentifier`, `replaceClaim`, `commitMessage`, `checkRetry` and `setDelivered` are
    the transactions of `send`;
  * `Runtime` is what comes from outside: libsignal, the signatures, hashes and encodings.
-/
import Echolet.Client.SignalClient

namespace Echolet

structure Runtime where
  lib : Libsignal
  enc : Encoding
  deriveMailboxId : Text → Text
  /-- The root signature of a device record. -/
  verifyRecord : DeviceRecord → Bool
  /-- The device signature of a bundle. -/
  verifyBundle : WireBundle → Bool
  /-- The native keys of a bundle can be read, and the identity key signed the prekeys. -/
  verifyNative : WireBundle → Bool
  /-- `signMailboxEnvelopeMessage`: the signature of an envelope that has none yet. -/
  signEnvelope : MailboxEnvelope → Text
  /-- The device signature of a bundle that has none yet. -/
  signBundle : WireBundle → Text

/-- What a transaction finds around it: the clock, a fresh UUID, and randomness. -/
structure Circumstances where
  now : ℤ
  uuid : Text
  entropy : ℕ
  deriving DecidableEq

/-! ## Bundles and contacts -/

def timestamp (n : ℤ) : Bool := 0 ≤ n ∧ n ≤ maxSafeInteger

/-- `signedDevice`. -/
def signedDevice (r : DeviceRecord) : Bool :=
  r.type = "device_record".toList ∧ r.version = 1 ∧ b64Text r.identityId 32 none = true ∧
    protocolUUID r.deviceId = true ∧ b64Text r.devicePubKey 32 none = true ∧
    (r.deviceLabel.all fun t => utf16Length t ≤ 256) = true ∧
    (∀ c ∈ r.capabilities, c.1 ∈ ["mailbox_poll", "receipts", "attachments"]) ∧
    timestamp r.createdAtMs = true ∧ b64Text r.signature 64 none = true

def signedKeySchema (k : SignedKey) (n lead : ℕ) : Bool :=
  k.keyId ≤ 0xffffffff ∧ b64Text k.publicKey n lead = true ∧ b64Text k.signature 64 none = true

/-- `SignalPreKeyBundleV2Schema`. -/
def bundleSchema (b : WireBundle) : Bool :=
  protocolUUID b.bundleId = true ∧ timestamp b.createdAtMs = true ∧
    timestamp b.expiresAtMs = true ∧ signedDevice b.deviceRecord = true ∧
    1 ≤ b.registrationId ∧ b.registrationId ≤ 16380 ∧
    b64Text b.signalIdentityKey 33 (some 5) = true ∧ signedKeySchema b.signedPreKey 33 5 = true ∧
    signedKeySchema b.kyberPreKey 1569 8 = true ∧
    (b.oneTimePreKey.all fun k => k.keyId ≤ 0xffffffff && b64Text k.publicKey 33 (some 5)) = true ∧
    b64Text b.signature 64 none = true ∧ b.createdAtMs < b.expiresAtMs ∧
    b.expiresAtMs - b.createdAtMs ≤ maxBundleWindowMs

/-- A bundle whose signatures were verified, and the address of its device. -/
structure VerifiedBundle where
  address : Text
  bundle : WireBundle
  deriving DecidableEq

section
variable (rt : Runtime)

def importVerifiedSignalBundleV2 (wire : WireBundle) (identityId deviceId : Text) (now : ℤ) :
    Option VerifiedBundle :=
  match signalAddressForDevice identityId deviceId with
  | none => none
  | some address =>
    if bundleSchema wire = true ∧ wire.deviceRecord.identityId = identityId ∧
        wire.deviceRecord.deviceId = deviceId ∧ safeInteger now = true ∧ 0 ≤ now ∧
        wire.createdAtMs ≤ now ∧ now < wire.expiresAtMs ∧
        wire.deviceRecord.createdAtMs ≤ wire.createdAtMs ∧
        rt.verifyRecord wire.deviceRecord = true ∧ rt.verifyBundle wire = true ∧
        rt.verifyNative wire = true then
      some ⟨address, wire⟩
    else none

/-- The identifiers a bundle pins. -/
def WireBundle.identifiers (b : WireBundle) : ContactIdentifiers :=
  ⟨b.deviceRecord.identityId, b.deviceRecord.deviceId, b.deviceRecord.devicePubKey,
    b.signalIdentityKey⟩

/-- The transaction of `importContact`, after the confirmation. -/
def importContact (verified : VerifiedBundle) : StoreTx Bool := do
  let identifiers := verified.bundle.identifiers
  let previous ← Tx.read fun s => s.contacts.get identifiers.identityId
  Tx.ensure (previous.all (· = identifiers) = true) .profile
  within (SignalClient.approveRemote verified.address identifiers.signalIdentityKey)
  Tx.modify fun s => { s with contacts := s.contacts.insert identifiers.identityId identifiers }
  return true

def listContacts : StoreTx (List ContactIdentifiers) :=
  Tx.read fun s => s.contacts.entries.map (·.2)

/-! ## The inbox -/

/-- What `acceptOne` checks before it looks at the sender. -/
def misaddressed (dev : Device) (now : ℤ) (e : MailboxEnvelope) : Prop :=
  e.recipientIdentityId ≠ dev.identityId ∨ e.recipientDeviceId ≠ dev.deviceId ∨
    e.recipientMailboxId ≠ dev.mailboxId ∨ e.sizeBytes ≠ utf8Length e.ciphertext ∨
    safeInteger e.createdAtMs = false ∨ safeInteger e.expiresAtMs = false ∨
    e.createdAtMs < 0 ∨ e.createdAtMs > now ∨ e.expiresAtMs ≤ now ∨ e.expiresAtMs ≤ e.createdAtMs

instance (dev : Device) (now : ℤ) (e : MailboxEnvelope) : Decidable (misaddressed dev now e) :=
  inferInstanceAs (Decidable (_ ∨ _))

/-- The contact of the sender with its address, where both are the pinned ones. -/
def pinnedSender (e : MailboxEnvelope) : StoreTx (ContactIdentifiers × Text) := do
  let contact ← Tx.need (← Tx.read fun s => s.contacts.get e.senderIdentityId)
    (.inbound "CONTACT_NOT_TRUSTED".toList)
  Tx.ensure (contact.identityId = e.senderIdentityId ∧ contact.deviceId = e.senderDeviceId)
    (.inbound "CONTACT_PIN_MISMATCH".toList)
  let address ← Tx.need (signalAddressForDevice contact.identityId contact.deviceId) .other
  let trusted ← Tx.read fun s => s.signal.isTrusted address contact.signalIdentityKey
  Tx.ensure (trusted = true) (.inbound "CONTACT_PIN_MISMATCH".toList)
  return (contact, address)

/-- Record a message that was not received before. -/
def recordMessage (v : Circumstances) (contact : ContactIdentifiers) (address : Text)
    (e : MailboxEnvelope) (type : ℕ) (body : Bytes) : StoreTx Unit := do
  let plaintext ← within (SignalClient.decrypt rt.lib rt.enc address e.messageId type body v.entropy)
  Tx.modify fun s => { s with
    inbox := s.inbox.insert (messageKey address e.messageId)
      (rt.enc.sha256 (rt.enc.utf8 e.ciphertext)) }
  appendHistory contact.identityId e.messageId .inbound plaintext e.createdAtMs

/-- The message of an envelope, received before or recorded now. -/
def receiveMessage (v : Circumstances) (contact : ContactIdentifiers) (address : Text)
    (e : MailboxEnvelope) (wrapper : ℕ × Bytes) : StoreTx Unit := do
  let previous ← Tx.read fun s => s.inbox.get (messageKey address e.messageId)
  match previous with
  | some hash =>
    Tx.ensure (hash = rt.enc.sha256 (rt.enc.utf8 e.ciphertext))
      (.inbound "MESSAGE_ID_CONFLICT".toList)
  | none => recordMessage rt v contact address e wrapper.1 wrapper.2

/-- Queue the acknowledgement of an envelope. -/
def queueAck (envelopeId inboxKey : Text) : StoreTx Unit := do
  let pending ← Tx.read fun s => s.pendingAck.get envelopeId
  Tx.ensure (pending.all (· = inboxKey) = true) (.inbound "INVALID_ENVELOPE".toList)
  Tx.modify fun s => { s with pendingAck := s.pendingAck.insert envelopeId inboxKey }

def acceptOne (dev : Device) (v : Circumstances) (e : MailboxEnvelope) : StoreTx Unit := do
  Tx.ensure (¬ misaddressed dev v.now e) (.inbound "INVALID_ENVELOPE".toList)
  let sender ← pinnedSender e
  let wrapper ← Tx.need (rt.enc.unwrap e.ciphertext) .other
  receiveMessage rt v sender.1 sender.2 e wrapper
  queueAck e.envelopeId (messageKey sender.2 e.messageId)

def pendingAcks : StoreTx (List Text) := Tx.read fun s => s.pendingAck.entries.map (·.1)

def forgetAcks (ids : List Text) : StoreTx Unit :=
  Tx.modify fun s => { s with
    pendingAck := ids.foldl (fun pending id => pending.erase id) s.pendingAck }

/-! ## The outbox -/

/-- `inputSchema`, after its checks. -/
structure SendInput where
  recipientIdentityId : Text
  messageId : Text
  plaintext : Text
  deriving DecidableEq

/-- The hash of what is sent, and to whom. -/
def contentHash (input : SendInput) : Text :=
  rt.enc.sha256 (rt.enc.content input.recipientIdentityId input.messageId input.plaintext)

/-- No claim is needed with a session; else the stored claim id, or a fresh one. -/
def claimIdentifier (v : Circumstances) (contact : ContactIdentifiers) (address : Text) :
    StoreTx (Option Text) := do
  let session ← Tx.read fun s => s.signal.session.get address
  match session with
  | some _ => return none
  | none =>
    let previous ← Tx.read fun s => s.claims.get contact.identityId
    match previous with
    | some id => return some id
    | none => do
      Tx.ensure (clientMailboxUUID v.uuid = true) .other
      Tx.modify fun s => { s with claims := s.claims.insert contact.identityId v.uuid }
      return some v.uuid

/-- A fresh claim id in place of a dead one. -/
def replaceClaim (v : Circumstances) (contact : ContactIdentifiers) : StoreTx Text := do
  Tx.ensure (clientMailboxUUID v.uuid = true) .other
  Tx.modify fun s => { s with claims := s.claims.insert contact.identityId v.uuid }
  return v.uuid

def envelopeLifetimeMs : ℤ := 86400000

/-- The envelope of a message, signed. -/
def outboundEnvelope (dev : Device) (v : Circumstances) (contact : ContactIdentifiers)
    (messageId : Text) (message : SignalOutboxRecord) : MailboxEnvelope :=
  let ciphertext := rt.enc.wrap message.type message.body
  let envelope : MailboxEnvelope := {
    type := "mailbox_envelope".toList
    version := 1
    envelopeId := v.uuid
    messageId := messageId
    senderIdentityId := dev.identityId
    senderDeviceId := dev.deviceId
    recipientIdentityId := contact.identityId
    recipientDeviceId := contact.deviceId
    recipientMailboxId := rt.deriveMailboxId contact.identityId
    payloadType := mailboxEnvelopePayloadType
    ciphertext := ciphertext
    createdAtMs := v.now
    expiresAtMs := v.now + envelopeLifetimeMs
    sizeBytes := utf8Length ciphertext
    senderSignature := [] }
  { envelope with senderSignature := rt.signEnvelope envelope }

/-- Encrypt a message and put it in the outbox and the history, with a session established
    first where the bundle for one was claimed. -/
def encryptMessage (dev : Device) (v : Circumstances) (input : SendInput)
    (contact : ContactIdentifiers) (address : Text) (verified : Option VerifiedBundle) :
    StoreTx Outbox := do
  let pinned ← Tx.read fun s => s.contacts.get contact.identityId
  Tx.ensure (pinned = some contact) (.outbound "CONTACT_PIN_MISMATCH".toList)
  match verified with
  | some verified => within (SignalClient.establish rt.lib address verified.bundle v.entropy)
  | none => pure ()
  let message ← within
    (SignalClient.encrypt rt.lib rt.enc address input.messageId input.plaintext v.entropy)
  let envelope := outboundEnvelope rt dev v contact input.messageId message
  Tx.ensure (mailboxEnvelopeSchema envelope.toJson = true) .other
  let record := ⟨contentHash rt input, envelope, .pending⟩
  Tx.modify fun s => { s with outbox := s.outbox.insert input.messageId record }
  appendHistory contact.identityId input.messageId .outbound input.plaintext v.now
  Tx.modify fun s => { s with claims := s.claims.erase contact.identityId }
  return record

/-- The mutation transaction of `send`: the record, and whether it existed before. -/
def commitMessage (dev : Device) (v : Circumstances) (input : SendInput)
    (contact : ContactIdentifiers) (address : Text) (verified : Option VerifiedBundle) :
    StoreTx (Outbox × Bool) := do
  let committed ← Tx.read fun s => s.outbox.get input.messageId
  match committed with
  | some record => return (record, true)
  | none => return (← encryptMessage rt dev v input contact address verified, false)

/-- The check of `deliver` before it sends: the Signal client still has this message. -/
def checkRetry (record : Outbox) : StoreTx Unit := do
  let address ← Tx.need
    (signalAddressForDevice record.envelope.recipientIdentityId record.envelope.recipientDeviceId)
    .other
  let persisted ← within (SignalClient.retry address record.envelope.messageId)
  Tx.ensure (record.envelope.ciphertext = rt.enc.wrap persisted.type persisted.body)
    (.outbound "OUTBOUND_REJECTED".toList)

def setDelivered (record : Outbox) : StoreTx Unit :=
  Tx.modify fun s => { s with
    outbox := s.outbox.insert record.envelope.messageId { record with status := .delivered } }

def pendingOutbox : StoreTx (List Outbox) :=
  Tx.read fun s => (s.outbox.entries.map (·.2)).filter fun record => record.status = .pending

/-! ## The publication pool -/

/-- `LIMITS.PREKEY_MIN_COUNT`. -/
def poolTarget : ℕ := 20

/-- The signature of a bundle before it is signed: 64 zero bytes. -/
def noSignature : Text := List.replicate 86 'A'

/-- `signBundle`: a bundle around the current one-time prekey. -/
def signBundle (record : DeviceRecord) (v : Circumstances) : StoreTx WireBundle := do
  let _ ← Tx.need (signalAddressForDevice record.identityId record.deviceId) .other
  Tx.ensure (rt.verifyRecord record = true) .other
  let bundle ← within (SignalClient.publicBundle rt.lib)
  let wire : WireBundle := ⟨v.uuid, record, v.now, v.now + maxBundleWindowMs,
    bundle.registrationId, bundle.identityKey, bundle.signedPreKey, bundle.kyberPreKey,
    bundle.preKey, noSignature⟩
  Tx.ensure (bundleSchema wire = true) .other
  let wire := { wire with signature := rt.signBundle wire }
  let verified := importVerifiedSignalBundleV2 rt wire record.identityId record.deviceId v.now
  Tx.ensure (verified.isSome = true) .other
  return wire

/-- Fill a slot with a new bundle, around a new one-time prekey where `rotate` says so. -/
def mintPublicationSlot (record : DeviceRecord) (v : Circumstances) (slot : ℕ) (rotate : Bool) :
    StoreTx WireBundle := do
  if rotate = true then
    let _ ← within (SignalClient.rotateOneTimePreKey rt.lib v.entropy)
  let bundle ← signBundle rt record v
  Tx.modify fun s => { s with publication := s.publication.insert slot bundle }
  return bundle

/-- The loop of `restorePublicationPool` over the slots below `slot`, from the highest on; `v`
    are the circumstances of each mint. -/
def fillSlots (record : DeviceRecord) (v : ℕ → Circumstances) : ℕ → ℕ → StoreTx ℕ
  | 0, minted => return minted
  | slot + 1, minted => do
    let member ← Tx.read fun s => s.publication.get slot
    if member.isSome = true then fillSlots record v slot minted
    else do
      let rotate ← Tx.read fun s =>
        (List.range poolTarget).any fun slot => (s.publication.get slot).isSome
      let _ ← mintPublicationSlot rt record (v slot) slot rotate
      fillSlots record v slot (minted + 1)

/-- The members of the pool after every empty slot was filled, and how many were. -/
def restorePublicationPool (record : DeviceRecord) (v : ℕ → Circumstances) :
    StoreTx (List WireBundle × ℕ) := do
  let minted ← fillSlots rt record v poolTarget 0
  let members ← Tx.read fun s => (List.range poolTarget).filterMap s.publication.get
  return (members, minted)

def replacePublicationSlot (record : DeviceRecord) (v : Circumstances) (slot : ℕ) :
    StoreTx WireBundle := do
  Tx.ensure (slot < poolTarget) .profile
  mintPublicationSlot rt record v slot true

def rotatePublicationBundle (record : DeviceRecord) (v : Circumstances) : StoreTx WireBundle :=
  mintPublicationSlot rt record v 0 true

/-- `publicationBundle`: the member of slot 0, around the current one-time prekey where there is
    none yet. -/
def publicationBundle (record : DeviceRecord) (v : Circumstances) : StoreTx WireBundle := do
  let member ← Tx.read fun s => s.publication.get 0
  match member with
  | some bundle => return bundle
  | none => mintPublicationSlot rt record v 0 false

def hasPublication : StoreTx Bool := Tx.read fun s => (s.publication.get 0).isSome

end

end Echolet
