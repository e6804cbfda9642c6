/-
  What the transactions of a profile did to its store, where they committed.

  One theorem for each transaction: `acceptOne_ok`, `importContact_ok`, `claimIdentifier_ok`,
  `commitMessage_ok` and so on.  What the operations of the Signal client do comes first
  (`decrypt_ok`, `encrypt_ok`, `establish_ok`, `approveRemote_ok`).
-/
import Echolet.Client.Messenger

namespace Echolet

variable {rt : Runtime} {lib : Libsignal} {enc : Encoding}

/-! ## The Signal client -/

namespace SignalClient

variable {σ σ' : SignalStore} {address messageId : Text}

theorem approveRemote_ok {key : Text} {u : Unit} (h : approveRemote address key σ = (.ok u, σ')) :
    (σ.trust.get address = none ∨ σ.trust.get address = some key) ∧
      σ' = { σ with trust := σ.trust.insert address key } := by
  simp only [approveRemote, Tx.bind_ok, Tx.read_ok, Tx.ensure_ok, Tx.modify_ok] at h
  obtain ⟨old, _, ⟨rfl, rfl⟩, _, _, ⟨hold, rfl⟩, rfl⟩ := h
  refine ⟨?_, rfl⟩
  cases hk : σ.trust.get address with
  | none => exact Or.inl rfl
  | some k => rw [hk] at hold; exact Or.inr (by simpa using hold)

/-- A session is established under the approved key, where there was none. -/
theorem establish_ok {bundle : WireBundle} {entropy : ℕ} {u : Unit}
    (h : establish lib address bundle entropy σ = (.ok u, σ')) :
    σ.trust.get address = some bundle.signalIdentityKey ∧ σ.session.get address = none ∧
      records (lib.processPreKeyBundle bundle address entropy) σ = (.ok (), σ') := by
  simp only [establish, Tx.bind_ok, Tx.read_ok, Tx.ensure_ok] at h
  obtain ⟨_, _, ⟨rfl, rfl⟩, _, _, ⟨ht, rfl⟩, _, _, ⟨rfl, rfl⟩, _, _, ⟨hs, rfl⟩, h⟩ := h
  exact ⟨by simpa [SignalStore.isTrusted] using ht, hs, h⟩

/-- What `decrypt` did: the library decrypted the body, and the message is received. -/
structure Decrypted (lib : Libsignal) (enc : Encoding) (address messageId : Text) (type : ℕ)
    (body : Bytes) (entropy : ℕ) (σ : SignalStore) (text : Text) (σ' : SignalStore) where
  payload : Bytes
  store : SignalStore
  fresh : σ.inbox.get (messageKey address messageId) = none
  decrypted : decryptBody lib address type body entropy σ = (.ok payload, store)
  read : enc.readPayload payload = some (some messageId, some text)
  after : σ' = { store with inbox := store.inbox.insert (messageKey address messageId) text }

theorem decrypt_ok {type : ℕ} {body : Bytes} {entropy : ℕ} {text : Text}
    (h : decrypt lib enc address messageId type body entropy σ = (.ok text, σ')) :
    Nonempty (Decrypted lib enc address messageId type body entropy σ text σ') := by
  simp only [decrypt, assertMessageId, Tx.bind_ok, Tx.read_ok, Tx.ensure_ok, Tx.need_ok,
    Tx.modify_ok, Tx.pure_ok] at h
  obtain ⟨_, _, ⟨-, rfl⟩, _, _, ⟨-, rfl⟩, _, _, ⟨rfl, rfl⟩, _, _, ⟨hf, rfl⟩, payload, σ₁, hd, p, _,
    ⟨hp, rfl⟩, _, _, ⟨hid, rfl⟩, text', _, ⟨ht, rfl⟩, _, _, rfl, rfl, rfl⟩ := h
  refine ⟨⟨payload, σ₁, hf, hd, ?_, rfl⟩⟩
  rw [hp, ← hid, ← ht]

theorem decryptBody_kept {type : ℕ} {body : Bytes} {entropy : ℕ} :
    σ.Kept (decryptBody lib address type body entropy σ).2 := by
  unfold decryptBody
  split_ifs
  · exact Records.run_kept _ σ
  · exact Records.run_kept _ σ
  · exact .refl σ

/-- What `encrypt` did: the message was encrypted before, or is encrypted and kept now. -/
theorem encrypt_ok {plaintext : Text} {entropy : ℕ} {record : SignalOutboxRecord}
    (h : encrypt lib enc address messageId plaintext entropy σ = (.ok record, σ')) :
    σ.outbox.get (messageKey address messageId) = some record ∧ σ' = σ ∨
    σ.outbox.get (messageKey address messageId) = none ∧ ∃ message store,
      records (lib.encrypt (enc.payload messageId plaintext) address entropy) σ =
        (.ok message, store) ∧
      record = ⟨messageId, message.1, message.2, enc.sha256 (enc.payload messageId plaintext)⟩ ∧
      σ' = { store with outbox := store.outbox.insert (messageKey address messageId) record } := by
  simp only [encrypt, assertMessageId, Tx.bind_ok, Tx.read_ok, Tx.ensure_ok] at h
  obtain ⟨_, _, ⟨-, rfl⟩, _, _, ⟨-, rfl⟩, _, _, ⟨rfl, rfl⟩, _, _, ⟨-, rfl⟩, previous, _, ⟨hp, rfl⟩,
    h⟩ := h
  cases previous with
  | some prior =>
    simp only [Tx.bind_ok, Tx.ensure_ok, Tx.pure_ok] at h
    obtain ⟨_, _, ⟨-, rfl⟩, rfl, rfl⟩ := h
    exact Or.inl ⟨hp, rfl⟩
  | none =>
    simp only [Tx.bind_ok, Tx.modify_ok, Tx.pure_ok] at h
    obtain ⟨message, σ₁, hm, _, _, rfl, rfl, rfl⟩ := h
    exact Or.inr ⟨hp, message, σ₁, hm, rfl, rfl⟩

theorem retry_ok {record : SignalOutboxRecord} (h : retry address messageId σ = (.ok record, σ')) :
    σ.outbox.get (messageKey address messageId) = some record ∧ σ' = σ := by
  simp only [retry, assertMessageId, Tx.bind_ok, Tx.read_ok, Tx.ensure_ok, Tx.need_ok] at h
  obtain ⟨_, _, ⟨-, rfl⟩, _, _, ⟨rfl, rfl⟩, _, _, ⟨-, rfl⟩, _, _, ⟨rfl, rfl⟩, hr, rfl⟩ := h
  exact ⟨hr, rfl⟩

end SignalClient

variable {dev : Device} {v : Circumstances} {s s' : ClientStore}

theorem within_ok {α : Type} {x : Tx SignalStore Failure α} {a : α} :
    within x s = (.ok a, s') ↔ ∃ signal, x s.signal = (.ok a, signal) ∧
      { s with signal := signal } = s' := Tx.zoom_ok

/-! ## Contacts -/

theorem importContact_ok {verified : VerifiedBundle} {b : Bool}
    (h : importContact verified s = (.ok b, s')) :
    (s.contacts.get verified.bundle.identifiers.identityId = none ∨
      s.contacts.get verified.bundle.identifiers.identityId = some verified.bundle.identifiers) ∧
    (s.signal.trust.get verified.address = none ∨
      s.signal.trust.get verified.address = some verified.bundle.signalIdentityKey) ∧
    s' = { s with
      signal := { s.signal with
        trust := s.signal.trust.insert verified.address verified.bundle.signalIdentityKey }
      contacts := s.contacts.insert verified.bundle.identifiers.identityId
        verified.bundle.identifiers } := by
  simp only [importContact, Tx.bind_ok, Tx.read_ok, Tx.ensure_ok, within_ok, Tx.modify_ok,
    Tx.pure_ok] at h
  obtain ⟨previous, _, ⟨rfl, rfl⟩, _, _, ⟨hp, rfl⟩, _, _, ⟨σ, hσ, rfl⟩, _, _, rfl, -, rfl⟩ := h
  obtain ⟨ht, rfl⟩ := SignalClient.approveRemote_ok hσ
  refine ⟨?_, ht, rfl⟩
  cases hc : s.contacts.get verified.bundle.identifiers.identityId with
  | none => exact Or.inl rfl
  | some k => rw [hc] at hp; exact Or.inr (by simpa using hp)

/-! ## The inbox -/

/-- The sender of an envelope is a contact, at the address and under the key that are pinned. -/
structure PinnedSender (s : ClientStore) (e : MailboxEnvelope) (contact : ContactIdentifiers)
    (address : Text) : Prop where
  pinned : s.contacts.get e.senderIdentityId = some contact
  identity : contact.identityId = e.senderIdentityId
  device : contact.deviceId = e.senderDeviceId
  named : signalAddressForDevice contact.identityId contact.deviceId = some address
  trusted : s.signal.trust.get address = some contact.signalIdentityKey

theorem pinnedSender_ok {e : MailboxEnvelope} {contact : ContactIdentifiers} {address : Text}
    (h : pinnedSender e s = (.ok (contact, address), s')) :
    PinnedSender s e contact address ∧ s' = s := by
  simp only [pinnedSender, Tx.bind_ok, Tx.read_ok, Tx.ensure_ok, Tx.need_ok, Tx.pure_ok] at h
  obtain ⟨_, _, ⟨rfl, rfl⟩, c, _, ⟨hc, rfl⟩, _, _, ⟨⟨hi, hd⟩, rfl⟩, a, _, ⟨ha, rfl⟩, _, _,
    ⟨rfl, rfl⟩, _, _, ⟨ht, rfl⟩, heq, rfl⟩ := h
  cases heq
  exact ⟨⟨hc, hi, hd, ha, by simpa [SignalStore.isTrusted] using ht⟩, rfl⟩

/-- The hash a message is received with. -/
def receivedHash (rt : Runtime) (e : MailboxEnvelope) : Text :=
  rt.enc.sha256 (rt.enc.utf8 e.ciphertext)

/-- A message was decrypted, and is in the inbox and in the history now. -/
structure Recorded (rt : Runtime) (v : Circumstances) (contact : ContactIdentifiers)
    (address : Text) (e : MailboxEnvelope) (type : ℕ) (body : Bytes) (s s' : ClientStore) where
  plaintext : Text
  signal : SignalStore
  decrypted : SignalClient.Decrypted rt.lib rt.enc address e.messageId type body v.entropy s.signal
    plaintext signal
  valid : HistoryEntry.valid
    ⟨nextSequence s, contact.identityId, e.messageId, .inbound, plaintext, e.createdAtMs⟩ = true
  after : s' = { s with
      signal := signal
      inbox := s.inbox.insert (messageKey address e.messageId) (receivedHash rt e)
      history := s.history.insert (historyKey (nextSequence s))
        ⟨nextSequence s, contact.identityId, e.messageId, .inbound, plaintext, e.createdAtMs⟩
      historySequence := some (nextSequence s) }

theorem recordMessage_ok {contact : ContactIdentifiers} {address : Text} {e : MailboxEnvelope}
    {type : ℕ} {body : Bytes} {u : Unit}
    (h : recordMessage rt v contact address e type body s = (.ok u, s')) :
    Nonempty (Recorded rt v contact address e type body s s') := by
  simp only [recordMessage, Tx.bind_ok, within_ok, Tx.modify_ok, appendHistory_ok] at h
  obtain ⟨plaintext, _, ⟨σ, hσ, rfl⟩, _, _, rfl, hv, rfl⟩ := h
  obtain ⟨hd⟩ := SignalClient.decrypt_ok hσ
  exact ⟨⟨plaintext, σ, hd, hv, rfl⟩⟩

/-- A message was received before with this ciphertext, or is recorded now. -/
inductive Receives (rt : Runtime) (v : Circumstances) (contact : ContactIdentifiers)
    (address : Text) (e : MailboxEnvelope) (s : ClientStore) : ClientStore → Prop
  | before : s.inbox.get (messageKey address e.messageId) = some (receivedHash rt e) →
      Receives rt v contact address e s s
  | now {type : ℕ} {body : Bytes} {s' : ClientStore} :
      s.inbox.get (messageKey address e.messageId) = none →
      rt.enc.unwrap e.ciphertext = some (type, body) →
      Recorded rt v contact address e type body s s' → Receives rt v contact address e s s'

theorem receiveMessage_ok {contact : ContactIdentifiers} {address : Text} {e : MailboxEnvelope}
    {wrapper : ℕ × Bytes} {u : Unit} (hw : rt.enc.unwrap e.ciphertext = some wrapper)
    (h : receiveMessage rt v contact address e wrapper s = (.ok u, s')) :
    Receives rt v contact address e s s' := by
  simp only [receiveMessage, Tx.bind_ok, Tx.read_ok] at h
  obtain ⟨previous, _, ⟨hp, rfl⟩, h⟩ := h
  cases previous with
  | some hash =>
    obtain ⟨rfl, rfl⟩ := Tx.ensure_ok.1 h
    exact .before hp
  | none =>
    obtain ⟨hr⟩ := recordMessage_ok h
    exact .now hp hw hr

theorem queueAck_ok {id key : Text} {u : Unit} (h : queueAck id key s = (.ok u, s')) :
    (s.pendingAck.get id = none ∨ s.pendingAck.get id = some key) ∧
      s' = { s with pendingAck := s.pendingAck.insert id key } := by
  simp only [queueAck, Tx.bind_ok, Tx.read_ok, Tx.ensure_ok, Tx.modify_ok] at h
  obtain ⟨pending, _, ⟨rfl, rfl⟩, _, _, ⟨hp, rfl⟩, rfl⟩ := h
  refine ⟨?_, rfl⟩
  cases hk : s.pendingAck.get id with
  | none => exact Or.inl rfl
  | some k => rw [hk] at hp; exact Or.inr (by simpa using hp)

/-- What accepting an envelope did: its message was received, and its acknowledgement is
    queued. -/
structure Accepted (rt : Runtime) (dev : Device) (v : Circumstances) (e : MailboxEnvelope)
    (s s' : ClientStore) where
  contact : ContactIdentifiers
  address : Text
  message : ClientStore
  addressed : ¬ misaddressed dev v.now e
  sender : PinnedSender s e contact address
  received : Receives rt v contact address e s message
  pending : message.pendingAck.get e.envelopeId = none ∨
    message.pendingAck.get e.envelopeId = some (messageKey address e.messageId)
  after : s' = { message with
    pendingAck := message.pendingAck.insert e.envelopeId (messageKey address e.messageId) }

theorem acceptOne_ok {e : MailboxEnvelope} {u : Unit}
    (h : acceptOne rt dev v e s = (.ok u, s')) : Nonempty (Accepted rt dev v e s s') := by
  simp only [acceptOne, Tx.bind_ok, Tx.ensure_ok, Tx.need_ok] at h
  obtain ⟨_, _, ⟨ha, rfl⟩, ⟨contact, address⟩, _, hsend, wrapper, _, ⟨hw, rfl⟩, _, message, hr, hq⟩ :=
    h
  obtain ⟨hsend, rfl⟩ := pinnedSender_ok hsend
  obtain ⟨hp, rfl⟩ := queueAck_ok hq
  exact ⟨⟨contact, address, message, ha, hsend, receiveMessage_ok hw hr, hp, rfl⟩⟩

/-! ## The outbox -/

theorem claimIdentifier_ok {contact : ContactIdentifiers} {address : Text} {id : Option Text}
    (h : claimIdentifier v contact address s = (.ok id, s')) :
    ((s.signal.session.get address).isSome = true ∧ id = none ∧ s' = s) ∨
    s.signal.session.get address = none ∧
      (∃ stored, s.claims.get contact.identityId = some stored ∧ id = some stored ∧ s' = s) ∨
    s.signal.session.get address = none ∧ s.claims.get contact.identityId = none ∧
      id = some v.uuid ∧
      s' = { s with claims := s.claims.insert contact.identityId v.uuid } := by
  simp only [claimIdentifier, Tx.bind_ok, Tx.read_ok] at h
  obtain ⟨session, _, ⟨hs, rfl⟩, h⟩ := h
  cases session with
  | some session =>
    obtain ⟨rfl, rfl⟩ := Tx.pure_ok.1 h
    exact Or.inl ⟨by rw [hs]; rfl, rfl, rfl⟩
  | none =>
    simp only [Tx.bind_ok, Tx.read_ok] at h
    obtain ⟨previous, _, ⟨hp, rfl⟩, h⟩ := h
    cases previous with
    | some stored =>
      obtain ⟨rfl, rfl⟩ := Tx.pure_ok.1 h
      exact Or.inr (Or.inl ⟨hs, stored, hp, rfl, rfl⟩)
    | none =>
      simp only [Tx.bind_ok, Tx.ensure_ok, Tx.modify_ok, Tx.pure_ok] at h
      obtain ⟨_, _, ⟨-, rfl⟩, _, _, rfl, rfl, rfl⟩ := h
      exact Or.inr (Or.inr ⟨hs, hp, rfl, rfl⟩)

theorem replaceClaim_ok {contact : ContactIdentifiers} {id : Text}
    (h : replaceClaim v contact s = (.ok id, s')) :
    id = v.uuid ∧ s' = { s with claims := s.claims.insert contact.identityId v.uuid } := by
  simp only [replaceClaim, Tx.bind_ok, Tx.ensure_ok, Tx.modify_ok, Tx.pure_ok] at h
  obtain ⟨_, _, ⟨-, rfl⟩, _, _, rfl, rfl, rfl⟩ := h
  exact ⟨rfl, rfl⟩

/-- What committing a message did: a session was established where a bundle was claimed, the
    message encrypted, and the outbox, the history and the claim brought up to date. -/
structure Committed (rt : Runtime) (dev : Device) (v : Circumstances) (input : SendInput)
    (contact : ContactIdentifiers) (address : Text) (verified : Option VerifiedBundle)
    (s s' : ClientStore) where
  established : SignalStore
  message : SignalOutboxRecord
  signal : SignalStore
  fresh : s.outbox.get input.messageId = none
  pinned : s.contacts.get contact.identityId = some contact
  session : verified = none ∧ established = s.signal ∨ ∃ b, verified = some b ∧
    SignalClient.establish rt.lib address b.bundle v.entropy s.signal = (.ok (), established)
  encrypted : SignalClient.encrypt rt.lib rt.enc address input.messageId input.plaintext v.entropy
    established = (.ok message, signal)
  valid : HistoryEntry.valid ⟨nextSequence s, contact.identityId, input.messageId, .outbound,
    input.plaintext, v.now⟩ = true
  after : s' = { s with
    signal := signal
    outbox := s.outbox.insert input.messageId
      ⟨contentHash rt input, outboundEnvelope rt dev v contact input.messageId message, .pending⟩
    history := s.history.insert (historyKey (nextSequence s))
      ⟨nextSequence s, contact.identityId, input.messageId, .outbound, input.plaintext, v.now⟩
    historySequence := some (nextSequence s)
    claims := s.claims.erase contact.identityId }

section
variable {input : SendInput} {contact : ContactIdentifiers} {address : Text}
  {verified : Option VerifiedBundle}

/-- The record a commit puts in the outbox. -/
def Committed.record (c : Committed rt dev v input contact address verified s s') : Outbox :=
  ⟨contentHash rt input, outboundEnvelope rt dev v contact input.messageId c.message, .pending⟩

theorem encryptMessage_ok {record : Outbox} (hf : s.outbox.get input.messageId = none)
    (h : encryptMessage rt dev v input contact address verified s = (.ok record, s')) :
    ∃ c : Committed rt dev v input contact address verified s s', record = c.record := by
  simp only [encryptMessage, Tx.bind_ok, Tx.read_ok, Tx.ensure_ok] at h
  obtain ⟨pinned, _, ⟨rfl, rfl⟩, _, _, ⟨hp, rfl⟩, h⟩ := h
  have hrest : ∀ {established : SignalStore}, (verified = none ∧ established = s.signal ∨
      ∃ b, verified = some b ∧ SignalClient.establish rt.lib address b.bundle v.entropy s.signal =
        (.ok (), established)) → (do
      let message ← within
        (SignalClient.encrypt rt.lib rt.enc address input.messageId input.plaintext v.entropy)
      let envelope := outboundEnvelope rt dev v contact input.messageId message
      Tx.ensure (mailboxEnvelopeSchema envelope.toJson = true) .other
      let record := ⟨contentHash rt input, envelope, .pending⟩
      Tx.modify fun s => { s with outbox := s.outbox.insert input.messageId record }
      appendHistory contact.identityId input.messageId .outbound input.plaintext v.now
      Tx.modify fun s => { s with claims := s.claims.erase contact.identityId }
      return record : StoreTx Outbox) { s with signal := established } = (.ok record, s') →
      ∃ c : Committed rt dev v input contact address verified s s', record = c.record := by
    intro established he h
    simp only [Tx.bind_ok, within_ok, Tx.ensure_ok, Tx.modify_ok, appendHistory_ok,
      Tx.pure_ok] at h
    obtain ⟨message, _, ⟨σ, hm, rfl⟩, _, _, ⟨-, rfl⟩, _, _, rfl, _, _, ⟨hv, rfl⟩, _, _, rfl, rfl,
      rfl⟩ := h
    exact ⟨⟨established, message, σ, hf, hp, he, hm, hv, rfl⟩, rfl⟩
  cases verified with
  | none => exact hrest (Or.inl ⟨rfl, rfl⟩) h
  | some b =>
    obtain ⟨_, _, he, h⟩ := Tx.bind_ok.1 h
    obtain ⟨σ, he', rfl⟩ := within_ok.1 he
    exact hrest (Or.inr ⟨b, rfl, he'⟩) h

/-- What is committed passes the schema of the transport. -/
theorem encryptMessage_schema {record : Outbox}
    (h : encryptMessage rt dev v input contact address verified s = (.ok record, s')) :
    mailboxEnvelopeSchema record.envelope.toJson = true := by
  simp only [encryptMessage, Tx.bind_ok, Tx.read_ok, Tx.ensure_ok] at h
  obtain ⟨_, _, -, _, _, -, h⟩ := h
  cases verified with
  | none =>
    simp only [Tx.bind_ok, Tx.ensure_ok, Tx.modify_ok, Tx.pure_ok] at h
    obtain ⟨_, _, -, _, _, ⟨hs, -⟩, _, _, -, _, _, -, _, _, -, rfl, -⟩ := h
    exact hs
  | some b =>
    simp only [Tx.bind_ok, Tx.ensure_ok, Tx.modify_ok, Tx.pure_ok] at h
    obtain ⟨_, _, -, _, _, -, _, _, ⟨hs, -⟩, _, _, -, _, _, -, _, _, -, rfl, -⟩ := h
    exact hs

theorem commitMessage_ok {record : Outbox} {existed : Bool}
    (h : commitMessage rt dev v input contact address verified s = (.ok (record, existed), s')) :
    (existed = true ∧ s.outbox.get input.messageId = some record ∧ s' = s) ∨
    existed = false ∧ ∃ c : Committed rt dev v input contact address verified s s',
      record = c.record := by
  simp only [commitMessage, Tx.bind_ok, Tx.read_ok] at h
  obtain ⟨committed, _, ⟨hc, rfl⟩, h⟩ := h
  cases committed with
  | some prior =>
    obtain ⟨hr, rfl⟩ := Tx.pure_ok.1 h
    cases hr
    exact Or.inl ⟨rfl, hc, rfl⟩
  | none =>
    simp only [Tx.bind_ok, Tx.pure_ok] at h
    obtain ⟨r, _, he, hr, rfl⟩ := h
    cases hr
    exact Or.inr ⟨rfl, encryptMessage_ok hc he⟩

theorem commitMessage_schema {record : Outbox}
    (h : commitMessage rt dev v input contact address verified s = (.ok (record, false), s')) :
    mailboxEnvelopeSchema record.envelope.toJson = true := by
  simp only [commitMessage, Tx.bind_ok, Tx.read_ok] at h
  obtain ⟨committed, _, -, h⟩ := h
  cases committed with
  | some prior => cases (Tx.pure_ok.1 h).1
  | none =>
    simp only [Tx.bind_ok, Tx.pure_ok] at h
    obtain ⟨r, _, he, hr, -⟩ := h
    cases hr
    exact encryptMessage_schema he

theorem checkRetry_ok {record : Outbox} {u : Unit} (h : checkRetry rt record s = (.ok u, s')) :
    s' = s ∧ ∃ address persisted, signalAddressForDevice record.envelope.recipientIdentityId
        record.envelope.recipientDeviceId = some address ∧
      s.signal.outbox.get (messageKey address record.envelope.messageId) = some persisted ∧
      record.envelope.ciphertext = rt.enc.wrap persisted.type persisted.body := by
  simp only [checkRetry, Tx.bind_ok, Tx.need_ok, within_ok, Tx.ensure_ok] at h
  obtain ⟨address, _, ⟨ha, rfl⟩, persisted, _, ⟨σ, hr, rfl⟩, hc, rfl⟩ := h
  obtain ⟨hp, rfl⟩ := SignalClient.retry_ok hr
  exact ⟨rfl, address, persisted, ha, hp, hc⟩

end

/-! ## The publication pool -/

/-- Only the pool and the one-time prekeys are not the same. -/
def PoolOnly (s s' : ClientStore) : Prop :=
  ∃ publication pre preCurrent, s' = { s with
    publication := publication
    signal := { s.signal with pre := pre, preCurrent := preCurrent } }

theorem PoolOnly.refl (s : ClientStore) : PoolOnly s s :=
  ⟨s.publication, s.signal.pre, s.signal.preCurrent, rfl⟩

theorem PoolOnly.trans {s s' s'' : ClientStore} (h : PoolOnly s s') (h' : PoolOnly s' s'') :
    PoolOnly s s'' := by
  obtain ⟨p, k, c, rfl⟩ := h
  obtain ⟨p', k', c', rfl⟩ := h'
  exact ⟨p', k', c', rfl⟩

section
variable {σ σ' : SignalStore}

theorem SignalClient.currentOneTimePreKeyId_ok {id : ℕ}
    (h : SignalClient.currentOneTimePreKeyId σ = (.ok id, σ')) :
    id = σ.preCurrent.getD 1 ∧ σ' = σ := by
  simp only [currentOneTimePreKeyId, Tx.bind_ok, Tx.read_ok, Tx.ensure_ok, Tx.pure_ok] at h
  obtain ⟨_, _, ⟨rfl, rfl⟩, _, _, ⟨-, rfl⟩, rfl, rfl⟩ := h
  exact ⟨rfl, rfl⟩

theorem SignalClient.readPreKey_ok {bytes : Option Bytes} {key : Option OneTimePreKey}
    (h : SignalClient.readPreKey lib bytes σ = (.ok key, σ')) :
    key = bytes.bind lib.preKeyPublic ∧ σ' = σ := by
  cases bytes with
  | none =>
    obtain ⟨rfl, rfl⟩ := Tx.pure_ok.1 h
    exact ⟨rfl, rfl⟩
  | some b =>
    simp only [readPreKey, Tx.bind_ok, Tx.need_ok, Tx.pure_ok] at h
    obtain ⟨k, _, ⟨hk, rfl⟩, rfl, rfl⟩ := h
    exact ⟨hk.symm, rfl⟩

/-- A public bundle is read off the records, around the current one-time prekey. -/
theorem SignalClient.publicBundle_ok {b : PublicBundle}
    (h : SignalClient.publicBundle lib σ = (.ok b, σ')) :
    b.preKey = (σ.pre.get (σ.preCurrent.getD 1)).bind lib.preKeyPublic ∧ σ' = σ := by
  have hidentity : records (callback .getIdentityKey) = Tx.read fun s => s.identity := rfl
  have hsigned : records (callback (.getSignedPreKey 2)) =
      (do Tx.need (← Tx.read fun s => s.signed.get 2) .other) := rfl
  have hkyber : records (callback (.getKyberPreKey 3)) =
      (do Tx.need (← Tx.read fun s => s.kyber.get 3) .other) := rfl
  have hregistration : records (callback .getLocalRegistrationId) =
      Tx.read fun s => s.registrationId := rfl
  simp only [publicBundle, hidentity, hsigned, hkyber, hregistration, Tx.bind_ok, Tx.read_ok,
    Tx.need_ok, Tx.pure_ok] at h
  obtain ⟨_, _, ⟨-, rfl⟩, _, _, ⟨_, _, ⟨-, rfl⟩, -, rfl⟩, _, _, ⟨-, rfl⟩, _, _,
    ⟨_, _, ⟨-, rfl⟩, -, rfl⟩, _, _, ⟨-, rfl⟩, _, _, hcur, _, _, ⟨rfl, rfl⟩, _, _, hpre, _, _,
    ⟨-, rfl⟩, rfl, rfl⟩ := h
  obtain ⟨rfl, rfl⟩ := currentOneTimePreKeyId_ok hcur
  obtain ⟨rfl, rfl⟩ := readPreKey_ok hpre
  exact ⟨rfl, rfl⟩

theorem le_foldl_max : ∀ (ns : List ℕ) (m : ℕ), m ≤ ns.foldl max m
  | [], _ => le_rfl
  | n :: ns, m => (le_max_left m n).trans (le_foldl_max ns (max m n))

/-- A rotation makes a record for a number above every other, and that number the current one. -/
theorem SignalClient.rotateOneTimePreKey_ok {entropy next : ℕ}
    (h : SignalClient.rotateOneTimePreKey lib entropy σ = (.ok next, σ')) :
    σ.preCurrent.getD 1 < next ∧ σ' = { σ with
      pre := σ.pre.insert next (lib.generatePreKey next entropy)
      preCurrent := some next } := by
  simp only [rotateOneTimePreKey, Tx.bind_ok, Tx.read_ok, Tx.ensure_ok, Tx.modify_ok,
    Tx.pure_ok] at h
  obtain ⟨_, _, hcur, _, _, ⟨rfl, rfl⟩, _, _, ⟨-, rfl⟩, _, _, rfl, rfl, rfl⟩ := h
  obtain ⟨rfl, rfl⟩ := currentOneTimePreKeyId_ok hcur
  exact ⟨Nat.lt_succ_of_le (le_foldl_max _ _), rfl⟩

end

/-- What a freshly signed bundle is: around the current one-time prekey, and valid now. -/
structure Signed (rt : Runtime) (record : DeviceRecord) (v : Circumstances) (s : ClientStore)
    (b : WireBundle) : Prop where
  bundleId : b.bundleId = v.uuid
  deviceRecord : b.deviceRecord = record
  createdAtMs : b.createdAtMs = v.now
  expiresAtMs : b.expiresAtMs = v.now + maxBundleWindowMs
  oneTimePreKey :
    b.oneTimePreKey = (s.signal.pre.get (s.signal.preCurrent.getD 1)).bind rt.lib.preKeyPublic
  valid : (importVerifiedSignalBundleV2 rt b record.identityId record.deviceId v.now).isSome = true

variable {record : DeviceRecord}

theorem signBundle_ok {b : WireBundle} (h : signBundle rt record v s = (.ok b, s')) :
    Signed rt record v s b ∧ s' = s := by
  simp only [signBundle, Tx.bind_ok, Tx.need_ok, Tx.ensure_ok, within_ok, Tx.pure_ok] at h
  obtain ⟨_, _, ⟨-, rfl⟩, _, _, ⟨-, rfl⟩, pb, _, ⟨σ, hp, rfl⟩, _, _, ⟨-, rfl⟩, _, _, ⟨hv, rfl⟩, rfl,
    rfl⟩ := h
  obtain ⟨hk, rfl⟩ := SignalClient.publicBundle_ok hp
  exact ⟨⟨rfl, rfl, rfl, rfl, hk, hv⟩, rfl⟩

/-- A new bundle in a slot, around a new one-time prekey or the current one. -/
structure Minted (rt : Runtime) (record : DeviceRecord) (v : Circumstances) (slot : ℕ)
    (rotate : Bool) (s : ClientStore) (b : WireBundle) (s' : ClientStore) where
  signal : SignalStore
  rotated : rotate = false ∧ signal = s.signal ∨ rotate = true ∧ ∃ next,
    s.signal.preCurrent.getD 1 < next ∧ signal = { s.signal with
      pre := s.signal.pre.insert next (rt.lib.generatePreKey next v.entropy)
      preCurrent := some next }
  signed : Signed rt record v { s with signal := signal } b
  after : s' = { s with signal := signal, publication := s.publication.insert slot b }

theorem mintPublicationSlot_ok {slot : ℕ} {rotate : Bool} {b : WireBundle}
    (h : mintPublicationSlot rt record v slot rotate s = (.ok b, s')) :
    Nonempty (Minted rt record v slot rotate s b s') := by
  have hrest : ∀ {signal : SignalStore}, (rotate = false ∧ signal = s.signal ∨
      rotate = true ∧ ∃ next, s.signal.preCurrent.getD 1 < next ∧ signal = { s.signal with
        pre := s.signal.pre.insert next (rt.lib.generatePreKey next v.entropy)
        preCurrent := some next }) → (do
      let bundle ← signBundle rt record v
      Tx.modify fun s => { s with publication := s.publication.insert slot bundle }
      return bundle : StoreTx WireBundle) { s with signal := signal } = (.ok b, s') →
      Nonempty (Minted rt record v slot rotate s b s') := by
    intro signal hr h
    simp only [Tx.bind_ok, Tx.modify_ok, Tx.pure_ok] at h
    obtain ⟨_, _, hb, _, _, rfl, rfl, rfl⟩ := h
    obtain ⟨hsigned, rfl⟩ := signBundle_ok hb
    exact ⟨⟨signal, hr, hsigned, rfl⟩⟩
  unfold mintPublicationSlot at h
  cases rotate with
  | false => exact hrest (Or.inl ⟨rfl, rfl⟩) h
  | true =>
    simp only [if_true] at h
    obtain ⟨next, _, hn, h⟩ := Tx.bind_ok.1 h
    obtain ⟨σ, hσ, rfl⟩ := within_ok.1 hn
    obtain ⟨hlt, rfl⟩ := SignalClient.rotateOneTimePreKey_ok hσ
    exact hrest (Or.inr ⟨rfl, next, hlt, rfl⟩) h

theorem Minted.poolOnly {slot : ℕ} {rotate : Bool} {b : WireBundle}
    (m : Minted rt record v slot rotate s b s') : PoolOnly s s' := by
  obtain ⟨signal, ⟨-, rfl⟩ | ⟨-, next, -, rfl⟩, -, rfl⟩ := m
  · exact ⟨_, s.signal.pre, s.signal.preCurrent, rfl⟩
  · exact ⟨_, _, _, rfl⟩

theorem fillSlots_poolOnly {v : ℕ → Circumstances} : ∀ {slots minted n : ℕ} {s s' : ClientStore},
    fillSlots rt record v slots minted s = (.ok n, s') → PoolOnly s s'
  | 0, minted, n, s, s', h => by
    obtain ⟨-, rfl⟩ := Tx.pure_ok.1 h
    exact .refl s
  | slot + 1, minted, n, s, s', h => by
    unfold fillSlots at h
    obtain ⟨member, _, hm, h⟩ := Tx.bind_ok.1 h
    obtain ⟨rfl, rfl⟩ := Tx.read_ok.1 hm
    split_ifs at h
    · exact fillSlots_poolOnly h
    · obtain ⟨rotate, _, hr, h⟩ := Tx.bind_ok.1 h
      obtain ⟨-, rfl⟩ := Tx.read_ok.1 hr
      obtain ⟨b, s₁, hb, h⟩ := Tx.bind_ok.1 h
      obtain ⟨m⟩ := mintPublicationSlot_ok hb
      exact m.poolOnly.trans (fillSlots_poolOnly h)

theorem restorePublicationPool_ok {v : ℕ → Circumstances} {members : List WireBundle} {minted : ℕ}
    (h : restorePublicationPool rt record v s = (.ok (members, minted), s')) :
    fillSlots rt record v poolTarget 0 s = (.ok minted, s') ∧
      members = (List.range poolTarget).filterMap s'.publication.get := by
  simp only [restorePublicationPool, Tx.bind_ok, Tx.read_ok, Tx.pure_ok] at h
  obtain ⟨n, _, hn, _, _, ⟨rfl, rfl⟩, heq, rfl⟩ := h
  cases heq
  exact ⟨hn, rfl⟩

theorem replacePublicationSlot_ok {slot : ℕ} {b : WireBundle}
    (h : replacePublicationSlot rt record v slot s = (.ok b, s')) :
    slot < poolTarget ∧ Nonempty (Minted rt record v slot true s b s') := by
  simp only [replacePublicationSlot, Tx.bind_ok, Tx.ensure_ok] at h
  obtain ⟨_, _, ⟨hs, rfl⟩, h⟩ := h
  exact ⟨hs, mintPublicationSlot_ok h⟩

/-! ## Every call -/

def ClientCall.movesRewalk : ClientCall → Bool
  | .keepMailboxRewalk _ | .finishMailboxRewalk => true
  | _ => false

def ClientCall.fillsPool : ClientCall → Bool
  | .restorePublicationPool | .replacePublicationSlot _ => true
  | _ => false

/-- What a call may leave in the store of a profile. -/
inductive Effect (rt : Runtime) (dev : Device) (v : Circumstances) (s : ClientStore) :
    ClientCall → ClientStore → Prop
  | same {c : ClientCall} : Effect rt dev v s c s
  | rewalk {c : ClientCall} (r : RewalkRecord) : c.movesRewalk = true →
      Effect rt dev v s c { s with rewalk := r }
  | accepted {e : MailboxEnvelope} {s' : ClientStore} :
      Accepted rt dev v e s s' → Effect rt dev v s (.acceptOne e) s'
  | forgotten (ids : List Text) : Effect rt dev v s (.forgetAcks ids) { s with
      pendingAck := ids.foldl (fun pending id => pending.erase id) s.pendingAck }
  | imported {verified : VerifiedBundle} :
      (s.contacts.get verified.bundle.identifiers.identityId = none ∨
        s.contacts.get verified.bundle.identifiers.identityId = some verified.bundle.identifiers) →
      (s.signal.trust.get verified.address = none ∨
        s.signal.trust.get verified.address = some verified.bundle.signalIdentityKey) →
      Effect rt dev v s (.importContact verified) { s with
        signal := { s.signal with
          trust := s.signal.trust.insert verified.address verified.bundle.signalIdentityKey }
        contacts := s.contacts.insert verified.bundle.identifiers.identityId
          verified.bundle.identifiers }
  | claimed {contact : ContactIdentifiers} {address : Text} :
      s.signal.session.get address = none → s.claims.get contact.identityId = none →
      Effect rt dev v s (.claimIdentifier contact address) { s with
        claims := s.claims.insert contact.identityId v.uuid }
  | replaced {contact : ContactIdentifiers} : Effect rt dev v s (.replaceClaim contact) { s with
      claims := s.claims.insert contact.identityId v.uuid }
  | committed {input : SendInput} {contact : ContactIdentifiers} {address : Text}
      {verified : Option VerifiedBundle} {s' : ClientStore} :
      Committed rt dev v input contact address verified s s' →
      Effect rt dev v s (.commitMessage input contact address verified) s'
  | delivered {record : Outbox} : Effect rt dev v s (.setDelivered record) { s with
      outbox := s.outbox.insert record.envelope.messageId { record with status := .delivered } }
  | published {c : ClientCall} {s' : ClientStore} : c.fillsPool = true → PoolOnly s s' →
      Effect rt dev v s c s'

theorem attempt_ok {α : Type} {x : StoreTx α} {w : Surroundings} {a : α}
    (h : attempt w x s = (.ok a, s')) : x s = (.ok a, s') := by
  unfold attempt at h
  split_ifs at h
  · cases h
  · exact Tx.transact_ok.1 h

/-- A transaction that does not commit leaves the store as it was. -/
theorem attempt_error {α : Type} {x : StoreTx α} {w : Surroundings} {e : Failure}
    (h : attempt w x s = (.error e, s')) : s' = s := by
  unfold attempt at h
  split_ifs at h
  · cases h; rfl
  · exact Tx.transact_error h

theorem performed_error {c : ClientCall} {w : Surroundings} {e : Failure}
    (h : Performed rt dev record c w s (.error e) s') : s' = s := by
  unfold Performed at h
  split at h
  · exact attempt_error h
  · exact h.1

/-- **The effect of a call**, whatever its answer is. -/
theorem performed_effect {c : ClientCall} {w : Surroundings} {r : Except Failure c.Answer}
    (h : Performed rt dev record c w s r s') : Effect rt dev w.within s c s' := by
  cases r with
  | error e => rw [performed_error h]; exact .same
  | ok a =>
    cases c with
    | mailboxAuthorization =>
      obtain ⟨-, rfl⟩ := Tx.pure_ok.1 (attempt_ok h)
      exact .same
    | pendingMailboxRewalk | listContacts | hasPublication | readOutbox _ | pendingAcks
    | pendingOutbox =>
      obtain ⟨-, rfl⟩ := Tx.read_ok.1 (attempt_ok h)
      exact .same
    | keepMailboxRewalk _ | finishMailboxRewalk =>
      obtain rfl := Tx.modify_ok.1 (attempt_ok h)
      exact .rewalk _ rfl
    | acceptOne e =>
      obtain ⟨ha⟩ := acceptOne_ok (attempt_ok h)
      exact .accepted ha
    | forgetAcks ids =>
      obtain rfl := Tx.modify_ok.1 (attempt_ok h)
      exact .forgotten ids
    | importContact verified =>
      obtain ⟨hc, ht, rfl⟩ := importContact_ok (attempt_ok h)
      exact .imported hc ht
    | claimIdentifier contact address =>
      obtain ⟨-, -, rfl⟩ | ⟨-, stored, -, -, rfl⟩ | ⟨hs, hc, -, rfl⟩ :=
        claimIdentifier_ok (attempt_ok h)
      · exact .same
      · exact .same
      · exact .claimed hs hc
    | replaceClaim contact =>
      obtain ⟨-, rfl⟩ := replaceClaim_ok (attempt_ok h)
      exact .replaced
    | commitMessage input contact address verified =>
      obtain ⟨-, -, rfl⟩ | ⟨-, ⟨hc, -⟩⟩ := commitMessage_ok (attempt_ok h)
      · exact .same
      · exact .committed hc
    | checkRetry record =>
      obtain ⟨rfl, -⟩ := checkRetry_ok (attempt_ok h)
      exact .same
    | setDelivered record =>
      obtain rfl := Tx.modify_ok.1 (attempt_ok h)
      exact .delivered
    | restorePublicationPool =>
      obtain ⟨hf, -⟩ := restorePublicationPool_ok (attempt_ok h)
      exact .published rfl (fillSlots_poolOnly hf)
    | replacePublicationSlot slot =>
      obtain ⟨-, ⟨m⟩⟩ := replacePublicationSlot_ok (attempt_ok h)
      exact .published rfl m.poolOnly
    | _ =>
      obtain rfl : s' = s := h.1
      exact .same

/-! ## What stays -/

theorem SignalClient.records_kept {α : Type} {p : RecordsProgram α} {σ σ' : SignalStore} {a : α}
    (h : SignalClient.records p σ = (.ok a, σ')) : σ.Kept σ' := by
  have hk := Records.run_kept p σ
  rwa [h] at hk

theorem SignalClient.Decrypted.trust {address messageId text : Text} {type : ℕ} {body : Bytes}
    {entropy : ℕ} {σ σ' : SignalStore}
    (d : SignalClient.Decrypted lib enc address messageId type body entropy σ text σ') :
    σ'.trust = σ.trust := by
  have hk : σ.Kept (decryptBody lib address type body entropy σ).2 := decryptBody_kept
  rw [d.decrypted] at hk
  rw [d.after]
  exact hk.trust

theorem SignalClient.Decrypted.outbox {address messageId text : Text} {type : ℕ} {body : Bytes}
    {entropy : ℕ} {σ σ' : SignalStore}
    (d : SignalClient.Decrypted lib enc address messageId type body entropy σ text σ') :
    σ'.outbox = σ.outbox := by
  have hk : σ.Kept (decryptBody lib address type body entropy σ).2 := decryptBody_kept
  rw [d.decrypted] at hk
  rw [d.after]
  exact hk.outbox

/-- An envelope was accepted before, or its message is recorded now. -/
theorem Accepted.cases {e : MailboxEnvelope} (a : Accepted rt dev v e s s') :
    (s.inbox.get (messageKey a.address e.messageId) = some (receivedHash rt e) ∧ a.message = s) ∨
    s.inbox.get (messageKey a.address e.messageId) = none ∧ ∃ type body,
      rt.enc.unwrap e.ciphertext = some (type, body) ∧
        Nonempty (Recorded rt v a.contact a.address e type body s a.message) := by
  obtain ⟨contact, address, message, -, -, hr, -, -⟩ := a
  cases hr with
  | before hh => exact Or.inl ⟨hh, rfl⟩
  | now hn hw r => exact Or.inr ⟨hn, _, _, hw, ⟨r⟩⟩

theorem Accepted.trust {e : MailboxEnvelope} (a : Accepted rt dev v e s s') :
    s'.signal.trust = s.signal.trust := by
  rw [a.after]
  rcases a.cases with ⟨-, hs⟩ | ⟨-, _, _, -, ⟨r⟩⟩
  · rw [hs]
  · rw [r.after]
    exact r.decrypted.trust

/-- Accepting leaves the contacts, the outbox, the claims and the pool alone. -/
theorem Accepted.frame {e : MailboxEnvelope} (a : Accepted rt dev v e s s') :
    ∃ signal inbox pendingAck history historySequence, s' = { s with
      signal := signal
      inbox := inbox
      pendingAck := pendingAck
      history := history
      historySequence := historySequence } := by
  obtain ⟨_, _, message, -, -, hr, -, rfl⟩ := a
  cases hr with
  | before _ => exact ⟨_, _, _, _, _, rfl⟩
  | now _ _ r =>
    obtain ⟨_, _, -, -, rfl⟩ := r
    exact ⟨_, _, _, _, _, rfl⟩

theorem Accepted.contacts {e : MailboxEnvelope} (a : Accepted rt dev v e s s') :
    s'.contacts = s.contacts := by
  obtain ⟨_, _, _, _, _, rfl⟩ := a.frame
  rfl

theorem Committed.trust {input : SendInput} {contact : ContactIdentifiers} {address : Text}
    {verified : Option VerifiedBundle} (c : Committed rt dev v input contact address verified s s') :
    s'.signal.trust = s.signal.trust := by
  have hest : c.established.trust = s.signal.trust := by
    rcases c.session with ⟨-, he⟩ | ⟨b, -, he⟩
    · rw [he]
    · exact (SignalClient.records_kept (SignalClient.establish_ok he).2.2).trust
  have henc : c.signal.trust = c.established.trust := by
    obtain ⟨-, he⟩ | ⟨-, m, σ, hm, -, he⟩ := SignalClient.encrypt_ok c.encrypted
    · rw [he]
    · rw [he]
      exact (SignalClient.records_kept hm).trust
  rw [c.after]
  exact henc.trans hest

/-- **A contact never changes.** -/
theorem Effect.contact_stays {c : ClientCall} (h : Effect rt dev v s c s') {id : Text}
    {contact : ContactIdentifiers} (hc : s.contacts.get id = some contact) :
    s'.contacts.get id = some contact := by
  cases h with
  | accepted a => rw [a.contacts]; exact hc
  | @imported b hold _ =>
    change (s.contacts.insert _ _).get id = _
    rw [SortedMap.get_insert]
    split_ifs with hid
    · subst hid
      rcases hold with hn | hs
      · rw [hn] at hc; cases hc
      · rw [hs] at hc; exact hc
    · exact hc
  | committed m => rw [m.after]; exact hc
  | published _ p =>
    obtain ⟨_, _, _, rfl⟩ := p
    exact hc
  | _ => exact hc

/-- **An approved key never changes.** -/
theorem Effect.trust_stays {c : ClientCall} (h : Effect rt dev v s c s') {address key : Text}
    (ht : s.signal.trust.get address = some key) : s'.signal.trust.get address = some key := by
  cases h with
  | accepted a => rw [a.trust]; exact ht
  | @imported b _ hold =>
    change (s.signal.trust.insert _ _).get address = _
    rw [SortedMap.get_insert]
    split_ifs with ha
    · subst ha
      rcases hold with hn | hs
      · rw [hn] at ht; cases ht
      · rw [hs] at ht; exact ht
    · exact ht
  | committed m => rw [m.trust]; exact ht
  | published _ p =>
    obtain ⟨_, _, _, rfl⟩ := p
    exact ht
  | _ => exact ht

end Echolet
