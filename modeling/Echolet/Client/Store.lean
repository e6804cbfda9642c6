/-
  The encrypted store of a profile: one snapshot of records, by family of keys.

  A field of `ClientStore` is the family of keys named beside it; no two families share a
  key, and texts that only make up a key are the keys of the maps here.  `StoreTx` is an
  operation inside a transaction of the store, `appendHistory` one that others use.

  Native records are byte strings; a public key is written in base64url.
-/
import Echolet.Lib.Program
import Echolet.Relay.PreKeyBundle
import Echolet.Client.Poll

namespace Echolet

/-- What an operation of the client may be rejected with. -/
inductive Failure where
  | persistence
  | profile
  | relay (remoteCode : Option Text)
  | inbound (code : Text)
  | outbound (code : Text)
  | other
  deriving DecidableEq

abbrev Bytes := List UInt8

/-! ## Records -/

/-- The four identifiers of a contact. -/
structure ContactIdentifiers where
  identityId : Text
  deviceId : Text
  devicePubkey : Text
  signalIdentityKey : Text
  deriving DecidableEq

structure SignedKey where
  keyId : ℕ
  publicKey : Text
  signature : Text
  deriving DecidableEq

structure OneTimePreKey where
  keyId : ℕ
  publicKey : Text
  deriving DecidableEq

/-- A prekey bundle as the client signs and reads it. -/
structure WireBundle where
  bundleId : Text
  deviceRecord : DeviceRecord
  createdAtMs : ℤ
  expiresAtMs : ℤ
  registrationId : ℕ
  signalIdentityKey : Text
  signedPreKey : SignedKey
  kyberPreKey : SignedKey
  oneTimePreKey : Option OneTimePreKey
  signature : Text
  deriving DecidableEq

inductive OutboxStatus where
  | pending
  | delivered
  deriving DecidableEq

/-- `Outbox`: what `cli:outbox:` holds for a message id. -/
structure Outbox where
  contentHash : Text
  envelope : MailboxEnvelope
  status : OutboxStatus
  deriving DecidableEq

/-- `OutboxRecord`: what the Signal client keeps of a message it encrypted. -/
structure SignalOutboxRecord where
  messageId : Text
  type : ℕ
  body : Bytes
  contentHash : Text
  deriving DecidableEq

inductive Direction where
  | inbound
  | outbound
  deriving DecidableEq

structure HistoryEntry where
  sequence : ℕ
  contactIdentityId : Text
  messageId : Text
  direction : Direction
  plaintext : Text
  createdAtMs : ℤ
  deriving DecidableEq

/-! ## The store -/

/-- The records of the Signal client. -/
structure SignalStore where
  /-- `device`. -/
  registrationId : ℕ
  /-- `identity`. -/
  identity : Bytes
  /-- `trust:<address>`: the approved identity key. -/
  trust : SortedMap Text Text
  /-- `session:<address>`. -/
  session : SortedMap Text Bytes
  /-- `pre:<id>`, and `pre-current`. -/
  pre : SortedMap ℕ Bytes
  preCurrent : Option ℕ
  /-- `signed:<id>` and `kyber:<id>`. -/
  signed : SortedMap ℕ Bytes
  kyber : SortedMap ℕ Bytes
  /-- `used:<id>:<signed id>:<base key>`. -/
  used : SortedMap Text Unit
  /-- `outbox:<address>:<message id>`. -/
  outbox : SortedMap Text SignalOutboxRecord
  /-- `inbox:<address>:<message id>`: the body. -/
  inbox : SortedMap Text Text

/-- The records of a profile. -/
structure ClientStore where
  signal : SignalStore
  /-- `cli:contact:<identity id>`. -/
  contacts : SortedMap Text ContactIdentifiers
  /-- `cli:claim:<identity id>`. -/
  claims : SortedMap Text Text
  /-- `cli:outbox:<message id>`. -/
  outbox : SortedMap Text Outbox
  /-- `cli:inbox:<address>:<message id>`: the hash of the ciphertext. -/
  inbox : SortedMap Text Text
  /-- `cli:pending-ack:<envelope id>`: the key in the inbox. -/
  pendingAck : SortedMap Text Text
  /-- `cli:history:<sequence>`, and `cli:history-sequence`. -/
  history : SortedMap Text HistoryEntry
  historySequence : Option ℕ
  /-- `cli:publication` for slot 0, `cli:publication:<slot>` for the others. -/
  publication : SortedMap ℕ WireBundle
  /-- `cli:mailbox-rewalk`. -/
  rewalk : RewalkRecord

/-- The store of a profile that was just initialized: it has its own keys, and nothing else. -/
structure ClientStore.Initial (s : ClientStore) : Prop where
  trust : s.signal.trust = .empty
  session : s.signal.session = .empty
  signalOutbox : s.signal.outbox = .empty
  signalInbox : s.signal.inbox = .empty
  contacts : s.contacts = .empty
  claims : s.claims = .empty
  outbox : s.outbox = .empty
  inbox : s.inbox = .empty
  pendingAck : s.pendingAck = .empty
  history : s.history = .empty
  historySequence : s.historySequence = none
  publication : s.publication = .empty
  rewalk : s.rewalk = none

abbrev StoreTx (α : Type) := Tx ClientStore Failure α

/-- An operation of the Signal client inside a transaction of the profile (`within`). -/
def within {α : Type} (x : Tx SignalStore Failure α) : StoreTx α :=
  Tx.zoom ClientStore.signal (fun s signal => { s with signal := signal }) x

/-! ## Names -/

/-- `z.string().uuid()` in lower case, as the protocol package has it. -/
def protocolUUID (t : Text) : Bool :=
  clientMailboxUUID t && t.all fun c => isLowerHex c || c = '-'

/-- The name and the number of the device, as `addressKey` writes them, of
    `signalAddressForDevice`; it refuses ids that are not well formed. -/
def signalAddressForDevice (identityId deviceId : Text) : Option Text :=
  if b64Text identityId 32 none = true ∧ protocolUUID deviceId = true then
    some ("[\"[\\\"".toList ++ identityId ++ "\\\",\\\"".toList ++ deviceId ++ "\\\"]\",1]".toList)
  else none

theorem signalAddressForDevice_eq {i d a : Text} (h : signalAddressForDevice i d = some a) :
    i.length = 43 ∧ d.length = 36 ∧
      "[\"[\\\"".toList ++ i ++ "\\\",\\\"".toList ++ d ++ "\\\"]\",1]".toList = a := by
  unfold signalAddressForDevice at h
  split_ifs at h with hw
  refine ⟨?_, ?_, Option.some.inj h⟩
  · have hb := hw.1
    unfold b64Text at hb
    split at hb
    next bytes hbytes =>
      have hlen := length_decodeBase64 hbytes
      have h32 : bytes.length = 32 := by simpa using hb
      omega
    next => cases hb
  · have hu : clientMailboxUUID d = true := (Bool.and_eq_true_iff.1 hw.2).1
    exact length_uuid hu

theorem signalAddressForDevice_length {i d i' d' a a' : Text}
    (h : signalAddressForDevice i d = some a) (h' : signalAddressForDevice i' d' = some a') :
    a.length = a'.length := by
  obtain ⟨hi, hd, rfl⟩ := signalAddressForDevice_eq h
  obtain ⟨hi', hd', rfl⟩ := signalAddressForDevice_eq h'
  simp only [List.length_append, hi, hd, hi', hd']

/-- An identity and a device have one address, and an address belongs to one device. -/
theorem signalAddressForDevice_inj {i d i' d' a : Text} (h : signalAddressForDevice i d = some a)
    (h' : signalAddressForDevice i' d' = some a) : i = i' ∧ d = d' := by
  obtain ⟨hl, hl', rfl, ha⟩ : i.length = 43 ∧ i'.length = 43 ∧ _ = a ∧ _ = a :=
    ⟨(signalAddressForDevice_eq h).1, (signalAddressForDevice_eq h').1,
      (signalAddressForDevice_eq h).2.2, (signalAddressForDevice_eq h').2.2⟩
  rw [List.append_assoc, List.append_assoc, List.append_assoc, List.append_assoc,
    List.append_assoc, List.append_assoc, List.append_cancel_left_eq] at ha
  obtain ⟨hi, hr⟩ := List.append_inj ha (by rw [hl, hl'])
  rw [List.append_cancel_left_eq, List.append_cancel_right_eq] at hr
  exact ⟨hi.symm, hr.symm⟩

/-- A message of an address. -/
def messageKey (address messageId : Text) : Text := address ++ ':' :: messageId

theorem messageKey_inj {i d i' d' a a' m m' : Text} (h : signalAddressForDevice i d = some a)
    (h' : signalAddressForDevice i' d' = some a') (hk : messageKey a m = messageKey a' m') :
    a = a' ∧ m = m' := by
  obtain ⟨ha, hm⟩ := List.append_inj hk (signalAddressForDevice_length h h')
  exact ⟨ha, (List.cons.inj hm).2⟩

/-- The number of a history entry, with 16 digits. -/
def historyKey (sequence : ℕ) : Text := padded 16 sequence

/-- `Number.isSafeInteger`. -/
def safeInteger (n : ℤ) : Bool := -9007199254740991 ≤ n ∧ n ≤ 9007199254740991

/-! ## The history -/

/-- `entrySchema`. -/
def HistoryEntry.valid (entry : HistoryEntry) : Bool :=
  0 < entry.sequence ∧ safeInteger entry.sequence = true ∧ entry.contactIdentityId ≠ [] ∧
    clientMailboxUUID entry.messageId = true ∧ 0 ≤ entry.createdAtMs ∧
    safeInteger entry.createdAtMs = true

def nextSequence (s : ClientStore) : ℕ := s.historySequence.elim 1 (· + 1)

def appendHistory (contactIdentityId messageId : Text) (direction : Direction) (plaintext : Text)
    (createdAtMs : ℤ) : StoreTx Unit := do
  let sequence ← Tx.read nextSequence
  Tx.ensure (safeInteger sequence = true) .other
  let entry := ⟨sequence, contactIdentityId, messageId, direction, plaintext, createdAtMs⟩
  Tx.ensure (HistoryEntry.valid entry = true) .other
  Tx.modify fun s => { s with
    history := s.history.insert (historyKey sequence) entry
    historySequence := some sequence }

/-- The store with an entry appended. -/
def ClientStore.appended (s : ClientStore) (contactIdentityId messageId : Text)
    (direction : Direction) (plaintext : Text) (createdAtMs : ℤ) : ClientStore :=
  { s with
    history := s.history.insert (historyKey (nextSequence s))
      ⟨nextSequence s, contactIdentityId, messageId, direction, plaintext, createdAtMs⟩
    historySequence := some (nextSequence s) }

theorem appendHistory_ok {s s' : ClientStore} {id mid plaintext : Text} {d : Direction} {time : ℤ}
    {u : Unit} : appendHistory id mid d plaintext time s = (.ok u, s') ↔
      HistoryEntry.valid ⟨nextSequence s, id, mid, d, plaintext, time⟩ = true ∧
        s.appended id mid d plaintext time = s' := by
  unfold appendHistory
  simp only [Tx.bind_ok, Tx.read_ok, Tx.ensure_ok, Tx.modify_ok]
  constructor
  · rintro ⟨n, v, ⟨rfl, rfl⟩, -, _, ⟨-, rfl⟩, -, _, ⟨h, rfl⟩, rfl⟩
    exact ⟨h, rfl⟩
  · rintro ⟨h, rfl⟩
    have hv := h
    simp only [HistoryEntry.valid, decide_eq_true_eq] at hv
    exact ⟨_, _, ⟨rfl, rfl⟩, (), _, ⟨hv.2.1, rfl⟩, (), _, ⟨h, rfl⟩, rfl⟩

end Echolet
