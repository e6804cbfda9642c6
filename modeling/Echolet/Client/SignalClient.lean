/-
  The Signal client of a profile, over the records it keeps.

  * `RecordsCall` are the callbacks through which libsignal reads and writes the records,
    `Records.answer` what they do; a `Libsignal` is any library whose operations are programs
    of these callbacks;
  * the operations of the client: `approveRemote`, `establish`, `encrypt`, `retry`, `decrypt`,
    `publicBundle` and `rotateOneTimePreKey`;
  * no callback writes the approved keys or the messages received and sent, so no operation of
    the library does (`Records.run_kept`).

  An address is the text `addressKey` writes for it.
-/
import Echolet.Client.Store

namespace Echolet

/-! ## The callbacks -/

inductive RecordsCall where
  | getIdentityKey
  | getLocalRegistrationId
  | getIdentity (address : Text)
  | isTrustedIdentity (address key : Text)
  | saveIdentity (address key : Text)
  | getSession (address : Text)
  | saveSession (address : Text) (record : Bytes)
  | getPreKey (id : ℕ)
  | savePreKey (id : ℕ) (record : Bytes)
  | removePreKey (id : ℕ)
  | getSignedPreKey (id : ℕ)
  | saveSignedPreKey (id : ℕ) (record : Bytes)
  | getKyberPreKey (id : ℕ)
  | saveKyberPreKey (id : ℕ) (record : Bytes)
  | markKyberPreKeyUsed (id signedId : ℕ) (baseKey : Text)

abbrev RecordsCall.Answer : RecordsCall → Type
  | .getIdentityKey | .getPreKey _ | .getSignedPreKey _ | .getKyberPreKey _ => Bytes
  | .getLocalRegistrationId => ℕ
  | .getIdentity _ => Option Text
  | .isTrustedIdentity _ _ => Bool
  | .getSession _ => Option Bytes
  | _ => Unit

abbrev SignalTx (α : Type) := Tx SignalStore Failure α

def usedKey (id signedId : ℕ) (baseKey : Text) : Text :=
  decimal id ++ ':' :: decimal signedId ++ ':' :: baseKey

/-- `isTrustedIdentity`: the key is the approved one. -/
def SignalStore.isTrusted (s : SignalStore) (address key : Text) : Bool :=
  s.trust.get address = some key

/-- The callbacks of `Records`. -/
def Records.answer : (c : RecordsCall) → SignalTx c.Answer
  | .getIdentityKey => Tx.read fun s => s.identity
  | .getLocalRegistrationId => Tx.read fun s => s.registrationId
  | .getIdentity address => Tx.read fun s => s.trust.get address
  | .isTrustedIdentity address key => Tx.read fun s => s.isTrusted address key
  | .saveIdentity address key => do
    let trusted ← Tx.read fun s => s.isTrusted address key
    Tx.ensure (trusted = true) .other
  | .getSession address => Tx.read fun s => s.session.get address
  | .saveSession address record =>
    Tx.modify fun s => { s with session := s.session.insert address record }
  | .getPreKey id => do Tx.need (← Tx.read fun s => s.pre.get id) .other
  | .savePreKey id record => Tx.modify fun s => { s with pre := s.pre.insert id record }
  | .removePreKey id => Tx.modify fun s => { s with pre := s.pre.erase id }
  | .getSignedPreKey id => do Tx.need (← Tx.read fun s => s.signed.get id) .other
  | .saveSignedPreKey id record => Tx.modify fun s => { s with signed := s.signed.insert id record }
  | .getKyberPreKey id => do Tx.need (← Tx.read fun s => s.kyber.get id) .other
  | .saveKyberPreKey id record => Tx.modify fun s => { s with kyber := s.kyber.insert id record }
  | .markKyberPreKeyUsed id signedId baseKey => do
    let used ← Tx.read fun s => s.used.get (usedKey id signedId baseKey)
    Tx.ensure (used = none) .other
    Tx.modify fun s => { s with used := s.used.insert (usedKey id signedId baseKey) () }

/-- An operation of libsignal, by the callbacks it makes. -/
abbrev RecordsProgram (α : Type) := Program RecordsCall RecordsCall.Answer Failure α

def callback (c : RecordsCall) : RecordsProgram c.Answer := Program.perform c

/-- The operations the client takes from libsignal; `entropy` is what they draw. -/
structure Libsignal where
  decryptPreKey (body : Bytes) (sender : Text) (entropy : ℕ) : RecordsProgram Bytes
  decrypt (body : Bytes) (sender : Text) (entropy : ℕ) : RecordsProgram Bytes
  processPreKeyBundle (bundle : WireBundle) (remote : Text) (entropy : ℕ) : RecordsProgram Unit
  encrypt (payload : Bytes) (remote : Text) (entropy : ℕ) : RecordsProgram (ℕ × Bytes)
  /-- A fresh record for a prekey, and the public parts of stored records. -/
  generatePreKey (id entropy : ℕ) : Bytes
  preKeyPublic : Bytes → Option OneTimePreKey
  signedPublic : Bytes → Option SignedKey
  identityPublic : Bytes → Text

/-- `publicBundle`: what a bundle is signed around. -/
structure PublicBundle where
  registrationId : ℕ
  identityKey : Text
  signedPreKey : SignedKey
  kyberPreKey : SignedKey
  preKey : Option OneTimePreKey

/-- Hashes, and the texts and bytes that messages are written in. -/
structure Encoding where
  sha256 : Bytes → Text
  utf8 : Text → Bytes
  /-- `JSON.stringify([recipient, messageId, plaintext])`. -/
  content (recipientIdentityId messageId plaintext : Text) : Bytes
  /-- The payload of a message, and its id and its body where these are texts. -/
  payload (messageId body : Text) : Bytes
  readPayload : Bytes → Option (Option Text × Option Text)
  /-- The ciphertext of an envelope, and the type and the body in it. -/
  wrap (type : ℕ) (body : Bytes) : Text
  unwrap : Text → Option (ℕ × Bytes)

/-! ## The operations of the client -/

namespace SignalClient

variable (lib : Libsignal) (enc : Encoding)

def records {α : Type} (p : RecordsProgram α) : SignalTx α := p.run Records.answer

def assertMessageId (id : Text) : SignalTx Unit :=
  Tx.ensure (id ≠ [] ∧ utf16Length id ≤ 256) .other

def approveRemote (address key : Text) : SignalTx Unit := do
  let old ← Tx.read fun s => s.trust.get address
  Tx.ensure (old.all (· = key) = true) .other
  Tx.modify fun s => { s with trust := s.trust.insert address key }

def establish (address : Text) (bundle : WireBundle) (entropy : ℕ) : SignalTx Unit := do
  let trusted ← Tx.read fun s => s.isTrusted address bundle.signalIdentityKey
  Tx.ensure (trusted = true) .other
  let session ← Tx.read fun s => s.session.get address
  Tx.ensure (session = none) .other
  records (lib.processPreKeyBundle bundle address entropy)

def encrypt (address messageId plaintext : Text) (entropy : ℕ) : SignalTx SignalOutboxRecord := do
  assertMessageId messageId
  Tx.ensure (utf8Length plaintext ≤ 64 * 1024) .other
  let key := messageKey address messageId
  let contentHash := enc.sha256 (enc.payload messageId plaintext)
  let identity ← Tx.read fun s => s.trust.get address
  Tx.ensure (identity ≠ none) .other
  let previous ← Tx.read fun s => s.outbox.get key
  match previous with
  | some record => do
    Tx.ensure (record.contentHash = contentHash) .other
    return record
  | none => do
    let message ← records (lib.encrypt (enc.payload messageId plaintext) address entropy)
    let record := ⟨messageId, message.1, message.2, contentHash⟩
    Tx.modify fun s => { s with outbox := s.outbox.insert key record }
    return record

def retry (address messageId : Text) : SignalTx SignalOutboxRecord := do
  assertMessageId messageId
  let identity ← Tx.read fun s => s.trust.get address
  Tx.ensure (identity ≠ none) .other
  Tx.need (← Tx.read fun s => s.outbox.get (messageKey address messageId)) .other

def preKeyType : ℕ := 3

def whisperType : ℕ := 2

/-- The plaintext of a message, by the operation for its type. -/
def decryptBody (address : Text) (type : ℕ) (body : Bytes) (entropy : ℕ) : SignalTx Bytes :=
  if type = preKeyType then records (lib.decryptPreKey body address entropy)
  else if type = whisperType then records (lib.decrypt body address entropy)
  else throw .other

def decrypt (address messageId : Text) (type : ℕ) (body : Bytes) (entropy : ℕ) : SignalTx Text := do
  assertMessageId messageId
  Tx.ensure (body.length ≤ 1024 * 1024) .other
  let key := messageKey address messageId
  let received ← Tx.read fun s => s.inbox.get key
  Tx.ensure (received = none) .other
  let plaintext ← decryptBody lib address type body entropy
  let payload ← Tx.need (enc.readPayload plaintext) .other
  Tx.ensure (payload.1 = some messageId) .other
  let text ← Tx.need payload.2 .other
  Tx.modify fun s => { s with inbox := s.inbox.insert key text }
  return text

def maxOneTimePreKeyId : ℕ := 0xffffff

def currentOneTimePreKeyId : SignalTx ℕ := do
  let id ← Tx.read fun s => s.preCurrent.getD 1
  Tx.ensure (1 ≤ id ∧ id ≤ maxOneTimePreKeyId) .other
  return id

/-- The prekey in a record, where there is a record. -/
def readPreKey : Option Bytes → SignalTx (Option OneTimePreKey)
  | none => return none
  | some bytes => do
    let key ← Tx.need (lib.preKeyPublic bytes) .other
    return some key

def publicBundle : SignalTx PublicBundle := do
  let identity ← records (callback .getIdentityKey)
  let signed ← records (callback (.getSignedPreKey 2))
  let signed ← Tx.need (lib.signedPublic signed) .other
  let kyber ← records (callback (.getKyberPreKey 3))
  let kyber ← Tx.need (lib.signedPublic kyber) .other
  let current ← currentOneTimePreKeyId
  let bytes ← Tx.read fun s => s.pre.get current
  let pre ← readPreKey lib bytes
  let registrationId ← records (callback .getLocalRegistrationId)
  return ⟨registrationId, lib.identityPublic identity, signed, kyber, pre⟩

def rotateOneTimePreKey (entropy : ℕ) : SignalTx ℕ := do
  let current ← currentOneTimePreKeyId
  let allocated ← Tx.read fun s => s.pre.entries.map (·.1)
  let next := (allocated.filter (1 ≤ ·)).foldl max current + 1
  Tx.ensure (next ≤ maxOneTimePreKeyId) .other
  Tx.modify fun s => { s with
    pre := s.pre.insert next (lib.generatePreKey next entropy)
    preCurrent := some next }
  return next

end SignalClient

/-! ## What the library leaves alone -/

/-- The approved keys and the messages received and sent are the same. -/
structure SignalStore.Kept (s s' : SignalStore) : Prop where
  trust : s'.trust = s.trust
  outbox : s'.outbox = s.outbox
  inbox : s'.inbox = s.inbox

theorem SignalStore.Kept.refl (s : SignalStore) : s.Kept s := ⟨rfl, rfl, rfl⟩

theorem SignalStore.Kept.trans {s s' s'' : SignalStore} (h : s.Kept s') (h' : s'.Kept s'') :
    s.Kept s'' :=
  ⟨h'.trust.trans h.trust, h'.outbox.trans h.outbox, h'.inbox.trans h.inbox⟩

theorem Records.answer_kept (c : RecordsCall) (s : SignalStore) :
    s.Kept (Records.answer c s).2 := by
  have hneed : ∀ {α : Type} (f : SignalStore → Option α),
      ((do Tx.need (← Tx.read f) .other : SignalTx α) s).2 = s := by
    intro α f
    change (Tx.bind (Tx.read f) _ s).2 = s
    simp only [Tx.bind, Tx.read]
    cases f s <;> rfl
  cases c with
  | getPreKey id => rw [Records.answer, hneed]; exact .refl s
  | getSignedPreKey id => rw [Records.answer, hneed]; exact .refl s
  | getKyberPreKey id => rw [Records.answer, hneed]; exact .refl s
  | saveIdentity address key =>
    change s.Kept (Tx.bind _ _ s).2
    simp only [Tx.bind, Tx.read, Tx.ensure]
    split <;> exact .refl s
  | markKyberPreKeyUsed id signedId baseKey =>
    change s.Kept (Tx.bind _ _ s).2
    simp only [Tx.bind]
    by_cases hu : s.used.get (usedKey id signedId baseKey) = none
    · rw [Tx.ensure, if_pos hu]; exact ⟨rfl, rfl, rfl⟩
    · rw [Tx.ensure, if_neg hu]; exact .refl s
  | _ => exact ⟨rfl, rfl, rfl⟩

/-- **No operation of the library** writes an approved key, or a message received or sent. -/
theorem Records.run_kept {α : Type} (p : RecordsProgram α) (s : SignalStore) :
    s.Kept (SignalClient.records p s).2 :=
  Program.run_invariant (I := s.Kept) (fun c _ h => h.trans (Records.answer_kept c _)) p (.refl s)

end Echolet
