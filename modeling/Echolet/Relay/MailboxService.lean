/-
  The mailbox routes as programs of store operations, any number of them at work at once.

  * a challenge is stored under its id until a minute after it expires; `invalidate` is the
    transaction that consumes it;
  * `MailboxRoutes.createChallenge`, `pollMailbox` and `ackMailbox` are the handlers: between
    two store operations anything may happen, and each operation may fail;
  * `MailboxRelay` is what they share, and `MailboxRelay.exec` answers their operations; its
    `log` is a ghost that records what was done for which request.  The other routes and the
    clock are `background` operations.
-/
import Echolet.Lib.Program
import Echolet.Relay.MailboxHandler
import Echolet.Relay.Transcripts

namespace Echolet

/-! ## Challenges -/

structure MailboxChallenge where
  challengeId : Text
  recipientMailboxId : Text
  deviceId : Text
  nonce : Text
  expiresAtMs : ℤ
  used : Bool
  deriving DecidableEq

abbrev ChallengeStore := Store Text MailboxChallenge

def challengeRetentionGrace : ℕ := 60 * 1000

/-- `challengeStorageTTL` in milliseconds. -/
def challengeStorageTTL (challenge : MailboxChallenge) (now : ℕ) : ℕ :=
  (challenge.expiresAtMs - now).toNat + challengeRetentionGrace

/-- `ChallengeRepository.Save`. -/
def saveChallenge (store : ChallengeStore) (now : ℕ) (challenge : MailboxChallenge) :
    ChallengeStore :=
  store.insert challenge.challengeId
    ⟨challenge, seconds (now + challengeStorageTTL challenge now)⟩

/-- `GetValid`: a stored challenge that is not used and has not expired. -/
def getValidChallenge (store : ChallengeStore) (now : ℕ) (challengeID : Text) :
    Option MailboxChallenge :=
  ((store.peek (seconds now) challengeID).map (·.value)).filter fun challenge =>
    ¬ challenge.used = true ∧ (now : ℤ) ≤ challenge.expiresAtMs

/-- The transaction of `Invalidate`: the challenge it consumes and the store without it; `none`
    stands for `ErrInvalidChallenge`. -/
def invalidateChallenge (store : ChallengeStore) (now : ℕ) (challengeID : Text) :
    Option (MailboxChallenge × ChallengeStore) :=
  (getValidChallenge store now challengeID).map fun challenge =>
    (challenge, store.erase challengeID)

/-! ## Requests -/

structure ChallengeRequest where
  recipientMailboxId : Text
  deviceId : Text
  signature : Text

structure SignedPollRequest extends PollRequest where
  challengeId : Text
  signature : Text

structure AckRequest where
  recipientMailboxId : Text
  deviceId : Text
  envelopeIds : List Text
  signature : Text
  readThrough : Option Text

inductive MailboxRequest where
  | challenge (req : ChallengeRequest)
  | poll (req : SignedPollRequest)
  | ack (req : AckRequest)

/-- What `PollMailbox` checks ahead of the store: the position it reports. -/
def checkPollShape (req : SignedPollRequest) : Except Refusal ℕ :=
  if req.challengeId = [] ∨ req.recipientMailboxId = [] ∨ req.deviceId = [] ∨ req.signature = [] then
    .error ⟨400, "INVALID_SCHEMA",
      "challenge_id, recipient_mailbox_id, device_id and signature are required"⟩
  else if req.batchSize < 0 then
    .error ⟨400, "INVALID_SCHEMA", "batch_size must be a positive integer"⟩
  else decodeReadThroughShape req.readThrough

/-- What `AckMailbox` checks ahead of the store: the position it reports. -/
def checkAckShape (cfg : RelayConfig) (req : AckRequest) : Except Refusal ℕ :=
  if req.recipientMailboxId = [] ∨ req.deviceId = [] ∨ req.signature = [] then
    .error ⟨400, "INVALID_SCHEMA", "recipient_mailbox_id, device_id and signature are required"⟩
  else
    match checkAcked cfg req.envelopeIds with
    | .error refusal => .error refusal
    | .ok () => decodeReadThroughShape req.readThrough

def checkChallengeShape (req : ChallengeRequest) : Except Refusal Unit :=
  if req.recipientMailboxId = [] ∨ req.deviceId = [] ∨ req.signature = [] then
    .error ⟨400, "INVALID_SCHEMA", "recipient_mailbox_id, device_id and signature are required"⟩
  else .ok ()

/-- The challenge was issued for the mailbox and device of the poll. -/
def checkPollChallenge (req : SignedPollRequest) (challenge : MailboxChallenge) :
    Except Refusal Unit :=
  if challenge.recipientMailboxId ≠ req.recipientMailboxId ∨ challenge.deviceId ≠ req.deviceId then
    .error ⟨403, "UNAUTHORIZED_MAILBOX_ACCESS", "challenge does not match mailbox/device"⟩
  else .ok ()

/-- The text a poll signs, under the nonce of its challenge. -/
def pollTranscript (req : SignedPollRequest) (nonce : Text) : Text :=
  match req.readThrough with
  | none => createMailboxChallengeMessage req.challengeId req.recipientMailboxId req.deviceId nonce
  | some readThrough => createMailboxChallengeMessageV2 req.challengeId req.recipientMailboxId
      req.deviceId nonce readThrough

/-- The text an acknowledgement signs. -/
def ackTranscript (req : AckRequest) : Text :=
  match req.readThrough with
  | none => createMailboxAckMessage req.recipientMailboxId req.deviceId req.envelopeIds
  | some readThrough => createMailboxAckMessageV2 req.recipientMailboxId req.deviceId
      req.envelopeIds readThrough

/-- `readThroughWithinIssued`, once the highest issued position is read. -/
def withinIssued (readThrough : Option Text) (position highest : ℕ) : Except Refusal Unit :=
  if readThrough.isSome ∧ position > highest then
    .error ⟨400, "INVALID_SCHEMA", "read_through is above every position issued for this mailbox"⟩
  else .ok ()

theorem readThroughWithinIssued_eq (db : Db) (mailboxID : Text) (readThrough : Option Text)
    (position : ℕ) : readThroughWithinIssued db mailboxID readThrough position =
      withinIssued readThrough position (highestIssuedPosition db mailboxID) := rfl

def authorizationRefusal : ResolveError → Refusal
  | .keyNotFound | .mailboxOwnershipMismatch =>
    ⟨403, "UNAUTHORIZED_MAILBOX_ACCESS", "device is not authorized for mailbox access"⟩
  | .undecodable => ⟨500, "INTERNAL_ERROR", "failed to authorize mailbox access"⟩

def invalidSignature : Refusal := ⟨403, "INVALID_SIGNATURE", "signature verification failed"⟩

def challengeExpired : Refusal := ⟨400, "CHALLENGE_EXPIRED", "invalid or expired challenge"⟩

def internalError (message : String) : Refusal := ⟨500, "INTERNAL_ERROR", message⟩

/-! ## Store operations -/

/-- What the rest of the relay does meanwhile. -/
inductive Background where
  | relay (a : RelayAct)
  | devices (a : DeviceAct)

/-- The operations of the handlers.  `n` is the number the request was accepted under. -/
inductive MailboxCall where
  | accept (req : MailboxRequest)
  | authorize (n : ℕ) (mailboxID deviceID : Text)
  | createChallenge (n : ℕ) (mailboxID deviceID : Text)
  | getValid (n : ℕ) (challengeID : Text)
  | highestIssued (mailboxID : Text)
  | invalidate (n : ℕ) (challengeID : Text)
  | advanceReadMark (n : ℕ) (mailboxID deviceID : Text) (position : ℕ)
  | readMark (mailboxID deviceID : Text)
  | getEnvelopeBatch (n : ℕ) (mailboxID : Text) (limit : ℤ) (cursor : Text)
  | deleteEnvelope (n : ℕ) (mailboxID envelopeID : Text)
  | background (a : Background)

inductive Invalidated where
  | consumed
  | invalid
  | failed
  deriving DecidableEq

inductive Batch where
  | selected (batch : EnvelopeBatch)
  | invalidCursor
  | failed
  deriving DecidableEq

/-- `none` where the store fails. -/
abbrev MailboxCall.Answer : MailboxCall → Type
  | .accept _ => ℕ
  | .authorize _ _ _ => Except ResolveError DeviceRecord
  | .createChallenge _ _ _ | .getValid _ _ => Option MailboxChallenge
  | .highestIssued _ | .readMark _ _ => Option ℕ
  | .invalidate _ _ => Invalidated
  | .getEnvelopeBatch _ _ _ _ => Batch
  | .advanceReadMark _ _ _ _ | .deleteEnvelope _ _ _ => Option Unit
  | .background _ => Unit

inductive MailboxResponse where
  | challenge (challenge : MailboxChallenge)
  | envelopes (batch : EnvelopeBatch)
  | acked (count : ℕ)
  | none
  deriving DecidableEq

/-! ## The handlers -/

namespace MailboxRoutes

abbrev Route (α : Type) := Program MailboxCall MailboxCall.Answer Refusal α

def perform (c : MailboxCall) : Route c.Answer := Program.perform c

/-- The value, or an error response. -/
def need {α : Type} (a : Option α) (refusal : Refusal) : Route α :=
  match a with
  | some a => pure a
  | none => throw refusal

section
variable (ed25519 : List ℕ → Text → List ℕ → Bool) (cfg : RelayConfig)

/-- `authorizeMailboxDevice`, or its error response. -/
def authorize (n : ℕ) (mailboxID deviceID : Text) : Route DeviceRecord := do
  match ← perform (.authorize n mailboxID deviceID) with
  | .ok record => pure record
  | .error e => throw (authorizationRefusal e)

def verifySignature (transcript signature : Text) (record : DeviceRecord) : Route Unit :=
  if verifyMessageSignature ed25519 transcript signature record.devicePubKey = true then pure ()
  else throw invalidSignature

/-- `CreateChallenge`. -/
def createChallenge (req : ChallengeRequest) : Route MailboxResponse := do
  let n ← perform (.accept (.challenge req))
  .done (checkChallengeShape req)
  let record ← authorize n req.recipientMailboxId req.deviceId
  verifySignature ed25519
    (createMailboxCreateChallengeMessage req.recipientMailboxId req.deviceId) req.signature record
  let challenge ← perform (.createChallenge n req.recipientMailboxId req.deviceId)
  let challenge ← need challenge (internalError "failed to create challenge")
  return .challenge challenge

/-- `readThroughWithinIssued`. -/
def withinIssuedOf (mailboxID : Text) (readThrough : Option Text) (position : ℕ) :
    Route Unit := do
  if readThrough.isSome = true then
    let highest ← perform (.highestIssued mailboxID)
    let highest ← need highest (internalError "failed to evaluate the read position")
    .done (withinIssued readThrough position highest)

/-- Record a reported position. -/
def recordPosition (n : ℕ) (mailboxID deviceID : Text) (readThrough : Option Text)
    (position : ℕ) : Route Unit := do
  if readThrough.isSome = true then
    let marked ← perform (.advanceReadMark n mailboxID deviceID position)
    need marked (internalError "failed to record the read position")

/-- `Invalidate`, or its error response. -/
def consume (n : ℕ) (challengeID : Text) : Route Unit := do
  match ← perform (.invalidate n challengeID) with
  | .consumed => pure ()
  | .invalid => throw challengeExpired
  | .failed => throw (internalError "failed to invalidate challenge")

/-- The cursor a poll resumes at: its own, or the stored mark. -/
def resumeCursor (req : SignedPollRequest) : Route Text := do
  if req.cursor = [] then
    let mark ← perform (.readMark req.recipientMailboxId req.deviceId)
    let mark ← need mark (internalError "failed to read the stored read position")
    return if 0 < mark then encodeMailboxCursor mark else []
  else return req.cursor

def selectBatch (n : ℕ) (mailboxID : Text) (limit : ℤ) (cursor : Text) : Route EnvelopeBatch := do
  match ← perform (.getEnvelopeBatch n mailboxID limit cursor) with
  | .selected batch => pure batch
  | .invalidCursor => throw ⟨400, "INVALID_SCHEMA",
      "cursor is not a continuation token issued by this relay"⟩
  | .failed => throw (internalError "failed to get envelopes")

/-- `PollMailbox`. -/
def pollMailbox (req : SignedPollRequest) : Route MailboxResponse := do
  let n ← perform (.accept (.poll req))
  let position ← .done (checkPollShape req)
  let challenge ← perform (.getValid n req.challengeId)
  let challenge ← need challenge challengeExpired
  .done (checkPollChallenge req challenge)
  let record ← authorize n req.recipientMailboxId req.deviceId
  verifySignature ed25519 (pollTranscript req challenge.nonce) req.signature record
  withinIssuedOf req.recipientMailboxId req.readThrough position
  consume n req.challengeId
  recordPosition n req.recipientMailboxId req.deviceId req.readThrough position
  let cursor ← resumeCursor req
  let batch ← selectBatch n challenge.recipientMailboxId (pollBatchSize cfg req.batchSize) cursor
  return .envelopes batch

/-- The loop of `AckEnvelopes`. -/
def deleteEnvelopes (n : ℕ) (mailboxID : Text) : List Text → Route Unit
  | [] => return
  | id :: ids => do
    let deleted ← perform (.deleteEnvelope n mailboxID id)
    need deleted (internalError "failed to ack envelopes")
    deleteEnvelopes n mailboxID ids

/-- `AckMailbox`. -/
def ackMailbox (req : AckRequest) : Route MailboxResponse := do
  let n ← perform (.accept (.ack req))
  let position ← .done (checkAckShape cfg req)
  let record ← authorize n req.recipientMailboxId req.deviceId
  verifySignature ed25519 (ackTranscript req) req.signature record
  withinIssuedOf req.recipientMailboxId req.readThrough position
  deleteEnvelopes n req.recipientMailboxId req.envelopeIds
  recordPosition n req.recipientMailboxId req.deviceId req.readThrough position
  return .acked req.envelopeIds.length

/-- What a process of the relay does: serve a request, or something in the background. -/
def serve : MailboxRequest ⊕ Background → Route MailboxResponse
  | .inl (.challenge req) => createChallenge ed25519 req
  | .inl (.poll req) => pollMailbox ed25519 cfg req
  | .inl (.ack req) => ackMailbox ed25519 cfg req
  | .inr a => do perform (.background a); return .none

end

end MailboxRoutes

/-! ## The shared state -/

/-- What was done, with the number of the request it was done for. -/
inductive MailboxEvent where
  | accepted (n : ℕ) (req : MailboxRequest)
  | resolved (n : ℕ) (mailboxID deviceID : Text) (record : DeviceRecord)
  | issued (n : ℕ) (challenge : MailboxChallenge)
  | found (n : ℕ) (challenge : MailboxChallenge) (now : ℕ)
  | consumed (n : ℕ) (challenge : MailboxChallenge) (now : ℕ)
  | marked (n : ℕ) (mailboxID deviceID : Text) (position : ℕ)
  | returned (n : ℕ) (mailboxID : Text) (batch : EnvelopeBatch)
  | deleted (n : ℕ) (mailboxID envelopeID : Text)

/-- The ids of the challenges that were issued. -/
def issuedIds (log : List MailboxEvent) : List Text := log.filterMap fun event => match event with
  | .issued _ challenge => some challenge.challengeId
  | _ => none

structure MailboxRelay where
  relay : Relay
  devices : DeviceState
  challenges : ChallengeStore
  /-- Ghost: the requests accepted so far. -/
  accepted : ℕ
  /-- Ghost: the latest event first. -/
  log : List MailboxEvent

/-- No challenge is stored and no request was made. -/
def MailboxRelay.init (relay : Relay) (devices : DeviceState) : MailboxRelay :=
  ⟨relay, devices, .empty, 0, []⟩

/-- What an operation depends on besides the state: whether the store fails, or finds a conflict,
    and the random texts of a new challenge. -/
structure Occasion where
  failed : Bool
  conflict : Bool
  uuid : Text
  nonce : Text
  deriving DecidableEq

namespace MailboxRelay

def logged (w : MailboxRelay) (event : MailboxEvent) : MailboxRelay :=
  { w with log := event :: w.log }

/-- The background acts that are none of the mailbox routes' own. -/
def ownsAct : RelayAct → Bool
  | .delete _ _ | .advanceReadMark _ _ _ => true
  | _ => false

section
variable (cfg : RelayConfig) (challengeTTLSeconds : ℤ)

/-- `CreateChallenge` of the service: a fresh challenge for a mailbox and device. -/
def newChallenge (w : MailboxRelay) (v : Occasion) (mailboxID deviceID : Text) :
    MailboxChallenge :=
  ⟨v.uuid, mailboxID, deviceID, v.nonce, w.relay.now + challengeTTLSeconds * 1000, false⟩

/-- How an operation is answered; a background act that is not enabled has to wait. -/
def background (w : MailboxRelay) : Background → Option MailboxRelay
  | .relay a =>
    if ownsAct a = true then none
    else (Relay.step cfg w.relay a).map fun relay => { w with relay := relay }
  | .devices a =>
    (DeviceState.step deriveMailboxID w.devices a).map fun devices => { w with devices := devices }

def exec : (c : MailboxCall) → Occasion → MailboxRelay →
    Option (Except Refusal c.Answer × MailboxRelay)
  | .accept req, _, w => some (.ok w.accepted,
      { w.logged (.accepted w.accepted req) with accepted := w.accepted + 1 })
  | .authorize n m d, v, w =>
    if v.failed = true then some (.ok (.error .undecodable), w)
    else
      match authorizeMailboxDevice deriveMailboxID w.devices.db m d with
      | .ok record => some (.ok (.ok record), w.logged (.resolved n m d record))
      | .error e => some (.ok (.error e), w)
  | .createChallenge n m d, v, w =>
    if v.failed = true then some (.ok none, w)
    else
      let challenge := newChallenge challengeTTLSeconds w v m d
      some (.ok (some challenge), { w.logged (.issued n challenge) with
        challenges := saveChallenge w.challenges w.relay.now challenge })
  | .getValid n id, v, w =>
    if v.failed = true then some (.ok none, w)
    else
      match getValidChallenge w.challenges w.relay.now id with
      | some challenge => some (.ok (some challenge), w.logged (.found n challenge w.relay.now))
      | none => some (.ok none, w)
  | .highestIssued m, v, w =>
    some (.ok (if v.failed = true then none else some (highestIssuedPosition w.relay.db m)), w)
  | .invalidate n id, v, w =>
    if v.failed = true then some (.ok .failed, w)
    else if v.conflict = true then some (.ok .invalid, w)
    else
      match invalidateChallenge w.challenges w.relay.now id with
      | some (challenge, challenges) => some (.ok .consumed,
          { w.logged (.consumed n challenge w.relay.now) with challenges := challenges })
      | none => some (.ok .invalid, w)
  | .advanceReadMark n m d position, v, w =>
    if v.failed = true then some (.ok none, w)
    else some (.ok (some ()), { w.logged (.marked n m d position) with
      relay := { w.relay with db := advanceReadMark w.relay.db w.relay.now m d position } })
  | .readMark m d, v, w =>
    some (.ok (if v.failed = true then none else some (readMark w.relay.db w.relay.now m d)), w)
  | .getEnvelopeBatch n m limit cursor, v, w =>
    if v.failed = true then some (.ok .failed, w)
    else
      match decodeMailboxCursor cursor with
      | none => some (.ok .invalidCursor, w)
      | some resumeAfter =>
        if limit ≤ 0 then
          some (.ok (.selected ⟨[], false, []⟩), w.logged (.returned n m ⟨[], false, []⟩))
        else if w.relay.ordered m = true then
          let batch := readBatch w.relay.db w.relay.now m limit pollEnvelopeByteBudget resumeAfter
          some (.ok (.selected batch), w.logged (.returned n m batch))
        else none
  | .deleteEnvelope n m id, v, w =>
    if v.failed = true then some (.ok none, w)
    else some (.ok (some ()), { w.logged (.deleted n m id) with
      relay := { w.relay with db := deleteEnvelope w.relay.db m id } })
  | .background a, _, w => (w.background cfg a).map fun w => (.ok (), w)

/-- The ids of challenges are random UUIDs: each has the shape of one, and is new. -/
def Fresh : MailboxCall → Occasion → MailboxRelay → Prop
  | .createChallenge _ _ _, v, w => clientMailboxUUID v.uuid = true ∧ v.uuid ∉ issuedIds w.log
  | _, _, _ => True

instance (c : MailboxCall) (v : Occasion) (w : MailboxRelay) : Decidable (Fresh c v w) := by
  cases c <;> simp only [Fresh] <;> infer_instance

end

end MailboxRelay

/-- The processes of the relay over what they share. -/
abbrev MailboxProcesses := Pool MailboxCall MailboxCall.Answer Refusal MailboxResponse MailboxRelay

end Echolet
