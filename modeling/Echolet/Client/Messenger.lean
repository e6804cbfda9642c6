/-
  The commands of the client, as programs of transactions and requests.

  * `ClientCall` lists what a command does outside its own variables: a transaction of the
    profile, a request to the relay, a look at the clock, a question to the operator;
  * `poll`, `send`, `retryPending`, `publish` and `importContactCard` are the commands;
  * `Ledger` is the store with the calls performed on it, and `perform` how a call is answered:
    a transaction commits, rolls back or is refused by the store, and the relay answers what
    it likes.
-/
import Echolet.Client.Profile

namespace Echolet

inductive ClientCall where
  -- transactions of the profile
  | mailboxAuthorization
  | pendingMailboxRewalk
  | keepMailboxRewalk (position : Text)
  | finishMailboxRewalk
  | acceptOne (e : MailboxEnvelope)
  | pendingAcks
  | forgetAcks (ids : List Text)
  | importContact (verified : VerifiedBundle)
  | listContacts
  | hasPublication
  | readOutbox (messageId : Text)
  | claimIdentifier (contact : ContactIdentifiers) (address : Text)
  | replaceClaim (contact : ContactIdentifiers)
  | commitMessage (input : SendInput) (contact : ContactIdentifiers) (address : Text)
      (verified : Option VerifiedBundle)
  | checkRetry (record : Outbox)
  | setDelivered (record : Outbox)
  | pendingOutbox
  | restorePublicationPool
  | replacePublicationSlot (slot : ℕ)
  -- requests to the relay
  | createChallenge
  | pollMailbox (request : PollRequest)
  | ackMailbox (ids : List Text)
  | claimBundle (claimId identityId deviceId : Text)
  | sendEnvelope (e : MailboxEnvelope)
  | publishBundle (bundle : WireBundle)
  -- the clock and the operator
  | clock
  | confirm (identifiers : ContactIdentifiers)

/-- A page of the mailbox as the client gets it; the positions are not in the answer, and the
    client does not read them. -/
structure MailboxPage where
  envelopes : List (ℕ × MailboxEnvelope)
  nextCursor : Option Text

abbrev ClientCall.Answer : ClientCall → Type
  | .pendingMailboxRewalk => Option Text
  | .pendingAcks => List Text
  | .importContact _ | .hasPublication | .publishBundle _ | .confirm _ => Bool
  | .listContacts => List ContactIdentifiers
  | .readOutbox _ => Option Outbox
  | .claimIdentifier _ _ => Option Text
  | .replaceClaim _ => Text
  | .commitMessage _ _ _ _ => Outbox × Bool
  | .pendingOutbox => List Outbox
  | .restorePublicationPool => List WireBundle × ℕ
  | .replacePublicationSlot _ | .claimBundle _ _ _ => WireBundle
  | .createChallenge | .clock => ℤ
  | .pollMailbox _ => MailboxPage
  | _ => Unit

abbrev Messenger (α : Type) := Program ClientCall ClientCall.Answer Failure α

def perform (c : ClientCall) : Messenger c.Answer := Program.perform c

/-! ## The inbox -/

section
variable (dev : Device)

/-- The last step of a messenger: an error of no known kind gets its code. -/
def serial {α : Type} (known : Failure → Bool) (code : Failure) (p : Messenger α) : Messenger α :=
  tryCatch p fun e => throw (if known e = true then e else code)

def knownInbound : Failure → Bool
  | .inbound _ | .relay _ | .persistence => true
  | _ => false

def isNotAnEnvelopeVerdict : Failure → Bool
  | .persistence | .relay _ | .profile => true
  | _ => false

/-- The code of a rejected envelope. -/
def rejectionCode : Failure → Text
  | .inbound code => code
  | _ => "INBOUND_REJECTED".toList

/-- `page`: a challenge, then the page for it. -/
def readPage (request : PollRequest) : Messenger MailboxPage := do
  perform .mailboxAuthorization
  let expiresAtMs ← perform .createChallenge
  let now ← perform .clock
  if expiresAtMs ≤ now then throw (.inbound "CHALLENGE_EXPIRED".toList)
  perform .mailboxAuthorization
  perform (.pollMailbox request)

/-- The verdict about one envelope, or the failure that is none. -/
def judge (e : MailboxEnvelope) : Messenger Verdict :=
  tryCatch (do perform (.acceptOne e); return Verdict.accepted) fun error =>
    if isNotAnEnvelopeVerdict error = true then throw error
    else return Verdict.rejected (rejectionCode error)

/-- The loop of `accept` over the envelopes of a page. -/
def accept : List (ℕ × MailboxEnvelope) → Messenger (List Judgement)
  | [] => return []
  | x :: xs => do
    let verdict ← judge x.2
    let page ← accept xs
    return (x, verdict) :: page

/-- A re-walk in flight advances with the page, and ends where the relay reports no more. -/
def advanceRewalk (walk : PollWalk) (nextCursor : Option Text) : Messenger Unit :=
  match walk.rewalk, nextCursor with
  | none, _ => return ()
  | some _, none => perform .finishMailboxRewalk
  | some _, some position => perform (.keepMailboxRewalk position)

/-- The page loop of `poll`, with a number of pages left. -/
def walkPages : ℕ → PollWalk → Messenger PollWalk
  | 0, walk => return walk
  | n + 1, walk => do
    let batch ← readPage (walk.request dev)
    let page ← accept batch.envelopes
    advanceRewalk walk batch.nextCursor
    let walk := (walk.judged page batch.nextCursor).recorded batch.nextCursor
    match walk.next page with
    | none => return walk
    | some walk => walkPages n walk

/-- The loop of `ackPending`: chunks of 100 ids, each forgotten once it was answered. -/
def ackChunks : ℕ → List Text → Messenger Unit
  | 0, _ => return ()
  | n + 1, ids =>
    if ids = [] then return ()
    else do
      perform .mailboxAuthorization
      perform (.ackMailbox (ids.take 100))
      perform (.forgetAcks (ids.take 100))
      ackChunks n (ids.drop 100)

def ackPending : Messenger ℕ := do
  let ids ← perform .pendingAcks
  ackChunks ids.length ids
  return ids.length

structure PollResult where
  received : ℕ
  more : Bool
  rejected : List (Text × Text)
  deriving DecidableEq

def pollOwned : Messenger PollResult := do
  let rewalk ← perform .pendingMailboxRewalk
  let walk ← walkPages dev maxPollPagesPerPoll (.start rewalk)
  -- nothing survived: the first rejection is raised, and nothing acknowledged
  match walk.rejected with
  | first :: _ =>
    if walk.received = 0 then throw (.inbound first.2)
    else do
      let _ ← ackPending
      return ⟨walk.received, walk.more, walk.rejected⟩
  | [] => do
    let _ ← ackPending
    return ⟨walk.received, walk.more, walk.rejected⟩

def poll : Messenger PollResult :=
  serial knownInbound (.inbound "INBOUND_REJECTED".toList) (pollOwned dev)

def retryPendingAcks : Messenger ℕ :=
  serial knownInbound (.inbound "INBOUND_REJECTED".toList) ackPending

end

/-! ## The outbox -/

section
variable (rt : Runtime)

def knownOutbound : Failure → Bool
  | .relay _ | .outbound _ | .persistence => true
  | _ => false

def outboundRejected : Failure := .outbound "OUTBOUND_REJECTED".toList

structure Receipt where
  messageId : Text
  envelopeId : Text
  claimReplaced : Bool
  deriving DecidableEq

def receipt (record : Outbox) : Receipt :=
  ⟨record.envelope.messageId, record.envelope.envelopeId, false⟩

def deliver (record : Outbox) : Messenger Receipt :=
  if record.status = .delivered then return receipt record
  else do
    perform (.checkRetry record)
    perform (.sendEnvelope record.envelope)
    perform (.setDelivered record)
    return receipt record

def settle (record : Outbox) (hash : Text) : Messenger Receipt :=
  if record.contentHash ≠ hash then throw (.outbound "MESSAGE_ID_CONFLICT".toList)
  else deliver record

/-- One turn of the loop of `claimFirstContact`; a claimed bundle outside its window is none. -/
def claimBundle (contact : ContactIdentifiers) (claimId : Text) :
    Messenger (Option VerifiedBundle) := do
  let bundle ← perform (.claimBundle claimId contact.identityId contact.deviceId)
  let now ← perform .clock
  if bundle.oneTimePreKey = none ∨ bundle.identifiers ≠ contact then
    throw (.outbound "CONTACT_PIN_MISMATCH".toList)
  else if now < bundle.createdAtMs ∨ bundle.expiresAtMs ≤ now then return none
  else
    match importVerifiedSignalBundleV2 rt bundle contact.identityId contact.deviceId now with
    | some verified => return some verified
    | none => throw (.outbound "CONTACT_PIN_MISMATCH".toList)

/-- `claimFirstContact`: a dead claim is replaced once. -/
def claimFirstContact (contact : ContactIdentifiers) (claimId : Text) :
    Messenger (VerifiedBundle × Bool) := do
  match ← claimBundle rt contact claimId with
  | some verified => return (verified, false)
  | none => do
    let claimId ← perform (.replaceClaim contact)
    match ← claimBundle rt contact claimId with
    | some verified => return (verified, true)
    | none => throw (.outbound "PREKEY_BUNDLE_EXPIRED".toList)

/-- The bundle for a first contact, where the transaction before asked for a claim. -/
def claimIfNeeded (contact : ContactIdentifiers) :
    Option Text → Messenger (Option (VerifiedBundle × Bool))
  | none => return none
  | some claimId => do
    let claimed ← claimFirstContact rt contact claimId
    return some claimed

/-- Encrypt and deliver a message to a contact of this address. -/
def sendTo (input : SendInput) (contact : ContactIdentifiers) (address : Text) :
    Messenger Receipt := do
  let claimId ← perform (.claimIdentifier contact address)
  let claimed ← claimIfNeeded rt contact claimId
  let outcome ← perform (.commitMessage input contact address (claimed.map (·.1)))
  let delivered ←
    if outcome.2 = true then settle outcome.1 (contentHash rt input) else deliver outcome.1
  return { delivered with claimReplaced := claimed.any (·.2) }

def sendOwned (input : SendInput) : Messenger Receipt := do
  match ← perform (.readOutbox input.messageId) with
  | some record => settle record (contentHash rt input)
  | none => do
    let contacts ← perform .listContacts
    match contacts.find? fun contact => contact.identityId = input.recipientIdentityId with
    | none => throw (.outbound "CONTACT_NOT_TRUSTED".toList)
    | some contact => do
      let published ← perform .hasPublication
      if published = false then throw (.outbound "SENDER_NOT_PUBLISHED".toList)
      match signalAddressForDevice contact.identityId contact.deviceId with
      | none => throw .other
      | some address => sendTo rt input contact address

def maxPlaintextBytes : ℕ := 65536

/-- `inputSchema` and the bound in bytes. -/
def SendInput.valid (input : SendInput) : Bool :=
  input.recipientIdentityId ≠ [] ∧ clientMailboxUUID input.messageId = true ∧
    utf16Length input.plaintext ≤ maxPlaintextBytes ∧ utf8Length input.plaintext ≤ maxPlaintextBytes

def send (input : SendInput) : Messenger Receipt :=
  if input.valid = true then serial knownOutbound outboundRejected (sendOwned rt input)
  else throw (.outbound "INVALID_MESSAGE".toList)

def deliverAll : List Outbox → Messenger (List Receipt)
  | [] => return []
  | record :: records => do
    let first ← deliver record
    let rest ← deliverAll records
    return first :: rest

def retryPending : Messenger (List Receipt) :=
  serial knownOutbound outboundRejected do
    let records ← perform .pendingOutbox
    deliverAll records

/-! ## The publication pool -/

structure PublishResult where
  bundleId : Option Text
  claimable : Bool
  target : ℕ
  claimableCount : ℕ
  minted : ℕ
  deriving DecidableEq

def expiredPublication : Failure → Bool
  | .relay (some code) => code = "BUNDLE_EXPIRED".toList
  | _ => false

/-- Whether a member is claimable; a member outside its window is not. -/
def offer (member : WireBundle) : Messenger Bool :=
  tryCatch (perform (.publishBundle member)) fun e =>
    if expiredPublication e = true then return false else throw e

/-- Offer the members from a slot on: how many are claimable, and the dead slots. -/
def offerAll : ℕ → List WireBundle → Messenger (ℕ × List ℕ)
  | _, [] => return (0, [])
  | slot, member :: members => do
    let claimable ← offer member
    let rest ← offerAll (slot + 1) members
    return if claimable = true then (rest.1 + 1, rest.2) else (rest.1, slot :: rest.2)

/-- Replace dead slots one after the other: the pool, and how many replacements are
    claimable. -/
def replaceAll : List ℕ → List WireBundle → Messenger (List WireBundle × ℕ)
  | [], members => return (members, 0)
  | slot :: slots, members => do
    let replacement ← perform (.replacePublicationSlot slot)
    let claimable ← perform (.publishBundle replacement)
    let rest ← replaceAll slots (members.set slot replacement)
    return (rest.1, if claimable = true then rest.2 + 1 else rest.2)

def publishOwned : Messenger PublishResult := do
  let restored ← perform .restorePublicationPool
  let offered ← offerAll 0 restored.1
  let replaced ← replaceAll offered.2.reverse restored.1
  let claimable := offered.1 + replaced.2
  return ⟨replaced.1.head?.map (·.bundleId), 0 < claimable, replaced.1.length, claimable,
    restored.2 + offered.2.length⟩

def publish : Messenger PublishResult := serial knownOutbound outboundRejected publishOwned

/-! ## Contacts -/

/-- `Profile.importContact` of the bundle of a card. -/
def importContactCard (card : WireBundle) : Messenger Bool :=
  if bundleSchema card = false ∨ card.oneTimePreKey = none then throw .other
  else do
    let now ← perform .clock
    match importVerifiedSignalBundleV2 rt card card.deviceRecord.identityId
        card.deviceRecord.deviceId now with
    | none => throw .other
    | some verified => do
      let confirmed ← perform (.confirm card.identifiers)
      if confirmed = true then perform (.importContact verified) else return false

end

/-! ## How calls are answered -/

/-- What the relay, or the operator, answers. -/
inductive Response where
  | failed (remoteCode : Option Text)
  | done
  | challenge (expiresAtMs : ℤ)
  | page (page : MailboxPage)
  | bundle (bundle : WireBundle)
  | flag (b : Bool)

/-- The circumstances of a call: whether the store refuses the transaction, what the
    transaction finds (`mints` for every slot it mints), and what the other side answers. -/
structure Surroundings where
  refused : Bool
  within : Circumstances
  mints : ℕ → Circumstances
  response : Response

/-- A call that was performed, its answer, and the store afterwards. -/
structure Moment where
  call : ClientCall
  answer : Except Failure call.Answer
  store : ClientStore

def Moment.succeeded (m : Moment) : Bool := m.answer.isOk

/-- The store of a profile and what was done with it, the latest call first. -/
structure Ledger where
  store : ClientStore
  log : List Moment

section
variable (rt : Runtime) (dev : Device) (record : DeviceRecord)

/-- The transaction of a call, if it is one. -/
def ClientCall.transaction (v : Surroundings) : (c : ClientCall) → Option (StoreTx c.Answer)
  | .mailboxAuthorization => some (pure ())
  | .pendingMailboxRewalk => some (Tx.read fun s => Echolet.pendingMailboxRewalk s.rewalk)
  | .keepMailboxRewalk position =>
    some (Tx.modify fun s => { s with rewalk := Echolet.keepMailboxRewalk position })
  | .finishMailboxRewalk =>
    some (Tx.modify fun s => { s with rewalk := Echolet.finishMailboxRewalk })
  | .acceptOne e => some (Echolet.acceptOne rt dev v.within e)
  | .pendingAcks => some Echolet.pendingAcks
  | .forgetAcks ids => some (Echolet.forgetAcks ids)
  | .importContact verified => some (Echolet.importContact verified)
  | .listContacts => some Echolet.listContacts
  | .hasPublication => some Echolet.hasPublication
  | .readOutbox messageId => some (Tx.read fun s => s.outbox.get messageId)
  | .claimIdentifier contact address => some (Echolet.claimIdentifier v.within contact address)
  | .replaceClaim contact => some (Echolet.replaceClaim v.within contact)
  | .commitMessage input contact address verified =>
    some (Echolet.commitMessage rt dev v.within input contact address verified)
  | .checkRetry record => some (Echolet.checkRetry rt record)
  | .setDelivered record => some (Echolet.setDelivered record)
  | .pendingOutbox => some Echolet.pendingOutbox
  | .restorePublicationPool => some (Echolet.restorePublicationPool rt record v.mints)
  | .replacePublicationSlot slot => some (Echolet.replacePublicationSlot rt record v.within slot)
  | _ => none

/-- The answer to a request or a question, where it is one for it. -/
def ClientCall.answered : (c : ClientCall) → Surroundings → Option (Except Failure c.Answer)
  | .clock, v => some (.ok v.within.now)
  | .confirm _, ⟨_, _, _, .flag b⟩ => some (.ok b)
  | .createChallenge, ⟨_, _, _, .challenge t⟩ => some (.ok t)
  | .pollMailbox _, ⟨_, _, _, .page page⟩ => some (.ok page)
  | .ackMailbox _, ⟨_, _, _, .done⟩ | .sendEnvelope _, ⟨_, _, _, .done⟩ => some (.ok ())
  | .claimBundle _ _ _, ⟨_, _, _, .bundle b⟩ => some (.ok b)
  | .publishBundle _, ⟨_, _, _, .flag b⟩ => some (.ok b)
  | .createChallenge, ⟨_, _, _, .failed code⟩ | .pollMailbox _, ⟨_, _, _, .failed code⟩
  | .ackMailbox _, ⟨_, _, _, .failed code⟩ | .claimBundle _ _ _, ⟨_, _, _, .failed code⟩
  | .sendEnvelope _, ⟨_, _, _, .failed code⟩ | .publishBundle _, ⟨_, _, _, .failed code⟩ =>
    some (.error (.relay code))
  | _, _ => none

/-- A transaction on the store; one the store refuses does not begin. -/
def attempt {α : Type} (v : Surroundings) (x : StoreTx α) (s : ClientStore) :
    Except Failure α × ClientStore :=
  if v.refused = true then (.error .persistence, s) else Tx.transact x s

def Ledger.logged (w : Ledger) (c : ClientCall) (r : Except Failure c.Answer) (s : ClientStore) :
    Ledger :=
  ⟨s, ⟨c, r, s⟩ :: w.log⟩

/-- Perform a call: its transaction, or whatever answer comes. -/
def Ledger.perform (c : ClientCall) (v : Surroundings) (w : Ledger) :
    Option (Except Failure c.Answer × Ledger) :=
  match c.transaction rt dev record v with
  | some x =>
    let out := attempt v x w.store
    some (out.1, w.logged c out.1 out.2)
  | none => (c.answered v).map fun r => (r, w.logged c r w.store)

/-- What performing a call may answer, and leave in the store. -/
def Performed (c : ClientCall) (v : Surroundings) (s : ClientStore) (r : Except Failure c.Answer)
    (s' : ClientStore) : Prop :=
  match c.transaction rt dev record v with
  | some x => attempt v x s = (r, s')
  | none => s' = s ∧ c.answered v = some r

theorem perform_logged {c : ClientCall} {v : Surroundings} {w w' : Ledger}
    {r : Except Failure c.Answer} (h : Ledger.perform rt dev record c v w = some (r, w')) :
    ∃ s, w' = w.logged c r s ∧ Performed rt dev record c v w.store r s := by
  unfold Ledger.perform at h
  unfold Performed
  split at h
  · cases h
    exact ⟨_, rfl, rfl⟩
  · obtain ⟨r', hr, h⟩ := Option.map_eq_some_iff.1 h
    cases h
    exact ⟨_, rfl, rfl, hr⟩

/-- Programs on a ledger, under a condition, with an invariant, a guarantee and a rely. -/
abbrev onLedger (allowed : ClientCall → Surroundings → Ledger → Prop) (inv : Ledger → Prop)
    (guar rely : Ledger → Ledger → Prop) :
    Contract ClientCall ClientCall.Answer Failure Surroundings Ledger :=
  ⟨Ledger.perform rt dev record, allowed, inv, guar, rely⟩

variable {rt dev record}

theorem safe_perform {allowed : ClientCall → Surroundings → Ledger → Prop} {inv : Ledger → Prop}
    {guar rely : Ledger → Ledger → Prop} {c : ClientCall} {K : Ledger → Prop}
    {Q : Except Failure c.Answer → Ledger → Prop}
    (hQ : ∀ r, (onLedger rt dev record allowed inv guar rely).Stable (Q r))
    (h : ∀ v w r s, inv w → K w → allowed c v w → Performed rt dev record c v w.store r s →
      (inv (w.logged c r s) ∧ guar w (w.logged c r s)) ∧ Q r (w.logged c r s)) :
    (onLedger rt dev record allowed inv guar rely).Safe Q K (perform c) := by
  refine Contract.Safe.perform hQ fun v w r w' hi hk ha hx => ?_
  obtain ⟨s, rfl, hs⟩ := perform_logged rt dev record hx
  exact h v w r s hi hk ha hs

end

/-! ## Processes -/

/-- The commands a process may run. -/
inductive Job where
  | poll
  | retryPendingAcks
  | send (input : SendInput)
  | retryPending
  | publish
  | importContact (card : WireBundle)

/-- What a command ends with. -/
inductive Outcome where
  | polled (result : PollResult)
  | acked (count : ℕ)
  | sent (input : SendInput) (receipt : Receipt)
  | retried (receipts : List Receipt)
  | published (result : PublishResult)
  | imported (b : Bool)

def Job.program (rt : Runtime) (dev : Device) : Job → Messenger Outcome
  | .poll => do return .polled (← Echolet.poll dev)
  | .retryPendingAcks => do return .acked (← Echolet.retryPendingAcks)
  | .send input => do return .sent input (← Echolet.send rt input)
  | .retryPending => do return .retried (← Echolet.retryPending)
  | .publish => do return .published (← Echolet.publish)
  | .importContact card => do return .imported (← importContactCard rt card)

/-- The processes over one profile. -/
abbrev ProfilePool := Pool ClientCall ClientCall.Answer Failure Outcome Ledger

/-- Runs of any number of processes from a store, where every call that is performed is allowed:
    commands start, calls are performed one at a time in any order, and a process may be killed
    between two calls. -/
abbrev ProfileRun (rt : Runtime) (dev : Device) (record : DeviceRecord)
    (allowed : ClientCall → Surroundings → Ledger → Prop) (s₀ : ClientStore) : ProfilePool → Prop :=
  Run (Pool.step (Ledger.perform rt dev record) (Job.program rt dev)) (Pool.Meets allowed)
    ⟨⟨s₀, []⟩, fun _ => none⟩

/-- The store before the calls that came after a log. -/
def before (s₀ : ClientStore) : List Moment → ClientStore
  | [] => s₀
  | m :: _ => m.store

/-- Every moment of a log has a property, which may speak of the log before it. -/
def EachMoment (P : List Moment → Moment → Prop) (log : List Moment) : Prop :=
  ∀ post m pre, log = post ++ m :: pre → P pre m

theorem EachMoment.nil {P : List Moment → Moment → Prop} : EachMoment P [] := by
  intro post m pre h
  cases post <;> cases h

theorem EachMoment.cons {P : List Moment → Moment → Prop} {m : Moment} {log : List Moment}
    (h : EachMoment P log) (hm : P log m) : EachMoment P (m :: log) := by
  intro post n pre hs
  cases post with
  | nil =>
    obtain ⟨rfl, rfl⟩ := List.cons.inj hs
    exact hm
  | cons k post => exact h post n pre (List.cons.inj hs).2

/-- What relates the stores before and after every call relates those of any two times. -/
theorem EachMoment.between {s₀ : ClientStore} {R : ClientStore → ClientStore → Prop}
    (hrefl : ∀ s, R s s) (htrans : ∀ s s' s'', R s s' → R s' s'' → R s s'') :
    ∀ {post pre : List Moment}, EachMoment (fun pre m => R (before s₀ pre) m.store) (post ++ pre) →
      R (before s₀ pre) (before s₀ (post ++ pre))
  | [], _, _ => hrefl _
  | m :: post, pre, h => by
    have hpost : EachMoment (fun pre m => R (before s₀ pre) m.store) (post ++ pre) :=
      fun p n q hs => h (m :: p) n q (congrArg (m :: ·) hs)
    exact htrans _ _ _ (hpost.between hrefl htrans) (h [] m (post ++ pre) rfl)

end Echolet
