/-
  The mailbox routes of the relay: what a send, a poll and an acknowledgement check, in
  their order, and the body a poll answers with.

  A poll and an acknowledgement are modelled from the point where the device signature has
  been verified; for a send `verified` stands for the check of the sender's device record
  and signature.  `pollBody` is the text of a poll response, `utf8Length_pollBody` its size.
-/
import Echolet.Lib.Json
import Echolet.Relay.Steps

namespace Echolet

/-- An error answer of a route. -/
structure Refusal where
  status : ℕ
  code : String
  message : String
  deriving DecidableEq

/-! ## Sending -/

def maxSenderSignatureBytes : ℕ := 256

def defaultSenderUnackedQuota : ℤ := 16

/-- `authenticateSender`; `verified` is the check against the sender's device record. -/
def authenticateSender (verified : MailboxEnvelope → Bool) (e : MailboxEnvelope) :
    Except Refusal Unit :=
  if e.senderSignature = [] then .error ⟨400, "INVALID_SCHEMA", "sender_signature is required"⟩
  else if utf8Length e.senderSignature > maxSenderSignatureBytes then
    .error ⟨400, "INVALID_SCHEMA", "sender_signature exceeds the maximum signature length"⟩
  else if verified e then .ok ()
  else .error ⟨403, "INVALID_SIGNATURE", "sender signature verification failed"⟩

/-- The checks of `SendEnvelope` ahead of the quota. -/
def sendChecks (cfg : RelayConfig) (verified : MailboxEnvelope → Bool) (now : ℕ)
    (e : MailboxEnvelope) : Except Refusal Unit := do
  match validateMailboxEnvelope e cfg.maxMessageBytes with
  | .error ve => .error ⟨400, ve.code, ve.message⟩
  | .ok () => .ok ()
  if e.expiresAtMs ≤ now then
    .error ⟨400, "INVALID_SCHEMA", "expires_at_ms is already in the past"⟩
  authenticateSender verified e

/-- The quota in force. -/
def senderQuota (cfg : RelayConfig) : ℤ :=
  if cfg.senderUnackedQuota ≤ 0 then defaultSenderUnackedQuota else cfg.senderUnackedQuota

/-- What `enforceSenderQuota` decides from an occupancy. -/
def enforceSenderQuota (cfg : RelayConfig) (occupancy : SenderMailboxOccupancy) :
    Except Refusal Unit :=
  if occupancy.envelopeAlreadyStored then .ok ()
  else if (occupancy.liveEnvelopes : ℤ) ≥ senderQuota cfg then
    .error ⟨403, "SENDER_QUOTA_EXCEEDED", "sender has too many unacknowledged envelopes in this mailbox; they clear as the recipient acknowledges them or they expire"⟩
  else .ok ()

/-! ## Polling -/

def defaultMaxMailboxBatch : ℤ := 100

structure PollRequest where
  recipientMailboxId : Text
  deviceId : Text
  batchSize : ℤ
  cursor : Text
  readThrough : Option Text

/-- `decodeReadThroughShape`: the reported position, `0` for none. -/
def decodeReadThroughShape : Option Text → Except Refusal ℕ
  | none => .ok 0
  | some readThrough =>
    if readThrough = [] then .error ⟨400, "INVALID_SCHEMA", "read_through is present but empty"⟩
    else match decodeMailboxCursor readThrough with
      | some position => .ok position
      | none => .error ⟨400, "INVALID_SCHEMA", "read_through is not a position issued by this relay"⟩

/-- `readThroughWithinIssued`. -/
def readThroughWithinIssued (db : Db) (mailboxID : Text) (readThrough : Option Text)
    (position : ℕ) : Except Refusal Unit :=
  if readThrough.isSome ∧ position > highestIssuedPosition db mailboxID then
    .error ⟨400, "INVALID_SCHEMA", "read_through is above every position issued for this mailbox"⟩
  else .ok ()

/-- The position a poll reports, checked for its shape and against the mailbox. -/
def checkReadThrough (db : Db) (req : PollRequest) : Except Refusal ℕ := do
  if req.batchSize < 0 then
    .error ⟨400, "INVALID_SCHEMA", "batch_size must be a positive integer"⟩
  let position ← decodeReadThroughShape req.readThrough
  readThroughWithinIssued db req.recipientMailboxId req.readThrough position
  pure position

/-- The mark after a poll that reports a position. -/
def recordReadThrough (db : Db) (now : ℕ) (req : PollRequest) (position : ℕ) : Db :=
  match req.readThrough with
  | none => db
  | some _ => advanceReadMark db now req.recipientMailboxId req.deviceId position

/-- The cursor a poll resumes at: its own, or the stored mark. -/
def pollCursor (db : Db) (now : ℕ) (req : PollRequest) : Text :=
  if req.cursor = [] then
    let mark := readMark db now req.recipientMailboxId req.deviceId
    if 0 < mark then encodeMailboxCursor mark else []
  else req.cursor

/-- `pollBatchSize`. -/
def pollBatchSize (cfg : RelayConfig) (requested : ℤ) : ℤ :=
  let limit := if cfg.maxMailboxBatch ≤ 0 then defaultMaxMailboxBatch else cfg.maxMailboxBatch
  if 0 < requested ∧ requested < limit then requested else limit

theorem pollBatchSize_pos (cfg : RelayConfig) (requested : ℤ) : 0 < pollBatchSize cfg requested := by
  simp only [pollBatchSize, defaultMaxMailboxBatch]
  split_ifs <;> omega

/-- `protocol.MaxMessageBytes`. -/
def maxMessageBytes : ℤ := 262144

def clientPollResponseBound : ℤ := 4 * maxMessageBytes

def pollResponseWrapperBytes : ℤ := 4096

def pollEnvelopeByteBudget : ℤ := clientPollResponseBound - pollResponseWrapperBytes

/-- `PollMailbox`, from the verified signature on. -/
def pollMailbox (cfg : RelayConfig) (db : Db) (now : ℕ) (req : PollRequest) :
    Except Refusal EnvelopeBatch × Db :=
  match checkReadThrough db req with
  | .error refusal => (.error refusal, db)
  | .ok position =>
    let db := recordReadThrough db now req position
    match getEnvelopeBatchFrom db now req.recipientMailboxId (pollBatchSize cfg req.batchSize)
        pollEnvelopeByteBudget (pollCursor db now req) with
    | (some batch, db) => (.ok batch, db)
    | (none, db) => (.error
        ⟨400, "INVALID_SCHEMA", "cursor is not a continuation token issued by this relay"⟩, db)

/-! ## Acknowledging -/

def maxAckEnvelopeIDs : ℤ := 1000

def maxAckedEnvelopeIDs (cfg : RelayConfig) : ℤ :=
  if 0 < cfg.maxMailboxBatch then cfg.maxMailboxBatch else maxAckEnvelopeIDs

/-- The bounds of `AckMailbox` on the ids it is given. -/
def checkAcked (cfg : RelayConfig) (envelopeIDs : List Text) : Except Refusal Unit :=
  if (envelopeIDs.length : ℤ) > maxAckedEnvelopeIDs cfg then
    .error ⟨400, "INVALID_SCHEMA", "envelope_ids exceeds the maximum mailbox batch"⟩
  else if envelopeIDs.any fun id => utf8Length id > maxIdentifierBytes then
    .error ⟨400, "INVALID_SCHEMA", "an envelope_ids entry exceeds the maximum identifier length"⟩
  else .ok ()

/-- `AckEnvelopes`. -/
def ackEnvelopes (db : Db) (mailboxID : Text) (envelopeIDs : List Text) : Db :=
  envelopeIDs.foldl (fun db id => deleteEnvelope db mailboxID id) db

/-! ## The poll response -/

/-- `next_cursor`: null for a batch without one. -/
def nextCursor (batch : EnvelopeBatch) : Option Text :=
  if batch.nextCursor = [] then none else some batch.nextCursor

/-- The success answer of a poll. -/
def pollResponse (batch : EnvelopeBatch) : Json :=
  .obj [("data".toList, .obj [("envelopes".toList, .arr (batch.items.map fun x => x.2.toJson)),
      ("next_cursor".toList, match nextCursor batch with | none => .null | some t => .str t)]),
    ("ok".toList, .bool true)]

/-- The body the encoder writes, with its newline. -/
def pollBody (batch : EnvelopeBatch) : Text := (pollResponse batch).render ++ ['\n']

/-- The bytes of `next_cursor` for a resume position. -/
def nextBytes : Option ℕ → ℕ
  | none => 4
  | some p => 2 + (decimal p).length

/-- The bytes of the envelopes of a page, separators included. -/
def envelopesBytes (items : List (ℕ × MailboxEnvelope)) : ℕ :=
  (items.map fun x => x.2.encodedBytes).sum + (items.length - 1)

theorem utf8Length_quote_decimal (n : ℕ) :
    utf8Length (Json.quote (decimal n)) = 2 + (decimal n).length := by
  rw [Json.utf8Length_quote, Nat.add_comm]
  have h : ∀ c ∈ decimal n, utf8Length (Json.escape c) = 1 := by
    intro c hc
    have hd := toNat_of_isDigit (isDigit_of_mem_decimal hc)
    have hne : ∀ d : Char, (d.toNat < 48 ∨ 57 < d.toNat) → c ≠ d := by
      rintro d hd' rfl; omega
    have h8 : ¬ c.toNat < 0x20 := by omega
    simp only [Json.escape, hne '"' (by decide), hne '\\' (by decide), hne '<' (by decide),
      hne '>' (by decide), hne '&' (by decide), if_false, false_or]
    rw [if_neg (by omega), if_neg (by omega), if_neg (by omega), if_neg (by omega),
      if_neg (by omega), if_neg (by omega)]
    simpa using utf8Length_digits (t := [c]) (by simpa using isDigit_of_mem_decimal hc)
  rw [List.map_congr_left h]
  simp

theorem nextCursor_eq {batch : EnvelopeBatch} {next : Option ℕ}
    (h : batch.nextCursor = (next.map encodeMailboxCursor).getD []) :
    nextCursor batch = next.map encodeMailboxCursor := by
  cases next with
  | none => simp [nextCursor, h]
  | some p => simp [nextCursor, h, encodeMailboxCursor, decimal_ne_nil]

/-- **The size of a poll body.** -/
theorem utf8Length_pollBody {batch : EnvelopeBatch} {next : Option ℕ}
    (h : batch.nextCursor = (next.map encodeMailboxCursor).getD []) :
    utf8Length (pollBody batch) = 51 + envelopesBytes batch.items + nextBytes next := by
  have hk : utf8Length (Json.quote "data".toList) = 6 ∧
      utf8Length (Json.quote "envelopes".toList) = 11 ∧
      utf8Length (Json.quote "next_cursor".toList) = 13 ∧
      utf8Length (Json.quote "ok".toList) = 4 := by decide +kernel
  have hn : utf8Length (Json.render (match nextCursor batch with | none => .null | some t => .str t)) =
      nextBytes next := by
    rw [nextCursor_eq h]
    cases next with
    | none => decide
    | some p => exact utf8Length_quote_decimal p
  have he := Json.utf8Length_renderElems (batch.items.map fun x => x.2.toJson)
  have hs : List.map Char.utf8Size ['{', '}', '[', ']', ':', ',', '\n', 't', 'r', 'u', 'e'] =
      List.replicate 11 1 := by decide +kernel
  simp only [List.map_cons, List.map_nil, List.replicate, List.cons.injEq] at hs
  obtain ⟨h1, h2, h3, h4, h5, h6, h7, h8, h9, h10, h11, -⟩ := hs
  simp only [pollBody, pollResponse, Json.render, Json.renderMembers, utf8Length_append,
    utf8Length_cons, utf8Length_nil, hk, hn, he, h1, h2, h3, h4, h5, h6, h7, h8, h9, h10, h11,
    List.map_map, List.length_map, envelopesBytes]
  have hm : (batch.items.map ((fun x => utf8Length x.render) ∘ fun x => x.2.toJson)) =
      batch.items.map fun x => x.2.encodedBytes := rfl
  rw [hm]; omega

end Echolet
