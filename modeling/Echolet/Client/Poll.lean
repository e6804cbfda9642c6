/-
  A client's poll: the durable re-walk record of its profile, the verdicts about a page,
  and what one page does to the walk.

  `PollWalk` holds the loop variables of `poll`.  A page is judged envelope by envelope; then
  the walk takes over the position of the page (`PollWalk.judged`), a re-walk in flight writes
  its record (`PollWalk.record`), and the loop goes on or stops (`PollWalk.next`).
-/
import Echolet.Relay.MailboxHandler

namespace Echolet

/-- A device and its mailbox; the mailbox id is a digest, the device id a UUID. -/
structure Device where
  identityId : Text
  deviceId : Text
  mailboxId : Text
  pollBatchSize : ℤ
  colon_notMem_mailboxId : ':' ∉ mailboxId
  colon_notMem_deviceId : ':' ∉ deviceId

/-! ## The re-walk record -/

/-- `mailboxRewalkPosition`: one to fifteen digits. -/
def mailboxRewalkPosition (t : Text) : Bool :=
  0 < t.length ∧ t.length ≤ 15 ∧ t.all Char.isDigit = true

/-- The head of the mailbox. -/
def headPosition : Text := ['0']

/-- A text as a re-walk position; one that is none reads as the head. -/
def rewalkPosition (t : Text) : Text := if mailboxRewalkPosition t then t else headPosition

/-- The value under `cli:mailbox-rewalk`. -/
abbrev RewalkRecord := Option Text

def requestMailboxRewalk : RewalkRecord := some headPosition

def pendingMailboxRewalk (stored : RewalkRecord) : Option Text := stored.map rewalkPosition

def keepMailboxRewalk (position : Text) : RewalkRecord := some (rewalkPosition position)

def finishMailboxRewalk : RewalkRecord := none

/-! ## Verdicts -/

/-- `acceptOne` commits an envelope, or isolates it with a code. -/
inductive Verdict where
  | accepted
  | rejected (code : Text)
  deriving DecidableEq

/-- An envelope of a page, its position, and the verdict about it. -/
abbrev Judgement := (ℕ × MailboxEnvelope) × Verdict

/-- `received` of a page. -/
def receivedCount (page : List Judgement) : ℕ := page.countP fun j => j.2 = .accepted

/-- `rejected` of a page: envelope ids with their codes. -/
def rejectedEnvelopes (page : List Judgement) : List (Text × Text) :=
  page.filterMap fun j =>
    match j.2 with
    | .accepted => none
    | .rejected code => some (j.1.2.envelopeId, code)

/-! ## The walk -/

def maxPollPagesPerPoll : ℕ := 16

/-- The variables of the page loop. -/
structure PollWalk where
  rewalk : Option Text
  cursor : Option Text
  readThrough : Option Text
  page : ℕ
  received : ℕ
  rejected : List (Text × Text)
  more : Bool
  deriving DecidableEq

/-- A walk starts at a pending re-walk, else without a cursor. -/
def PollWalk.start (rewalk : Option Text) : PollWalk := ⟨rewalk, rewalk, none, 0, 0, [], false⟩

/-- The poll request for the next page. -/
def PollWalk.request (dev : Device) (w : PollWalk) : PollRequest :=
  ⟨dev.mailboxId, dev.deviceId, dev.pollBatchSize, w.cursor.getD [], w.readThrough⟩

/-- The walk once a page with this `next_cursor` has been judged. -/
def PollWalk.judged (w : PollWalk) (page : List Judgement) (nextCursor : Option Text) : PollWalk :=
  { w with
    received := w.received + receivedCount page
    rejected := w.rejected ++ rejectedEnvelopes page
    more := nextCursor.isSome
    cursor := nextCursor
    readThrough := nextCursor }

/-- The re-walk record after a page: kept at its position, finished at the end of the
    mailbox, untouched unless a re-walk is in flight. -/
def PollWalk.record (w : PollWalk) (nextCursor : Option Text) (stored : RewalkRecord) : RewalkRecord :=
  match w.rewalk, nextCursor with
  | none, _ => stored
  | some _, none => finishMailboxRewalk
  | some _, some position => keepMailboxRewalk position

/-- The walk after the record was written. -/
def PollWalk.recorded (w : PollWalk) (nextCursor : Option Text) : PollWalk :=
  { w with rewalk := w.rewalk.bind fun _ => nextCursor }

/-- The walk at the next page, or `none` where the loop stops. -/
def PollWalk.next (w : PollWalk) (page : List Judgement) : Option PollWalk :=
  if 0 < receivedCount page ∨ w.more = false ∨ maxPollPagesPerPoll ≤ w.page + 1 then none
  else some { w with page := w.page + 1 }

/-! ## Positions -/

/-- The position a token stands for, where the relay accepts it. -/
theorem decode_head : decodeMailboxCursor headPosition = some 0 := by decide

end Echolet
