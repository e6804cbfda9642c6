/-
  The relay's mailbox repository, operation by operation.

  `Db` holds the key families of the store: the envelopes in one key space shared by all
  mailboxes, the ordering index of each mailbox, the next position of each mailbox, and the
  read marks.  Every definition below is one transaction or one read of the repository; a
  key hides once its deadline in seconds is reached.

  * `saveTxn` stores an envelope under a new position, or leaves the store as it is;
  * `backfillRecords`, `backfillWrite`, `backfillFinish` are the transactions of
    `ensureMailboxOrdering`;
  * `readBatch` is the selection loop of a page; `readBatch_eq` says that it is the page of
    the `visible` envelopes after the cursor.
-/
import Mathlib.Data.Char
import Mathlib.Logic.Function.Basic
import Echolet.Lib.SortedMap
import Echolet.Lib.Paging
import Echolet.Relay.Envelope

namespace Echolet

structure Db where
  envelope : Store Text MailboxEnvelope
  order : Text → Store ℕ Text
  sequence : Text → Option ℕ
  readMark : Text → Option (Item ℕ)

def Db.init : Db := ⟨.empty, fun _ => .empty, fun _ => none, fun _ => none⟩

/-- The clock the store hides keys by counts seconds. -/
def seconds (ms : ℕ) : ℕ := ms / 1000

theorem seconds_mono {t t' : ℕ} (h : t ≤ t') : seconds t ≤ seconds t' := Nat.div_le_div_right h

/-- The key of an envelope, without the constant `mailbox:` in front. -/
def mailboxEnvelopeKey (mailboxID envelopeID : Text) : Text := mailboxID ++ ':' :: envelopeID

/-- The key of a read mark, without the constant `mailboxmark:` in front. -/
def mailboxReadMarkKey (mailboxID deviceID : Text) : Text := mailboxID ++ ':' :: deviceID

/-- A key of the prefix scan over one mailbox. -/
def hasMailboxPrefix (mailboxID key : Text) : Bool := (mailboxID ++ [':']).isPrefixOf key

/-- What follows the prefix. -/
def afterPrefix (mailboxID key : Text) : Text := key.drop (mailboxID.length + 1)

theorem hasMailboxPrefix_iff {m k : Text} :
    hasMailboxPrefix m k = true ↔ ∃ x, k = m ++ ':' :: x := isPrefixOf_join

@[simp] theorem afterPrefix_key (m x : Text) : afterPrefix m (m ++ ':' :: x) = x := by
  rw [afterPrefix, List.append_cons, List.drop_left' (by simp)]

/-! ## Saving and deleting -/

/-- `retentionDeadlineSeconds`. -/
def retentionDeadlineSeconds (retentionCap now : ℕ) (e : MailboxEnvelope) : ℕ :=
  let deadline := e.expiresAtMs.tdiv 1000
  let deadline := if deadline > seconds (now + retentionCap) then ↑(seconds (now + retentionCap))
    else deadline
  let deadline := if deadline < seconds now then ↑(seconds now) else deadline
  let deadline := if deadline < 0 then 0 else deadline
  deadline.toNat

/-- `allocateMailboxPosition`: the position handed out and the advanced counter. -/
def allocateMailboxPosition (db : Db) (mailboxID : Text) : ℕ × Db :=
  let next := match db.sequence mailboxID with
    | some next => if next = 0 then 1 else next
    | none => 1
  (next, { db with sequence := Function.update db.sequence mailboxID (some (next + 1)) })

inductive SaveResult where
  | stored (position : ℕ)
  | replayed
  | envelopeIDConflict
  deriving DecidableEq

/-- The transaction of `SaveEnvelope`: an envelope already stored under the key decides
    between an idempotent replay and a conflict. -/
def saveTxn (db : Db) (now expiresAt : ℕ) (e : MailboxEnvelope) : SaveResult × Db :=
  let key := mailboxEnvelopeKey e.recipientMailboxId e.envelopeId
  match db.envelope.peek (seconds now) key with
  | some item =>
    if item.value.marshal = e.marshal then (.replayed, db) else (.envelopeIDConflict, db)
  | none =>
    let (position, db) := allocateMailboxPosition db e.recipientMailboxId
    (.stored position, { db with
      envelope := db.envelope.insert key ⟨e, expiresAt⟩
      order := Function.update db.order e.recipientMailboxId
        ((db.order e.recipientMailboxId).insert position ⟨e.envelopeId, expiresAt⟩) })

/-- `DeleteEnvelope` removes the envelope and leaves its index entry. -/
def deleteEnvelope (db : Db) (mailboxID envelopeID : Text) : Db :=
  { db with envelope := db.envelope.erase (mailboxEnvelopeKey mailboxID envelopeID) }

/-! ## Backfilling the index -/

/-- A backfill under way: what the scan found, and how many of the records have a position. -/
structure Backfill where
  records : List (Text × ℕ)
  written : ℕ

def mailboxBackfillBatch : ℕ := 512

/-- The records of the backfill scan, in key order, each with its deadline. -/
def backfillRecords (db : Db) (now : ℕ) (mailboxID : Text) : List (Text × ℕ) :=
  (db.envelope.scan (seconds now) (hasMailboxPrefix mailboxID)).map fun entry =>
    (afterPrefix mailboxID entry.1, entry.2.expiresAt)

/-- Give the records of one batch the positions after `offset`. -/
def writeBatch : ℕ → List (Text × ℕ) → Store ℕ Text → Store ℕ Text
  | _, [], order => order
  | offset, record :: batch, order =>
    writeBatch (offset + 1) batch (order.insert (offset + 1) ⟨record.1, record.2⟩)

/-- One batch transaction of the backfill. -/
def backfillWrite (db : Db) (mailboxID : Text) (b : Backfill) : Db :=
  let batch := (b.records.drop b.written).take mailboxBackfillBatch
  { db with
    order := Function.update db.order mailboxID (writeBatch b.written batch (db.order mailboxID)) }

/-- The backfill after one more batch. -/
def Backfill.advance (b : Backfill) : Backfill :=
  { b with written := min (b.written + mailboxBackfillBatch) b.records.length }

/-- The counter, written last and only where there is none. -/
def backfillFinish (db : Db) (mailboxID : Text) (b : Backfill) : Db :=
  match db.sequence mailboxID with
  | some _ => db
  | none =>
    { db with sequence := Function.update db.sequence mailboxID (some (b.records.length + 1)) }

/-- The batches of a backfill one after the other; `fuel` bounds their number. -/
def backfillBatches (mailboxID : Text) : ℕ → Db → Backfill → Db
  | 0, db, _ => db
  | fuel + 1, db, b =>
    if b.written < b.records.length then
      backfillBatches mailboxID fuel (backfillWrite db mailboxID b) b.advance
    else db

/-- `ensureMailboxOrderingLocked`. -/
def ensureMailboxOrdering (db : Db) (now : ℕ) (mailboxID : Text) : Db :=
  match db.sequence mailboxID with
  | some _ => db
  | none =>
    let b : Backfill := ⟨backfillRecords db now mailboxID, 0⟩
    backfillFinish (backfillBatches mailboxID b.records.length db b) mailboxID b

/-- `SaveEnvelope`. -/
def saveEnvelope (retentionCap : ℕ) (db : Db) (now : ℕ) (e : MailboxEnvelope) : SaveResult × Db :=
  saveTxn (ensureMailboxOrdering db now e.recipientMailboxId) now
    (retentionDeadlineSeconds retentionCap now e) e

/-! ## Occupancy -/

structure SenderMailboxOccupancy where
  liveEnvelopes : ℕ
  envelopeAlreadyStored : Bool
  deriving DecidableEq

/-- The counting loop of `SenderOccupancy`, which stops at the limit. -/
def countLive (nowMS : ℕ) (senderIdentityID : Text) (countLimit : ℤ) :
    List MailboxEnvelope → ℕ → ℕ
  | [], count => count
  | e :: es, count =>
    if 0 < countLimit ∧ countLimit ≤ count then count
    else if e.expiresAtMs ≤ nowMS then countLive nowMS senderIdentityID countLimit es count
    else if e.senderIdentityId ≠ senderIdentityID then
      countLive nowMS senderIdentityID countLimit es count
    else countLive nowMS senderIdentityID countLimit es (count + 1)

/-- The envelopes a prefix scan of the mailbox visits. -/
def scanMailbox (db : Db) (now : ℕ) (mailboxID : Text) : List MailboxEnvelope :=
  (db.envelope.scan (seconds now) (hasMailboxPrefix mailboxID)).map (·.2.value)

def senderOccupancy (db : Db) (now : ℕ) (mailboxID senderIdentityID envelopeID : Text)
    (countLimit : ℤ) : SenderMailboxOccupancy :=
  if (db.envelope.peek (seconds now) (mailboxEnvelopeKey mailboxID envelopeID)).isSome then
    ⟨0, true⟩
  else ⟨countLive now senderIdentityID countLimit (scanMailbox db now mailboxID) 0, false⟩

/-! ## Positions and marks -/

def maxMailboxCursorDigits : ℕ := 15

def encodeMailboxCursor (position : ℕ) : Text := decimal position

/-- `DecodeMailboxCursor`: the position to resume after, `none` for a refused token. -/
def decodeMailboxCursor (cursor : Text) : Option ℕ :=
  if cursor = [] then some 0
  else if utf8Length cursor > maxMailboxCursorDigits then none
  else parseDecimal cursor

/-- A token is read back as its position, up to the digits a token may have. -/
theorem decodeMailboxCursor_encodeMailboxCursor (n : ℕ) :
    decodeMailboxCursor (encodeMailboxCursor n) =
      if n < 10 ^ maxMailboxCursorDigits then some n else none := by
  have hlen : utf8Length (decimal n) = (decimal n).length :=
    utf8Length_digits fun _ => isDigit_of_mem_decimal
  have hlt : (decimal n).length ≤ maxMailboxCursorDigits ↔ n < 10 ^ maxMailboxCursorDigits :=
    Nat.length_toDigits_le_iff (by norm_num) (by decide)
  rw [decodeMailboxCursor, encodeMailboxCursor, if_neg (decimal_ne_nil n), hlen, parseDecimal_decimal]
  by_cases h : n < 10 ^ maxMailboxCursorDigits
  · rw [if_neg (not_lt.2 (hlt.2 h)), if_pos h]
  · rw [if_pos (not_le.1 fun hle => h (hlt.1 hle)), if_neg h]

theorem decodeMailboxCursor_encode {n c : ℕ}
    (h : decodeMailboxCursor (encodeMailboxCursor n) = some c) : c = n := by
  rw [decodeMailboxCursor_encodeMailboxCursor] at h
  split_ifs at h
  exact (Option.some.inj h).symm

def highestIssuedPosition (db : Db) (mailboxID : Text) : ℕ :=
  match db.sequence mailboxID with
  | some next => next - 1
  | none => 0

/-- The mark item visible at `now`. -/
def markItem (db : Db) (now : ℕ) (mailboxID deviceID : Text) : Option (Item ℕ) :=
  (db.readMark (mailboxReadMarkKey mailboxID deviceID)).filter fun i => i.Live (seconds now)

def readMark (db : Db) (now : ℕ) (mailboxID deviceID : Text) : ℕ :=
  match markItem db now mailboxID deviceID with
  | some item => item.value
  | none => 0

/-- `mailboxReadMarkTTL` in milliseconds. -/
def mailboxReadMarkTTL : ℕ := 30 * 24 * 60 * 60 * 1000

/-- `AdvanceReadMark` moves a mark forward and only forward. -/
def advanceReadMark (db : Db) (now : ℕ) (mailboxID deviceID : Text) (position : ℕ) : Db :=
  let mark : Item ℕ := ⟨position, seconds (now + mailboxReadMarkTTL)⟩
  let set : Db := { db with
    readMark := Function.update db.readMark (mailboxReadMarkKey mailboxID deviceID) (some mark) }
  match markItem db now mailboxID deviceID with
  | some item => if position ≤ item.value then db else set
  | none => set

/-! ## Selecting a page -/

/-- What one index entry contributes: the envelope it addresses, if that is still stored
    and has not passed its declared expiry. -/
def addressed (db : Db) (now : ℕ) (mailboxID : Text) (entry : ℕ × Item Text) :
    Option (ℕ × MailboxEnvelope) :=
  (db.envelope.peek (seconds now) (mailboxEnvelopeKey mailboxID entry.2.value)).bind fun record =>
    if record.value.expiresAtMs ≤ now then none else some (entry.1, record.value)

def envelopeSeparatorBytes : ℤ := 1

/-- The loop variables of the selection; each envelope stands with the position of the
    entry it was found at. -/
structure Selection where
  items : List (ℕ × MailboxEnvelope)
  usedBytes : ℤ
  lastPosition : ℕ
  hasMore : Bool

/-- The selection loop over the index entries. -/
def selectEnvelopes (db : Db) (now : ℕ) (mailboxID : Text) (limit byteBudget : ℤ) :
    List (ℕ × Item Text) → Selection → Selection
  | [], s => s
  | entry :: entries, s =>
    match addressed db now mailboxID entry with
    | none => selectEnvelopes db now mailboxID limit byteBudget entries s
    | some (position, e) =>
      if limit ≤ s.items.length then { s with hasMore := true }
      else
        let encodedBytes := (e.encodedBytes : ℤ) + envelopeSeparatorBytes
        if 0 < byteBudget ∧ 0 < s.items.length ∧ byteBudget < s.usedBytes + encodedBytes then
          { s with hasMore := true }
        else selectEnvelopes db now mailboxID limit byteBudget entries
          { s with usedBytes := s.usedBytes + encodedBytes, items := s.items ++ [(position, e)],
                   lastPosition := position }

structure EnvelopeBatch where
  items : List (ℕ × MailboxEnvelope)
  hasMore : Bool
  nextCursor : Text
  deriving DecidableEq

/-- The read transaction of `GetEnvelopeBatchFrom`, resuming strictly after a position. -/
def readBatch (db : Db) (now : ℕ) (mailboxID : Text) (limit byteBudget : ℤ) (resumeAfter : ℕ) :
    EnvelopeBatch :=
  let s := selectEnvelopes db now mailboxID limit byteBudget
    ((db.order mailboxID).scan (seconds now) fun p => resumeAfter + 1 ≤ p) ⟨[], 0, 0, false⟩
  ⟨s.items, s.hasMore, if s.hasMore then encodeMailboxCursor s.lastPosition else []⟩

/-- `GetEnvelopeBatchFrom`; `none` stands for `ErrInvalidMailboxCursor`. -/
def getEnvelopeBatchFrom (db : Db) (now : ℕ) (mailboxID : Text) (limit byteBudget : ℤ)
    (cursor : Text) : Option EnvelopeBatch × Db :=
  match decodeMailboxCursor cursor with
  | none => (none, db)
  | some resumeAfter =>
    if limit ≤ 0 then (some ⟨[], false, []⟩, db)
    else
      let db := ensureMailboxOrdering db now mailboxID
      (some (readBatch db now mailboxID limit byteBudget resumeAfter), db)

/-! ## Pages of visible envelopes -/

/-- The envelopes pages of a mailbox are drawn from, with their positions. -/
def visible (db : Db) (now : ℕ) (mailboxID : Text) : List (ℕ × MailboxEnvelope) :=
  ((db.order mailboxID).scan (seconds now) fun _ => true).filterMap (addressed db now mailboxID)

theorem addressed_eq_some {db : Db} {now : ℕ} {m : Text} {entry : ℕ × Item Text} {p : ℕ}
    {e : MailboxEnvelope} : addressed db now m entry = some (p, e) ↔ entry.1 = p ∧
      (∃ x, db.envelope.peek (seconds now) (mailboxEnvelopeKey m entry.2.value) = some ⟨e, x⟩) ∧
      (now : ℤ) < e.expiresAtMs := by
  rw [addressed, Option.bind_eq_some_iff]
  constructor
  · rintro ⟨⟨e', x⟩, hp, he⟩
    split_ifs at he with hx
    simp only [Option.some.injEq, Prod.mk.injEq] at he
    obtain ⟨h1, rfl⟩ := he
    exact ⟨h1, ⟨x, hp⟩, by simpa using hx⟩
  · rintro ⟨h1, ⟨x, hp⟩, hx⟩
    exact ⟨⟨e, x⟩, hp, by rw [if_neg (by simpa using hx), h1]⟩

theorem mem_visible {db : Db} {now : ℕ} {m : Text} {p : ℕ} {e : MailboxEnvelope} :
    (p, e) ∈ visible db now m ↔ ∃ i, (db.order m).peek (seconds now) p = some i ∧
      (∃ x, db.envelope.peek (seconds now) (mailboxEnvelopeKey m i.value) = some ⟨e, x⟩) ∧
      (now : ℤ) < e.expiresAtMs := by
  rw [visible, List.mem_filterMap]
  constructor
  · rintro ⟨⟨q, i⟩, hm, ha⟩
    obtain ⟨rfl, h2, h3⟩ := addressed_eq_some.1 ha
    exact ⟨i, (Store.mem_scan.1 hm).2, h2, h3⟩
  · rintro ⟨i, h1, h2, h3⟩
    exact ⟨(p, i), Store.mem_scan.2 ⟨rfl, h1⟩, addressed_eq_some.2 ⟨rfl, h2, h3⟩⟩

theorem addressed_fst {db : Db} {now : ℕ} {m : Text} {entry : ℕ × Item Text}
    {x : ℕ × MailboxEnvelope} (h : addressed db now m entry = some x) : x.1 = entry.1 :=
  (addressed_eq_some.1 h).1.symm

theorem visible_ordered (db : Db) (now : ℕ) (m : Text) : Ordered (visible db now m) := by
  refine List.pairwise_filterMap.2 ((Store.scan_sorted _ _ _).imp fun {a b} hab x hx y hy => ?_)
  rw [addressed_fst hx, addressed_fst hy]; exact hab

/-- Resuming the scan after a position keeps the visible envelopes after it. -/
theorem after_visible (db : Db) (now : ℕ) (m : Text) (c : ℕ) : after c (visible db now m) =
    ((db.order m).scan (seconds now) fun p => c + 1 ≤ p).filterMap (addressed db now m) := by
  simp only [visible, Store.scan, after]
  induction (db.order m).entries with
  | nil => rfl
  | cons entry entries ih =>
    simp only [List.filter_cons]
    by_cases hl : entry.2.Live (seconds now)
    · by_cases hc : c + 1 ≤ entry.1
      · simp only [hl, hc, decide_true, Bool.and_true, if_true, List.filterMap_cons]
        cases ha : addressed db now m entry with
        | none => exact ih
        | some x =>
          simp only [List.filter_cons]
          rw [if_pos (by rw [addressed_fst ha]; exact decide_eq_true hc)]
          exact congrArg _ ih
      · simp only [hl, hc, decide_true, decide_false, Bool.and_true, if_true, Bool.false_eq_true,
          if_false, List.filterMap_cons]
        cases ha : addressed db now m entry with
        | none => exact ih
        | some x =>
          simp only [List.filter_cons]
          rw [if_neg (by rw [addressed_fst ha, decide_eq_true_eq]; exact hc)]
          exact ih
    · simpa [hl] using ih

/-- The room an envelope takes in a page. -/
def pageBytes (x : ℕ × MailboxEnvelope) : ℤ := (x.2.encodedBytes : ℤ) + envelopeSeparatorBytes

/-- The two bounds of a page: the count, and the bytes for every envelope but the first. -/
def fitsPage (limit byteBudget : ℤ) (acc : List (ℕ × MailboxEnvelope))
    (x : ℕ × MailboxEnvelope) : Bool :=
  decide ((acc.length : ℤ) < limit ∧
    (byteBudget ≤ 0 ∨ acc = [] ∨ (acc.map pageBytes).sum + pageBytes x ≤ byteBudget))

theorem fitsPage_first {limit : ℤ} (h : 0 < limit) (byteBudget : ℤ) (x : ℕ × MailboxEnvelope) :
    fitsPage limit byteBudget [] x = true := by simp [fitsPage, h]

/-- The loop takes a page from what its entries address. -/
theorem selectEnvelopes_eq (db : Db) (now : ℕ) (m : Text) (limit byteBudget : ℤ) :
    ∀ (entries : List (ℕ × Item Text)) (acc : List (ℕ × MailboxEnvelope)),
      selectEnvelopes db now m limit byteBudget entries
          ⟨acc, (acc.map pageBytes).sum, lastPosition acc, false⟩ =
        let t := takePage (fitsPage limit byteBudget) acc (entries.filterMap (addressed db now m))
        ⟨t.1, (t.1.map pageBytes).sum, lastPosition t.1, t.2⟩
  | [], acc => rfl
  | entry :: entries, acc => by
    have ih := selectEnvelopes_eq db now m limit byteBudget entries
    unfold selectEnvelopes
    cases ha : addressed db now m entry with
    | none => simp only [List.filterMap_cons, ha]; exact ih acc
    | some x =>
      obtain ⟨p, e⟩ := x
      have hp : (e.encodedBytes : ℤ) + envelopeSeparatorBytes = pageBytes (p, e) := rfl
      simp only [List.filterMap_cons, ha, takePage, hp]
      have h0 : 0 < acc.length ↔ ¬ acc = [] := List.length_pos_iff
      by_cases h1 : limit ≤ acc.length
      · have hf : fitsPage limit byteBudget acc (p, e) = false := by simp [fitsPage, h1]
        simp [h1, hf]
      by_cases h2 : 0 < byteBudget ∧ 0 < acc.length ∧
          byteBudget < (acc.map pageBytes).sum + pageBytes (p, e)
      · have hf : fitsPage limit byteBudget acc (p, e) = false := by
          obtain ⟨ha, hb, hc⟩ := h2
          simp only [fitsPage, decide_eq_false_iff_not, not_and, not_or]
          exact fun _ => ⟨by omega, h0.1 hb, by omega⟩
        rw [if_neg h1, if_pos h2, hf]; rfl
      · have hf : fitsPage limit byteBudget acc (p, e) = true := by
          simp only [fitsPage, decide_eq_true_eq]
          refine ⟨by omega, ?_⟩
          by_cases hb : 0 < byteBudget
          · by_cases ha : acc = []
            · exact Or.inr (Or.inl ha)
            · exact Or.inr (Or.inr (by by_contra hc; exact h2 ⟨hb, h0.2 ha, by omega⟩))
          · exact Or.inl (by omega)
        rw [if_neg h1, if_neg h2, if_pos hf, ← ih (acc ++ [(p, e)])]
        simp [lastPosition]

/-- **A batch is the page of the visible envelopes after the cursor.** -/
theorem readBatch_eq (db : Db) (now : ℕ) (m : Text) (limit byteBudget : ℤ) (c : ℕ) :
    readBatch db now m limit byteBudget c =
      let page := pageOf (fitsPage limit byteBudget) (after c (visible db now m))
      ⟨page.items, page.next.isSome, (page.next.map encodeMailboxCursor).getD []⟩ := by
  have h := selectEnvelopes_eq db now m limit byteBudget
    ((db.order m).scan (seconds now) fun p => c + 1 ≤ p) []
  rw [← after_visible] at h
  simp only [readBatch, pageOf]
  rw [show (⟨[], 0, 0, false⟩ : Selection) = ⟨[], (([] : List (ℕ × MailboxEnvelope)).map
    pageBytes).sum, lastPosition ([] : List (ℕ × MailboxEnvelope)), false⟩ from rfl, h]
  simp only
  cases (takePage (fitsPage limit byteBudget) [] (after c (visible db now m))).2 <;> simp

end Echolet
