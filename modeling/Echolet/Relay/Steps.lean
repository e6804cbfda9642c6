/-
  The relay as a transition system: one step for each transaction of the repository, with
  the clock moving in between.

  The ordering lock of a mailbox is held from the first read of the counter to the end of
  a backfill, and from there through a save; so a save and a page need a counter, and a
  backfill starts only where there is none.  `copies` is a ghost: the position and the
  serial number of the last copy stored under each key.

  * `Relay.Inv` is the invariant: a stored envelope stands under its own key and has an
    index entry at the position of its copy, and entries stay within the positions filled;
  * `Relay.At p e` says that `e` is live at position `p`; `Relay.Later` relates a state to
    those a run can reach, and its `back` says that what is live at a position issued
    earlier was live there already;
  * `At.mem_page` and `page_next` are what a page promises about such envelopes.
-/
import Echolet.Lib.Runs
import Echolet.Relay.MailboxRepo

namespace Echolet

structure RelayConfig where
  maxMessageBytes : ℤ
  retentionCap : ℕ
  maxMailboxBatch : ℤ
  senderUnackedQuota : ℤ

/-- The copy last stored under a key. -/
structure Copy where
  position : ℕ
  serial : ℕ

structure Relay where
  db : Db
  now : ℕ
  backfill : Text → Option Backfill
  serial : ℕ
  copies : Text → Option Copy

/-- An empty store at some time. -/
def Relay.init (now : ℕ) : Relay := ⟨.init, now, fun _ => none, 0, fun _ => none⟩

inductive RelayAct where
  /-- The transaction of a save whose deadline was computed at `t`. -/
  | save (e : MailboxEnvelope) (t : ℕ)
  | delete (mailboxID envelopeID : Text)
  | tick (ms : ℕ)
  | backfillScan (mailboxID : Text)
  | backfillWrite (mailboxID : Text)
  | backfillFinish (mailboxID : Text)
  | advanceReadMark (mailboxID deviceID : Text) (position : ℕ)

/-- The key an envelope is stored under. -/
def MailboxEnvelope.key (e : MailboxEnvelope) : Text :=
  mailboxEnvelopeKey e.recipientMailboxId e.envelopeId

namespace Relay

/-- Nobody holds the ordering lock of a mailbox and its counter exists. -/
def ordered (r : Relay) (mailboxID : Text) : Bool :=
  (r.db.sequence mailboxID).isSome && (r.backfill mailboxID).isNone

/-- The store after a save transaction, with the new copy recorded. -/
def save (cfg : RelayConfig) (r : Relay) (e : MailboxEnvelope) (t : ℕ) : Relay :=
  match saveTxn r.db r.now (retentionDeadlineSeconds cfg.retentionCap t e) e with
  | (.stored position, db) => { r with
      db := db, serial := r.serial + 1
      copies := Function.update r.copies e.key (some ⟨position, r.serial⟩) }
  | (_, db) => { r with db := db }

def step (cfg : RelayConfig) (r : Relay) : RelayAct → Option Relay
  | .save e t =>
    if Valid cfg.maxMessageBytes e ∧ t ≤ r.now ∧ r.ordered e.recipientMailboxId then
      some (r.save cfg e t)
    else none
  | .delete m id => some { r with db := deleteEnvelope r.db m id }
  | .tick ms => some { r with now := r.now + ms }
  | .backfillScan m =>
    if (r.db.sequence m).isNone ∧ (r.backfill m).isNone then
      some { r with backfill := Function.update r.backfill m (some ⟨backfillRecords r.db r.now m, 0⟩) }
    else none
  | .backfillWrite m =>
    match r.backfill m with
    | none => none
    | some b =>
      if b.written < b.records.length then
        some { r with db := backfillWrite r.db m b
                      backfill := Function.update r.backfill m (some b.advance) }
      else none
  | .backfillFinish m =>
    match r.backfill m with
    | none => none
    | some b =>
      if b.written < b.records.length then none
      else some { r with db := backfillFinish r.db m b, backfill := Function.update r.backfill m none }
  | .advanceReadMark m d position => some { r with db := advanceReadMark r.db r.now m d position }

/-- The positions of a mailbox that may have index entries. -/
def filled (r : Relay) (m : Text) : ℕ :=
  match r.backfill m with
  | some b => b.written
  | none => highestIssuedPosition r.db m

/-- What holds in every state of the relay. -/
structure Inv (cfg : RelayConfig) (r : Relay) : Prop where
  keyed : ∀ {k i}, r.db.envelope.get k = some i → k = i.value.key ∧ Valid cfg.maxMessageBytes i.value
  placed : ∀ {k i}, r.db.envelope.get k = some i → ∃ c, r.copies k = some c ∧ c.serial < r.serial ∧
    (r.db.order i.value.recipientMailboxId).get c.position = some ⟨i.value.envelopeId, i.expiresAt⟩
  counted : ∀ {k i}, r.db.envelope.get k = some i →
    (r.db.sequence i.value.recipientMailboxId).isSome = true
  aligned : ∀ {k k' i i' c c'}, r.db.envelope.get k = some i → r.db.envelope.get k' = some i' →
    i.value.recipientMailboxId = i'.value.recipientMailboxId → r.copies k = some c →
    r.copies k' = some c' → c.position < c'.position → c.serial < c'.serial
  index : ∀ {m p i}, (r.db.order m).get p = some i → 1 ≤ p ∧ p ≤ r.filled m
  counter : ∀ {m n}, r.db.sequence m = some n → 1 ≤ n ∧ r.backfill m = none
  flight : ∀ {m b}, r.backfill m = some b → b.written ≤ b.records.length

theorem Inv.init {cfg : RelayConfig} (now : ℕ) : Inv cfg (init now) := by
  constructor <;> simp [Relay.init, Db.init]

/-- The part of the invariant the transactions rely on: a counter is positive and ends the
    backfill, and a backfill gives positions to its own records only. -/
structure Locks (r : Relay) : Prop where
  counter : ∀ {m n}, r.db.sequence m = some n → 1 ≤ n ∧ r.backfill m = none
  flight : ∀ {m b}, r.backfill m = some b → b.written ≤ b.records.length

theorem Inv.locks {cfg : RelayConfig} {r : Relay} (h : Inv cfg r) : Locks r := ⟨h.counter, h.flight⟩

/-! ## The step lemmas -/

variable {cfg : RelayConfig} {r r' : Relay}

theorem ordered_iff {m : Text} : r.ordered m = true ↔
    (∃ n, r.db.sequence m = some n) ∧ r.backfill m = none := by
  simp [ordered, Option.isSome_iff_exists]

theorem Inv.ordered (h : Inv cfg r) {m : Text} (hs : (r.db.sequence m).isSome = true) :
    r.ordered m = true := by
  obtain ⟨n, hn⟩ := Option.isSome_iff_exists.1 hs
  exact ordered_iff.2 ⟨⟨n, hn⟩, (h.counter hn).2⟩

theorem filled_of_ordered {m : Text} (h : r.ordered m = true) :
    r.filled m = highestIssuedPosition r.db m := by
  rw [filled, (ordered_iff.1 h).2]

/-- The store after a save that allocated a position. -/
def stored (r : Relay) (e : MailboxEnvelope) (x position : ℕ) : Relay where
  db := { r.db with
    envelope := r.db.envelope.insert e.key ⟨e, x⟩
    order := Function.update r.db.order e.recipientMailboxId
      ((r.db.order e.recipientMailboxId).insert position ⟨e.envelopeId, x⟩)
    sequence := Function.update r.db.sequence e.recipientMailboxId (some (position + 1)) }
  now := r.now
  backfill := r.backfill
  serial := r.serial + 1
  copies := Function.update r.copies e.key (some ⟨position, r.serial⟩)

/-- **What a save does**: nothing where a visible envelope has the key, else it stores the
    envelope at the position after the highest issued. -/
theorem save_cases (h : Locks r) {e : MailboxEnvelope} {t : ℕ}
    (ho : r.ordered e.recipientMailboxId = true) :
    (∃ item, r.db.envelope.peek (seconds r.now) e.key = some item ∧ r.save cfg e t = r) ∨
    (r.db.envelope.peek (seconds r.now) e.key = none ∧
      r.save cfg e t = r.stored e (retentionDeadlineSeconds cfg.retentionCap t e)
        (highestIssuedPosition r.db e.recipientMailboxId + 1)) := by
  obtain ⟨⟨n, hn⟩, -⟩ := ordered_iff.1 ho
  have hn1 := (h.counter hn).1
  rw [MailboxEnvelope.key, save, saveTxn]
  cases hp : r.db.envelope.peek (seconds r.now)
      (mailboxEnvelopeKey e.recipientMailboxId e.envelopeId) with
  | some item =>
    refine Or.inl ⟨item, rfl, ?_⟩
    simp only
    split_ifs <;> rfl
  | none =>
    refine Or.inr ⟨rfl, ?_⟩
    have hnext : (if n = 0 then 1 else n) = n - 1 + 1 := by split_ifs <;> omega
    simp only [allocateMailboxPosition, hn, hnext, highestIssuedPosition]
    rfl

/-- What each step does, with its guard. -/
theorem step_cases {a : RelayAct} (hi : Locks r) (h : step cfg r a = some r') :
    (∃ e t, a = .save e t ∧ Valid cfg.maxMessageBytes e ∧ r.ordered e.recipientMailboxId = true ∧
      ((r.db.envelope.peek (seconds r.now) e.key).isSome = true ∧ r' = r ∨
        r.db.envelope.peek (seconds r.now) e.key = none ∧ r' = r.stored e (retentionDeadlineSeconds cfg.retentionCap t e)
          (highestIssuedPosition r.db e.recipientMailboxId + 1))) ∨
    (∃ m id, a = .delete m id ∧ r' = { r with db := deleteEnvelope r.db m id }) ∨
    (∃ ms, a = .tick ms ∧ r' = { r with now := r.now + ms }) ∨
    (∃ m, a = .backfillScan m ∧ r.db.sequence m = none ∧ r.backfill m = none ∧ r' = { r with
      backfill := Function.update r.backfill m (some ⟨backfillRecords r.db r.now m, 0⟩) }) ∨
    (∃ m b, a = .backfillWrite m ∧ r.backfill m = some b ∧ b.written < b.records.length ∧
      r' = { r with db := backfillWrite r.db m b
                    backfill := Function.update r.backfill m (some b.advance) }) ∨
    (∃ m b, a = .backfillFinish m ∧ r.backfill m = some b ∧ b.written = b.records.length ∧
      r' = { r with db := backfillFinish r.db m b, backfill := Function.update r.backfill m none }) ∨
    (∃ m d p, a = .advanceReadMark m d p ∧
      r' = { r with db := advanceReadMark r.db r.now m d p }) := by
  cases a with
  | save e t =>
    simp only [step] at h
    split_ifs at h with hc
    obtain ⟨hv, -, ho⟩ := hc
    cases h
    refine Or.inl ⟨e, t, rfl, hv, ho, ?_⟩
    rcases save_cases (t := t) hi ho with ⟨_, hp, h2⟩ | h2
    · exact Or.inl ⟨by rw [hp]; rfl, h2⟩
    · exact Or.inr h2
  | delete m id => cases h; exact Or.inr (Or.inl ⟨m, id, rfl, rfl⟩)
  | tick ms => cases h; exact Or.inr (Or.inr (Or.inl ⟨ms, rfl, rfl⟩))
  | backfillScan m =>
    simp only [step] at h
    split_ifs at h with hc
    cases h
    simp only [Option.isNone_iff_eq_none] at hc
    exact Or.inr (Or.inr (Or.inr (Or.inl ⟨m, rfl, hc.1, hc.2, rfl⟩)))
  | backfillWrite m =>
    simp only [step] at h
    cases hb : r.backfill m with
    | none => rw [hb] at h; cases h
    | some b =>
      simp only [hb] at h
      split_ifs at h with hc
      cases h
      exact Or.inr (Or.inr (Or.inr (Or.inr (Or.inl ⟨m, b, rfl, hb, hc, rfl⟩))))
  | backfillFinish m =>
    simp only [step] at h
    cases hb : r.backfill m with
    | none => rw [hb] at h; cases h
    | some b =>
      simp only [hb] at h
      split_ifs at h with hc
      cases h
      have := hi.flight hb
      exact Or.inr (Or.inr (Or.inr (Or.inr (Or.inr (Or.inl ⟨m, b, rfl, hb, by omega, rfl⟩)))))
  | advanceReadMark m d p =>
    cases h
    exact Or.inr (Or.inr (Or.inr (Or.inr (Or.inr (Or.inr ⟨m, d, p, rfl, rfl⟩)))))

/-! ## The invariant -/

/-- Valid envelopes under one key agree on mailbox and id. -/
theorem key_inj {e e' : MailboxEnvelope} (h : Valid cfg.maxMessageBytes e)
    (h' : Valid cfg.maxMessageBytes e') (hk : e.key = e'.key) :
    e.recipientMailboxId = e'.recipientMailboxId ∧ e.envelopeId = e'.envelopeId :=
  join_inj h.colon_notMem h'.colon_notMem hk

theorem Inv.position_bounds (h : Inv cfg r) {k : Text} {i : Item MailboxEnvelope} {c : Copy}
    (hk : r.db.envelope.get k = some i) (hc : r.copies k = some c) : 1 ≤ c.position ∧
      c.position ≤ highestIssuedPosition r.db i.value.recipientMailboxId := by
  obtain ⟨c', hc', -, ho⟩ := h.placed hk
  rw [hc, Option.some.injEq] at hc'
  subst hc'
  rw [← filled_of_ordered (h.ordered (h.counted hk))]
  exact h.index ho

@[simp] theorem highestIssued_stored (r : Relay) (e : MailboxEnvelope) (x p : ℕ) (m : Text) :
    highestIssuedPosition (r.stored e x p).db m =
      if m = e.recipientMailboxId then p else highestIssuedPosition r.db m := by
  simp only [highestIssuedPosition, stored, Function.update_apply]
  split_ifs with h <;> simp

theorem filled_stored {e : MailboxEnvelope} (h : r.ordered e.recipientMailboxId = true) (x p : ℕ)
    (m : Text) : (r.stored e x p).filled m =
      if m = e.recipientMailboxId then p else r.filled m := by
  rw [filled, highestIssued_stored]
  change (match r.backfill m with | some b => b.written | none => _) = _
  split_ifs with hm
  · rw [hm, (ordered_iff.1 h).2]
  · rw [filled]

theorem Inv.stored (h : Inv cfg r) {e : MailboxEnvelope} (hv : Valid cfg.maxMessageBytes e)
    (ho : r.ordered e.recipientMailboxId = true) (x : ℕ) :
    Inv cfg (r.stored e x (highestIssuedPosition r.db e.recipientMailboxId + 1)) := by
  set p := highestIssuedPosition r.db e.recipientMailboxId + 1 with hp
  have hget : ∀ k, (r.stored e x p).db.envelope.get k =
      if k = e.key then some ⟨e, x⟩ else r.db.envelope.get k := fun k => SortedMap.get_insert _ _ _ _
  have hcopies : ∀ k, (r.stored e x p).copies k =
      if k = e.key then some ⟨p, r.serial⟩ else r.copies k := fun k => Function.update_apply _ _ _ _
  have horder : ∀ m q, ((r.stored e x p).db.order m).get q =
      if m = e.recipientMailboxId ∧ q = p then some ⟨e.envelopeId, x⟩ else (r.db.order m).get q := by
    intro m q
    simp only [Relay.stored, Function.update_apply]
    by_cases hm : m = e.recipientMailboxId
    · subst hm; simp [SortedMap.get_insert]
    · simp [hm]
  have hlt : ∀ {k i c}, r.db.envelope.get k = some i → r.copies k = some c →
      i.value.recipientMailboxId = e.recipientMailboxId → c.position < p := by
    intro k i c hk hc hm
    have := (h.position_bounds hk hc).2
    rw [hm] at this; omega
  constructor
  · intro k i hk
    rw [hget] at hk
    split_ifs at hk with hke
    · cases hk; exact ⟨hke, hv⟩
    · exact h.keyed hk
  · intro k i hk
    rw [hget] at hk
    rw [hcopies]
    split_ifs at hk ⊢ with hke
    · cases hk
      exact ⟨_, rfl, Nat.lt_succ_self _, by rw [horder, if_pos ⟨rfl, rfl⟩]⟩
    · obtain ⟨c, hc, hs, hoc⟩ := h.placed hk
      refine ⟨c, hc, Nat.lt_succ_of_lt hs, ?_⟩
      rw [horder, if_neg, hoc]
      rintro ⟨hm, hcp⟩
      have := hlt hk hc hm; omega
  · intro k i hk
    rw [hget] at hk
    simp only [Relay.stored, Function.update_apply]
    split_ifs at hk ⊢ with hm hke hke
    · rfl
    · rfl
    · cases hk; exact absurd rfl hm
    · exact h.counted hk
  · intro k k' i i' c c' hk hk' hm hc hc' hcc
    rw [hget] at hk hk'
    rw [hcopies] at hc hc'
    split_ifs at hk hc hk' hc' with h1 h2 h2
    · cases hc; cases hc'; omega
    · cases hk; cases hc
      have := hlt hk' hc' hm.symm; simp only at hcc; omega
    · cases hk'; cases hc'
      obtain ⟨c₁, hc₁, hs, -⟩ := h.placed hk
      rw [hc] at hc₁; cases hc₁; exact hs
    · exact h.aligned hk hk' hm hc hc' hcc
  · intro m q i hq
    rw [horder] at hq
    rw [filled_stored ho]
    split_ifs at hq ⊢ with h1 h2 h2
    · omega
    · have := h.index hq
      rw [h1, filled_of_ordered ho] at this; omega
    · exact absurd h2.1 h1
    · exact h.index hq
  · intro m n hn
    simp only [Relay.stored, Function.update_apply] at hn
    split_ifs at hn with h1
    · cases hn; exact ⟨by omega, by rw [h1]; exact (ordered_iff.1 ho).2⟩
    · exact h.counter hn
  · exact h.flight

theorem Inv.delete (h : Inv cfg r) (m id : Text) :
    Inv cfg { r with db := deleteEnvelope r.db m id } := by
  have hget : ∀ {k i}, (deleteEnvelope r.db m id).envelope.get k = some i →
      r.db.envelope.get k = some i := by
    intro k i hk
    simp only [deleteEnvelope, SortedMap.get_erase] at hk
    split_ifs at hk; exact hk
  exact ⟨fun hk => h.keyed (hget hk), fun hk => h.placed (hget hk), fun hk => h.counted (hget hk),
    fun hk hk' => h.aligned (hget hk) (hget hk'), h.index, h.counter, h.flight⟩

theorem Inv.scan (h : Inv cfg r) {m : Text} (hs : r.db.sequence m = none) (hb : r.backfill m = none)
    (records : List (Text × ℕ)) :
    Inv cfg { r with backfill := Function.update r.backfill m (some ⟨records, 0⟩) } := by
  refine ⟨h.keyed, h.placed, h.counted, h.aligned, fun {m' p i} hp => ?_, fun {m' n} hn => ?_,
    fun {m' b} hb' => ?_⟩
  · have := h.index hp
    simp only [filled, Function.update_apply] at *
    split_ifs with hm
    · subst hm
      rw [hb] at this
      simpa only [highestIssuedPosition, hs] using this
    · exact this
  · simp only [Function.update_apply]
    split_ifs with hm
    · subst hm; rw [hs] at hn; cases hn
    · exact h.counter hn
  · simp only [Function.update_apply] at hb'
    split_ifs at hb' with hm
    · cases hb'; exact Nat.zero_le _
    · exact h.flight hb'

/-- **A batch writes its own positions and no other.** -/
theorem writeBatch_get : ∀ (batch : List (Text × ℕ)) (offset : ℕ) {p : ℕ} {order : Store ℕ Text},
    (writeBatch offset batch order).get p = if offset < p ∧ p ≤ offset + batch.length then
      (batch[p - (offset + 1)]?).map fun d => ⟨d.1, d.2⟩ else order.get p
  | [], offset, p, order => by
    rw [if_neg (by rintro ⟨h1, h2⟩; exact absurd h2 (not_le.2 h1))]; rfl
  | d :: batch, offset, p, order => by
    rw [writeBatch, writeBatch_get batch (offset + 1), SortedMap.get_insert, List.length_cons]
    by_cases hp : p = offset + 1
    · rw [if_neg (by omega), if_pos hp, if_pos (by omega), hp, Nat.sub_self]; rfl
    · rw [if_neg hp]
      by_cases h : offset + 1 < p ∧ p ≤ offset + 1 + batch.length
      · rw [if_pos h, if_pos (by omega),
          show p - (offset + 1) = p - (offset + 1 + 1) + 1 by omega, List.getElem?_cons_succ]
      · rw [if_neg h, if_neg (by omega)]

theorem get_writeBatch {batch : List (Text × ℕ)} {offset p : ℕ} {order : Store ℕ Text}
    {i : Item Text} (h : (writeBatch offset batch order).get p = some i) :
    (∃ d, batch[p - (offset + 1)]? = some d ∧ i = ⟨d.1, d.2⟩) ∧ offset < p ∧
      p ≤ offset + batch.length ∨ order.get p = some i := by
  rw [writeBatch_get] at h
  split_ifs at h with hp
  · obtain ⟨d, hd, hi⟩ := Option.map_eq_some_iff.1 h
    exact Or.inl ⟨⟨d, hd, hi.symm⟩, hp⟩
  · exact Or.inr h

theorem Inv.unordered (h : Inv cfg r) {m : Text} {b : Backfill} (hb : r.backfill m = some b) :
    r.db.sequence m = none := by
  cases hs : r.db.sequence m with
  | none => rfl
  | some n => rw [(h.counter hs).2] at hb; cases hb

theorem Inv.write (h : Inv cfg r) {m : Text} {b : Backfill} (hb : r.backfill m = some b) :
    Inv cfg { r with db := backfillWrite r.db m b
                     backfill := Function.update r.backfill m (some b.advance) } := by
  have hs := h.unordered hb
  have hother : ∀ {m' q}, m' ≠ m → ((backfillWrite r.db m b).order m').get q = (r.db.order m').get q :=
    fun hm => by simp [backfillWrite, Function.update_of_ne hm]
  refine ⟨h.keyed, fun {k i} hk => ?_, h.counted, h.aligned, fun {m' p i} hp => ?_,
    fun {m' n} hn => ?_, fun {m' b'} hb' => ?_⟩
  · obtain ⟨c, hc, hsr, ho⟩ := h.placed hk
    refine ⟨c, hc, hsr, (hother ?_).trans ho⟩
    rintro rfl
    have := h.counted hk
    rw [hs] at this; cases this
  · by_cases hm : m' = m
    · subst hm
      simp only [backfillWrite, Function.update_self] at hp
      simp only [filled, Function.update_self, Backfill.advance]
      have hf := h.flight hb
      rcases get_writeBatch hp with ⟨-, h1, h2⟩ | hp
      · rw [List.length_take, List.length_drop] at h2
        omega
      · have := h.index hp
        simp only [filled, hb] at this
        omega
    · rw [hother hm] at hp
      have := h.index hp
      simp only [filled, Function.update_of_ne hm] at *
      exact this
  · simp only [backfillWrite] at hn
    have hm : m' ≠ m := by rintro rfl; rw [hs] at hn; cases hn
    simp only [Function.update_of_ne hm]; exact h.counter hn
  · simp only [Function.update_apply] at hb'
    split_ifs at hb' with hm
    · cases hb'; simp only [Backfill.advance]; omega
    · exact h.flight hb'

theorem Inv.finish (h : Inv cfg r) {m : Text} {b : Backfill} (hb : r.backfill m = some b)
    (hw : b.written = b.records.length) : Inv cfg { r with
      db := backfillFinish r.db m b, backfill := Function.update r.backfill m none } := by
  have hs := h.unordered hb
  simp only [backfillFinish, hs]
  refine ⟨h.keyed, h.placed, fun {k i} hk => ?_, h.aligned, fun {m' p i} hp => ?_,
    fun {m' n} hn => ?_, fun {m' b'} hb' => ?_⟩
  · have := h.counted hk
    simp only [Function.update_apply]
    split_ifs
    · rfl
    · exact this
  · have := h.index hp
    simp only [filled, highestIssuedPosition, Function.update_apply] at *
    split_ifs with hm
    · subst hm
      simp only [hb] at this
      simp only
      omega
    · exact this
  · simp only [Function.update_apply] at *
    split_ifs at * with hm
    · cases hn; exact ⟨by omega, rfl⟩
    · exact h.counter hn
  · simp only [Function.update_apply] at hb'
    split_ifs at hb'
    exact h.flight hb'

@[simp] theorem advanceReadMark_envelope (db : Db) (now : ℕ) (m d : Text) (p : ℕ) :
    (advanceReadMark db now m d p).envelope = db.envelope := by
  rw [advanceReadMark]; cases markItem db now m d <;> simp only; split_ifs <;> rfl

@[simp] theorem advanceReadMark_order (db : Db) (now : ℕ) (m d : Text) (p : ℕ) :
    (advanceReadMark db now m d p).order = db.order := by
  rw [advanceReadMark]; cases markItem db now m d <;> simp only; split_ifs <;> rfl

@[simp] theorem advanceReadMark_sequence (db : Db) (now : ℕ) (m d : Text) (p : ℕ) :
    (advanceReadMark db now m d p).sequence = db.sequence := by
  rw [advanceReadMark]; cases markItem db now m d <;> simp only; split_ifs <;> rfl

/-- **The invariant holds after every step.** -/
theorem Inv.step {a : RelayAct} (h : Inv cfg r) (hst : step cfg r a = some r') : Inv cfg r' := by
  rcases step_cases h.locks hst with ⟨e, t, -, hv, ho, ⟨-, rfl⟩ | ⟨-, rfl⟩⟩ | ⟨m, id, -, rfl⟩ | ⟨ms, -, rfl⟩ |
    ⟨m, -, hs, hb, rfl⟩ | ⟨m, b, -, hb, -, rfl⟩ | ⟨m, b, -, hb, hw, rfl⟩ | ⟨m, d, p, -, rfl⟩
  · exact h
  · exact h.stored hv ho _
  · exact h.delete m id
  · exact ⟨h.keyed, h.placed, h.counted, h.aligned, h.index, h.counter, h.flight⟩
  · exact h.scan hs hb _
  · exact h.write hb
  · exact h.finish hb hw
  · constructor <;> simp only [filled, highestIssuedPosition, advanceReadMark_envelope,
      advanceReadMark_order, advanceReadMark_sequence]
    exacts [h.keyed, h.placed, h.counted, h.aligned, h.index, h.counter, h.flight]

theorem Inv.run {C : Relay → RelayAct → Prop} (h : Inv cfg r) (hr : Run (Relay.step cfg) C r r') :
    Inv cfg r' := hr.invariant (fun _ _ _ hi _ hst => hi.step hst) h

end Relay

/-! ## Concrete runs -/

/-- The configuration a relay runs with by default. -/
def defaultConfig : RelayConfig := ⟨262144, 7 * 24 * 60 * 60 * 1000, 100, 16⟩

def noteId (n : Char) : Text := "00000000-0000-4000-8000-00000000000".toList ++ [n]

/-- A short message for concrete runs. -/
def note (mailbox sender : Text) (n : Char) : MailboxEnvelope where
  type := "mailbox_envelope".toList
  version := 1
  envelopeId := noteId n
  messageId := noteId n
  senderIdentityId := sender
  senderDeviceId := nilUUID
  recipientIdentityId := []
  recipientDeviceId := nilUUID
  recipientMailboxId := mailbox
  payloadType := mailboxEnvelopePayloadType
  ciphertext := ['x']
  createdAtMs := 0
  expiresAtMs := 100000000
  sizeBytes := 1
  senderSignature := ['s']

/-- Give a mailbox without envelopes its counter. -/
def openMailbox (m : Text) : List RelayAct := [.backfillScan m, .backfillFinish m]

end Echolet
