/-
  Which envelopes an operation on one mailbox touches.

  All mailboxes share one key space, and a mailbox id may contain the separator: the
  envelopes of `m:x` lie under the prefix of `m`, and an acknowledgement of the id `x:id`
  in `m` removes the envelope `id` of `m:x`.

  * `NoExtension` says that no visible envelope belongs to a mailbox whose id extends
    another by a colon, `Isolated` is the condition on backfills and acknowledgements;
  * `isolation`: in every run of isolated steps pages hold envelopes of their mailbox only,
    the other operations touch only those exactly under their conditions, and results agree
    in stores that agree on the mailbox; `foreign_envelope_returned` is a run without it.
-/
import Echolet.Relay.MailboxHandler
import Echolet.Relay.Pages

namespace Echolet

namespace Relay

variable {cfg : RelayConfig} {r r' : Relay} {m : Text}

/-- No visible envelope with `p` belongs to a mailbox whose id extends `m` by a colon. -/
def NoExtension (r : Relay) (m : Text) (p : MailboxEnvelope → Bool) : Prop :=
  ∀ entry ∈ r.db.envelope.scan (seconds r.now) fun _ => true, p entry.2.value = true →
    hasMailboxPrefix m entry.2.value.recipientMailboxId = false

instance (r : Relay) (m : Text) (p : MailboxEnvelope → Bool) : Decidable (r.NoExtension m p) :=
  inferInstanceAs (Decidable (∀ entry ∈ _, _))

/-- Nothing visible is stored under an id with a colon. -/
def NoForeign (r : Relay) (m id : Text) : Prop :=
  ':' ∈ id → r.db.envelope.peek (seconds r.now) (mailboxEnvelopeKey m id) = none

instance (r : Relay) (m id : Text) : Decidable (r.NoForeign m id) :=
  inferInstanceAs (Decidable (_ → _))

/-- A backfill finds no envelope of a mailbox that extends its own, and an acknowledgement
    with a colon in its id removes nothing. -/
def Isolated (r : Relay) : RelayAct → Prop
  | .backfillScan m => r.NoExtension m fun _ => true
  | .delete m id => r.NoForeign m id
  | _ => True

instance (r : Relay) : (a : RelayAct) → Decidable (Isolated r a)
  | .backfillScan m => inferInstanceAs (Decidable (r.NoExtension m fun _ => true))
  | .delete m id => inferInstanceAs (Decidable (r.NoForeign m id))
  | .save _ _ | .tick _ | .backfillWrite _ | .backfillFinish _ | .advanceReadMark _ _ _ =>
    .isTrue trivial

theorem hasMailboxPrefix_key {m' id : Text} (hid : ':' ∉ id) :
    hasMailboxPrefix m (mailboxEnvelopeKey m' id) = true ↔
      m' = m ∨ hasMailboxPrefix m m' = true := by
  rw [hasMailboxPrefix_iff, hasMailboxPrefix_iff]
  constructor
  · rintro ⟨x, hx⟩
    rcases join_cases hid hx.symm with ⟨h, -⟩ | ⟨y, hy, -⟩
    · exact Or.inl h.symm
    · exact Or.inr ⟨y, hy⟩
  · rintro (rfl | ⟨x, rfl⟩)
    · exact ⟨id, rfl⟩
    · exact ⟨x ++ ':' :: id, by simp [mailboxEnvelopeKey]⟩

/-- No mailbox id extends itself. -/
theorem hasMailboxPrefix_self (m : Text) : hasMailboxPrefix m m = false := by
  rw [Bool.eq_false_iff, Ne, hasMailboxPrefix_iff]
  rintro ⟨x, hx⟩
  have := congrArg List.length hx
  simp at this

/-- **A prefix scan stays within its mailbox exactly when no mailbox extends it.** -/
theorem scan_isolated_iff (hi : Inv cfg r) (p : MailboxEnvelope → Bool) :
    (∀ e ∈ scanMailbox r.db r.now m, p e = true → e.recipientMailboxId = m) ↔
      r.NoExtension m p := by
  have hmem : ∀ e, e ∈ scanMailbox r.db r.now m ↔ ∃ k i,
      r.db.envelope.peek (seconds r.now) k = some i ∧ i.value = e ∧
        (e.recipientMailboxId = m ∨ hasMailboxPrefix m e.recipientMailboxId = true) := by
    intro e
    simp only [scanMailbox, List.mem_map, Prod.exists, Store.mem_scan]
    constructor
    · rintro ⟨k, i, ⟨hp, hk⟩, rfl⟩
      obtain ⟨rfl, hv⟩ := hi.keyed (Store.peek_eq_some.1 hk).1
      exact ⟨_, i, hk, rfl, (hasMailboxPrefix_key hv.colon_notMem).1 hp⟩
    · rintro ⟨k, i, hk, rfl, hp⟩
      obtain ⟨rfl, hv⟩ := hi.keyed (Store.peek_eq_some.1 hk).1
      exact ⟨_, i, ⟨(hasMailboxPrefix_key hv.colon_notMem).2 hp, hk⟩, rfl⟩
  constructor
  · rintro h ⟨k, i⟩ hentry hp
    rw [Bool.eq_false_iff]
    intro hx
    have he := h i.value ((hmem _).2 ⟨k, i, (Store.mem_scan.1 hentry).2, rfl, Or.inr hx⟩) hp
    rw [he, hasMailboxPrefix_self] at hx; cases hx
  · intro h e he hp
    obtain ⟨k, i, hk, rfl, hm | hx⟩ := (hmem e).1 he
    · exact hm
    · have := h (k, i) (Store.mem_scan.2 ⟨rfl, hk⟩) hp
      rw [hx] at this; cases this

/-- **What lies under a key is an envelope of the mailbox exactly when its id has no colon
    or nothing is there.** -/
theorem key_isolated_iff (hi : Inv cfg r) {id : Text} :
    (∀ i, r.db.envelope.peek (seconds r.now) (mailboxEnvelopeKey m id) = some i →
      i.value.recipientMailboxId = m) ↔ r.NoForeign m id := by
  constructor
  · intro h hc
    cases hp : r.db.envelope.peek (seconds r.now) (mailboxEnvelopeKey m id) with
    | none => rfl
    | some i =>
      obtain ⟨hk, hv⟩ := hi.keyed (Store.peek_eq_some.1 hp).1
      rw [MailboxEnvelope.key, h i hp] at hk
      have : id = i.value.envelopeId := by simpa [mailboxEnvelopeKey] using hk
      exact absurd hc (this ▸ hv.colon_notMem)
  · intro h i hp
    obtain ⟨hk, hv⟩ := hi.keyed (Store.peek_eq_some.1 hp).1
    by_cases hc : ':' ∈ id
    · rw [h hc] at hp; cases hp
    · exact (join_inj hc hv.colon_notMem hk).1.symm

/-! ## The index of an isolated run -/

/-- Index entries and backfills under way name ids without a colon. -/
structure Own (r : Relay) : Prop where
  index : ∀ {m p i}, (r.db.order m).get p = some i → ':' ∉ i.value
  flight : ∀ {m b}, r.backfill m = some b → ∀ d ∈ b.records, ':' ∉ d.1

theorem Own.init (now : ℕ) : Own (Relay.init now) := by
  constructor <;> simp [Relay.init, Db.init]

/-- The records of an isolated backfill are envelopes of its mailbox. -/
theorem backfillRecords_own (hi : Inv cfg r) (h : r.NoExtension m fun _ => true) :
    ∀ d ∈ backfillRecords r.db r.now m, ':' ∉ d.1 := by
  intro d hd
  rw [backfillRecords, List.mem_map] at hd
  obtain ⟨⟨k, i⟩, hk, rfl⟩ := hd
  obtain ⟨hp, hpk⟩ := Store.mem_scan.1 hk
  obtain ⟨rfl, hv⟩ := hi.keyed (Store.peek_eq_some.1 hpk).1
  have hm := (scan_isolated_iff hi fun _ => true).2 h i.value
    (List.mem_map.2 ⟨_, hk, rfl⟩) rfl
  simp only [MailboxEnvelope.key, hm, mailboxEnvelopeKey, afterPrefix_key]
  exact hv.colon_notMem

theorem Own.step {a : RelayAct} (h : Own r) (hi : Inv cfg r) (hc : Isolated r a)
    (hst : step cfg r a = some r') : Own r' := by
  rcases step_cases hi.locks hst with ⟨e, t, -, hv, ho, ⟨-, rfl⟩ | ⟨-, rfl⟩⟩ | ⟨m, id, -, rfl⟩ |
    ⟨ms, -, rfl⟩ | ⟨m, rfl, hs, hb, rfl⟩ | ⟨m, b, -, hb, -, rfl⟩ | ⟨m, b, -, hb, hw, rfl⟩ |
    ⟨m, d, p, -, rfl⟩
  · exact h
  · refine ⟨fun {m' p i} hp => ?_, h.flight⟩
    simp only [stored, Function.update_apply] at hp
    split_ifs at hp with hm
    · rw [SortedMap.get_insert] at hp
      split_ifs at hp
      · cases hp; exact hv.colon_notMem
      · exact h.index hp
    · exact h.index hp
  · exact ⟨h.index, h.flight⟩
  · exact ⟨h.index, h.flight⟩
  · refine ⟨h.index, fun {m' b} hb' => ?_⟩
    simp only [Function.update_apply] at hb'
    split_ifs at hb' with hm
    · cases hb'; exact backfillRecords_own hi hc
    · exact h.flight hb'
  · refine ⟨fun {m' p i} hp => ?_, fun {m' b'} hb' => ?_⟩
    · simp only [backfillWrite, Function.update_apply] at hp
      split_ifs at hp with hm
      · rcases get_writeBatch hp with ⟨⟨d, hd, rfl⟩, -⟩ | hp
        · exact h.flight hb d (List.mem_of_mem_drop (List.mem_of_mem_take (List.mem_of_getElem? hd)))
        · exact h.index hp
      · exact h.index hp
    · simp only [Function.update_apply] at hb'
      split_ifs at hb'
      · cases hb'; exact fun d hd => h.flight hb d hd
      · exact h.flight hb'
  · refine ⟨fun {m' p i} hp => ?_, fun {m' b'} hb' => ?_⟩
    · simp only [backfillFinish, hi.unordered hb] at hp; exact h.index hp
    · simp only [Function.update_apply] at hb'
      split_ifs at hb'; exact h.flight hb'
  · exact ⟨fun hp => h.index (by simpa using hp), h.flight⟩

theorem Own.run (h : Own r) (hi : Inv cfg r) (hr : Run (Relay.step cfg) Isolated r r') : Own r' := by
  have := hr.invariant (I := fun r => Own r ∧ Inv cfg r)
    (fun _ _ _ hs hc hst => ⟨hs.1.step hs.2 hc hst, hs.2.step hst⟩) ⟨h, hi⟩
  exact this.1

/-- Pages of an index without foreign ids hold envelopes of the mailbox. -/
theorem Own.visible (h : Own r) (hi : Inv cfg r) {x : ℕ × MailboxEnvelope}
    (hx : x ∈ visible r.db r.now m) : x.2.recipientMailboxId = m := by
  obtain ⟨p, e⟩ := x
  obtain ⟨i, hp, ⟨y, hy⟩, -⟩ := mem_visible.1 hx
  have hc := h.index (Store.peek_eq_some.1 hp).1
  exact (key_isolated_iff hi).2 (fun h => absurd h hc) _ hy

/-! ## Stores that agree on a mailbox -/

/-- Two states agree on everything that belongs to a mailbox. -/
structure Agree (m : Text) (r r' : Relay) : Prop where
  now : r.now = r'.now
  order : r.db.order m = r'.db.order m
  sequence : r.db.sequence m = r'.db.sequence m
  envelope : ∀ id, ':' ∉ id → r.db.envelope.get (mailboxEnvelopeKey m id) =
    r'.db.envelope.get (mailboxEnvelopeKey m id)

theorem Agree.symm (h : Agree m r r') : Agree m r' r :=
  ⟨h.now.symm, h.order.symm, h.sequence.symm, fun id hid => (h.envelope id hid).symm⟩

theorem Agree.peek (h : Agree m r r') {id : Text} (hid : ':' ∉ id) :
    r.db.envelope.peek (seconds r.now) (mailboxEnvelopeKey m id) =
      r'.db.envelope.peek (seconds r'.now) (mailboxEnvelopeKey m id) := by
  rw [Store.peek, Store.peek, h.envelope id hid, h.now]

theorem Agree.visible (h : Agree m r r') (ho : Own r) :
    visible r.db r.now m = visible r'.db r'.now m := by
  rw [Echolet.visible, Echolet.visible, ← h.order, ← h.now]
  refine List.filterMap_congr fun entry hentry => ?_
  have hc : ':' ∉ entry.2.value :=
    ho.index (Store.peek_eq_some.1 (Store.mem_scan.1 (show (entry.1, entry.2) ∈ _ from hentry)).2).1
  have := h.peek hc
  rw [← h.now] at this
  rw [addressed, addressed, this]

/-- A selection of envelopes of the mailbox from a prefix scan is the same in both. -/
theorem Agree.scan (h : Agree m r r') (hi : Inv cfg r) (hi' : Inv cfg r')
    {p : MailboxEnvelope → Bool} (hn : r.NoExtension m p) (hn' : r'.NoExtension m p) :
    (r.db.envelope.scan (seconds r.now) (hasMailboxPrefix m)).filter (fun x => p x.2.value) =
      (r'.db.envelope.scan (seconds r'.now) (hasMailboxPrefix m)).filter fun x => p x.2.value := by
  have key : ∀ {r r' : Relay}, Agree m r r' → Inv cfg r → r.NoExtension m p → ∀ x,
      x ∈ (r.db.envelope.scan (seconds r.now) (hasMailboxPrefix m)).filter (fun x => p x.2.value) →
      x ∈ (r'.db.envelope.scan (seconds r'.now) (hasMailboxPrefix m)).filter
        fun x => p x.2.value := by
    rintro r r' h hi hn ⟨k, i⟩ hx
    obtain ⟨hx, hp⟩ := List.mem_filter.1 hx
    obtain ⟨hpre, hk⟩ := Store.mem_scan.1 hx
    obtain ⟨rfl, hv⟩ := hi.keyed (Store.peek_eq_some.1 hk).1
    have hm := (scan_isolated_iff hi p).2 hn i.value (List.mem_map.2 ⟨_, hx, rfl⟩) hp
    refine List.mem_filter.2 ⟨Store.mem_scan.2 ⟨hpre, ?_⟩, hp⟩
    rw [MailboxEnvelope.key, hm] at hk ⊢
    rw [← h.peek hv.colon_notMem]; exact hk
  have hs : ∀ r : Relay, ((r.db.envelope.scan (seconds r.now) (hasMailboxPrefix m)).filter
      fun x => p x.2.value).Pairwise fun a b => a.1 < b.1 :=
    fun r => (Store.scan_sorted _ _ _).sublist List.filter_sublist
  refine List.Perm.eq_of_pairwise (fun a b _ _ hab hba => absurd hab hba.asymm) (hs r) (hs r') ?_
  refine (List.perm_ext_iff_of_nodup ((hs r).imp fun {a b} hab => ?_)
    ((hs r').imp fun {a b} hab => ?_)).2 fun x => ⟨key h hi hn x, key h.symm hi' hn' x⟩
  · rintro rfl; exact lt_irrefl _ hab
  · rintro rfl; exact lt_irrefl _ hab

end Relay

open Relay

variable {cfg : RelayConfig}

/-- The counting loop sees only the sender's unexpired envelopes. -/
theorem countLive_filter {nowMS : ℕ} {sender : Text} {limit : ℤ} :
    ∀ (es : List MailboxEnvelope) (n : ℕ), countLive nowMS sender limit es n =
      countLive nowMS sender limit (es.filter fun e =>
        decide ((nowMS : ℤ) < e.expiresAtMs ∧ e.senderIdentityId = sender)) n
  | [], n => rfl
  | e :: es, n => by
    have hstop : ∀ es : List MailboxEnvelope, 0 < limit ∧ limit ≤ n →
        countLive nowMS sender limit es n = n := by
      intro es h; cases es with
      | nil => rfl
      | cons e es => rw [countLive, if_pos h]
    by_cases h1 : 0 < limit ∧ limit ≤ n
    · rw [hstop _ h1, hstop _ h1]
    · have ih : ∀ n, countLive nowMS sender limit es n = _ := countLive_filter es
      rw [List.filter_cons]
      by_cases hp : (nowMS : ℤ) < e.expiresAtMs ∧ e.senderIdentityId = sender
      · rw [if_pos (decide_eq_true hp), countLive, countLive, if_neg h1, if_neg h1,
          if_neg (not_le.2 hp.1), if_neg (not_le.2 hp.1), if_neg (not_not.2 hp.2),
          if_neg (not_not.2 hp.2), ih]
      · rw [if_neg (by simpa using hp), countLive, if_neg h1, ih]
        split_ifs with h2 h3
        · rfl
        · rfl
        · exact absurd ⟨not_le.1 h2, not_not.1 h3⟩ hp

/-- What `SenderOccupancy` counts. -/
def countedFor (r : Relay) (sender : Text) (e : MailboxEnvelope) : Bool :=
  decide ((r.now : ℤ) < e.expiresAtMs ∧ e.senderIdentityId = sender)

section
variable {m : Text} {r r' : Relay}

theorem Relay.Agree.backfillRecords (h : Agree m r r') (hi : Inv cfg r) (hi' : Inv cfg r')
    (hn : r.NoExtension m fun _ => true) (hn' : r'.NoExtension m fun _ => true) :
    backfillRecords r.db r.now m = backfillRecords r'.db r'.now m := by
  have := h.scan hi hi' hn hn'
  simp only [List.filter_true] at this
  rw [Echolet.backfillRecords, this, Echolet.backfillRecords]

theorem Relay.Agree.senderOccupancy (h : Agree m r r') (hi : Inv cfg r) (hi' : Inv cfg r')
    {sender id : Text} (hid : ':' ∉ id) (limit : ℤ) (hn : r.NoExtension m (countedFor r sender))
    (hn' : r'.NoExtension m (countedFor r' sender)) :
    senderOccupancy r.db r.now m sender id limit = senderOccupancy r'.db r'.now m sender id limit := by
  have hc : countedFor r' sender = countedFor r sender := by funext e; rw [countedFor, countedFor, h.now]
  rw [hc] at hn'
  have hs := congrArg (List.map fun x : Text × Item MailboxEnvelope => x.2.value)
    (h.scan hi hi' hn hn')
  have hf : ∀ r : Relay, ∀ p : MailboxEnvelope → Bool, (scanMailbox r.db r.now m).filter p =
      ((r.db.envelope.scan (seconds r.now) (hasMailboxPrefix m)).filter
        fun x => p x.2.value).map fun x => x.2.value := fun r p => List.filter_map
  rw [Echolet.senderOccupancy, Echolet.senderOccupancy, h.peek hid, countLive_filter (scanMailbox _ _ _),
    countLive_filter (scanMailbox r'.db _ _), ← h.now]
  change (if _ then _ else SenderMailboxOccupancy.mk (countLive _ _ _
    ((scanMailbox r.db r.now m).filter (countedFor r sender)) _) _) = _
  rw [hf, hs, ← hf, ← h.now]
  rfl

theorem Relay.Agree.saveTxn (h : Agree m r r') {e : MailboxEnvelope}
    (hv : Valid cfg.maxMessageBytes e) (hm : e.recipientMailboxId = m) (x : ℕ) :
    (saveTxn r.db r.now x e).1 = (saveTxn r'.db r'.now x e).1 := by
  have hp := h.peek hv.colon_notMem
  rw [Echolet.saveTxn, Echolet.saveTxn, hm, hp]
  cases r'.db.envelope.peek (seconds r'.now) (mailboxEnvelopeKey m e.envelopeId) with
  | some item => simp only; split_ifs <;> rfl
  | none => simp only [allocateMailboxPosition, h.sequence]

end

/-- **Operations stay within their mailbox.** In every state reached by isolated steps a page
    of `m` holds envelopes of `m` only; a prefix scan, the count of a sender and an
    acknowledgement touch only those exactly when no mailbox extends `m`, holds a counted
    envelope, or stores something under an id with a colon; and all results are the same in
    two such states that agree on `m`. -/
theorem isolation {t : ℕ} {r : Relay} (hr : Run (step cfg) Isolated (init t) r) (m : Text) :
    (∀ limit byteBudget c, ∀ x ∈ (readBatch r.db r.now m limit byteBudget c).items,
      x.2.recipientMailboxId = m) ∧
    ((∀ e ∈ scanMailbox r.db r.now m, e.recipientMailboxId = m) ↔ r.NoExtension m fun _ => true) ∧
    (∀ sender, (∀ e ∈ scanMailbox r.db r.now m, countedFor r sender e = true →
      e.recipientMailboxId = m) ↔ r.NoExtension m (countedFor r sender)) ∧
    (∀ id, (∀ i, r.db.envelope.peek (seconds r.now) (mailboxEnvelopeKey m id) = some i →
      i.value.recipientMailboxId = m) ↔ r.NoForeign m id) ∧
    ∀ t' r', Run (step cfg) Isolated (init t') r' → Agree m r r' →
      (∀ limit byteBudget c, readBatch r.db r.now m limit byteBudget c =
        readBatch r'.db r'.now m limit byteBudget c) ∧
      (r.NoExtension m (fun _ => true) → r'.NoExtension m (fun _ => true) →
        backfillRecords r.db r.now m = backfillRecords r'.db r'.now m) ∧
      (∀ sender id limit, ':' ∉ id → r.NoExtension m (countedFor r sender) →
        r'.NoExtension m (countedFor r' sender) →
        senderOccupancy r.db r.now m sender id limit =
          senderOccupancy r'.db r'.now m sender id limit) ∧
      (∀ e x, Valid cfg.maxMessageBytes e → e.recipientMailboxId = m →
        (saveTxn r.db r.now x e).1 = (saveTxn r'.db r'.now x e).1) ∧
      ∀ id, r.NoForeign m id → r'.NoForeign m id →
        r.db.envelope.peek (seconds r.now) (mailboxEnvelopeKey m id) =
          r'.db.envelope.peek (seconds r'.now) (mailboxEnvelopeKey m id) := by
  have hi : Inv cfg r := (Inv.init t).run hr
  have ho : Own r := (Own.init t).run (Inv.init t) hr
  refine ⟨fun limit byteBudget c x hx => ?_, ?_, fun sender => scan_isolated_iff hi _,
    fun id => key_isolated_iff hi, fun t' r' hr' ha => ?_⟩
  · rw [readBatch_page] at hx; exact ho.visible hi (mem_page hx).1
  · rw [← scan_isolated_iff hi]; simp
  · have hi' : Inv cfg r' := (Inv.init t').run hr'
    refine ⟨fun limit byteBudget c => ?_, fun hn hn' => ha.backfillRecords hi hi' hn hn',
      fun sender id limit hid hn hn' => ha.senderOccupancy hi hi' hid limit hn hn',
      fun e x hv hm => ha.saveTxn hv hm x, fun id hn hn' => ?_⟩
    · rw [readBatch_page, readBatch_page, Relay.page, Relay.page, ha.visible ho]
    · by_cases hc : ':' ∈ id
      · rw [hn hc, hn' hc]
      · exact ha.peek hc

/-- A mailbox, another whose id extends it, and an envelope in each. -/
def apart : List RelayAct := openMailbox ['v'] ++ openMailbox ['v', ':', 'x'] ++
  [.save (note ['v'] ['a'] '1') 0, .save (note ['v', ':', 'x'] ['a'] '2') 0]

theorem isolation_apart : ∃ r, Run (step defaultConfig) Isolated (init 0) r ∧
    (∀ x ∈ (readBatch r.db r.now ['v'] 100 pollEnvelopeByteBudget 0).items,
      x.2.recipientMailboxId = ['v']) ∧ ¬ r.NoExtension ['v'] (fun _ => true) := by
  let r := (replay (step defaultConfig) Isolated apart (init 0)).get (by decide +kernel)
  have hr : Run (step defaultConfig) Isolated (init 0) r := Run.of_replay (Option.some_get _).symm
  exact ⟨r, hr, (isolation hr ['v']).1 100 pollEnvelopeByteBudget 0, by decide +kernel⟩

/-- An envelope sent to `v:x` before the first poll of `v`. -/
def sentBeside : List RelayAct := openMailbox ['v', ':', 'x'] ++
  [.save (note ['v', ':', 'x'] ['a'] '1') 0, .backfillScan ['v'], .backfillWrite ['v'],
    .backfillFinish ['v']]

/-- The backfill of `v` indexes the envelope of `v:x`, and a page of `v` returns it. -/
theorem foreign_envelope_returned : ¬ ∀ r, Run (step defaultConfig) Any (init 0) r → ∀ m,
    ∀ x ∈ (readBatch r.db r.now m 100 pollEnvelopeByteBudget 0).items,
      x.2.recipientMailboxId = m := by
  intro h
  let r := (replay (step defaultConfig) Any sentBeside (init 0)).get (by decide +kernel)
  have hitems : (readBatch r.db r.now ['v'] 100 pollEnvelopeByteBudget 0).items =
      [(1, note ['v', ':', 'x'] ['a'] '1')] := by decide +kernel
  have := h r (Run.of_replay (Option.some_get _).symm) ['v'] (1, note ['v', ':', 'x'] ['a'] '1')
    (by rw [hitems]; simp)
  cases this

end Echolet
