/-
  Interrupted backfills of the mailbox index.

  A backfill gives the records it found the positions from 1 on, and its counter is written
  last; one that is interrupted leaves the entries of its batches and is run again from the
  start.  When the second run finds fewer records than the first one wrote entries for, the
  entries beyond them stay, above the counter.

  * `backfillStep` is the relay whose backfills can be interrupted at any step;
  * `Recoverable` is the condition on a scan that rules the leftovers out;
  * `Migrated` is the invariant: what holds while a backfill runs and once the counter exists;
  * `backfill_recovers`: in every run of such steps, once the counter exists every stored
    envelope has one entry, at a position the counter is past, and later saves come after;
  * `interrupted_backfill_duplicates` is a run that leaves an entry behind.
-/
import Echolet.Relay.MailboxHandler
import Echolet.Relay.Ordering

namespace Echolet

inductive BackfillAct where
  | relay (a : RelayAct)
  /-- The process or one of the transactions of a backfill fails. -/
  | interrupt (mailboxID : Text)

namespace Relay

/-- One step of a relay that can be interrupted. -/
def backfillStep (cfg : RelayConfig) (r : Relay) : BackfillAct → Option Relay
  | .relay a => step cfg r a
  | .interrupt m => some { r with backfill := Function.update r.backfill m none }

/-- A mailbox of a store from before the index, with any envelopes in it. -/
structure Unindexed (m : Text) (r : Relay) : Prop where
  keyed : ∀ {k i}, r.db.envelope.get k = some i → k = i.value.key ∧ ':' ∉ i.value.envelopeId
  locks : Locks r
  counter : r.db.sequence m = none
  index : ∀ p, (r.db.order m).get p = none
  idle : r.backfill m = none

/-- The visible entries of the mailbox are no further than the records a scan finds. -/
def WithinRecords (r : Relay) (m : Text) : Prop :=
  ∀ entry ∈ (r.db.order m).scan (seconds r.now) fun _ => true,
    entry.1 ≤ (backfillRecords r.db r.now m).length

instance (r : Relay) (m : Text) : Decidable (r.WithinRecords m) :=
  inferInstanceAs (Decidable (∀ entry ∈ _, _))

/-- A backfill of the mailbox starts where no entry lies beyond what it finds, and a save
    stores an id anew only when no visible entry addresses it. -/
def Recoverable (m : Text) (r : Relay) : BackfillAct → Prop
  | .relay (.backfillScan m') => m' = m → r.WithinRecords m
  | .relay (.save e t) => e.recipientMailboxId = m → FreshId r (.save e t)
  | _ => True

instance (m : Text) (r : Relay) (a : BackfillAct) : Decidable (Recoverable m r a) := by
  unfold Recoverable; split <;> infer_instance

variable {cfg : RelayConfig} {r r' r'' r₀ : Relay} {m : Text}

/-! ## The invariant -/

/-- What holds while a backfill of the mailbox is under way: it knows every stored envelope,
    its entries are its records, and nothing visible lies beyond them. -/
structure Filling (r : Relay) (m : Text) (b : Backfill) : Prop where
  distinct : (b.records.map (·.1)).Nodup
  within : ∀ {p i}, (r.db.order m).peek (seconds r.now) p = some i → p ≤ b.records.length
  written : ∀ {p d}, p < b.written → b.records[p]? = some d →
    (r.db.order m).get (p + 1) = some ⟨d.1, d.2⟩
  found : ∀ {k i}, r.db.envelope.get k = some i → i.Live (seconds r.now) →
    i.value.recipientMailboxId = m → (i.value.envelopeId, i.expiresAt) ∈ b.records

/-- What holds once the counter exists: each stored envelope has an entry, visible entries
    have distinct ids, and the counter is past them. -/
structure Indexed (r : Relay) (m : Text) (n : ℕ) : Prop where
  within : ∀ {p i}, (r.db.order m).peek (seconds r.now) p = some i → p < n
  placed : ∀ {k i}, r.db.envelope.get k = some i → i.Live (seconds r.now) →
    i.value.recipientMailboxId = m →
      ∃ p, (r.db.order m).get p = some ⟨i.value.envelopeId, i.expiresAt⟩
  single : ∀ {p q id}, r.Addresses m p id → r.Addresses m q id → p = q

structure Migrated (m : Text) (r : Relay) : Prop where
  keyed : ∀ {k i}, r.db.envelope.get k = some i → k = i.value.key ∧ ':' ∉ i.value.envelopeId
  locks : Locks r
  positive : ∀ {p i}, (r.db.order m).get p = some i → 1 ≤ p
  filling : ∀ {b}, r.backfill m = some b → Filling r m b
  indexed : ∀ {n}, r.db.sequence m = some n → Indexed r m n

theorem Unindexed.migrated (h : Unindexed m r) : Migrated m r where
  keyed := h.keyed
  locks := h.locks
  positive hp := by rw [h.index] at hp; cases hp
  filling hb := by rw [h.idle] at hb; cases hb
  indexed hn := by rw [h.counter] at hn; cases hn

/-- Locks survive whatever leaves counters and backfills alone or ends backfills. -/
theorem Locks.of_fewer (h : Locks r) (hs : r'.db.sequence = r.db.sequence)
    (hb : ∀ {m b}, r'.backfill m = some b → r.backfill m = some b) : Locks r' := by
  refine ⟨fun {m n} hn => ?_, fun hb' => h.flight (hb hb')⟩
  rw [hs] at hn
  refine ⟨(h.counter hn).1, ?_⟩
  cases hb' : r'.backfill m with
  | none => rfl
  | some b => exact absurd ((h.counter hn).2.symm.trans (hb hb')) (by simp)

/-- Removing envelopes, letting time pass and ending backfills keep the invariant. -/
theorem Migrated.of_fewer (h : Migrated m r) (hnow : r.now ≤ r'.now)
    (hg : ∀ {k i}, r'.db.envelope.get k = some i → r.db.envelope.get k = some i)
    (ho : r'.db.order m = r.db.order m) (hs : r'.db.sequence = r.db.sequence)
    (hb : ∀ {m b}, r'.backfill m = some b → r.backfill m = some b) : Migrated m r' := by
  have hsec := seconds_mono hnow
  have hpeek : ∀ {p i}, (r'.db.order m).peek (seconds r'.now) p = some i →
      (r.db.order m).peek (seconds r.now) p = some i := by
    intro p i hp
    rw [ho] at hp
    exact Store.peek_mono hp hsec
  refine ⟨fun hk => h.keyed (hg hk), h.locks.of_fewer hs hb, fun hp => ?_, fun hb' => ?_,
    fun hn => ?_⟩
  · rw [ho] at hp; exact h.positive hp
  · have hf := h.filling (hb hb')
    refine ⟨hf.distinct, fun hp => hf.within (hpeek hp), fun hp hd => ?_, fun hk hl hm => ?_⟩
    · rw [ho]; exact hf.written hp hd
    · exact hf.found (hg hk) (hl.mono hsec) hm
  · rw [hs] at hn
    have hx := h.indexed hn
    refine ⟨fun hp => hx.within (hpeek hp), fun hk hl hm => ?_, fun hp hq => ?_⟩
    · rw [ho]; exact hx.placed (hg hk) (hl.mono hsec) hm
    · obtain ⟨i, hi, hv⟩ := hp
      obtain ⟨j, hj, hw⟩ := hq
      exact hx.single ⟨i, hpeek hi, hv⟩ ⟨j, hpeek hj, hw⟩

/-! ## Steps -/

theorem stored_get (r : Relay) (e : MailboxEnvelope) (x p : ℕ) (k : Text) :
    (r.stored e x p).db.envelope.get k =
      if k = e.key then some ⟨e, x⟩ else r.db.envelope.get k := SortedMap.get_insert _ _ _ _

theorem stored_order (r : Relay) (e : MailboxEnvelope) (x p : ℕ) (m : Text) (q : ℕ) :
    ((r.stored e x p).db.order m).get q =
      if m = e.recipientMailboxId ∧ q = p then some ⟨e.envelopeId, x⟩
      else (r.db.order m).get q := by
  simp only [Relay.stored, Function.update_apply]
  by_cases hm : m = e.recipientMailboxId
  · subst hm; simp [SortedMap.get_insert]
  · simp [hm]

theorem Locks.stored (h : Locks r) {e : MailboxEnvelope}
    (ho : r.ordered e.recipientMailboxId = true) (x p : ℕ) : Locks (r.stored e x p) := by
  refine ⟨fun {m n} hn => ?_, h.flight⟩
  simp only [Relay.stored, Function.update_apply] at hn
  split_ifs at hn with hm
  · cases hn
    exact ⟨by omega, by rw [hm]; exact (ordered_iff.1 ho).2⟩
  · exact h.counter hn

/-- The entry an envelope gets at the next position addresses it and no other entry does. -/
theorem Indexed.stored {n : ℕ} {e : MailboxEnvelope} (h : Indexed r e.recipientMailboxId n)
    (hu : r.Unaddressed e.recipientMailboxId e.envelopeId) (x : ℕ) :
    Indexed (r.stored e x n) e.recipientMailboxId (n + 1) := by
  -- a visible entry is the new one or was there before
  have hpeek : ∀ {p i}, ((r.stored e x n).db.order e.recipientMailboxId).peek (seconds r.now) p = some i →
      p = n ∧ i.value = e.envelopeId ∨
        p ≠ n ∧ (r.db.order e.recipientMailboxId).peek (seconds r.now) p = some i := by
    intro p i hp
    obtain ⟨hp, hl⟩ := Store.peek_eq_some.1 hp
    rw [stored_order] at hp
    split_ifs at hp with hpn
    · cases hp; exact Or.inl ⟨hpn.2, rfl⟩
    · exact Or.inr ⟨fun hp' => hpn ⟨rfl, hp'⟩, Store.peek_eq_some.2 ⟨hp, hl⟩⟩
  refine ⟨fun hp => ?_, fun {k i} hk hl hm => ?_, fun {p q id} hp hq => ?_⟩
  · rcases hpeek hp with ⟨rfl, -⟩ | ⟨-, hp⟩
    · exact Nat.lt_succ_self _
    · exact Nat.lt_succ_of_lt (h.within hp)
  · rw [stored_get] at hk
    split_ifs at hk with hke
    · cases hk
      exact ⟨n, by rw [stored_order, if_pos ⟨rfl, rfl⟩]⟩
    · obtain ⟨p, hp⟩ := h.placed hk hl hm
      have hlt := h.within (Store.peek_eq_some.2 ⟨hp, hl⟩)
      exact ⟨p, by rw [stored_order, if_neg (by omega)]; exact hp⟩
  · obtain ⟨i, hi, hv⟩ := hp
    obtain ⟨j, hj, hw⟩ := hq
    rcases hpeek hi with ⟨hpn, hie⟩ | ⟨-, hi'⟩ <;> rcases hpeek hj with ⟨hqn, hje⟩ | ⟨-, hj'⟩
    · rw [hpn, hqn]
    · exact absurd ⟨j, hj', hw.trans (hv.symm.trans hie)⟩ hu.not_addresses
    · exact absurd ⟨i, hi', hv.trans (hw.symm.trans hje)⟩ hu.not_addresses
    · exact h.single ⟨i, hi', hv⟩ ⟨j, hj', hw⟩

theorem Migrated.stored (h : Migrated m r) {e : MailboxEnvelope} (hv : Valid cfg.maxMessageBytes e)
    (ho : r.ordered e.recipientMailboxId = true)
    (hu : e.recipientMailboxId = m → r.Unaddressed e.recipientMailboxId e.envelopeId) (x : ℕ) :
    Migrated m (r.stored e x (highestIssuedPosition r.db e.recipientMailboxId + 1)) := by
  obtain ⟨⟨n, hn⟩, hidle⟩ := ordered_iff.1 ho
  have hn1 := (h.locks.counter hn).1
  have hnext : highestIssuedPosition r.db e.recipientMailboxId + 1 = n := by
    simp only [highestIssuedPosition, hn]; omega
  rw [hnext]
  have hcol := hv.colon_notMem
  have hkeyed : ∀ {k i}, (r.stored e x n).db.envelope.get k = some i →
      k = i.value.key ∧ ':' ∉ i.value.envelopeId := by
    intro k i hk
    rw [stored_get] at hk
    split_ifs at hk with hke
    · cases hk; exact ⟨hke, hcol⟩
    · exact h.keyed hk
  by_cases hm : e.recipientMailboxId = m
  · subst hm
    refine ⟨hkeyed, h.locks.stored ho x n, fun {p i} hp => ?_, fun hb => ?_, fun {n'} hn' => ?_⟩
    · rw [stored_order] at hp
      split_ifs at hp with hpn
      · omega
      · exact h.positive hp
    · rw [show (r.stored e x n).backfill = r.backfill from rfl, hidle] at hb; cases hb
    · simp only [Relay.stored, Function.update_self] at hn'
      cases hn'
      exact (h.indexed hn).stored (hu rfl) x
  · -- the mailbox of the save is another one: its index and its envelopes are untouched
    have horder : ∀ p, ((r.stored e x n).db.order m).get p = (r.db.order m).get p := fun p => by
      rw [stored_order, if_neg fun hp => hm hp.1.symm]
    have hpeek : ∀ p, ((r.stored e x n).db.order m).peek (seconds r.now) p =
        (r.db.order m).peek (seconds r.now) p := fun p => by rw [Store.peek, Store.peek, horder]
    have hget : ∀ {k i}, (r.stored e x n).db.envelope.get k = some i →
        i.value.recipientMailboxId = m → r.db.envelope.get k = some i := by
      intro k i hk him
      rw [stored_get] at hk
      split_ifs at hk with hke
      · cases hk; exact absurd him hm
      · exact hk
    have haddr : ∀ {p id}, (r.stored e x n).Addresses m p id → r.Addresses m p id := by
      rintro p id ⟨i, hi, hv⟩
      exact ⟨i, (hpeek p).symm.trans hi, hv⟩
    refine ⟨hkeyed, h.locks.stored ho x n, fun {p i} hp => ?_, fun {b} hb => ?_, fun {n'} hn' => ?_⟩
    · rw [horder] at hp; exact h.positive hp
    · have hf := h.filling hb
      refine ⟨hf.distinct, fun {p i} hp => hf.within ((hpeek p).symm.trans hp), fun hp hd => ?_,
        fun hk hl him => hf.found (hget hk him) hl him⟩
      rw [horder]; exact hf.written hp hd
    · rw [show (r.stored e x n).db.sequence m = r.db.sequence m from
        Function.update_of_ne (Ne.symm hm) _ _] at hn'
      have hx := h.indexed hn'
      refine ⟨fun {p i} hp => hx.within ((hpeek p).symm.trans hp), fun hk hl him => ?_,
        fun hp hq => hx.single (haddr hp) (haddr hq)⟩
      obtain ⟨p, hp⟩ := hx.placed (hget hk him) hl him
      exact ⟨p, (horder p).trans hp⟩

/-- What a scan of the mailbox finds: every visible envelope stored there. -/
theorem mem_backfillRecords (hkeyed : ∀ {k i}, r.db.envelope.get k = some i → k = i.value.key)
    {k : Text} {i : Item MailboxEnvelope} (hk : r.db.envelope.get k = some i)
    (hl : i.Live (seconds r.now)) (hm : i.value.recipientMailboxId = m) :
    (i.value.envelopeId, i.expiresAt) ∈ backfillRecords r.db r.now m := by
  have hke : k = m ++ ':' :: i.value.envelopeId := by rw [hkeyed hk, ← hm]; rfl
  refine List.mem_map.2 ⟨(k, i), Store.mem_scan.2 ⟨?_, Store.peek_eq_some.2 ⟨hk, hl⟩⟩, ?_⟩
  · rw [hasMailboxPrefix_iff]; exact ⟨_, hke⟩
  · rw [hke, afterPrefix_key]

theorem Migrated.scan (h : Migrated m r) {m' : Text} (hs : r.db.sequence m' = none)
    (hc : m' = m → r.WithinRecords m) : Migrated m { r with
      backfill := Function.update r.backfill m' (some ⟨backfillRecords r.db r.now m', 0⟩) } := by
  refine ⟨h.keyed, ⟨fun {m₁ n} hn => ?_, fun {m₁ b} hb => ?_⟩, h.positive, fun {b} hb => ?_,
    fun hn => ?_⟩
  · have hne : m₁ ≠ m' := by rintro rfl; rw [hs] at hn; cases hn
    simp only [Function.update_of_ne hne]
    exact h.locks.counter hn
  · simp only [Function.update_apply] at hb
    split_ifs at hb
    · cases hb; exact Nat.zero_le _
    · exact h.locks.flight hb
  · simp only [Function.update_apply] at hb
    split_ifs at hb with hm
    · subst hm; cases hb
      refine ⟨backfillRecords_nodup _ _ _, fun {p i} hp => ?_, fun hp => absurd hp (Nat.not_lt_zero _),
        fun hk hl him => mem_backfillRecords (fun hk => (h.keyed hk).1) hk hl him⟩
      exact hc rfl (p, i) (Store.mem_scan.2 ⟨rfl, hp⟩)
    · have hf := h.filling hb
      exact ⟨hf.distinct, hf.within, hf.written, hf.found⟩
  · have hx := h.indexed hn
    exact ⟨hx.within, hx.placed, hx.single⟩

theorem Migrated.write (h : Migrated m r) {m' : Text} {b : Backfill} (hb : r.backfill m' = some b) :
    Migrated m { r with db := backfillWrite r.db m' b
                        backfill := Function.update r.backfill m' (some b.advance) } := by
  have hs : r.db.sequence m' = none := by
    cases hs : r.db.sequence m' with
    | none => rfl
    | some n => rw [(h.locks.counter hs).2] at hb; cases hb
  have hw := h.locks.flight hb
  have hlocks : Locks { r with db := backfillWrite r.db m' b
                               backfill := Function.update r.backfill m' (some b.advance) } := by
    refine ⟨fun {m₁ n} hn => ?_, fun {m₁ b'} hb' => ?_⟩
    · change r.db.sequence m₁ = some n at hn
      have hne : m₁ ≠ m' := by rintro rfl; rw [hs] at hn; cases hn
      simp only [Function.update_of_ne hne]
      exact h.locks.counter hn
    · simp only [Function.update_apply] at hb'
      split_ifs at hb'
      · cases hb'; simp only [Backfill.advance]; omega
      · exact h.locks.flight hb'
  by_cases hm : m' = m
  · subst hm
    have hf := h.filling hb
    -- where the batch wrote, and what it left alone
    have horder : ∀ p, ((backfillWrite r.db m' b).order m').get p =
        if b.written < p ∧ p ≤ b.advance.written then
          (b.records[p - 1]?).map fun d => ⟨d.1, d.2⟩ else (r.db.order m').get p := by
      intro p
      simp only [backfillWrite, Function.update_self]
      rw [writeBatch_get, List.length_take, List.length_drop, Backfill.advance]
      by_cases hp : b.written < p ∧ p ≤ min (b.written + mailboxBackfillBatch) b.records.length
      · rw [if_pos hp, if_pos (by omega), List.getElem?_take, if_pos (by omega), List.getElem?_drop,
          show b.written + (p - (b.written + 1)) = p - 1 by omega]
      · rw [if_neg hp, if_neg (by omega)]
    have hadv : b.advance.written ≤ b.records.length := by simp only [Backfill.advance]; omega
    refine ⟨h.keyed, hlocks, fun {p i} hp => ?_, fun {b'} hb' => ?_, fun {n} hn => ?_⟩
    · change ((backfillWrite r.db m' b).order m').get p = some i at hp
      rw [horder] at hp
      split_ifs at hp with hpw
      · omega
      · exact h.positive hp
    · simp only [Function.update_self, Option.some.injEq] at hb'
      subst hb'
      refine ⟨hf.distinct, fun {p i} hp => ?_, fun {p d} hp hd => ?_, hf.found⟩
      · change ((backfillWrite r.db m' b).order m').peek _ p = some i at hp
        obtain ⟨hp, hl⟩ := Store.peek_eq_some.1 hp
        rw [horder] at hp
        split_ifs at hp with hpw
        · exact hpw.2.trans hadv
        · exact hf.within (Store.peek_eq_some.2 ⟨hp, hl⟩)
      · change ((backfillWrite r.db m' b).order m').get (p + 1) = _
        rw [horder]
        by_cases hpw : b.written < p + 1
        · rw [if_pos ⟨hpw, hp⟩, Nat.add_sub_cancel, show b.records[p]? = some d from hd]; rfl
        · rw [if_neg fun hp => hpw hp.1]
          exact hf.written (by omega) hd
    · change r.db.sequence m' = some n at hn
      rw [hs] at hn; cases hn
  · have horder : (backfillWrite r.db m' b).order m = r.db.order m :=
      Function.update_of_ne (Ne.symm hm) _ _
    refine ⟨h.keyed, hlocks, fun {p i} hp => ?_, fun {b'} hb' => ?_, fun {n} hn => ?_⟩
    · change ((backfillWrite r.db m' b).order m).get p = some i at hp
      rw [horder] at hp; exact h.positive hp
    · simp only [Function.update_of_ne (Ne.symm hm)] at hb'
      have hf := h.filling hb'
      refine ⟨hf.distinct, ?_, ?_, hf.found⟩ <;> simp only [horder]
      exacts [hf.within, hf.written]
    · have hx := h.indexed hn
      refine ⟨?_, ?_, ?_⟩ <;> simp only [horder, Addresses]
      exacts [hx.within, hx.placed, hx.single]

/-- **The counter makes a filled index an index.** -/
theorem Filling.indexed {b : Backfill} (h : Filling r m b) (hw : b.written = b.records.length)
    (hpos : ∀ {p i}, (r.db.order m).get p = some i → 1 ≤ p) : Indexed r m (b.records.length + 1) := by
  refine ⟨fun hp => Nat.lt_succ_of_le (h.within hp), fun hk hl hm => ?_, fun {p q id} hp hq => ?_⟩
  · obtain ⟨p, hp⟩ := List.getElem?_of_mem (h.found hk hl hm)
    have hlt := (List.getElem?_eq_some_iff.1 hp).1
    exact ⟨p + 1, h.written (by omega) hp⟩
  · -- a visible entry is the record before its position, and records have distinct ids
    have hrecord : ∀ {p}, r.Addresses m p id → 1 ≤ p ∧ (b.records.map (·.1))[p - 1]? = some id := by
      rintro p ⟨i, hi, rfl⟩
      have hle := h.within hi
      obtain ⟨hg, -⟩ := Store.peek_eq_some.1 hi
      have h1 := hpos hg
      have hlt : p - 1 < b.records.length := by omega
      have hd := h.written (by omega : p - 1 < b.written) (List.getElem?_eq_getElem hlt)
      rw [Nat.sub_add_cancel h1, hg] at hd
      refine ⟨h1, ?_⟩
      rw [List.getElem?_map, List.getElem?_eq_getElem hlt, Option.some.inj hd]; rfl
    obtain ⟨hp1, hp⟩ := hrecord hp
    obtain ⟨hq1, hq⟩ := hrecord hq
    have := (List.getElem?_inj (List.getElem?_eq_some_iff.1 hp).1 h.distinct).1 (hp.trans hq.symm)
    omega

theorem Migrated.finish (h : Migrated m r) {m' : Text} {b : Backfill} (hb : r.backfill m' = some b)
    (hw : b.written = b.records.length) : Migrated m { r with
      db := backfillFinish r.db m' b, backfill := Function.update r.backfill m' none } := by
  have hs : r.db.sequence m' = none := by
    cases hs : r.db.sequence m' with
    | none => rfl
    | some n => rw [(h.locks.counter hs).2] at hb; cases hb
  simp only [backfillFinish, hs]
  refine ⟨h.keyed, ⟨fun {m₁ n} hn => ?_, fun {m₁ b'} hb' => ?_⟩, h.positive, fun {b'} hb' => ?_,
    fun {n} hn => ?_⟩
  · simp only [Function.update_apply] at *
    split_ifs at * with hm
    · cases hn; exact ⟨by omega, rfl⟩
    · exact h.locks.counter hn
  · simp only [Function.update_apply] at hb'
    split_ifs at hb'
    exact h.locks.flight hb'
  · simp only [Function.update_apply] at hb'
    split_ifs at hb'
    have hf := h.filling hb'
    exact ⟨hf.distinct, hf.within, hf.written, hf.found⟩
  · simp only [Function.update_apply] at hn
    split_ifs at hn with hm
    · subst hm; cases hn
      have hx := (h.filling hb).indexed hw h.positive
      exact ⟨hx.within, hx.placed, hx.single⟩
    · have hx := h.indexed hn
      exact ⟨hx.within, hx.placed, hx.single⟩

/-- **The invariant holds after every step that meets the condition.** -/
theorem Migrated.step {a : BackfillAct} (h : Migrated m r) (hc : Recoverable m r a)
    (hst : backfillStep cfg r a = some r') : Migrated m r' := by
  cases a with
  | interrupt m' =>
    cases hst
    refine h.of_fewer le_rfl id rfl rfl fun {m₁ b} hb => ?_
    simp only [Function.update_apply] at hb
    split_ifs at hb; exact hb
  | relay a =>
    rcases step_cases h.locks hst with ⟨e, t, rfl, hv, ho, ⟨-, rfl⟩ | ⟨hp, rfl⟩⟩ | ⟨m', x, -, rfl⟩ |
      ⟨ms, -, rfl⟩ | ⟨m', rfl, hs, -, rfl⟩ | ⟨m', b, -, hb, -, rfl⟩ | ⟨m', b, -, hb, hw, rfl⟩ |
      ⟨m', d, p, -, rfl⟩
    · exact h
    · exact h.stored hv ho (fun hm => hc hm hp) _
    · refine h.of_fewer le_rfl (fun {k i} hk => ?_) rfl rfl id
      simp only [deleteEnvelope, SortedMap.get_erase] at hk
      split_ifs at hk; exact hk
    · exact h.of_fewer (Nat.le_add_right _ _) id rfl rfl id
    · exact h.scan hs hc
    · exact h.write hb
    · exact h.finish hb hw
    · exact h.of_fewer le_rfl (fun hk => by simpa using hk) (by simp) (by simp) id

theorem Migrated.run (h : Migrated m r) (hr : Run (backfillStep cfg) (Recoverable m) r r') :
    Migrated m r' := hr.invariant (fun _ _ _ hi hc hst => hi.step hc hst) h

/-! ## Positions over a run -/

/-- The counter never goes back. -/
theorem backfillStep_counter {a : BackfillAct} {n : ℕ} (h : Locks r)
    (hst : backfillStep cfg r a = some r') (hn : r.db.sequence m = some n) :
    ∃ n', r'.db.sequence m = some n' ∧ n ≤ n' := by
  cases a with
  | interrupt m' => cases hst; exact ⟨n, hn, le_rfl⟩
  | relay a =>
    rcases step_cases h hst with ⟨e, t, -, hv, ho, ⟨-, rfl⟩ | ⟨-, rfl⟩⟩ | ⟨m', id, -, rfl⟩ |
      ⟨ms, -, rfl⟩ | ⟨m', -, hs, -, rfl⟩ | ⟨m', b, -, hb, -, rfl⟩ | ⟨m', b, -, hb, hw, rfl⟩ |
      ⟨m', d, p, -, rfl⟩
    · exact ⟨n, hn, le_rfl⟩
    · by_cases hm : m = e.recipientMailboxId
      · subst hm
        exact ⟨_, Function.update_self _ _ _, by simp only [highestIssuedPosition, hn]; omega⟩
      · exact ⟨n, (Function.update_of_ne hm _ _).trans hn, le_rfl⟩
    · exact ⟨n, hn, le_rfl⟩
    · exact ⟨n, hn, le_rfl⟩
    · exact ⟨n, hn, le_rfl⟩
    · exact ⟨n, hn, le_rfl⟩
    · refine ⟨n, ?_, le_rfl⟩
      unfold backfillFinish
      cases hs : r.db.sequence m' with
      | some _ => exact hn
      | none =>
        have hm : m ≠ m' := by rintro rfl; rw [hs] at hn; cases hn
        exact (Function.update_of_ne hm _ _).trans hn
    · exact ⟨n, by simpa using hn, le_rfl⟩

theorem backfillRun_counter {n : ℕ} (h : Migrated m r)
    (hr : Run (backfillStep cfg) (Recoverable m) r r') (hn : r.db.sequence m = some n) :
    ∃ n', r'.db.sequence m = some n' ∧ n ≤ n' := by
  induction hr with
  | refl => exact ⟨n, hn, le_rfl⟩
  | tail hr _ hst ih =>
    obtain ⟨n₁, hn₁, hle⟩ := ih
    obtain ⟨n₂, hn₂, hle'⟩ := backfillStep_counter (h.run hr).locks hst hn₁
    exact ⟨n₂, hn₂, hle.trans hle'⟩

theorem highestIssued_of_counter {n : ℕ} (hn : r.db.sequence m = some n) :
    highestIssuedPosition r.db m = n - 1 := by simp only [highestIssuedPosition, hn]

/-- A stored envelope has one visible entry. -/
theorem Indexed.addressed_once {n x : ℕ} {e : MailboxEnvelope} (h : Indexed r e.recipientMailboxId n)
    (hp : r.db.envelope.peek (seconds r.now) e.key = some ⟨e, x⟩) :
    ∃! p, r.Addresses e.recipientMailboxId p e.envelopeId := by
  obtain ⟨hg, hl⟩ := Store.peek_eq_some.1 hp
  obtain ⟨p, ho⟩ := h.placed hg hl rfl
  have ha : r.Addresses e.recipientMailboxId p e.envelopeId :=
    ⟨_, Store.peek_eq_some.2 ⟨ho, hl⟩, rfl⟩
  exact ⟨p, ha, fun q hq => h.single hq ha⟩

/-- The position a page resumes at is one the counter is past. -/
theorem Indexed.cursor_lt {n : ℕ} (h : Indexed r m n) {limit byteBudget : ℤ} {c position : ℕ}
    (hl : 0 < limit) (hne : (readBatch r.db r.now m limit byteBudget c).nextCursor ≠ [])
    (hd : decodeMailboxCursor (readBatch r.db r.now m limit byteBudget c).nextCursor =
      some position) : position < n := by
  rw [readBatch_page] at hne hd
  simp only at hne hd
  cases hp : (r.page m limit byteBudget c).next with
  | none => simp [hp] at hne
  | some n' =>
    rw [hp] at hd
    obtain rfl : position = n' := decodeMailboxCursor_encode hd
    obtain ⟨v, hv⟩ := pageOf_next_mem (fitsPage_first hl byteBudget) page_ordered hp
    obtain ⟨i, hi, -⟩ := mem_visible.1 (mem_page hv).1
    exact h.within hi

/-- **A save gives a position after all that are visible and leaves their entries.** -/
theorem Indexed.save_after {e : MailboxEnvelope} {t n : ℕ} (h : Indexed r e.recipientMailboxId n)
    (hl : Locks r) (hn : r.db.sequence e.recipientMailboxId = some n)
    (hp : r.db.envelope.peek (seconds r.now) e.key = none)
    (hst : step cfg r (.save e t) = some r') :
    (∃ x, (r'.db.order e.recipientMailboxId).get n = some ⟨e.envelopeId, x⟩) ∧
      ∀ q id, r.Addresses e.recipientMailboxId q id →
        q < n ∧ r'.Addresses e.recipientMailboxId q id := by
  obtain ⟨e', t', ha, -, -, ⟨hp', -⟩ | ⟨-, rfl⟩⟩ :=
    (step_cases hl hst).resolve_right (by rintro (h | h | h | h | h | h) <;> simp at h)
  · cases ha
    rw [hp] at hp'; cases hp'
  · cases ha
    have hnext : highestIssuedPosition r.db e.recipientMailboxId + 1 = n := by
      have := (hl.counter hn).1
      rw [highestIssued_of_counter hn]; omega
    rw [hnext]
    refine ⟨⟨_, by rw [stored_order, if_pos ⟨rfl, rfl⟩]⟩, ?_⟩
    rintro q id ⟨i, hi, hv⟩
    have hlt := h.within hi
    obtain ⟨hi, hil⟩ := Store.peek_eq_some.1 hi
    refine ⟨hlt, i, Store.peek_eq_some.2 ⟨?_, hil⟩, hv⟩
    rw [stored_order, if_neg (by omega)]
    exact hi

end Relay

open Relay

/-- **A backfill recovers from interruptions.** In every run from a store of before the index,
    with backfills interrupted anywhere and interleaved with anything, if every scan finds at
    least as many records as there are positions in use and no id is stored anew while an entry
    addresses it, then once the mailbox has its counter every envelope stored in it has exactly
    one visible entry; the positions in use have all been issued, so a report of any cursor
    passes; and a save stores its entry after them and leaves theirs. -/
theorem backfill_recovers {cfg : RelayConfig} {m : Text} {r₀ r : Relay} (hu : Unindexed m r₀)
    (hr : Run (backfillStep cfg) (Recoverable m) r₀ r) (hs : (r.db.sequence m).isSome = true) :
    (∀ e x, e.recipientMailboxId = m → r.db.envelope.peek (seconds r.now) e.key = some ⟨e, x⟩ →
      ∃! p, r.Addresses m p e.envelopeId) ∧
    (∀ p id, r.Addresses m p id → p ≤ highestIssuedPosition r.db m) ∧
    ∀ r', Run (backfillStep cfg) (Recoverable m) r r' →
      (∀ limit byteBudget c position, 0 < limit →
        (readBatch r.db r.now m limit byteBudget c).nextCursor ≠ [] →
        decodeMailboxCursor (readBatch r.db r.now m limit byteBudget c).nextCursor =
          some position →
        readThroughWithinIssued r'.db m
          (some (readBatch r.db r.now m limit byteBudget c).nextCursor) position = .ok ()) ∧
      ∀ e t r'', e.recipientMailboxId = m → step cfg r' (.save e t) = some r'' →
        r'.db.envelope.peek (seconds r'.now) e.key = none →
        ∃ n x, (r''.db.order m).get n = some ⟨e.envelopeId, x⟩ ∧
          (∀ q id, r.Addresses m q id → q < n) ∧
          ∀ q id, r'.Addresses m q id → q < n ∧ r''.Addresses m q id := by
  have hm := hu.migrated.run hr
  obtain ⟨n, hn⟩ := Option.isSome_iff_exists.1 hs
  have hx := hm.indexed hn
  refine ⟨fun e x he hp => ?_, fun p id hp => ?_, fun r' hr' => ⟨?_, ?_⟩⟩
  · subst he
    exact hx.addressed_once hp
  · obtain ⟨i, hi, -⟩ := hp
    have := hx.within hi
    rw [highestIssued_of_counter hn]; omega
  all_goals obtain ⟨n', hn', hle⟩ := backfillRun_counter hm hr' hn
  · intro limit byteBudget c position hl hne hd
    have := hx.cursor_lt hl hne hd
    rw [readThroughWithinIssued, if_neg]
    rw [highestIssued_of_counter hn']
    omega
  · intro e t r'' he hst hp
    subst he
    obtain ⟨⟨x, hnew⟩, hold⟩ := ((hm.run hr').indexed hn').save_after (hm.run hr').locks hn' hp hst
    refine ⟨n', x, hnew, fun q id hq => ?_, hold⟩
    obtain ⟨i, hi, -⟩ := hq
    exact (hx.within hi).trans_le hle

/-- A store from before the index: two notes in one mailbox. -/
def twoUnindexed : Relay :=
  let one := SortedMap.empty.insert (note ['m'] ['a'] '1').key ⟨note ['m'] ['a'] '1', 100000⟩
  let two := one.insert (note ['m'] ['a'] '2').key ⟨note ['m'] ['a'] '2', 100000⟩
  { Relay.init 0 with db := { Db.init with envelope := two } }

theorem twoUnindexed_unindexed : Unindexed ['m'] twoUnindexed where
  keyed {k i} h := by
    simp only [twoUnindexed, SortedMap.get_insert, SortedMap.get_empty] at h
    split_ifs at h with h2 h1
    · cases h; exact ⟨h2, by decide⟩
    · cases h; exact ⟨h1, by decide⟩
  locks := ⟨fun {m n} h => by simp [twoUnindexed, Db.init] at h,
    fun {m b} h => by simp [twoUnindexed, Relay.init] at h⟩
  counter := rfl
  index _ := rfl
  idle := rfl

/-- A backfill interrupted before its counter, and run again to the end. -/
def backfilledAgain (between : List BackfillAct) : List BackfillAct :=
  [.relay (.backfillScan ['m']), .relay (.backfillWrite ['m']), .interrupt ['m']] ++ between ++
    [.relay (.backfillScan ['m']), .relay (.backfillWrite ['m']), .relay (.backfillFinish ['m'])]

theorem backfill_recovers_two : ∃ r,
    Run (backfillStep defaultConfig) (Recoverable ['m']) twoUnindexed r ∧
    ∃! p, r.Addresses ['m'] p (noteId '2') := by
  let r := (replay (backfillStep defaultConfig) (Recoverable ['m']) (backfilledAgain [])
    twoUnindexed).get (by decide +kernel)
  have hr : Run (backfillStep defaultConfig) (Recoverable ['m']) twoUnindexed r :=
    Run.of_replay (Option.some_get _).symm
  exact ⟨r, hr, (backfill_recovers twoUnindexed_unindexed hr (by decide +kernel)).1
    (note ['m'] ['a'] '2') 100000 rfl (by decide +kernel)⟩

/-- The first note is acknowledged between the two backfills: the second note is left with the
    entry of either, and the counter is not past the later one. -/
theorem interrupted_backfill_duplicates : ¬ ∀ (r : Relay) (e : MailboxEnvelope) (x : ℕ),
    Run (backfillStep defaultConfig) Any twoUnindexed r → (r.db.sequence ['m']).isSome = true →
      e.recipientMailboxId = ['m'] → r.db.envelope.peek (seconds r.now) e.key = some ⟨e, x⟩ →
      (∃! p, r.Addresses ['m'] p e.envelopeId) ∧
        ∀ p id, r.Addresses ['m'] p id → p ≤ highestIssuedPosition r.db ['m'] := by
  intro h
  let r := (replay (backfillStep defaultConfig) Any
    (backfilledAgain [.relay (.delete ['m'] (noteId '1'))]) twoUnindexed).get (by decide +kernel)
  have hp : ∀ p ∈ [1, 2],
      (r.db.order ['m']).peek (seconds r.now) p = some ⟨noteId '2', 100000⟩ := by decide +kernel
  have hr : Run (backfillStep defaultConfig) Any twoUnindexed r :=
    Run.of_replay (Option.some_get _).symm
  obtain ⟨-, hle⟩ := h r (note ['m'] ['a'] '2') 100000 hr (by decide +kernel) rfl
    (by decide +kernel)
  have htwo : 2 ≤ highestIssuedPosition r.db ['m'] := hle 2 _ ⟨_, hp 2 (by decide), rfl⟩
  exact absurd htwo (by decide +kernel)

end Echolet
