/-
  One position for each envelope.

  Deleting an envelope leaves its index entry, which is skipped while it addresses nothing.
  An envelope stored again under the same id is addressed by the old entry as well as by
  its own, as long as the old entry has not reached its deadline.

  * `FreshId` is the condition on a save that rules this out;
  * `one_position`: in every run of such steps each stored envelope has exactly one visible
    index entry, no page holds an envelope twice, and along a walk envelopes come in the
    order they were stored in;
  * `stored_again_twice` is a run that breaks the condition, and its page.
-/
import Echolet.Relay.Walk

namespace Echolet

namespace Relay

variable {cfg : RelayConfig} {r r' : Relay} {m : Text} {p q : ℕ}

/-- A visible index entry of the mailbox at `p` addresses this envelope id. -/
def Addresses (r : Relay) (m : Text) (p : ℕ) (id : Text) : Prop :=
  ∃ i, (r.db.order m).peek (seconds r.now) p = some i ∧ i.value = id

/-- No visible index entry of the mailbox addresses this envelope id. -/
def Unaddressed (r : Relay) (m id : Text) : Prop :=
  ∀ entry ∈ (r.db.order m).scan (seconds r.now) fun _ => true, entry.2.value ≠ id

instance (r : Relay) (m id : Text) : Decidable (r.Unaddressed m id) :=
  inferInstanceAs (Decidable (∀ entry ∈ _, _))

theorem Unaddressed.not_addresses {id : Text} (h : r.Unaddressed m id) : ¬ r.Addresses m p id := by
  rintro ⟨i, hi, hv⟩
  exact h (p, i) (Store.mem_scan.2 ⟨rfl, hi⟩) hv

/-- A save that stores an envelope anew finds no visible entry addressing its id. -/
def FreshId (r : Relay) : RelayAct → Prop
  | .save e _ => r.db.envelope.peek (seconds r.now) e.key = none →
      r.Unaddressed e.recipientMailboxId e.envelopeId
  | _ => True

instance (r : Relay) : (a : RelayAct) → Decidable (FreshId r a)
  | .save _ _ => inferInstanceAs (Decidable (_ → _))
  | .delete _ _ | .tick _ | .backfillScan _ | .backfillWrite _ | .backfillFinish _
  | .advanceReadMark _ _ _ => .isTrue trivial

/-- Two visible entries that address one stored envelope are one entry.  Ids with a colon
    come from the backfill alone, which gives each a single position. -/
structure Single (r : Relay) : Prop where
  own : ∀ {m p q id}, ':' ∉ id → r.Addresses m p id → r.Addresses m q id →
    (r.db.envelope.peek (seconds r.now) (mailboxEnvelopeKey m id)).isSome = true → p = q
  foreign : ∀ {m p q i j}, (r.db.order m).get p = some i → (r.db.order m).get q = some j →
    i.value = j.value → ':' ∈ i.value → p = q
  flight : ∀ {m b}, r.backfill m = some b → (b.records.map (·.1)).Nodup ∧
    ∀ p i, (r.db.order m).get p = some i → ∃ d, b.records[p - 1]? = some d ∧ d.1 = i.value

theorem Single.init (now : ℕ) : Single (Relay.init now) := by
  constructor <;> simp [Relay.init, Db.init, Addresses, Store.peek]

/-- Whatever takes liveness away keeps entries single. -/
theorem Single.of_fewer (h : Single r) (hnow : r.now ≤ r'.now)
    (hg : ∀ {k i}, r'.db.envelope.get k = some i → r.db.envelope.get k = some i)
    (ho : r'.db.order = r.db.order) (hb : ∀ {m b}, r'.backfill m = some b → r.backfill m = some b) :
    Single r' := by
  have hsec := seconds_mono hnow
  have ha : ∀ {m p id}, r'.Addresses m p id → r.Addresses m p id := by
    rintro m p id ⟨i, hi, hv⟩
    rw [ho] at hi
    exact ⟨i, Store.peek_mono hi hsec, hv⟩
  refine ⟨fun hid hp hq hk => h.own hid (ha hp) (ha hq) ?_, fun hp hq => ?_, fun hb' => ?_⟩
  · obtain ⟨i, hi⟩ := Option.isSome_iff_exists.1 hk
    obtain ⟨hi, hl⟩ := Store.peek_eq_some.1 hi
    rw [Store.peek_eq_some.2 ⟨hg hi, hl.mono hsec⟩]; rfl
  · rw [ho] at hp hq; exact h.foreign hp hq
  · rw [ho]; exact h.flight (hb hb')

theorem Single.stored (h : Single r) {e : MailboxEnvelope}
    (hv : Valid cfg.maxMessageBytes e) (ho : r.ordered e.recipientMailboxId = true)
    (hu : r.Unaddressed e.recipientMailboxId e.envelopeId) (x : ℕ) :
    Single (r.stored e x (highestIssuedPosition r.db e.recipientMailboxId + 1)) := by
  set n := highestIssuedPosition r.db e.recipientMailboxId + 1
  have hcol := hv.colon_notMem
  have horder : ∀ m q, ((r.stored e x n).db.order m).get q =
      if m = e.recipientMailboxId ∧ q = n then some ⟨e.envelopeId, x⟩
      else (r.db.order m).get q := by
    intro m q
    simp only [Relay.stored, Function.update_apply]
    by_cases hm : m = e.recipientMailboxId
    · subst hm; simp [SortedMap.get_insert]
    · simp [hm]
  -- an entry is the new one or was there before
  have haddr : ∀ {m p id}, (r.stored e x n).Addresses m p id →
      (m = e.recipientMailboxId ∧ p = n ∧ id = e.envelopeId) ∨ r.Addresses m p id := by
    rintro m p id ⟨i, hi, rfl⟩
    obtain ⟨hi, hl⟩ := Store.peek_eq_some.1 hi
    rw [horder] at hi
    split_ifs at hi with hm
    · cases hi; exact Or.inl ⟨hm.1, hm.2, rfl⟩
    · exact Or.inr ⟨i, Store.peek_eq_some.2 ⟨hi, hl⟩, rfl⟩
  refine ⟨fun {m p q id} hid hp hq hk => ?_, fun {m p q i j} hp hq hij hi => ?_,
    fun {m b} hb => ?_⟩
  · rcases haddr hp with ⟨rfl, rfl, rfl⟩ | hp
    · rcases haddr hq with ⟨-, rfl, -⟩ | hq
      · rfl
      · exact absurd hq hu.not_addresses
    · rcases haddr hq with ⟨rfl, rfl, rfl⟩ | hq
      · exact absurd hp hu.not_addresses
      · by_cases hke : mailboxEnvelopeKey m id = e.key
        · obtain ⟨rfl, rfl⟩ := join_inj hid hcol hke
          exact absurd hp hu.not_addresses
        · refine h.own hid hp hq ?_
          rwa [Relay.stored, Store.peek_insert_ne _ hke] at hk
  · rw [horder] at hp hq
    split_ifs at hp hq with h1 h2 h2
    · cases hp; exact absurd hi hcol
    · cases hp; exact absurd hi hcol
    · cases hq; rw [hij] at hi; exact absurd hi hcol
    · exact h.foreign hp hq hij hi
  · have hm : m ≠ e.recipientMailboxId := by
      rintro rfl
      rw [show (r.stored e x n).backfill = r.backfill from rfl, (ordered_iff.1 ho).2] at hb
      cases hb
    refine ⟨(h.flight hb).1, fun p i hp => (h.flight hb).2 p i ?_⟩
    rwa [horder, if_neg fun h => hm h.1] at hp

theorem backfillRecords_nodup (db : Db) (now : ℕ) (m : Text) :
    ((backfillRecords db now m).map (·.1)).Nodup := by
  rw [backfillRecords, List.map_map, List.Nodup, List.pairwise_map]
  refine (Store.scan_sorted db.envelope (seconds now) (hasMailboxPrefix m)).imp_of_mem ?_
  intro a b ha hb hlt heq
  obtain ⟨x, hx⟩ := hasMailboxPrefix_iff.1 (Store.mem_scan.1 ha).1
  obtain ⟨y, hy⟩ := hasMailboxPrefix_iff.1 (Store.mem_scan.1 hb).1
  simp only [Function.comp_apply, hx, hy, afterPrefix_key] at heq
  rw [hx, hy, heq] at hlt
  exact lt_irrefl _ hlt

theorem Single.scan (h : Single r) (hi : Inv cfg r) (hs : r.db.sequence m = none)
    (hb : r.backfill m = none) : Single { r with
      backfill := Function.update r.backfill m (some ⟨backfillRecords r.db r.now m, 0⟩) } := by
  refine ⟨h.own, h.foreign, fun {m' b} hb' => ?_⟩
  simp only [Function.update_apply] at hb'
  split_ifs at hb' with hm
  · subst hm; cases hb'
    refine ⟨backfillRecords_nodup _ _ _, fun p i hp => ?_⟩
    have := hi.index hp
    simp only [filled, hb, highestIssuedPosition, hs] at this
    omega
  · exact h.flight hb'

theorem Single.write (h : Single r) (hi : Inv cfg r) {b : Backfill} (hb : r.backfill m = some b) :
    Single { r with db := backfillWrite r.db m b
                    backfill := Function.update r.backfill m (some b.advance) } := by
  obtain ⟨hnd, hrec⟩ := h.flight hb
  have hother : ∀ {m'}, m' ≠ m → (backfillWrite r.db m b).order m' = r.db.order m' :=
    fun hm => by simp [backfillWrite, Function.update_of_ne hm]
  -- every entry of the mailbox is a record of the scan
  have hmine : ∀ {p i}, ((backfillWrite r.db m b).order m).get p = some i →
      1 ≤ p ∧ ∃ d, b.records[p - 1]? = some d ∧ d.1 = i.value := by
    intro p i hp
    simp only [backfillWrite, Function.update_self] at hp
    rcases get_writeBatch hp with ⟨⟨d, hd, rfl⟩, h1, -⟩ | hp
    · refine ⟨by omega, d, ?_, rfl⟩
      rw [List.getElem?_take, List.getElem?_drop] at hd
      split_ifs at hd
      rwa [show b.written + (p - (b.written + 1)) = p - 1 by omega] at hd
    · exact ⟨(hi.index hp).1, hrec p i hp⟩
  have hsame : ∀ {p q i j}, ((backfillWrite r.db m b).order m).get p = some i →
      ((backfillWrite r.db m b).order m).get q = some j → i.value = j.value → p = q := by
    intro p q i j hp hq hij
    obtain ⟨hp1, d, hd, hdi⟩ := hmine hp
    obtain ⟨hq1, d', hd', hdj⟩ := hmine hq
    have h1 : (b.records.map (·.1))[p - 1]? = some i.value := by simp [hd, hdi]
    have h2 : (b.records.map (·.1))[q - 1]? = some i.value := by simp [hd', hdj, hij]
    have := (List.nodup_iff_getElem?_ne_getElem?.1 hnd)
    obtain ⟨hlp, -⟩ := List.getElem?_eq_some_iff.1 h1
    obtain ⟨hlq, -⟩ := List.getElem?_eq_some_iff.1 h2
    by_contra hne
    rcases Nat.lt_or_gt_of_ne hne with hlt | hlt
    · exact this (p - 1) (q - 1) (by omega) hlq (h1.trans h2.symm)
    · exact this (q - 1) (p - 1) (by omega) hlp (h2.trans h1.symm)
  refine ⟨fun {m' p q id} hid hp hq hk => ?_, fun {m' p q i j} hp hq hij hc => ?_,
    fun {m' b'} hb' => ?_⟩
  · by_cases hm : m' = m
    · subst hm
      obtain ⟨i, hi, rfl⟩ := hp
      obtain ⟨j, hj, hij⟩ := hq
      exact hsame (Store.peek_eq_some.1 hi).1 (Store.peek_eq_some.1 hj).1 hij.symm
    · simp only [Addresses, hother hm] at hp hq
      exact h.own hid hp hq hk
  · by_cases hm : m' = m
    · subst hm; exact hsame hp hq hij
    · simp only [hother hm] at hp hq
      exact h.foreign hp hq hij hc
  · simp only [Function.update_apply] at hb'
    split_ifs at hb' with hm
    · subst hm; cases hb'
      exact ⟨hnd, fun p i hp => (hmine hp).2⟩
    · simp only [hother hm]; exact h.flight hb'

/-- **Entries stay single in every step that meets the condition.** -/
theorem Single.step {a : RelayAct} (h : Single r) (hi : Inv cfg r) (hc : FreshId r a)
    (hst : step cfg r a = some r') : Single r' := by
  rcases step_cases hi.locks hst with ⟨e, t, rfl, hv, ho, ⟨-, rfl⟩ | ⟨hp, rfl⟩⟩ | ⟨m, id, -, rfl⟩ |
    ⟨ms, -, rfl⟩ | ⟨m, -, hs, hb, rfl⟩ | ⟨m, b, -, hb, -, rfl⟩ | ⟨m, b, -, hb, hw, rfl⟩ |
    ⟨m, d, p, -, rfl⟩
  · exact h
  · exact h.stored hv ho (hc hp) _
  · refine h.of_fewer le_rfl (fun {k i} hk => ?_) rfl fun hb => hb
    simp only [deleteEnvelope, SortedMap.get_erase] at hk
    split_ifs at hk; exact hk
  · exact h.of_fewer (Nat.le_add_right _ _) id rfl id
  · exact h.scan hi hs hb
  · exact h.write hi hb
  · refine h.of_fewer le_rfl (fun {k i} hk => ?_) ?_ fun {m' b'} hb' => ?_
    · simpa only [backfillFinish, hi.unordered hb] using hk
    · simp only [backfillFinish, hi.unordered hb]
    · simp only [Function.update_apply] at hb'
      split_ifs at hb'; exact hb'
  · exact h.of_fewer le_rfl (fun {k i} hk => by simpa using hk) (by simp) id

theorem Single.run (h : Single r) (hi : Inv cfg r) (hr : Run (Relay.step cfg) FreshId r r') :
    Single r' := by
  have := hr.invariant (I := fun r => Single r ∧ Inv cfg r)
    (fun _ _ _ hs hc hst => ⟨hs.1.step hs.2 hc hst, hs.2.step hst⟩) ⟨h, hi⟩
  exact this.1

/-! ## Pages and walks -/

/-- What is visible at a position is what the entry there addresses. -/
theorem visible_addresses (hi : Inv cfg r) {e : MailboxEnvelope}
    (h : (p, e) ∈ visible r.db r.now m) : ∃ i, (r.db.order m).peek (seconds r.now) p = some i ∧
      mailboxEnvelopeKey m i.value = e.key ∧
      (r.db.envelope.peek (seconds r.now) (mailboxEnvelopeKey m i.value)).isSome = true := by
  obtain ⟨i, hp, ⟨x, hx⟩, -⟩ := mem_visible.1 h
  exact ⟨i, hp, (hi.keyed (Store.peek_eq_some.1 hx).1).1, by rw [hx]; rfl⟩

/-- Two visible entries of one mailbox with one id, of which the first addresses something. -/
theorem Single.eq (h : Single r) {i j : Item Text} (hp : (r.db.order m).peek (seconds r.now) p = some i)
    (hq : (r.db.order m).peek (seconds r.now) q = some j) (hij : i.value = j.value)
    (hk : (r.db.envelope.peek (seconds r.now) (mailboxEnvelopeKey m i.value)).isSome = true) :
    p = q := by
  by_cases hc : ':' ∈ i.value
  · exact h.foreign (Store.peek_eq_some.1 hp).1 (Store.peek_eq_some.1 hq).1 hij hc
  · exact h.own hc ⟨i, hp, rfl⟩ ⟨j, hq, hij.symm⟩ hk

theorem key_cancel {m a b : Text} (h : mailboxEnvelopeKey m a = mailboxEnvelopeKey m b) : a = b := by
  simpa [mailboxEnvelopeKey] using h

/-- An envelope of the mailbox that is visible there is live at that position. -/
theorem Single.at_of_visible (h : Single r) (hi : Inv cfg r) {e : MailboxEnvelope}
    (hv : (p, e) ∈ visible r.db r.now e.recipientMailboxId) : r.At p e := by
  have hl := live_of_visible hi hv
  obtain ⟨q, hq⟩ := hl.at hi
  obtain ⟨i, hp, hki, hsome⟩ := visible_addresses hi hv
  obtain ⟨j, hq', hkj, -⟩ := visible_addresses hi (hq.visible hi)
  rwa [h.eq hp hq' (key_cancel (hki.trans hkj.symm)) hsome]

end Relay

open Relay

variable {cfg : RelayConfig}

/-- What a walk returned, each item with the state its page was read in. -/
def returned (vs : List Visit) : List (Relay × ℕ × MailboxEnvelope) :=
  vs.flatMap fun v => v.batch.items.map fun x => (v.relay, x)

/-- How an item of a walk of `m` stands to a later one: it has a smaller position; if both
    are one envelope, that was stored again after the first page was read; and if both are
    envelopes of the mailbox, the copy returned first was stored first. -/
structure StoredBefore (m : Text) (a b : Relay × ℕ × MailboxEnvelope) : Prop where
  position : a.2.1 < b.2.1
  again : a.2.2.key = b.2.2.key → highestIssuedPosition a.1.db m < b.2.1
  serial : a.2.2.recipientMailboxId = m → b.2.2.recipientMailboxId = m → ∀ c c',
    a.1.copies a.2.2.key = some c → b.1.copies b.2.2.key = some c' → c.serial < c'.serial

/-- Items at increasing positions in the same or in later pages. -/
theorem storedBefore {r r' : Relay} {m : Text} {x y : ℕ × MailboxEnvelope} (hi : Inv cfg r)
    (hs : Single r) (hr : Run (step cfg) FreshId r r') (ho : r.ordered m = true)
    (hx : x ∈ visible r.db r.now m) (hy : y ∈ visible r'.db r'.now m) (hxy : x.1 < y.1) :
    StoredBefore m (r, x) (r', y) := by
  obtain ⟨p, e⟩ := x
  obtain ⟨q, e'⟩ := y
  have hi' := hi.run hr
  refine ⟨hxy, fun hk => ?_, fun hm hm' c c' hc hc' => ?_⟩
  · by_contra hle
    obtain ⟨i, hp, hki, hsome⟩ := visible_addresses hi hx
    obtain ⟨j, hq, hkj, -⟩ := visible_addresses hi' hy
    obtain ⟨hq, hl⟩ := Store.peek_eq_some.1 hq
    rw [(run_order hi hr ho).2 q (not_lt.1 hle)] at hq
    have hq' := Store.peek_eq_some.2 ⟨hq, hl.mono (seconds_mono (run_later hi hr).clock)⟩
    have := hs.eq hp hq' (key_cancel (hki.trans (hk.trans hkj.symm))) hsome
    simp only at hxy; omega
  · simp only at hm hm' hc hc' hxy
    have ha : r.At p e := hs.at_of_visible hi (by rw [hm]; exact hx)
    have hb : r'.At q e' := (hs.run hi hr).at_of_visible hi' (by rw [hm']; exact hy)
    obtain ⟨⟨⟨z, hz⟩, -⟩, c₀, hc₀, rfl⟩ := ha
    have hgx := (Store.peek_eq_some.1 hz).1
    rw [hc, Option.some.injEq] at hc₀
    subst hc₀
    rcases (run_later hi hr).back hb with ⟨hb, hcopy⟩ | ⟨-, c₁, hc₁, hser⟩
    · obtain ⟨⟨⟨w, hw⟩, -⟩, c₁, hc₁, rfl⟩ := hb
      rw [hc', hc₁, Option.some.injEq] at hcopy
      subst hcopy
      exact hi.aligned hgx (Store.peek_eq_some.1 hw).1 (hm.trans hm'.symm) hc hc₁ hxy
    · rw [hc', Option.some.injEq] at hc₁
      subst hc₁
      obtain ⟨c₂, hc₂, hlt, -⟩ := hi.placed hgx
      rw [hc, Option.some.injEq] at hc₂
      subst hc₂; omega

/-- Everything a walk returns lies after its cursor, in a state the walk reached. -/
theorem Walk.returned_after {C : Relay → RelayAct → Prop} {m cursor : Text} {r r' : Relay}
    {vs : List Visit} (h : Walk cfg C m r cursor vs r') :
    ∀ c, decodeMailboxCursor cursor = some c → ∀ a ∈ returned vs, Run (step cfg) C r a.1 ∧
      a.2 ∈ visible a.1.db a.1.now m ∧ c < a.2.1 := by
  induction h with
  | last h1 hv _ _ =>
    intro c hc a ha
    simp only [returned, List.flatMap_cons, List.flatMap_nil, List.append_nil, List.mem_map] at ha
    obtain ⟨x, hx, rfl⟩ := ha
    obtain rfl := Option.some.inj (hc.symm.trans hv.2.1)
    exact ⟨h1, (hv.items.2 x hx).1, (hv.items.2 x hx).2.1⟩
  | next h1 hv hn hw ih =>
    intro c hc a ha
    obtain rfl := Option.some.inj (hc.symm.trans hv.2.1)
    rw [returned, List.flatMap_cons, List.mem_append, List.mem_map] at ha
    rcases ha with ⟨x, hx, rfl⟩ | ha
    · exact ⟨h1, (hv.items.2 x hx).1, (hv.items.2 x hx).2.1⟩
    · obtain ⟨w, vs', -, hr⟩ := hw.cursor
      obtain ⟨h2, h3, h4⟩ := ih _ hr.2.1 a ha
      exact ⟨h1.trans h2, h3, (hv.next_gt hn hr.2.1).trans h4⟩

theorem Visit.Reads.storedBefore {v : Visit} {m cursor : Text} (h : v.Reads m cursor)
    (hi : Inv cfg v.relay) (hs : Single v.relay) :
    (v.batch.items.map fun x => (v.relay, x)).Pairwise (StoredBefore m) := by
  rw [List.pairwise_map]
  refine h.items.1.imp_of_mem fun {x y} hx hy hxy => ?_
  exact Echolet.storedBefore hi hs .refl h.1 (h.items.2 x hx).1 (h.items.2 y hy).1 hxy

theorem Walk.storedBefore {m cursor : Text} {r r' : Relay} {vs : List Visit}
    (h : Walk cfg FreshId m r cursor vs r') (hi : Inv cfg r) (hs : Single r) :
    (returned vs).Pairwise (StoredBefore m) := by
  induction h with
  | last h1 hv _ _ =>
    simpa [returned] using hv.storedBefore (hi.run h1) (hs.run hi h1)
  | next h1 hv hn hw ih =>
    have hi' := hi.run h1
    have hs' := hs.run hi h1
    rw [returned, List.flatMap_cons, List.pairwise_append]
    refine ⟨hv.storedBefore hi' hs', ih hi' hs', fun a ha b hb => ?_⟩
    obtain ⟨x, hx, rfl⟩ := List.mem_map.1 ha
    obtain ⟨w, vs', -, hr⟩ := hw.cursor
    obtain ⟨h2, h3, h4⟩ := hw.returned_after _ hr.2.1 b hb
    obtain ⟨hvis, -, hle⟩ := hv.items.2 x hx
    exact Echolet.storedBefore hi' hs' h2 hv.1 hvis h3 ((hle _ hn hr.2.1).trans_lt h4)

/-- A stored envelope has one visible index entry. -/
theorem addressed_once {r : Relay} {e : MailboxEnvelope} {x : ℕ} (hi : Inv cfg r) (hs : Single r)
    (h : r.db.envelope.peek (seconds r.now) e.key = some ⟨e, x⟩) :
    ∃! p, r.Addresses e.recipientMailboxId p e.envelopeId := by
  obtain ⟨hg, hl⟩ := Store.peek_eq_some.1 h
  obtain ⟨c, -, -, ho⟩ := hi.placed hg
  refine ⟨c.position, ⟨_, Store.peek_eq_some.2 ⟨ho, hl⟩, rfl⟩, fun q hq => ?_⟩
  refine hs.own (hi.keyed hg).2.colon_notMem hq ⟨_, Store.peek_eq_some.2 ⟨ho, hl⟩, rfl⟩ ?_
  change (r.db.envelope.peek (seconds r.now) e.key).isSome = true
  rw [h]; rfl

end Echolet
