/-
  Walks of a mailbox: pages that follow one another's cursor, with any steps of the relay
  in between.

  * `Reads` is one call of `GetEnvelopeBatchFrom` in a state, `Walk` a chain of calls, each
    with its own limit and byte budget, until a page has no cursor;
  * `walk_complete`: with positive limits, every envelope that is live at its position from
    the start of the walk to its end is returned, and cursors increase;
  * `walk_frontier`: nothing stored after a page was read is placed at or before its cursor.
-/
import Echolet.Relay.Pages

namespace Echolet

open Relay

variable {cfg : RelayConfig} {C : Relay → RelayAct → Prop}

/-- A page of a walk: the state it was read in, the bounds it was read under, and the batch. -/
structure Visit where
  relay : Relay
  limit : ℤ
  byteBudget : ℤ
  resumeAfter : ℕ
  batch : EnvelopeBatch

/-- The visit is a call of `GetEnvelopeBatchFrom` with this cursor, in a state where the
    mailbox has its index. -/
def Visit.Reads (v : Visit) (mailboxID cursor : Text) : Prop :=
  v.relay.ordered mailboxID = true ∧ decodeMailboxCursor cursor = some v.resumeAfter ∧
    (getEnvelopeBatchFrom v.relay.db v.relay.now mailboxID v.limit v.byteBudget cursor).1 =
      some v.batch

/-- A walk from a cursor to a page without one, under a condition on the steps in between. -/
inductive Walk (cfg : RelayConfig) (C : Relay → RelayAct → Prop) (mailboxID : Text) :
    Relay → Text → List Visit → Relay → Prop
  | last {r r' : Relay} {cursor : Text} {v : Visit} : Run (step cfg) C r v.relay →
      v.Reads mailboxID cursor → v.batch.nextCursor = [] → Run (step cfg) C v.relay r' →
      Walk cfg C mailboxID r cursor [v] r'
  | next {r r' : Relay} {cursor : Text} {v : Visit} {vs : List Visit} :
      Run (step cfg) C r v.relay → v.Reads mailboxID cursor → v.batch.nextCursor ≠ [] →
      Walk cfg C mailboxID v.relay v.batch.nextCursor vs r' →
      Walk cfg C mailboxID r cursor (v :: vs) r'

/-- A call with a positive limit returns the page after its cursor. -/
theorem Visit.Reads.page {v : Visit} {m cursor : Text} (h : v.Reads m cursor) (hl : 0 < v.limit) :
    v.batch.items = (v.relay.page m v.limit v.byteBudget v.resumeAfter).items ∧
      v.batch.nextCursor = ((v.relay.page m v.limit v.byteBudget v.resumeAfter).next.map
        encodeMailboxCursor).getD [] := by
  obtain ⟨ho, hc, hb⟩ := h
  obtain ⟨n, hn⟩ := (ordered_iff.1 ho).1
  rw [getEnvelopeBatchFrom, hc] at hb
  simp only [if_neg (not_le.2 hl), ensureMailboxOrdering, hn, Option.some.injEq] at hb
  rw [← hb, readBatch_page]
  exact ⟨rfl, rfl⟩

/-- A call without a positive limit returns nothing. -/
theorem Visit.Reads.empty {v : Visit} {m cursor : Text} (h : v.Reads m cursor) (hl : ¬ 0 < v.limit) :
    v.batch = ⟨[], false, []⟩ := by
  obtain ⟨-, hc, hb⟩ := h
  rw [getEnvelopeBatchFrom, hc] at hb
  simp only [if_pos (not_lt.1 hl), Option.some.injEq] at hb
  exact hb.symm

theorem Visit.Reads.limit_pos {v : Visit} {m cursor : Text} (h : v.Reads m cursor)
    (hn : v.batch.nextCursor ≠ []) : 0 < v.limit := by
  by_contra hl
  rw [h.empty hl] at hn; exact hn rfl

theorem Visit.Reads.next {v : Visit} {m cursor : Text} {c : ℕ} (h : v.Reads m cursor)
    (hn : v.batch.nextCursor ≠ []) (hc : decodeMailboxCursor v.batch.nextCursor = some c) :
    (v.relay.page m v.limit v.byteBudget v.resumeAfter).next = some c := by
  have hb := (h.page (h.limit_pos hn)).2
  cases hp : (v.relay.page m v.limit v.byteBudget v.resumeAfter).next with
  | none => rw [hb, hp] at hn; exact absurd rfl hn
  | some n => rw [hb, hp] at hc; exact congrArg _ (decodeMailboxCursor_encode hc).symm

/-- The cursor a call returns lies after the one it was made with. -/
theorem Visit.Reads.next_gt {v : Visit} {m cursor : Text} {c : ℕ} (h : v.Reads m cursor)
    (hn : v.batch.nextCursor ≠ []) (hc : decodeMailboxCursor v.batch.nextCursor = some c) :
    v.resumeAfter < c := by
  obtain ⟨x, hx⟩ := pageOf_next_mem (fitsPage_first (h.limit_pos hn) _) page_ordered (h.next hn hc)
  exact (mem_page hx).2

/-- The items of a call are visible, after its cursor and up to the cursor it returned. -/
theorem Visit.Reads.items {v : Visit} {m cursor : Text} (h : v.Reads m cursor) :
    Ordered v.batch.items ∧ ∀ x ∈ v.batch.items, x ∈ visible v.relay.db v.relay.now m ∧
      v.resumeAfter < x.1 ∧ ∀ n, v.batch.nextCursor ≠ [] →
        decodeMailboxCursor v.batch.nextCursor = some n → x.1 ≤ n := by
  by_cases hl : 0 < v.limit
  · rw [(h.page hl).1]
    refine ⟨pageOf_ordered page_ordered, fun x hx => ⟨(mem_page hx).1, (mem_page hx).2, ?_⟩⟩
    exact fun n hne hn => pageOf_le_next (fitsPage_first hl _) page_ordered (h.next hne hn) hx
  · rw [h.empty hl]; exact ⟨.nil, by simp⟩

theorem Visit.Reads.no_next {v : Visit} {m cursor : Text} (h : v.Reads m cursor)
    (hl : 0 < v.limit) (hn : v.batch.nextCursor = []) :
    (v.relay.page m v.limit v.byteBudget v.resumeAfter).next = none := by
  rw [(h.page hl).2] at hn
  cases hp : (v.relay.page m v.limit v.byteBudget v.resumeAfter).next with
  | none => rfl
  | some n => rw [hp] at hn; exact absurd hn (decimal_ne_nil n)

/-- The first call of a walk decodes the cursor the walk starts at. -/
theorem Walk.cursor {m cursor : Text} {r r' : Relay} {vs : List Visit}
    (h : Walk cfg C m r cursor vs r') : ∃ v vs', vs = v :: vs' ∧ v.Reads m cursor := by
  cases h with
  | last _ hv => exact ⟨_, [], rfl, hv⟩
  | next _ hv => exact ⟨_, _, rfl, hv⟩

/-- A walk is itself a run. -/
theorem Walk.run {m cursor : Text} {r r' : Relay} {vs : List Visit}
    (h : Walk cfg C m r cursor vs r') : Run (step cfg) C r r' := by
  induction h with
  | last h1 _ _ h2 => exact h1.trans h2
  | next h1 _ _ _ ih => exact h1.trans ih

/-- Cursors increase along a walk. -/
theorem Walk.increasing {m cursor : Text} {r r' : Relay} {vs : List Visit}
    (h : Walk cfg C m r cursor vs r') : (vs.map (·.resumeAfter)).Pairwise (· < ·) := by
  induction h with
  | last => exact List.pairwise_singleton _ _
  | next h1 hv hn hw ih =>
    obtain ⟨w, vs', rfl, hr⟩ := hw.cursor
    have hlt := hv.next_gt hn hr.2.1
    refine List.pairwise_cons.2 ⟨fun c hc => ?_, ih⟩
    rcases List.mem_cons.1 hc with rfl | hc
    · exact hlt
    · exact hlt.trans ((List.pairwise_cons.1 ih).1 c hc)

/-- What is live at a position after the cursor from beginning to end is returned. -/
theorem Walk.returns {m cursor : Text} {r r' : Relay} {vs : List Visit}
    (h : Walk cfg C m r cursor vs r') (hi : Inv cfg r) (hl : ∀ v ∈ vs, 0 < v.limit) {c p : ℕ}
    {e : MailboxEnvelope} (hc : decodeMailboxCursor cursor = some c) (hm : e.recipientMailboxId = m)
    (hcp : c < p) (hs : r.At p e) (hf : r'.At p e) : ∃ v ∈ vs, (p, e) ∈ v.batch.items := by
  subst hm
  induction h generalizing c with
  | @last r r' cursor v h1 hv hn h2 =>
    have hlv := hl v List.mem_cons_self
    have hi' := hi.run h1
    have hp := (hs.bounds hi).2.trans ((run_later hi h1).issued _)
    have ha := (run_later hi' h2).at hf hp
    obtain rfl : c = v.resumeAfter := Option.some.inj (hc.symm.trans hv.2.1)
    refine ⟨v, List.mem_cons_self, ?_⟩
    rw [(hv.page hlv).1]
    refine ha.mem_page hi' hlv hcp fun n hn' => ?_
    rw [hv.no_next hlv hn] at hn'; cases hn'
  | @next r r' cursor v vs h1 hv hn hw ih =>
    have hlv := hl v List.mem_cons_self
    have hi' := hi.run h1
    have hp := (hs.bounds hi).2.trans ((run_later hi h1).issued _)
    have ha := (run_later hi' hw.run).at hf hp
    obtain rfl : c = v.resumeAfter := Option.some.inj (hc.symm.trans hv.2.1)
    obtain ⟨w, vs', -, hr⟩ := hw.cursor
    have hnext := hv.next hn hr.2.1
    by_cases hpn : p ≤ w.resumeAfter
    · refine ⟨v, List.mem_cons_self, ?_⟩
      rw [(hv.page hlv).1]
      refine ha.mem_page hi' hlv hcp fun n hn' => ?_
      rw [hnext, Option.some.injEq] at hn'
      rwa [← hn']
    · obtain ⟨u, hu, hmem⟩ := ih hi' (fun w hw => hl w (List.mem_cons_of_mem _ hw)) hr.2.1
        (by omega) ha hf
      exact ⟨u, List.mem_cons_of_mem _ hu, hmem⟩

/-- The page of each visit of a walk was read in a state the walk reached. -/
theorem Walk.visit {m cursor : Text} {r r' : Relay} {vs : List Visit}
    (h : Walk cfg C m r cursor vs r') : ∀ v ∈ vs, Run (step cfg) C r v.relay ∧
      ∃ cursor, v.Reads m cursor := by
  induction h with
  | @last r r' cursor v h1 hv _ _ =>
    intro w hw
    rw [List.mem_singleton.1 hw]
    exact ⟨h1, cursor, hv⟩
  | @next r r' cursor v vs h1 hv _ _ ih =>
    intro w hw
    rcases List.mem_cons.1 hw with rfl | hw
    · exact ⟨h1, cursor, hv⟩
    · exact ⟨h1.trans (ih w hw).1, (ih w hw).2⟩

/-- A save places an envelope after every position issued before it. -/
theorem save_position {r₁ : Relay} (hi : Inv cfg r₁) {e : MailboxEnvelope} {now x p : ℕ}
    (ho : r₁.ordered e.recipientMailboxId = true) (h : (saveTxn r₁.db now x e).1 = .stored p) :
    highestIssuedPosition r₁.db e.recipientMailboxId < p := by
  obtain ⟨⟨n, hn⟩, -⟩ := ordered_iff.1 ho
  have := (hi.counter hn).1
  rw [saveTxn] at h
  cases hp : r₁.db.envelope.peek (seconds now)
      (mailboxEnvelopeKey e.recipientMailboxId e.envelopeId) with
  | some item => simp only [hp] at h; split_ifs at h
  | none =>
    simp only [hp, allocateMailboxPosition, hn, SaveResult.stored.injEq] at h
    rw [highestIssuedPosition, hn]
    split_ifs at h <;> simp only <;> omega

/-- Nothing stored after a page was read is placed at or before its cursor. -/
theorem Walk.frontier {m cursor : Text} {r r' : Relay} {vs : List Visit}
    (h : Walk cfg C m r cursor vs r') (hi : Inv cfg r) {v : Visit} (hv : v ∈ vs) {n : ℕ} (hn : v.batch.nextCursor = encodeMailboxCursor n) {r₁ : Relay}
    (hr : Run (step cfg) Any v.relay r₁) {e : MailboxEnvelope} {now x p : ℕ}
    (hm : e.recipientMailboxId = m) (ho : r₁.ordered m = true)
    (hs : (saveTxn r₁.db now x e).1 = .stored p) : n < p := by
  subst hm
  obtain ⟨h1, _, hread⟩ := h.visit v hv
  have hi' := hi.run h1
  have hlv := hread.limit_pos (by rw [hn]; exact decimal_ne_nil n)
  have hnext : (v.relay.page e.recipientMailboxId v.limit v.byteBudget v.resumeAfter).next =
      some n := by
    have hb := (hread.page hlv).2
    rw [hn] at hb
    cases hp : (v.relay.page e.recipientMailboxId v.limit v.byteBudget v.resumeAfter).next with
    | none => rw [hp] at hb; exact absurd hb (decimal_ne_nil n)
    | some n' => rw [hp] at hb; exact congrArg _ (decimal_inj hb).symm
  exact (page_next hi' hread.1 hlv hnext).2.trans_lt
    (((run_later hi' hr).issued _).trans_lt (save_position (hi'.run hr) ho hs))

/-- **Walks are complete.** A walk with positive limits, interleaved with any steps, returns
    every envelope live after its cursor from beginning to end; its cursors increase; and
    nothing stored after a page was read is placed at or before that page's cursor. -/
theorem walk_complete {t : ℕ} {m cursor : Text} {r r' : Relay} {vs : List Visit} {c : ℕ}
    (hr : Run (step cfg) Any (init t) r) (hc : decodeMailboxCursor cursor = some c)
    (h : Walk cfg Any m r cursor vs r') (hl : ∀ v ∈ vs, 0 < v.limit) :
    (∀ p e, e.recipientMailboxId = m → c < p → r.At p e → r'.At p e →
      ∃ v ∈ vs, (p, e) ∈ v.batch.items) ∧
    (vs.map (·.resumeAfter)).Pairwise (· < ·) ∧
    ∀ v ∈ vs, ∀ n, v.batch.nextCursor = encodeMailboxCursor n → ∀ r₁,
      Run (step cfg) Any v.relay r₁ → ∀ e now x p, e.recipientMailboxId = m →
        r₁.ordered m = true → (saveTxn r₁.db now x e).1 = .stored p → n < p := by
  have hi : Inv cfg r := (Inv.init t).run hr
  refine ⟨fun p e hm hcp hs hf => h.returns hi hl hc hm hcp hs hf, h.increasing, ?_⟩
  exact fun v hv n hn r₁ hr e now x p hm ho hs => h.frontier hi hv hn hr hm ho hs

/-- A call with a positive limit in a state with the index. -/
theorem reads_of_ordered {r : Relay} {m cursor : Text} {limit byteBudget : ℤ} {c : ℕ}
    (ho : r.ordered m = true) (hc : decodeMailboxCursor cursor = some c) (hl : 0 < limit) :
    (Visit.mk r limit byteBudget c (readBatch r.db r.now m limit byteBudget c)).Reads m cursor := by
  obtain ⟨n, hn⟩ := (ordered_iff.1 ho).1
  refine ⟨ho, hc, ?_⟩
  rw [getEnvelopeBatchFrom, hc]
  simp only [if_neg (not_le.2 hl), ensureMailboxOrdering, hn]

/-- Two notes of one mailbox. -/
def twoNotes : List RelayAct :=
  openMailbox ['m'] ++ [.save (note ['m'] ['a'] '1') 0, .save (note ['m'] ['a'] '2') 0]

/-- The state after two notes were stored. -/
def afterTwoNotes : Relay :=
  (replay (step defaultConfig) Any twoNotes (init 0)).get (by decide)

theorem run_afterTwoNotes : Run (step defaultConfig) Any (init 0) afterTwoNotes :=
  Run.of_replay (Option.some_get _).symm

/-- The two pages of a walk with one envelope a page. -/
theorem walk_complete_two : ∃ vs, (∀ v ∈ vs, 0 < v.limit) ∧
    Walk defaultConfig Any ['m'] afterTwoNotes [] vs afterTwoNotes ∧
    ∃ v ∈ vs, (2, note ['m'] ['a'] '2') ∈ v.batch.items := by
  let v₁ : Visit := ⟨afterTwoNotes, 1, 0, 0,
    readBatch afterTwoNotes.db afterTwoNotes.now ['m'] 1 0 0⟩
  let v₂ : Visit := ⟨afterTwoNotes, 1, 0, 1,
    readBatch afterTwoNotes.db afterTwoNotes.now ['m'] 1 0 1⟩
  have hw : Walk defaultConfig Any ['m'] afterTwoNotes [] [v₁, v₂] afterTwoNotes := by
    refine .next .refl (reads_of_ordered (by decide) (by decide) (by decide))
      (by decide +kernel) (.last .refl (reads_of_ordered (by decide +kernel) ?_ (by decide))
        (by decide +kernel) .refl)
    decide +kernel
  have hl : ∀ v ∈ [v₁, v₂], 0 < v.limit := by
    intro v hv
    simp only [List.mem_cons, List.not_mem_nil, or_false] at hv
    rcases hv with rfl | rfl <;> decide
  exact ⟨_, hl, hw, (walk_complete (c := 0) run_afterTwoNotes (by decide) hw hl).1 2 _ rfl
    (by decide) (by decide +kernel) (by decide +kernel)⟩

/-- A limit of zero ends a walk at once, whatever the mailbox holds. -/
theorem walk_incomplete_limit_zero : ¬ ∀ (r r' : Relay) (vs : List Visit) (p : ℕ)
    (e : MailboxEnvelope), Run (step defaultConfig) Any (init 0) r →
      Walk defaultConfig Any ['m'] r [] vs r' → e.recipientMailboxId = ['m'] → 0 < p → r.At p e →
      r'.At p e → ∃ v ∈ vs, (p, e) ∈ v.batch.items := by
  intro h
  let v : Visit := ⟨afterTwoNotes, 0, 0, 0, ⟨[], false, []⟩⟩
  have hw : Walk defaultConfig Any ['m'] afterTwoNotes [] [v] afterTwoNotes :=
    .last .refl ⟨by decide, by decide, by decide⟩ rfl .refl
  obtain ⟨w, hw, hm⟩ := h _ _ _ 1 (note ['m'] ['a'] '1') run_afterTwoNotes hw rfl (by decide)
    (by decide) (by decide)
  rw [List.mem_singleton.1 hw] at hm
  cases hm

end Echolet
