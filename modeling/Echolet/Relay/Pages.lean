/-
  Live envelopes, the states a run can reach, and what a page promises.

  * `Relay.At p e`: `e` is stored and unexpired, and its copy has position `p`;
  * `Relay.Later r r'`: the clock and the positions issued only grow, and whatever is live
    in `r'` at a position issued in `r` was live there in `r` (`step_later`, `run_later`);
  * `Relay.page` is the page a poll reads: it holds every live envelope of the mailbox from
    the cursor to its resume position (`At.mem_page`), and that position is one already
    issued (`page_next`), so what a page leaves out below it can never become live later.
-/
import Echolet.Relay.Steps

namespace Echolet

namespace Relay

variable {cfg : RelayConfig} {r r' r'' : Relay} {p : ℕ} {e : MailboxEnvelope}

/-- `e` is stored and has not passed its declared expiry. -/
def Live (r : Relay) (e : MailboxEnvelope) : Prop :=
  (∃ x, r.db.envelope.peek (seconds r.now) e.key = some ⟨e, x⟩) ∧ (r.now : ℤ) < e.expiresAtMs

/-- `e` is live, and its copy has position `p`. -/
def At (r : Relay) (p : ℕ) (e : MailboxEnvelope) : Prop :=
  r.Live e ∧ ∃ c, r.copies e.key = some c ∧ c.position = p

instance (r : Relay) (e : MailboxEnvelope) : Decidable (r.Live e) :=
  decidable_of_iff ((r.db.envelope.peek (seconds r.now) e.key).map (·.value) = some e ∧
    (r.now : ℤ) < e.expiresAtMs) (and_congr_left fun _ => by
      rw [Option.map_eq_some_iff]
      exact ⟨fun ⟨⟨_, x⟩, hx, he⟩ => ⟨x, he ▸ hx⟩, fun ⟨x, hx⟩ => ⟨_, hx, rfl⟩⟩)

instance (r : Relay) (p : ℕ) (e : MailboxEnvelope) : Decidable (r.At p e) :=
  decidable_of_iff (r.Live e ∧ (r.copies e.key).map (·.position) = some p)
    (and_congr_right fun _ => Option.map_eq_some_iff)

theorem Live.at (hi : Inv cfg r) (h : r.Live e) : ∃ p, r.At p e := by
  obtain ⟨⟨x, hx⟩, -⟩ := id h
  obtain ⟨c, hc, -⟩ := hi.placed (Store.peek_eq_some.1 hx).1
  exact ⟨c.position, h, c, hc, rfl⟩

theorem At.unique {q : ℕ} (h : r.At p e) (h' : r.At q e) : p = q := by
  obtain ⟨-, c, hc, rfl⟩ := h
  obtain ⟨-, c', hc', rfl⟩ := h'
  rw [hc] at hc'; cases hc'; rfl

theorem Live.valid (hi : Inv cfg r) (h : r.Live e) : Valid cfg.maxMessageBytes e := by
  obtain ⟨⟨x, hx⟩, -⟩ := h
  exact (hi.keyed (Store.peek_eq_some.1 hx).1).2

theorem Live.ordered (hi : Inv cfg r) (h : r.Live e) : r.ordered e.recipientMailboxId = true := by
  obtain ⟨⟨x, hx⟩, -⟩ := h
  exact hi.ordered (hi.counted (Store.peek_eq_some.1 hx).1)

theorem At.bounds (hi : Inv cfg r) (h : r.At p e) :
    1 ≤ p ∧ p ≤ highestIssuedPosition r.db e.recipientMailboxId := by
  obtain ⟨⟨⟨x, hx⟩, -⟩, c, hc, rfl⟩ := h
  exact hi.position_bounds (Store.peek_eq_some.1 hx).1 hc

/-- A live envelope is visible at the position of its copy. -/
theorem At.visible (hi : Inv cfg r) (h : r.At p e) :
    (p, e) ∈ visible r.db r.now e.recipientMailboxId := by
  obtain ⟨⟨⟨x, hx⟩, he⟩, c, hc, rfl⟩ := h
  obtain ⟨hg, hl⟩ := Store.peek_eq_some.1 hx
  obtain ⟨c', hc', -, ho⟩ := hi.placed hg
  rw [hc, Option.some.injEq] at hc'
  subst hc'
  exact mem_visible.2 ⟨_, Store.peek_eq_some.2 ⟨ho, hl⟩, ⟨x, hx⟩, he⟩

/-- What was just stored is live at its position, unless its deadline has come. -/
theorem stored_at {x : ℕ} (r : Relay) (p : ℕ) (hx : (⟨e, x⟩ : Item MailboxEnvelope).Live (seconds r.now))
    (he : (r.now : ℤ) < e.expiresAtMs) : (r.stored e x p).At p e :=
  ⟨⟨⟨x, Store.peek_eq_some.2 ⟨SortedMap.get_insert_self _ _ _, hx⟩⟩, he⟩, _,
    Function.update_self _ _ _, rfl⟩

/-- What is visible in a mailbox is live, though perhaps in another mailbox. -/
theorem live_of_visible (hi : Inv cfg r) {m : Text} (h : (p, e) ∈ Echolet.visible r.db r.now m) :
    r.Live e := by
  obtain ⟨i, -, ⟨x, hx⟩, he⟩ := mem_visible.1 h
  have hk := (hi.keyed (Store.peek_eq_some.1 hx).1).1
  rw [hk] at hx
  exact ⟨⟨x, hx⟩, he⟩

/-! ## States a run can reach -/

/-- `r'` is a later state of the relay: what is live there is the copy that was live, or was
    stored since. -/
structure Later (r r' : Relay) : Prop where
  clock : r.now ≤ r'.now
  serials : r.serial ≤ r'.serial
  issued : ∀ m, highestIssuedPosition r.db m ≤ highestIssuedPosition r'.db m
  back : ∀ {p e}, r'.At p e → (r.At p e ∧ r'.copies e.key = r.copies e.key) ∨
    (highestIssuedPosition r.db e.recipientMailboxId < p ∧
      ∃ c, r'.copies e.key = some c ∧ r.serial ≤ c.serial)

theorem Later.refl (r : Relay) : Later r r :=
  ⟨le_rfl, le_rfl, fun _ => le_rfl, fun h => Or.inl ⟨h, rfl⟩⟩

theorem Later.trans (h : Later r r') (h' : Later r' r'') : Later r r'' where
  clock := h.clock.trans h'.clock
  serials := h.serials.trans h'.serials
  issued m := (h.issued m).trans (h'.issued m)
  back ha := by
    rcases h'.back ha with ⟨ha, hc⟩ | ⟨hlt, c, hc, hs⟩
    · rcases h.back ha with ⟨ha, hc'⟩ | ⟨hlt, c, hc', hs⟩
      · exact Or.inl ⟨ha, hc.trans hc'⟩
      · exact Or.inr ⟨hlt, c, hc.trans hc', hs⟩
    · exact Or.inr ⟨(h.issued _).trans_lt hlt, c, hc, h.serials.trans hs⟩

/-- An envelope live at a position issued earlier was live at that position earlier. -/
theorem Later.at (h : Later r r') (ha : r'.At p e)
    (hp : p ≤ highestIssuedPosition r.db e.recipientMailboxId) : r.At p e := by
  rcases h.back ha with ⟨ha, -⟩ | ⟨hlt, -⟩
  · exact ha
  · omega

/-- A step that takes nothing but liveness away. -/
theorem Later.of_fewer (hnow : r.now ≤ r'.now)
    (hs : ∀ m, highestIssuedPosition r.db m ≤ highestIssuedPosition r'.db m)
    (hg : ∀ {k i}, r'.db.envelope.get k = some i → r.db.envelope.get k = some i)
    (hn : r'.serial = r.serial) (hc : r'.copies = r.copies) : Later r r' := by
  refine ⟨hnow, hn.ge, hs, fun ha => Or.inl ⟨?_, by rw [hc]⟩⟩
  obtain ⟨⟨⟨x, hx⟩, he⟩, c, hcc, rfl⟩ := ha
  obtain ⟨hx, hl⟩ := Store.peek_eq_some.1 hx
  refine ⟨⟨⟨x, Store.peek_eq_some.2 ⟨hg hx, hl.mono (seconds_mono hnow)⟩⟩, by omega⟩, c, ?_, rfl⟩
  rw [← hc]; exact hcc

/-- What is live after an envelope was stored was live before, or is that envelope. -/
theorem at_stored {e' : MailboxEnvelope} {x q : ℕ} (h : (r.stored e x p).At q e') :
    r.At q e' ∧ e'.key ≠ e.key ∨ e' = e ∧ q = p := by
  obtain ⟨⟨⟨y, hy⟩, he⟩, c, hc, rfl⟩ := h
  simp only [stored] at hy hc
  by_cases hk : e'.key = e.key
  · rw [hk, Function.update_self] at hc
    cases hc
    rw [hk, Store.peek_eq_some, SortedMap.get_insert_self] at hy
    cases hy.1
    exact Or.inr ⟨rfl, rfl⟩
  · rw [Function.update_of_ne hk] at hc
    rw [Store.peek_insert_ne _ hk] at hy
    exact Or.inl ⟨⟨⟨⟨y, hy⟩, he⟩, c, hc, rfl⟩, hk⟩

theorem later_stored (r : Relay) (e : MailboxEnvelope) (x : ℕ) :
    Later r (r.stored e x (highestIssuedPosition r.db e.recipientMailboxId + 1)) := by
  refine ⟨le_rfl, Nat.le_succ _, fun m => ?_, fun ha => ?_⟩
  · rw [highestIssued_stored]
    split_ifs with hm
    · rw [hm]; omega
    · exact le_rfl
  · rcases at_stored ha with ⟨ha, hk⟩ | ⟨rfl, rfl⟩
    · exact Or.inl ⟨ha, Function.update_of_ne hk _ _⟩
    · exact Or.inr ⟨Nat.lt_succ_self _, _, Function.update_self _ _ _, le_rfl⟩

/-- **Every step leads to a later state.** -/
theorem step_later {a : RelayAct} (hi : Inv cfg r) (h : step cfg r a = some r') : Later r r' := by
  rcases step_cases hi.locks h with ⟨e, t, -, -, -, ⟨-, rfl⟩ | ⟨-, rfl⟩⟩ | ⟨m, id, -, rfl⟩ | ⟨ms, -, rfl⟩ |
    ⟨m, -, hs, hb, rfl⟩ | ⟨m, b, -, hb, -, rfl⟩ | ⟨m, b, -, hb, hw, rfl⟩ | ⟨m, d, p, -, rfl⟩
  · exact .refl _
  · exact later_stored _ _ _
  · refine .of_fewer le_rfl (fun _ => le_rfl) (fun {k i} hk => ?_) rfl rfl
    simp only [deleteEnvelope, SortedMap.get_erase] at hk
    split_ifs at hk; exact hk
  · exact .of_fewer (Nat.le_add_right _ _) (fun _ => le_rfl) id rfl rfl
  · exact .of_fewer le_rfl (fun _ => le_rfl) id rfl rfl
  · exact .of_fewer le_rfl (fun _ => le_rfl) id rfl rfl
  · refine .of_fewer le_rfl (fun m' => ?_) (fun {k i} hk => ?_) rfl rfl
    · simp only [backfillFinish, hi.unordered hb, highestIssuedPosition, Function.update_apply]
      split_ifs with hm
      · simp [hm, hi.unordered hb]
      · exact le_rfl
    · simpa only [backfillFinish, hi.unordered hb] using hk
  · refine .of_fewer le_rfl (fun m' => ?_) (fun {k i} hk => ?_) rfl rfl
    · simp [highestIssuedPosition]
    · simpa only [advanceReadMark_envelope] using hk

/-- **What a step makes live**: an envelope that was saved anew, at the next position. -/
theorem step_at {a : RelayAct} (hi : Inv cfg r) (h : step cfg r a = some r') (ha : r'.At p e) :
    r.At p e ∨ (∃ t, a = .save e t) ∧ r.db.envelope.peek (seconds r.now) e.key = none ∧
      p = highestIssuedPosition r.db e.recipientMailboxId + 1 := by
  rcases (step_later hi h).back ha with ⟨ha, -⟩ | ⟨-, c, hc, hs⟩
  · exact Or.inl ha
  · -- the copy has a serial number that was not given out before
    obtain ⟨⟨x, hx⟩, -⟩ := ha.1
    obtain ⟨c', hc', hlt, -⟩ := (hi.step h).placed (Store.peek_eq_some.1 hx).1
    rw [hc] at hc'
    cases hc'
    have hserial : r'.serial ≠ r.serial := by omega
    rcases step_cases hi.locks h with ⟨e', t, rfl, -, -, ⟨-, rfl⟩ | ⟨hp, rfl⟩⟩ | ⟨m, id, -, rfl⟩ |
      ⟨ms, -, rfl⟩ | ⟨m, -, -, -, rfl⟩ | ⟨m, b, -, -, -, rfl⟩ | ⟨m, b, -, -, -, rfl⟩ |
      ⟨m, d, q, -, rfl⟩
    · exact Or.inl ha
    · rcases at_stored ha with ⟨ha, -⟩ | ⟨rfl, rfl⟩
      · exact Or.inl ha
      · exact Or.inr ⟨⟨t, rfl⟩, hp, rfl⟩
    all_goals exact absurd rfl hserial

/-- Index entries stay as they are once the counter is past them. -/
theorem step_order {a : RelayAct} (hi : Inv cfg r) (h : step cfg r a = some r') {m : Text}
    (ho : r.ordered m = true) : r'.ordered m = true ∧
      ∀ p ≤ highestIssuedPosition r.db m, (r'.db.order m).get p = (r.db.order m).get p := by
  obtain ⟨⟨n, hn⟩, hb⟩ := ordered_iff.1 ho
  rcases step_cases hi.locks h with ⟨e, t, -, -, -, ⟨-, rfl⟩ | ⟨-, rfl⟩⟩ | ⟨m', id, -, rfl⟩ | ⟨ms, -, rfl⟩ |
    ⟨m', -, hs, -, rfl⟩ | ⟨m', b, -, hb', -, rfl⟩ | ⟨m', b, -, hb', hw, rfl⟩ | ⟨m', d, p, -, rfl⟩
  · exact ⟨ho, fun _ _ => rfl⟩
  · refine ⟨ordered_iff.2 ⟨?_, hb⟩, fun p hp => ?_⟩ <;> simp only [stored, Function.update_apply]
    · split_ifs
      exacts [⟨_, rfl⟩, ⟨n, hn⟩]
    · split_ifs with hm
      · subst hm; rw [SortedMap.get_insert_ne _ _ (by omega)]
      · rfl
  · exact ⟨ho, fun _ _ => rfl⟩
  · exact ⟨ho, fun _ _ => rfl⟩
  · have hm : m ≠ m' := by rintro rfl; rw [hs] at hn; cases hn
    exact ⟨ordered_iff.2 ⟨⟨n, hn⟩, (Function.update_of_ne hm _ _).trans hb⟩, fun _ _ => rfl⟩
  · have hm : m ≠ m' := by rintro rfl; rw [hb'] at hb; cases hb
    refine ⟨ordered_iff.2 ⟨⟨n, hn⟩, (Function.update_of_ne hm _ _).trans hb⟩, fun p _ => ?_⟩
    simp only [backfillWrite, Function.update_of_ne hm]
  · have hm : m ≠ m' := by rintro rfl; rw [hb'] at hb; cases hb
    simp only [backfillFinish, hi.unordered hb']
    exact ⟨ordered_iff.2 ⟨⟨n, (Function.update_of_ne hm _ _).trans hn⟩,
      (Function.update_of_ne hm _ _).trans hb⟩, fun _ _ => trivial⟩
  · exact ⟨ordered_iff.2 ⟨⟨n, by simpa using hn⟩, hb⟩, fun _ _ => by simp⟩

theorem run_later {C : Relay → RelayAct → Prop} (hi : Inv cfg r)
    (h : Run (step cfg) C r r') : Later r r' := by
  induction h with
  | refl => exact .refl r
  | tail hr _ hst ih => exact ih.trans (step_later (hi.run hr) hst)

theorem run_order {C : Relay → RelayAct → Prop} (hi : Inv cfg r) (h : Run (step cfg) C r r')
    {m : Text} (ho : r.ordered m = true) : r'.ordered m = true ∧
      ∀ p ≤ highestIssuedPosition r.db m, (r'.db.order m).get p = (r.db.order m).get p := by
  induction h with
  | refl => exact ⟨ho, fun _ _ => rfl⟩
  | tail hr _ hst ih =>
    obtain ⟨ho', hp⟩ := step_order (hi.run hr) hst ih.1
    exact ⟨ho', fun p hle => (hp p (hle.trans ((run_later hi hr).issued m))).trans (ih.2 p hle)⟩

/-! ## Pages -/

/-- The page of a mailbox after a position. -/
def page (r : Relay) (m : Text) (limit byteBudget : ℤ) (c : ℕ) : Page MailboxEnvelope :=
  pageOf (fitsPage limit byteBudget) (after c (visible r.db r.now m))

section
variable {m : Text} {limit byteBudget : ℤ} {c n : ℕ}

/-- The batch the repository selects is this page. -/
theorem readBatch_page (r : Relay) (m : Text) (limit byteBudget : ℤ) (c : ℕ) :
    readBatch r.db r.now m limit byteBudget c = ⟨(r.page m limit byteBudget c).items,
      (r.page m limit byteBudget c).next.isSome,
      ((r.page m limit byteBudget c).next.map encodeMailboxCursor).getD []⟩ :=
  readBatch_eq _ _ _ _ _ _

theorem page_ordered : Ordered (after c (visible r.db r.now m)) :=
  (visible_ordered _ _ _).after c

theorem mem_page {x : ℕ × MailboxEnvelope} (h : x ∈ (r.page m limit byteBudget c).items) :
    x ∈ visible r.db r.now m ∧ c < x.1 := mem_after.1 (mem_of_mem_pageOf h)

theorem visible_le (hi : Inv cfg r) (ho : r.ordered m = true) {x : ℕ × MailboxEnvelope}
    (h : x ∈ visible r.db r.now m) : 1 ≤ x.1 ∧ x.1 ≤ highestIssuedPosition r.db m := by
  obtain ⟨p, e⟩ := x
  obtain ⟨i, hp, -⟩ := mem_visible.1 h
  have := hi.index (Store.peek_eq_some.1 hp).1
  rwa [filled_of_ordered ho] at this

/-- **A resume position lies after the cursor and has been issued.** -/
theorem page_next (hi : Inv cfg r) (ho : r.ordered m = true) (hl : 0 < limit)
    (h : (r.page m limit byteBudget c).next = some n) :
    c < n ∧ n ≤ highestIssuedPosition r.db m := by
  obtain ⟨v, hv⟩ := pageOf_next_mem (fitsPage_first hl byteBudget) page_ordered h
  obtain ⟨hv, hc⟩ := mem_page hv
  exact ⟨hc, (visible_le hi ho hv).2⟩

/-- **A page holds every live envelope from its cursor to its resume position.** -/
theorem At.mem_page (hi : Inv cfg r) (hl : 0 < limit) (h : r.At p e) (hc : c < p)
    (hn : ∀ n, (r.page e.recipientMailboxId limit byteBudget c).next = some n → p ≤ n) :
    (p, e) ∈ (r.page e.recipientMailboxId limit byteBudget c).items := by
  have hv : (p, e) ∈ after c (Echolet.visible r.db r.now e.recipientMailboxId) :=
    mem_after.2 ⟨h.visible hi, hc⟩
  cases hp : (r.page e.recipientMailboxId limit byteBudget c).next with
  | none => rw [page, pageOf_all hp]; exact hv
  | some n => exact pageOf_covers (fitsPage_first hl byteBudget) page_ordered hp hv (hn n hp)

end

end Relay

end Echolet
