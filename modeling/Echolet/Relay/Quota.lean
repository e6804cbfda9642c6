/-
  The quota of one sender in one mailbox, under concurrent sends.

  A send reads the sender's occupancy, compares it with the quota, and stores in a later
  transaction; other sends may store in between.

  * `SendService` is the relay with the sends under way, `SendService.step` one step of a
    send or of the rest of the relay;
  * `NoOverlap` is the condition on a store: what the send counted, with what the sender
    added to the mailbox since, is below the quota, and an exempted send finds its envelope;
  * `quota_holds`: under it no sender exceeds its quota, and a replay of a live envelope is
    always admitted and changes nothing; `overlapping_sends` is a run without it.
-/
import Echolet.Relay.MailboxHandler
import Echolet.Relay.Pages

namespace Echolet

/-- A send under way. -/
inductive Pending where
  /-- checked, authenticated, before its occupancy is read -/
  | checked (e : MailboxEnvelope)
  /-- admitted by the quota: exempted or not, what it counted, and how many envelopes the
      sender had stored in the mailbox by then -/
  | admitted (e : MailboxEnvelope) (exempt : Bool) (counted seen : ℕ)

structure SendService where
  relay : Relay
  requests : ℕ → Option Pending
  /-- how often a sender stored an envelope in a mailbox -/
  stores : Text → Text → ℕ

inductive SendAct where
  | send (i : ℕ) (e : MailboxEnvelope)
  | occupy (i : ℕ)
  | store (i t : ℕ)
  | relay (a : RelayAct)

def RelayAct.isSave : RelayAct → Bool
  | .save .. => true
  | _ => false

namespace SendService

variable {cfg : RelayConfig} {verified : MailboxEnvelope → Bool}

def init (now : ℕ) : SendService := ⟨.init now, fun _ => none, fun _ _ => 0⟩

/-- The store under an envelope's key holds nothing visible. -/
def isNew (r : Relay) (e : MailboxEnvelope) : Bool :=
  (r.db.envelope.peek (seconds r.now) e.key).isNone

/-- One more store of a sender in a mailbox. -/
def countStore (stores : Text → Text → ℕ) (m sender : Text) : Text → Text → ℕ :=
  fun m' sender' => stores m' sender' + if m = m' ∧ sender = sender' then 1 else 0

/-- The occupancy a send reads. -/
def occupancy (cfg : RelayConfig) (r : Relay) (e : MailboxEnvelope) : SenderMailboxOccupancy :=
  senderOccupancy r.db r.now e.recipientMailboxId e.senderIdentityId e.envelopeId (senderQuota cfg)

def step (cfg : RelayConfig) (verified : MailboxEnvelope → Bool) (s : SendService) :
    SendAct → Option SendService
  | .send i e =>
    match s.requests i, sendChecks cfg verified s.relay.now e with
    | none, .ok () => some { s with requests := Function.update s.requests i (some (.checked e)) }
    | _, _ => none
  | .occupy i =>
    match s.requests i with
    | some (.checked e) =>
      let o := occupancy cfg s.relay e
      match enforceSenderQuota cfg o with
      | .ok () => some { s with requests := Function.update s.requests i (some (.admitted e
          o.envelopeAlreadyStored o.liveEnvelopes (s.stores e.recipientMailboxId e.senderIdentityId))) }
      | .error _ => some { s with requests := Function.update s.requests i none }
    | _ => none
  | .store i t =>
    match s.requests i with
    | some (.admitted e _ _ _) =>
      match Relay.step cfg s.relay (.save e t) with
      | none => none
      | some r => some
        { relay := r
          requests := Function.update s.requests i none
          stores := if isNew s.relay e then
              countStore s.stores e.recipientMailboxId e.senderIdentityId else s.stores }
    | _ => none
  | .relay a =>
    if a.isSave then none else (Relay.step cfg s.relay a).map fun r => { s with relay := r }

/-- The envelopes one sender holds live in one mailbox. -/
def occupied (r : Relay) (m sender : Text) : ℕ :=
  r.db.envelope.entries.countP fun x => decide (x.2.value.recipientMailboxId = m ∧
    x.2.value.senderIdentityId = sender ∧ x.2.Live (seconds r.now) ∧
    (r.now : ℤ) < x.2.value.expiresAtMs)

/-- A store that adds an envelope was not exempted, and what it counted with what was added
    since is below the quota. -/
def NoOverlap (cfg : RelayConfig) (s : SendService) : SendAct → Prop
  | .store i _ =>
    match s.requests i with
    | some (.admitted e exempt counted seen) => isNew s.relay e = true → exempt = false ∧
        ((counted + (s.stores e.recipientMailboxId e.senderIdentityId - seen) : ℕ) : ℤ) <
          senderQuota cfg
    | _ => True
  | _ => True

instance (s : SendService) (a : SendAct) : Decidable (NoOverlap cfg s a) := by
  cases a <;> simp only [NoOverlap] <;> try infer_instance
  split <;> infer_instance

/-! ## What a send counts -/

/-- Below its limit the counting loop counts everything. -/
theorem countLive_eq {nowMS : ℕ} {sender : Text} {limit : ℤ} :
    ∀ {es : List MailboxEnvelope} {n : ℕ}, (countLive nowMS sender limit es n : ℤ) < limit →
      countLive nowMS sender limit es n = n + es.countP fun e =>
        decide ((nowMS : ℤ) < e.expiresAtMs ∧ e.senderIdentityId = sender)
  | [], n, _ => rfl
  | e :: es, n, h => by
    unfold countLive at h ⊢
    rw [List.countP_cons]
    by_cases h1 : 0 < limit ∧ limit ≤ n
    · rw [if_pos h1] at h; omega
    rw [if_neg h1] at h ⊢
    by_cases h2 : e.expiresAtMs ≤ nowMS
    · rw [if_pos h2] at h ⊢
      rw [countLive_eq h, if_neg (by simpa using fun h => absurd h (not_lt.2 h2))]; omega
    rw [if_neg h2] at h ⊢
    by_cases h3 : e.senderIdentityId ≠ sender
    · rw [if_pos h3] at h ⊢
      rw [countLive_eq h, if_neg (by simpa using fun _ => h3)]; omega
    · rw [if_neg h3] at h ⊢
      rw [countLive_eq h, if_pos (decide_eq_true ⟨not_le.1 h2, not_not.1 h3⟩)]; omega

theorem occupied_le_scan {r : Relay} (hi : Relay.Inv cfg r) (m sender : Text) :
    occupied r m sender ≤ (scanMailbox r.db r.now m).countP fun e =>
      decide ((r.now : ℤ) < e.expiresAtMs ∧ e.senderIdentityId = sender) := by
  rw [scanMailbox, List.countP_map, Store.scan, List.countP_filter, occupied]
  refine List.countP_mono_left fun x hx h => ?_
  obtain ⟨hm, hs, hl, he⟩ := of_decide_eq_true h
  have hk := (hi.keyed (SortedMap.mem_entries.1 hx)).1
  simp only [Function.comp_apply, Bool.and_eq_true, decide_eq_true_eq]
  refine ⟨⟨he, hs⟩, hasMailboxPrefix_iff.2 ⟨x.2.value.envelopeId, ?_⟩, hl⟩
  rw [hk, MailboxEnvelope.key, hm]; rfl

/-- What an admitted send counted is at least what its sender occupies. -/
theorem admitted_counts {r : Relay} (hi : Relay.Inv cfg r) {e : MailboxEnvelope}
    (h : enforceSenderQuota cfg (occupancy cfg r e) = .ok ())
    (hx : (occupancy cfg r e).envelopeAlreadyStored = false) :
    occupied r e.recipientMailboxId e.senderIdentityId ≤ (occupancy cfg r e).liveEnvelopes := by
  have hq : ¬ ((occupancy cfg r e).liveEnvelopes : ℤ) ≥ senderQuota cfg := by
    intro hq
    rw [enforceSenderQuota, hx, if_neg Bool.false_ne_true, if_pos hq] at h
    cases h
  simp only [occupancy, senderOccupancy] at hx hq ⊢
  split_ifs at hx hq ⊢
  rw [countLive_eq (not_le.1 hq), Nat.zero_add]
  exact occupied_le_scan hi _ _

/-! ## What a step does to the occupancy -/

theorem occupied_of_fewer {r r' : Relay} (hnow : r.now ≤ r'.now)
    (he : r'.db.envelope.entries.Sublist r.db.envelope.entries) (m sender : Text) :
    occupied r' m sender ≤ occupied r m sender := by
  refine le_trans (List.countP_mono_left fun x _ h => ?_) he.countP_le
  obtain ⟨hm, hs, hl, hx⟩ := of_decide_eq_true h
  exact decide_eq_true ⟨hm, hs, hl.mono (seconds_mono hnow), by omega⟩

theorem occupied_stored (r : Relay) (e : MailboxEnvelope) (x p : ℕ) (m sender : Text) :
    occupied (r.stored e x p) m sender ≤ occupied r m sender +
      if e.recipientMailboxId = m ∧ e.senderIdentityId = sender then 1 else 0 := by
  refine (SortedMap.countP_insert_le _ _ _ _).trans (Nat.add_le_add_left ?_ _)
  split_ifs with h1 h2
  · exact le_rfl
  · exact absurd ⟨(of_decide_eq_true h1).1, (of_decide_eq_true h1).2.1⟩ h2
  · exact Nat.zero_le _
  · exact le_rfl

/-- A step that is not a save adds nothing. -/
theorem occupied_step {r r' : Relay} {a : RelayAct} (hi : Relay.Inv cfg r)
    (h : Relay.step cfg r a = some r') (ha : a.isSave = false) (m sender : Text) :
    occupied r' m sender ≤ occupied r m sender := by
  rcases Relay.step_cases hi.locks h with ⟨e, t, rfl, -⟩ | ⟨m', id, -, rfl⟩ | ⟨ms, -, rfl⟩ |
    ⟨m', -, hs, hb, rfl⟩ | ⟨m', b, -, hb, -, rfl⟩ | ⟨m', b, -, hb, hw, rfl⟩ | ⟨m', d, p, -, rfl⟩
  · cases ha
  · refine occupied_of_fewer ?_ ?_ m sender
    · exact le_rfl
    · exact List.filter_sublist
  · refine occupied_of_fewer ?_ ?_ m sender
    · exact Nat.le_add_right _ _
    · exact List.Sublist.refl _
  · exact le_rfl
  · exact le_rfl
  · refine occupied_of_fewer ?_ ?_ m sender
    · exact le_rfl
    · simp only [backfillFinish, hi.unordered hb]
      exact List.Sublist.refl _
  · refine occupied_of_fewer ?_ ?_ m sender
    · exact le_rfl
    · rw [Relay.advanceReadMark_envelope]

/-! ## The invariant -/

structure QInv (cfg : RelayConfig) (s : SendService) : Prop where
  relay : s.relay.Inv cfg
  within : ∀ m sender, (occupied s.relay m sender : ℤ) ≤ senderQuota cfg
  counts : ∀ {i e exempt counted seen}, s.requests i = some (.admitted e exempt counted seen) →
    seen ≤ s.stores e.recipientMailboxId e.senderIdentityId ∧ (exempt = false →
      occupied s.relay e.recipientMailboxId e.senderIdentityId ≤
        counted + (s.stores e.recipientMailboxId e.senderIdentityId - seen))

theorem senderQuota_pos (cfg : RelayConfig) : 0 < senderQuota cfg := by
  simp only [senderQuota, defaultSenderUnackedQuota]
  split_ifs <;> omega

theorem QInv.init (now : ℕ) : QInv cfg (init now) where
  relay := Relay.Inv.init now
  within m sender := (senderQuota_pos cfg).le
  counts h := by cases h

theorem QInv.request {s : SendService} (h : QInv cfg s) (i : ℕ) {q : Option Pending}
    (hq : ∀ {e exempt counted seen}, q = some (.admitted e exempt counted seen) →
      seen ≤ s.stores e.recipientMailboxId e.senderIdentityId ∧ (exempt = false →
        occupied s.relay e.recipientMailboxId e.senderIdentityId ≤
          counted + (s.stores e.recipientMailboxId e.senderIdentityId - seen))) :
    QInv cfg { s with requests := Function.update s.requests i q } := by
  refine ⟨h.relay, h.within, fun {j e exempt counted seen} hj => ?_⟩
  simp only [Function.update_apply] at hj
  split_ifs at hj
  · exact hq hj
  · exact h.counts hj

/-- **The quota invariant holds after every step that meets the condition.** -/
theorem QInv.step {s s' : SendService} {a : SendAct} (h : QInv cfg s) (hc : NoOverlap cfg s a)
    (hst : step cfg verified s a = some s') : QInv cfg s' := by
  cases a with
  | send i e =>
    simp only [SendService.step] at hst
    split at hst
    · cases hst; exact h.request i fun hq => by cases hq
    · cases hst
  | occupy i =>
    simp only [SendService.step] at hst
    split at hst
    · split at hst
      · rename_i e _ hok
        cases hst
        refine h.request i fun hq => ?_
        cases hq
        refine ⟨le_rfl, fun hx => ?_⟩
        rw [Nat.sub_self]
        exact admitted_counts h.relay hok hx
      · cases hst; exact h.request i fun hq => by cases hq
    · cases hst
  | store i t =>
    simp only [SendService.step, NoOverlap] at hst hc
    split at hst
    · rename_i e exempt counted seen hreq
      simp only [hreq] at hc
      cases hr : Relay.step cfg s.relay (.save e t) with
      | none => rw [hr] at hst; cases hst
      | some r =>
        simp only [hr, Option.some.injEq] at hst
        subst hst
        have hi' := h.relay.step hr
        obtain ⟨e', t', he, hv, ho, hcase⟩ :=
          (Relay.step_cases h.relay.locks hr).resolve_right (by rintro (h | h | h | h | h | h) <;> simp at h)
        cases he
        rcases hcase with ⟨hp, rfl⟩ | ⟨hp, rfl⟩
        · have hn : isNew s.relay e = false := by
            rw [isNew, ← Option.not_isSome, hp]; rfl
          rw [hn]
          exact h.request i fun hq => by cases hq
        · have hn : isNew s.relay e = true := by rw [isNew, hp]; rfl
          obtain ⟨hx, hlt⟩ := hc hn
          obtain ⟨hseen, hcount⟩ := h.counts hreq
          have hcount := hcount hx
          rw [if_pos hn]
          have hocc := occupied_stored s.relay e (retentionDeadlineSeconds cfg.retentionCap t e)
            (highestIssuedPosition s.relay.db e.recipientMailboxId + 1)
          refine ⟨hi', fun m sender => ?_, fun {j e' exempt' counted' seen'} hj => ?_⟩
          · have := hocc m sender
            have := h.within m sender
            split_ifs at * with hm
            · obtain ⟨rfl, rfl⟩ := hm
              simp only at *; omega
            · simp only at *; omega
          · simp only [Function.update_apply] at hj
            split_ifs at hj
            obtain ⟨h1, h2⟩ := h.counts hj
            have := hocc e'.recipientMailboxId e'.senderIdentityId
            simp only [countStore]
            split_ifs at * with hm
            · exact ⟨by omega, fun hx => this.trans (by have := h2 hx; omega)⟩
            · exact ⟨by omega, fun hx => this.trans (by have := h2 hx; omega)⟩
    · cases hst
  | relay a =>
    simp only [SendService.step] at hst
    split_ifs at hst with ha
    obtain ⟨r, hr, rfl⟩ := Option.map_eq_some_iff.1 hst
    have hle := occupied_step h.relay hr (by simpa using ha)
    refine ⟨h.relay.step hr, fun m sender => ?_, fun hj => ?_⟩
    · exact (Int.ofNat_le.2 (hle m sender)).trans (h.within m sender)
    · obtain ⟨h1, h2⟩ := h.counts hj
      exact ⟨h1, fun hx => (hle _ _).trans (h2 hx)⟩

theorem relay_inv {C : SendService → SendAct → Prop} {t : ℕ} {s : SendService}
    (hr : Run (step cfg verified) C (init t) s) : s.relay.Inv cfg := by
  refine hr.invariant (I := fun s => s.relay.Inv cfg) (fun s a s' h _ hst => ?_) (Relay.Inv.init t)
  cases a with
  | send i e => simp only [step] at hst; split at hst <;> cases hst; exact h
  | occupy i =>
    simp only [step] at hst
    split at hst
    · split at hst <;> cases hst <;> exact h
    · cases hst
  | store i t =>
    simp only [step] at hst
    split at hst
    · split at hst <;> cases hst
      exact h.step ‹_›
    · cases hst
  | relay a =>
    simp only [step] at hst
    split_ifs at hst
    obtain ⟨r, hr, rfl⟩ := Option.map_eq_some_iff.1 hst
    exact h.step hr

/-- A send of an envelope that is live is exempted. -/
theorem occupy_live {s : SendService} {i : ℕ} {e : MailboxEnvelope}
    (hreq : s.requests i = some (.checked e)) (hl : s.relay.Live e) :
    ∃ s' seen, step cfg verified s (.occupy i) = some s' ∧
      s'.requests i = some (.admitted e true 0 seen) := by
  obtain ⟨⟨x, hx⟩, -⟩ := hl
  have ho : occupancy cfg s.relay e = ⟨0, true⟩ := by
    rw [occupancy, senderOccupancy, if_pos]
    change (s.relay.db.envelope.peek (seconds s.relay.now) e.key).isSome = true
    rw [hx]; rfl
  refine ⟨{ s with requests := Function.update s.requests i (some (.admitted e true 0
    (s.stores e.recipientMailboxId e.senderIdentityId))) }, _, ?_, Function.update_self _ _ _⟩
  simp only [step, hreq, ho, enforceSenderQuota, if_true]

/-- A store of an envelope that is live changes nothing in the relay. -/
theorem store_live {s s' : SendService} {i t : ℕ} {e : MailboxEnvelope} {exempt : Bool}
    {counted seen : ℕ} (hi : s.relay.Inv cfg)
    (hreq : s.requests i = some (.admitted e exempt counted seen)) (hl : s.relay.Live e)
    (hst : step cfg verified s (.store i t) = some s') : s'.relay = s.relay := by
  simp only [step, hreq] at hst
  cases hr : Relay.step cfg s.relay (.save e t) with
  | none => rw [hr] at hst; cases hst
  | some r =>
    simp only [hr, Option.some.injEq] at hst
    subst hst
    obtain ⟨e', t', he, -, -, hcase⟩ :=
      (Relay.step_cases hi.locks hr).resolve_right (by rintro (h | h | h | h | h | h) <;> simp at h)
    cases he
    obtain ⟨⟨x, hx⟩, -⟩ := hl
    rcases hcase with ⟨-, rfl⟩ | ⟨hn, -⟩
    · rfl
    · rw [hx] at hn; cases hn

/-- **The quota holds unless sends of one sender overlap.** In every run whose stores meet the
    condition, no sender holds more live envelopes in a mailbox than its quota; and in every
    run a send of a live envelope is exempted and stores nothing. -/
theorem quota_holds (t : ℕ) : (∀ s, Run (step cfg verified) (NoOverlap cfg) (init t) s →
      ∀ m sender, (occupied s.relay m sender : ℤ) ≤ senderQuota cfg) ∧
    ∀ s, Run (step cfg verified) Any (init t) s → ∀ i e, s.relay.Live e →
      (s.requests i = some (.checked e) → ∃ s' seen, step cfg verified s (.occupy i) = some s' ∧
        s'.requests i = some (.admitted e true 0 seen)) ∧
      ∀ exempt counted seen, s.requests i = some (.admitted e exempt counted seen) →
        ∀ u s', step cfg verified s (.store i u) = some s' → s'.relay = s.relay := by
  refine ⟨fun s hr => ?_, fun s hr i e hl => ⟨fun hreq => occupy_live hreq hl, ?_⟩⟩
  · exact (hr.invariant (fun _ _ _ h hc hst => h.step hc hst) (QInv.init t)).within
  · exact fun exempt counted seen hreq u s' hst => store_live (relay_inv hr) hreq hl hst

/-- A relay that allows one unacknowledged envelope for each sender. -/
def quotaOne : RelayConfig := { defaultConfig with senderUnackedQuota := 1 }

/-- Two sends that read the occupancy before either stores. -/
def overlapping : List SendAct :=
  [.relay (.backfillScan ['m']), .relay (.backfillFinish ['m']), .send 0 (note ['m'] ['a'] '1'),
    .send 1 (note ['m'] ['a'] '2'), .occupy 0, .occupy 1, .store 0 0, .store 1 0]

theorem overlapping_sends : ¬ ∀ s, Run (step quotaOne fun _ => true) Any (init 0) s →
    ∀ m sender, (occupied s.relay m sender : ℤ) ≤ senderQuota quotaOne := by
  intro h
  let s := (replay (step quotaOne fun _ => true) Any overlapping (init 0)).get (by decide +kernel)
  have hle := h s (Run.of_replay (Option.some_get _).symm) ['m'] ['a']
  have hocc : occupied s.relay ['m'] ['a'] = 2 := by decide +kernel
  have hq : senderQuota quotaOne = 1 := by decide
  rw [hocc, hq] at hle
  omega

end SendService

end Echolet
