/-
  Verdicts about envelopes and the clock.

  * `Sound` is what `acceptOne` asks of an envelope whatever the clock says, and
    `acceptOne_isOk` what it asks in all: a sound envelope, not dated ahead of the clock and not
    expired;
  * `verdict_for_good`: a failure that is a verdict stays one under every later clock, but for
    sound envelopes that are dated ahead of the clock.
-/
import Echolet.Client.Commits
import Echolet.Client.Plain

namespace Echolet

variable {rt : Runtime} {dev : Device} {v : Circumstances} {e : MailboxEnvelope}
  {s s' : ClientStore}

/-- The message of an envelope was received before, or the Signal client decrypts it and the
    history takes it. -/
def Receivable (rt : Runtime) (entropy : ℕ) (e : MailboxEnvelope) (s : ClientStore)
    (contact : ContactIdentifiers) (address : Text) (type : ℕ) (body : Bytes) : Prop :=
  match s.inbox.get (messageKey address e.messageId) with
  | some hash => hash = receivedHash rt e
  | none => ∃ plaintext signal,
      SignalClient.decrypt rt.lib rt.enc address e.messageId type body entropy s.signal =
        (.ok plaintext, signal) ∧
      HistoryEntry.valid
        ⟨nextSequence s, contact.identityId, e.messageId, .inbound, plaintext, e.createdAtMs⟩ = true

/-- An envelope no check refuses but those against the clock: it is well addressed at the time it
    names itself, its sender is pinned, its message can be received, and its acknowledgement is
    not pending for another message. -/
structure Sound (rt : Runtime) (dev : Device) (entropy : ℕ) (e : MailboxEnvelope) (s : ClientStore) :
    Prop where
  addressed : ¬ misaddressed dev e.createdAtMs e
  receivable : ∃ contact address type body, PinnedSender s e contact address ∧
    rt.enc.unwrap e.ciphertext = some (type, body) ∧
    Receivable rt entropy e s contact address type body ∧
    (s.pendingAck.get e.envelopeId = none ∨
      s.pendingAck.get e.envelopeId = some (messageKey address e.messageId))

/-- The clock decides about the two dates only. -/
theorem addressed_iff {now : ℤ} : ¬ misaddressed dev now e ↔
    ¬ misaddressed dev e.createdAtMs e ∧ e.createdAtMs ≤ now ∧ now < e.expiresAtMs := by
  simp only [misaddressed, not_or]
  constructor
  · rintro ⟨hid, hdev, hbox, hsize, hsafe, hsafe', hpos, hahead, hexp, horder⟩
    exact ⟨⟨hid, hdev, hbox, hsize, hsafe, hsafe', hpos, lt_irrefl _, horder, horder⟩,
      not_lt.1 hahead, not_le.1 hexp⟩
  · rintro ⟨⟨hid, hdev, hbox, hsize, hsafe, hsafe', hpos, -, -, horder⟩, hahead, hexp⟩
    exact ⟨hid, hdev, hbox, hsize, hsafe, hsafe', hpos, not_lt.2 hahead, not_le.2 hexp, horder⟩

/-! ## What an envelope is accepted for -/

theorem pinnedSender_iff {contact : ContactIdentifiers} {address : Text} :
    pinnedSender e s = (.ok (contact, address), s') ↔ PinnedSender s e contact address ∧ s = s' := by
  refine ⟨fun h => ?_, ?_⟩
  · obtain ⟨hsend, rfl⟩ := pinnedSender_ok h
    exact ⟨hsend, rfl⟩
  · rintro ⟨⟨hc, hid, hdev, ha, ht⟩, rfl⟩
    simp only [pinnedSender, Tx.bind_ok, Tx.read_ok, Tx.ensure_ok, Tx.need_ok, Tx.pure_ok]
    refine ⟨_, _, ⟨rfl, rfl⟩, contact, _, ⟨hc, rfl⟩, (), _, ⟨⟨hid, hdev⟩, rfl⟩, address, _,
      ⟨ha, rfl⟩, _, _, ⟨rfl, rfl⟩, (), _, ⟨?_, rfl⟩, rfl, rfl⟩
    simpa [SignalStore.isTrusted] using ht

theorem receiveMessage_iff {contact : ContactIdentifiers} {address : Text} {type : ℕ} {body : Bytes} :
    (∃ s', receiveMessage rt v contact address e (type, body) s = (.ok (), s')) ↔
      Receivable rt v.entropy e s contact address type body := by
  simp only [receiveMessage, Tx.bind_ok, Tx.read_ok, Receivable]
  constructor
  · rintro ⟨s', previous, _, ⟨hp, rfl⟩, h⟩
    rw [hp]
    cases previous with
    | some hash => exact (Tx.ensure_ok.1 h).1
    | none =>
      simp only [recordMessage, Tx.bind_ok, within_ok, Tx.modify_ok, appendHistory_ok] at h
      obtain ⟨plaintext, _, ⟨σ, hσ, rfl⟩, _, _, rfl, hv, rfl⟩ := h
      exact ⟨plaintext, σ, hσ, hv⟩
  · intro h
    split at h
    next hash hp => exact ⟨s, some hash, s, ⟨hp, rfl⟩, Tx.ensure_ok.2 ⟨h, rfl⟩⟩
    next hp =>
      obtain ⟨plaintext, σ, hσ, hv⟩ := h
      have hrec : ∃ s', recordMessage rt v contact address e type body s = (.ok (), s') := by
        simp only [recordMessage, Tx.bind_ok, within_ok, Tx.modify_ok, appendHistory_ok]
        exact ⟨_, plaintext, _, ⟨σ, hσ, rfl⟩, (), _, rfl, hv, rfl⟩
      obtain ⟨s', hrec⟩ := hrec
      exact ⟨s', none, s, ⟨hp, rfl⟩, hrec⟩

/-- Receiving a message queues no acknowledgement. -/
theorem receiveMessage_pendingAck {contact : ContactIdentifiers} {address : Text}
    {wrapper : ℕ × Bytes} {u : Unit} (hw : rt.enc.unwrap e.ciphertext = some wrapper)
    (h : receiveMessage rt v contact address e wrapper s = (.ok u, s')) :
    s'.pendingAck = s.pendingAck := by
  cases receiveMessage_ok hw h with
  | before _ => rfl
  | now _ _ r =>
    obtain ⟨plaintext, signal, -, -, rfl⟩ := r
    rfl

theorem queueAck_iff {id key : Text} : (∃ s', queueAck id key s = (.ok (), s')) ↔
    s.pendingAck.get id = none ∨ s.pendingAck.get id = some key := by
  refine ⟨fun ⟨s', h⟩ => (queueAck_ok h).1, fun h => ?_⟩
  simp only [queueAck, Tx.bind_ok, Tx.read_ok, Tx.ensure_ok, Tx.modify_ok]
  refine ⟨_, _, _, ⟨rfl, rfl⟩, (), _, ⟨?_, rfl⟩, rfl⟩
  rcases h with h | h <;> simp [h]

/-- **What `acceptOne` accepts.** -/
theorem acceptOne_isOk : (∃ s', acceptOne rt dev v e s = (.ok (), s')) ↔
    Sound rt dev v.entropy e s ∧ e.createdAtMs ≤ v.now ∧ v.now < e.expiresAtMs := by
  simp only [acceptOne, Tx.bind_ok, Tx.ensure_ok, Tx.need_ok]
  constructor
  · rintro ⟨s', _, _, ⟨ha, rfl⟩, ⟨contact, address⟩, _, hsend, ⟨type, body⟩, _, ⟨hw, rfl⟩, _, s₁,
      hr, hq⟩
    obtain ⟨hpin, rfl⟩ := pinnedSender_iff.1 hsend
    obtain ⟨haddr, hnow⟩ := addressed_iff.1 ha
    have hack := queueAck_iff.1 ⟨s', hq⟩
    rw [receiveMessage_pendingAck hw hr] at hack
    exact ⟨⟨haddr, contact, address, type, body, hpin, hw, receiveMessage_iff.1 ⟨s₁, hr⟩, hack⟩,
      hnow⟩
  · rintro ⟨⟨haddr, contact, address, type, body, hsend, hw, hr, hack⟩, hnow⟩
    obtain ⟨s₁, hr⟩ := receiveMessage_iff.2 hr
    rw [← receiveMessage_pendingAck hw hr] at hack
    obtain ⟨s', hq⟩ := queueAck_iff.2 hack
    exact ⟨s', (), s, ⟨addressed_iff.2 ⟨haddr, hnow⟩, rfl⟩, (contact, address), s,
      pinnedSender_iff.2 ⟨hsend, rfl⟩, (type, body), s, ⟨hw, rfl⟩, (), s₁, hr, hq⟩

/-! ## Verdicts -/

/-- An attempt to accept an envelope that is refused. -/
def Refuses (rt : Runtime) (dev : Device) (w : Surroundings) (e : MailboxEnvelope)
    (s : ClientStore) (f : Failure) : Prop :=
  (attempt w (acceptOne rt dev w.within e) s).1 = .error f

/-- Where the failure is a verdict, no later clock accepts the envelope. -/
def JudgedForGood (rt : Runtime) (dev : Device) (w : Surroundings) (e : MailboxEnvelope)
    (s : ClientStore) : Prop :=
  ∀ f, Refuses rt dev w e s f → isNotAnEnvelopeVerdict f = false →
    ∀ w' : Surroundings, w'.within = { w.within with now := w'.within.now } →
      w.within.now ≤ w'.within.now → ∃ f', Refuses rt dev w' e s f'

theorem refuses_iff {w : Surroundings} : (∃ f, Refuses rt dev w e s f) ↔
    w.refused = true ∨ ¬ ∃ s', acceptOne rt dev w.within e s = (.ok (), s') := by
  unfold Refuses attempt
  split_ifs with h
  · exact ⟨fun _ => Or.inl h, fun _ => ⟨_, rfl⟩⟩
  · unfold Tx.transact
    split
    next u s' hx => simp [hx, h]
    next f s' hx => simp [hx, h]

/-- An envelope dated ahead of the clock is refused as invalid. -/
theorem refuses_ahead {w : Surroundings} (hw : w.refused = false)
    (h : w.within.now < e.createdAtMs) :
    Refuses rt dev w e s (.inbound "INVALID_ENVELOPE".toList) := by
  have hmis : misaddressed dev w.within.now e := by
    by_contra hno
    exact absurd (addressed_iff.1 hno).2.1 (not_le.2 h)
  unfold Refuses attempt
  rw [if_neg (by simp [hw])]
  have hx : acceptOne rt dev w.within e s = (.error (.inbound "INVALID_ENVELOPE".toList), s) := by
    change Tx.bind (Tx.ensure _ _) _ s = _
    unfold Tx.bind Tx.ensure
    rw [if_neg (not_not.2 hmis)]
    rfl
  unfold Tx.transact
  rw [hx]

/-- **Permanent verdicts.** A failure that is a verdict is one under every later clock exactly
    where the store refused the transaction (which is no verdict), the envelope is not dated ahead
    of the clock, or a check that reads no clock refuses it. -/
theorem verdict_for_good (rt : Runtime) (dev : Device) (w : Surroundings) (e : MailboxEnvelope)
    (s : ClientStore) : JudgedForGood rt dev w e s ↔
      w.refused = true ∨ e.createdAtMs ≤ w.within.now ∨ ¬ Sound rt dev w.within.entropy e s := by
  constructor
  · intro h
    by_contra hno
    push Not at hno
    obtain ⟨hw, hahead, hsound⟩ := hno
    have hw : w.refused = false := by simpa using hw
    -- at the time the envelope names itself it is accepted
    obtain ⟨f, hf⟩ := h _ (refuses_ahead hw hahead) rfl
      { w with within := { w.within with now := e.createdAtMs } } rfl hahead.le
    rcases refuses_iff.1 ⟨f, hf⟩ with h' | h'
    · rw [hw] at h'
      cases h'
    · exact h' (acceptOne_isOk.2 ⟨hsound, le_rfl, (addressed_iff.1 hsound.addressed).2.2⟩)
  · rintro h f hf hverdict w' hwithin hlater
    rw [refuses_iff, acceptOne_isOk]
    refine Or.inr fun ⟨hsound, hcreated, hexpires⟩ => ?_
    rcases refuses_iff.1 ⟨f, hf⟩ with href | href
    · unfold Refuses attempt at hf
      rw [if_pos href] at hf
      cases hf
      cases hverdict
    · rw [acceptOne_isOk] at href
      rw [hwithin] at hsound
      rcases h with h | h | h
      · unfold Refuses attempt at hf
        rw [if_pos h] at hf
        cases hf
        cases hverdict
      · exact href ⟨hsound, h, by omega⟩
      · exact h hsound

/-- An envelope dated a millisecond ahead of the clock. -/
def aheadEnvelope : MailboxEnvelope := { plainEnvelope 'E' ['x'] with createdAtMs := 6 }

/-- It is judged, and a later clock accepts it. -/
theorem ahead_not_for_good : ¬ ∀ (rt : Runtime) (dev : Device) (w : Surroundings)
    (e : MailboxEnvelope) (s : ClientStore), JudgedForGood rt dev w e s := by
  intro h
  have hahead : Refuses plainRuntime plainDevice (plainly 5 .done) aheadEnvelope plainStore
      (.inbound "INVALID_ENVELOPE".toList) := refuses_ahead rfl (by decide)
  obtain ⟨f, hf⟩ := h _ _ _ _ _ _ hahead rfl (plainly 6 .done) rfl (by decide)
  have hok : (attempt (plainly 6 .done) (acceptOne plainRuntime plainDevice ⟨6, nilUUID, 0⟩
      aheadEnvelope) plainStore).1.isOk = true := by decide +kernel
  change (attempt (plainly 6 .done) _ plainStore).1 = _ at hf
  rw [show (plainly 6 .done).within = ⟨6, nilUUID, 0⟩ from rfl] at hf
  rw [hf] at hok
  cases hok

end Echolet
