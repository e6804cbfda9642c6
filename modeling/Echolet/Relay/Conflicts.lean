/-
  Storing an envelope again, and storing another one under its id.

  * `MailboxEnvelope.marshal_inj`: the stored value says which envelope it is, so comparing
    bytes is comparing envelopes;
  * `saveTxn_live`: where an envelope is live under the key, a save changes nothing and
    answers with a replay or a conflict; the index exists then (`saveEnvelope_live`);
  * `Relay.kept`: a stored envelope stays until its deadline, unless it is acknowledged;
  * `store_replay_conflict`: so of two saves under one id the second to commit is refused as
    long as the first is there; `short_lived_stored_twice` is what happens otherwise.
-/
import Echolet.Lib.GoText
import Echolet.Relay.Pages

namespace Echolet

/-! ## Stored values -/

namespace MailboxEnvelope

theorem members_scalar (e : MailboxEnvelope) : ∀ m ∈ e.members, m.2.Scalar := by
  rw [members, List.forall_mem_append]
  constructor
  · simp only [List.forall_mem_cons, Json.Scalar, true_and]
    exact fun m hm => absurd hm List.not_mem_nil
  · split_ifs
    · exact fun m hm => absurd hm List.not_mem_nil
    · intro m hm
      rw [List.mem_singleton] at hm
      rw [hm]
      trivial

theorem members_inj {e e' : MailboxEnvelope} (h : e.members = e'.members) : e = e' := by
  obtain ⟨h1, h2⟩ := List.append_inj h (by simp)
  have hs : e.senderSignature = e'.senderSignature := by
    by_cases hs : e.senderSignature = [] <;> by_cases hs' : e'.senderSignature = []
    · rw [hs, hs']
    · rw [if_pos hs, if_neg hs'] at h2; cases h2
    · rw [if_neg hs, if_pos hs'] at h2; cases h2
    · rw [if_neg hs, if_neg hs'] at h2
      simpa using h2
  simp only [List.cons.injEq, Prod.mk.injEq, Json.str.injEq, Json.int.injEq, true_and, and_true] at h1
  obtain ⟨h1, h2, h3, h4, h5, h6, h7, h8, h9, h10, h11, h12, h13, h14⟩ := h1
  cases e
  cases e'
  simp only [MailboxEnvelope.mk.injEq]
  exact ⟨h1, h2, h3, h4, h5, h6, h7, h8, h9, h10, h11, h12, h13, h14, hs⟩

/-- **Different envelopes have different stored values.** -/
theorem marshal_inj {e e' : MailboxEnvelope} (h : e.marshal = e'.marshal) : e = e' := by
  simp only [marshal, toJson, Json.render, List.cons_append, List.cons.injEq, true_and] at h
  exact members_inj (Json.renderMembers_inj e.members_scalar e'.members_scalar h)

/-- The key of an envelope is that of any other with its mailbox and id. -/
theorem key_congr {e e' : MailboxEnvelope} (hm : e.recipientMailboxId = e'.recipientMailboxId)
    (hid : e.envelopeId = e'.envelopeId) : e.key = e'.key := by rw [key, key, hm, hid]

end MailboxEnvelope

/-! ## Saves under a live id -/

variable {cfg : RelayConfig} {C : Relay → RelayAct → Prop} {r r' : Relay}
  {stored e : MailboxEnvelope} {x : ℕ}

/-- A save under the key of a live envelope changes nothing. -/
theorem saveTxn_live {db : Db} {now : ℕ}
    (h : db.envelope.peek (seconds now) e.key = some ⟨stored, x⟩) (expiresAt : ℕ) :
    saveTxn db now expiresAt e = (if e = stored then .replayed else .envelopeIDConflict, db) := by
  rw [MailboxEnvelope.key] at h
  rw [saveTxn]
  simp only [h]
  by_cases he : e = stored
  · rw [if_pos (by rw [he]), if_pos he]
  · rw [if_neg fun hm => he (MailboxEnvelope.marshal_inj hm.symm), if_neg he]

/-- So does the whole call: a mailbox with an envelope has its index. -/
theorem saveEnvelope_live (hi : Relay.Inv cfg r)
    (h : r.db.envelope.peek (seconds r.now) stored.key = some ⟨stored, x⟩)
    (hm : e.recipientMailboxId = stored.recipientMailboxId) (hid : e.envelopeId = stored.envelopeId)
    (retentionCap : ℕ) : saveEnvelope retentionCap r.db r.now e =
      (if e = stored then .replayed else .envelopeIDConflict, r.db) := by
  obtain ⟨n, hn⟩ := Option.isSome_iff_exists.1 (hi.counted (Store.peek_eq_some.1 h).1)
  have hens : ensureMailboxOrdering r.db r.now e.recipientMailboxId = r.db := by
    rw [ensureMailboxOrdering, hm, hn]
  rw [saveEnvelope, hens]
  exact saveTxn_live (by rw [MailboxEnvelope.key_congr hm hid]; exact h) _

namespace Relay

/-- The answer to a save whose transaction runs in this state. -/
def saveAnswer (cfg : RelayConfig) (r : Relay) (e : MailboxEnvelope) (t : ℕ) : SaveResult :=
  (saveTxn r.db r.now (retentionDeadlineSeconds cfg.retentionCap t e) e).1

/-- Nobody acknowledges the envelope. -/
def Spares (e : MailboxEnvelope) (_ : Relay) (a : RelayAct) : Prop :=
  ∀ m id, a = .delete m id → mailboxEnvelopeKey m id ≠ e.key

/-- A step leaves a live envelope where it is, if it is not acknowledged. -/
theorem step_kept {a : RelayAct} (hi : Locks r) (hs : Spares e r a)
    (hl : (⟨e, x⟩ : Item MailboxEnvelope).Live (seconds r.now))
    (hg : r.db.envelope.get e.key = some ⟨e, x⟩) (h : step cfg r a = some r') :
    r'.db.envelope.get e.key = some ⟨e, x⟩ := by
  rcases step_cases hi h with ⟨e', t, -, -, -, ⟨-, rfl⟩ | ⟨hp, rfl⟩⟩ | ⟨m, id, rfl, rfl⟩ |
    ⟨ms, -, rfl⟩ | ⟨m, -, -, -, rfl⟩ | ⟨m, b, -, -, -, rfl⟩ | ⟨m, b, -, hb, -, rfl⟩ | ⟨m, d, p, -, rfl⟩
  · exact hg
  · have hne : e.key ≠ e'.key := by
      intro hk
      rw [← hk, Store.peek_eq_some.2 ⟨hg, hl⟩] at hp
      cases hp
    exact (SortedMap.get_insert_ne _ _ hne).trans hg
  · have hne : e.key ≠ mailboxEnvelopeKey m id := fun hk => hs m id rfl hk.symm
    simp only [deleteEnvelope, SortedMap.get_erase]
    rw [if_neg hne]
    exact hg
  · exact hg
  · exact hg
  · exact hg
  · simp only [backfillFinish]
    cases r.db.sequence m <;> exact hg
  · rw [advanceReadMark_envelope]
    exact hg

/-- **A stored envelope stays until its deadline**, if it is not acknowledged. -/
theorem kept (hi : Inv cfg r) (hg : r.db.envelope.get e.key = some ⟨e, x⟩)
    (h : Run (step cfg) (Spares e) r r')
    (hl : (⟨e, x⟩ : Item MailboxEnvelope).Live (seconds r'.now)) :
    r'.db.envelope.get e.key = some ⟨e, x⟩ := by
  induction h with
  | refl => exact hg
  | @tail s s' a hr hs hst ih =>
    have hi' := hi.run hr
    have hl' := hl.mono (seconds_mono (step_later hi' hst).clock)
    exact step_kept hi'.locks hs hl' (ih hl') hst

end Relay

/-! ## Replays and conflicts -/

/-- **Idempotent replay and conflict.**  In every state the relay reaches, storing an envelope
    whose id is live changes no key: the same envelope succeeds, every other is refused.  And of
    two stores of one id with different bodies, the first to find it free is stored, and the
    other, however the steps of the relay come in between, is refused and changes nothing as long
    as the first is there: not acknowledged, and not past its deadline. -/
theorem store_replay_conflict {now : ℕ} (h : Run (Relay.step cfg) C (.init now) r) :
    (∀ stored x e, r.db.envelope.peek (seconds r.now) stored.key = some ⟨stored, x⟩ →
      e.recipientMailboxId = stored.recipientMailboxId → e.envelopeId = stored.envelopeId →
      saveEnvelope cfg.retentionCap r.db r.now e =
        (if e = stored then .replayed else .envelopeIDConflict, r.db)) ∧
    ∀ e₁ e₂ t₁ t₂ r₁ r₂, e₂.recipientMailboxId = e₁.recipientMailboxId →
      e₂.envelopeId = e₁.envelopeId → e₂ ≠ e₁ →
      r.db.envelope.peek (seconds r.now) e₁.key = none →
      Relay.step cfg r (.save e₁ t₁) = some r₁ → Run (Relay.step cfg) (Relay.Spares e₁) r₁ r₂ →
      (⟨e₁, retentionDeadlineSeconds cfg.retentionCap t₁ e₁⟩ : Item MailboxEnvelope).Live
        (seconds r₂.now) →
      (∃ p, r.saveAnswer cfg e₁ t₁ = .stored p) ∧
      r₂.saveAnswer cfg e₂ t₂ = .envelopeIDConflict ∧ r₂.save cfg e₂ t₂ = r₂ ∧
      r₂.db.envelope.peek (seconds r₂.now) e₁.key =
        some ⟨e₁, retentionDeadlineSeconds cfg.retentionCap t₁ e₁⟩ := by
  have hi : Relay.Inv cfg r := (Relay.Inv.init now).run h
  refine ⟨fun stored x e hp hm hid => saveEnvelope_live hi hp hm hid _, ?_⟩
  intro e₁ e₂ t₁ t₂ r₁ r₂ hm hid hne hfree hst hrun hl
  have hi₁ : Relay.Inv cfg r₁ := hi.step hst
  have hstored : r₁.db.envelope.get e₁.key =
      some ⟨e₁, retentionDeadlineSeconds cfg.retentionCap t₁ e₁⟩ := by
    rcases Relay.step_cases hi.locks hst with ⟨e, t, he, -, -, ⟨hs, -⟩ | ⟨-, rfl⟩⟩ | ⟨m, id, he, -⟩ |
      ⟨ms, he, -⟩ | ⟨m, he, -⟩ | ⟨m, b, he, -⟩ | ⟨m, b, he, -⟩ | ⟨m, d, p, he, -⟩
    · cases he
      rw [hfree] at hs
      cases hs
    · cases he
      exact SortedMap.get_insert_self _ _ _
    all_goals cases he
  have hpeek : r₂.db.envelope.peek (seconds r₂.now) e₁.key =
      some ⟨e₁, retentionDeadlineSeconds cfg.retentionCap t₁ e₁⟩ :=
    Store.peek_eq_some.2 ⟨Relay.kept hi₁ hstored hrun hl, hl⟩
  have htxn := saveTxn_live (e := e₂) (by rw [MailboxEnvelope.key_congr hm hid]; exact hpeek)
    (retentionDeadlineSeconds cfg.retentionCap t₂ e₂)
  rw [if_neg hne] at htxn
  refine ⟨?_, ?_, ?_, hpeek⟩
  · rw [MailboxEnvelope.key] at hfree
    rw [Relay.saveAnswer, saveTxn]
    simp only [hfree]
    exact ⟨_, rfl⟩
  · rw [Relay.saveAnswer, htxn]
  · rw [Relay.save, htxn]

/-- The mailbox of the runs below, with its index, one second after the start. -/
def openedRun : List RelayAct := openMailbox ['m'] ++ [.tick 1000]

theorem openedRun_isSome : (replay (Relay.step defaultConfig) Any openedRun (.init 0)).isSome =
    true := by decide +kernel

def opened : Relay :=
  (replay (Relay.step defaultConfig) Any openedRun (.init 0)).get openedRun_isSome

theorem opened_run : Run (Relay.step defaultConfig) Any (.init 0) opened :=
  Run.of_replay (Option.some_get _).symm

/-- A message and another one under its id. -/
def firstNote : MailboxEnvelope := note ['m'] ['a'] '0'

def otherNote : MailboxEnvelope := { firstNote with messageId := noteId '1' }

theorem opened_saves : Relay.step defaultConfig opened (.save firstNote 1000) =
    some (opened.save defaultConfig firstNote 1000) := by
  rw [Relay.step, if_pos]
  decide +kernel

/-- Stored, stored again, and another one under its id. -/
theorem store_replay_conflict_note :
    let r₁ := opened.save defaultConfig firstNote 1000
    saveEnvelope defaultConfig.retentionCap r₁.db r₁.now firstNote = (.replayed, r₁.db) ∧
    (∃ p, opened.saveAnswer defaultConfig firstNote 1000 = .stored p) ∧
    r₁.saveAnswer defaultConfig otherNote 1000 = .envelopeIDConflict := by
  have hrun := opened_run.tail trivial opened_saves
  have h := (store_replay_conflict opened_run).2 firstNote otherNote 1000 1000 _ _ rfl rfl
    (by decide +kernel) (by decide +kernel) opened_saves .refl (by decide +kernel)
  exact ⟨(store_replay_conflict hrun).1 firstNote _ firstNote h.2.2.2 rfl rfl, h.1, h.2.1⟩

/-- An envelope under the same id that expires before the second is over. -/
def briefNote : MailboxEnvelope := { firstNote with expiresAtMs := 1500 }

/-- **An envelope that expires within the second is stored and hidden**: the next one under its
    id is stored as well, and nobody is told of a conflict. -/
theorem short_lived_stored_twice : Run (Relay.step defaultConfig) Any (.init 0) opened ∧
    (opened.now : ℤ) < briefNote.expiresAtMs ∧
    briefNote.key = otherNote.key ∧ briefNote ≠ otherNote ∧
    opened.db.envelope.peek (seconds opened.now) briefNote.key = none ∧
    opened.saveAnswer defaultConfig briefNote 1000 = .stored 1 ∧
    (opened.save defaultConfig briefNote 1000).saveAnswer defaultConfig otherNote 1000 = .stored 2 :=
  ⟨opened_run, by decide +kernel, rfl, by decide +kernel, by decide +kernel, by decide +kernel,
    by decide +kernel⟩

end Echolet
