/-
  What a challenge and a signature authorize.

  A log is `Justified` when every effect in it stands over the evidence for it: a mark or a
  batch of a poll over a challenge that was found live for the mailbox and device, a signature
  that verified under the stored key, and the consumption of the challenge; a deletion or a mark
  of an acknowledgement over a signature of its transcript.

  * `RelayInv` is the invariant, `authority` the contract of the store operations;
  * `pollMailbox_safe`, `ackMailbox_safe`: the handlers keep it, whatever happens between two of
    their operations;
  * `challenges_gate_effects`: challenges are consumed once, and effects are justified.
-/
import Echolet.Relay.MailboxService

namespace Echolet

/-- A challenge that may still be redeemed. -/
def MailboxChallenge.LiveAt (challenge : MailboxChallenge) (now : ℕ) : Prop :=
  ¬ challenge.used = true ∧ (now : ℤ) ≤ challenge.expiresAtMs

theorem getValidChallenge_eq_some {store : ChallengeStore} {now : ℕ} {id : Text}
    {challenge : MailboxChallenge} (h : getValidChallenge store now id = some challenge) :
    (∃ i, store.get id = some i ∧ i.value = challenge) ∧ challenge.LiveAt now := by
  obtain ⟨hp, hl⟩ := Option.filter_eq_some_iff.1 h
  obtain ⟨i, hi, rfl⟩ := Option.map_eq_some_iff.1 hp
  have hl := of_decide_eq_true hl
  exact ⟨⟨i, (Store.peek_eq_some.1 hi).1, rfl⟩, hl⟩

/-! ## Evidence -/

section
variable (ed25519 : List ℕ → Text → List ℕ → Bool)

/-- The signature of request `n` verified under the key stored for its device. -/
def Verified (log : List MailboxEvent) (n : ℕ) (mailboxID deviceID transcript signature : Text) :
    Prop :=
  ∃ record, .resolved n mailboxID deviceID record ∈ log ∧
    verifyMessageSignature ed25519 transcript signature record.devicePubKey = true

/-- A poll that may change a mark or return envelopes. -/
structure PollCleared (log : List MailboxEvent) (n : ℕ) (req : SignedPollRequest)
    (challenge : MailboxChallenge) : Prop where
  accepted : .accepted n (.poll req) ∈ log
  issued : ∃ k, .issued k challenge ∈ log
  named : challenge.challengeId = req.challengeId
  mailbox : challenge.recipientMailboxId = req.recipientMailboxId
  device : challenge.deviceId = req.deviceId
  found : ∃ t, .found n challenge t ∈ log ∧ challenge.LiveAt t
  consumed : ∃ t, .consumed n challenge t ∈ log ∧ challenge.LiveAt t
  verified : Verified ed25519 log n req.recipientMailboxId req.deviceId
    (pollTranscript req challenge.nonce) req.signature

/-- An acknowledgement that may delete envelopes or change a mark. -/
structure AckCleared (log : List MailboxEvent) (n : ℕ) (req : AckRequest) : Prop where
  accepted : .accepted n (.ack req) ∈ log
  verified : Verified ed25519 log n req.recipientMailboxId req.deviceId (ackTranscript req)
    req.signature

/-- The position is the one the request reports. -/
def Reports (readThrough : Option Text) (position : ℕ) : Prop :=
  readThrough.isSome = true ∧ decodeReadThroughShape readThrough = .ok position

/-- What has to stand below an event. -/
def Warranted (older : List MailboxEvent) : MailboxEvent → Prop
  | .accepted n _ => ∀ req, .accepted n req ∉ older
  | .consumed _ challenge _ => ∀ k challenge' t, .consumed k challenge' t ∈ older →
      challenge'.challengeId ≠ challenge.challengeId
  | .marked n m d position =>
    (∃ req challenge, PollCleared ed25519 older n req challenge ∧ m = req.recipientMailboxId ∧
      d = req.deviceId ∧ Reports req.readThrough position) ∨
    ∃ req, AckCleared ed25519 older n req ∧ m = req.recipientMailboxId ∧ d = req.deviceId ∧
      Reports req.readThrough position
  | .returned n m _ =>
    ∃ req challenge, PollCleared ed25519 older n req challenge ∧ m = req.recipientMailboxId
  | .deleted n m id =>
    ∃ req, AckCleared ed25519 older n req ∧ m = req.recipientMailboxId ∧ id ∈ req.envelopeIds
  | _ => True

def Justified : List MailboxEvent → Prop
  | [] => True
  | event :: older => Warranted ed25519 older event ∧ Justified older

variable {ed25519} {log log' : List MailboxEvent} {n : ℕ}

theorem PollCleared.mono {req : SignedPollRequest} {challenge : MailboxChallenge}
    (h : PollCleared ed25519 log n req challenge) (hs : log <:+ log') :
    PollCleared ed25519 log' n req challenge := by
  have hsub := hs.subset
  obtain ⟨k, hk⟩ := h.issued
  obtain ⟨t, ht, hl⟩ := h.found
  obtain ⟨t', ht', hl'⟩ := h.consumed
  obtain ⟨record, hr, hv⟩ := h.verified
  exact ⟨hsub h.accepted, ⟨k, hsub hk⟩, h.named, h.mailbox, h.device, ⟨t, hsub ht, hl⟩,
    ⟨t', hsub ht', hl'⟩, ⟨record, hsub hr, hv⟩⟩

theorem AckCleared.mono {req : AckRequest} (h : AckCleared ed25519 log n req)
    (hs : log <:+ log') : AckCleared ed25519 log' n req := by
  obtain ⟨record, hr, hv⟩ := h.verified
  exact ⟨hs.subset h.accepted, ⟨record, hs.subset hr, hv⟩⟩

end

/-! ## The invariant -/

structure RelayInv (ed25519 : List ℕ → Text → List ℕ → Bool) (w : MailboxRelay) : Prop where
  justified : Justified ed25519 w.log
  stored : ∀ {id i}, w.challenges.get id = some i →
    i.value.challengeId = id ∧ ∃ n, .issued n i.value ∈ w.log
  unique : ∀ {n n' c c'}, .issued n c ∈ w.log → .issued n' c' ∈ w.log →
    c.challengeId = c'.challengeId → c = c'
  uuid : ∀ {n c}, .issued n c ∈ w.log → clientMailboxUUID c.challengeId = true
  spent : ∀ {n c t}, .consumed n c t ∈ w.log →
    w.challenges.get c.challengeId = none ∧ ∃ k, .issued k c ∈ w.log
  accepted : ∀ {n req}, .accepted n req ∈ w.log → n < w.accepted

/-- What one operation does, besides what its log entry says. -/
structure Accounted (w w' : MailboxRelay) : Prop where
  mark : ∀ key, w'.relay.db.readMark key ≠ w.relay.db.readMark key →
    ∃ n m d p, key = mailboxReadMarkKey m d ∧ w'.log = .marked n m d p :: w.log
  erased : ∀ key i, w.relay.db.envelope.get key = some i → w'.relay.db.envelope.get key = none →
    ∃ n m id, key = mailboxEnvelopeKey m id ∧ w'.log = .deleted n m id :: w.log
  resolved : ∀ n m d record, w'.log = .resolved n m d record :: w.log →
    authorizeMailboxDevice deriveMailboxID w.devices.db m d = .ok record
  consumed : ∀ n challenge t, w'.log = .consumed n challenge t :: w.log →
    getValidChallenge w.challenges w.relay.now challenge.challengeId = some challenge ∧
      t = w.relay.now

/-- The contract of the store operations. -/
def authority (ed25519 : List ℕ → Text → List ℕ → Bool) (cfg : RelayConfig)
    (challengeTTLSeconds : ℤ) :
    Contract MailboxCall MailboxCall.Answer Refusal Occasion MailboxRelay where
  exec := MailboxRelay.exec cfg challengeTTLSeconds
  allowed := MailboxRelay.Fresh
  inv := RelayInv ed25519
  guar w w' := w.log <:+ w'.log ∧ Accounted w w'
  rely w w' := w.log <:+ w'.log

theorem Accounted.refl (w : MailboxRelay) : Accounted w w where
  mark key h := absurd rfl h
  erased key i h h' := by rw [h] at h'; cases h'
  resolved n m d record h := absurd h.symm (List.cons_ne_self _ _)
  consumed n c t h := absurd h.symm (List.cons_ne_self _ _)

namespace RelayInv
variable {ed25519 : List ℕ → Text → List ℕ → Bool} {w w' : MailboxRelay}

theorem init (relay : Relay) (devices : DeviceState) : RelayInv ed25519 (.init relay devices) where
  justified := trivial
  stored h := by cases h
  unique h := by cases h
  uuid h := by cases h
  spent h := by cases h
  accepted h := by cases h

/-- Other parts of the state do not matter. -/
theorem congr (h : RelayInv ed25519 w) (hc : w'.challenges = w.challenges)
    (ha : w'.accepted = w.accepted) (hl : w'.log = w.log) : RelayInv ed25519 w' := by
  obtain ⟨_, _, _, _, _⟩ := w
  obtain ⟨_, _, _, _, _⟩ := w'
  subst hc ha hl
  exact ⟨h.justified, h.stored, h.unique, h.uuid, h.spent, h.accepted⟩

/-- An event that is neither a challenge nor a request. -/
def Plain : MailboxEvent → Prop
  | .accepted _ _ | .issued _ _ | .consumed _ _ _ => False
  | _ => True

/-- A plain event that is warranted. -/
theorem push (h : RelayInv ed25519 w) {event : MailboxEvent} (hp : Plain event)
    (hw : Warranted ed25519 w.log event) : RelayInv ed25519 (w.logged event) where
  justified := ⟨hw, h.justified⟩
  stored hk := by
    obtain ⟨he, n, hn⟩ := h.stored hk
    exact ⟨he, n, List.mem_cons_of_mem _ hn⟩
  unique hc hc' he := by
    rcases List.mem_cons.1 hc with rfl | hc
    · exact hp.elim
    · rcases List.mem_cons.1 hc' with rfl | hc'
      · exact hp.elim
      · exact h.unique hc hc' he
  uuid hc := by
    rcases List.mem_cons.1 hc with rfl | hc
    · exact hp.elim
    · exact h.uuid hc
  spent hc := by
    rcases List.mem_cons.1 hc with rfl | hc
    · exact hp.elim
    · obtain ⟨hn, k, hk⟩ := h.spent hc
      exact ⟨hn, k, List.mem_cons_of_mem _ hk⟩
  accepted hr := by
    rcases List.mem_cons.1 hr with rfl | hr
    · exact hp.elim
    · exact h.accepted hr

theorem accept (h : RelayInv ed25519 w) (req : MailboxRequest) :
    RelayInv ed25519 { w.logged (.accepted w.accepted req) with accepted := w.accepted + 1 } where
  justified := ⟨fun req' hr => absurd (h.accepted hr) (Nat.lt_irrefl _), h.justified⟩
  stored hk := by
    obtain ⟨he, n, hn⟩ := h.stored hk
    exact ⟨he, n, List.mem_cons_of_mem _ hn⟩
  unique hc hc' := by
    rcases List.mem_cons.1 hc with hc | hc
    · cases hc
    · rcases List.mem_cons.1 hc' with hc' | hc'
      · cases hc'
      · exact h.unique hc hc'
  uuid hc := by
    rcases List.mem_cons.1 hc with hc | hc
    · cases hc
    · exact h.uuid hc
  spent hc := by
    rcases List.mem_cons.1 hc with hc | hc
    · cases hc
    · obtain ⟨hn, k, hk⟩ := h.spent hc
      exact ⟨hn, k, List.mem_cons_of_mem _ hk⟩
  accepted hr := by
    rcases List.mem_cons.1 hr with hr | hr
    · cases hr; exact Nat.lt_succ_self _
    · exact Nat.lt_succ_of_lt (h.accepted hr)

/-- A new challenge, whose id no other has. -/
theorem issue (h : RelayInv ed25519 w) {n : ℕ} {challenge : MailboxChallenge}
    (hu : clientMailboxUUID challenge.challengeId = true)
    (hf : ∀ n c, .issued n c ∈ w.log → c.challengeId ≠ challenge.challengeId) :
    RelayInv ed25519 { w.logged (.issued n challenge) with
      challenges := saveChallenge w.challenges w.relay.now challenge } where
  justified := ⟨trivial, h.justified⟩
  stored {id i} hk := by
    change (SortedMap.insert _ _ _).get id = some i at hk
    rw [SortedMap.get_insert] at hk
    split_ifs at hk with hid
    · cases hk
      exact ⟨hid.symm, n, List.mem_cons_self⟩
    · obtain ⟨he, k, hk⟩ := h.stored hk
      exact ⟨he, k, List.mem_cons_of_mem _ hk⟩
  unique hc hc' he := by
    rcases List.mem_cons.1 hc with hc | hc
    · rcases List.mem_cons.1 hc' with hc' | hc'
      · cases hc; cases hc'; rfl
      · cases hc; exact absurd he.symm (hf _ _ hc')
    · rcases List.mem_cons.1 hc' with hc' | hc'
      · cases hc'; exact absurd he (hf _ _ hc)
      · exact h.unique hc hc' he
  uuid hc := by
    rcases List.mem_cons.1 hc with hc | hc
    · cases hc; exact hu
    · exact h.uuid hc
  spent {m c t} hc := by
    rcases List.mem_cons.1 hc with hc | hc
    · cases hc
    · obtain ⟨hn, k, hk⟩ := h.spent hc
      refine ⟨?_, k, List.mem_cons_of_mem _ hk⟩
      change (SortedMap.insert _ _ _).get _ = none
      rw [SortedMap.get_insert_ne _ _ (hf k c hk)]
      exact hn
  accepted hr := by
    rcases List.mem_cons.1 hr with hr | hr
    · cases hr
    · exact h.accepted hr

/-- The stored challenge of an id, consumed. -/
theorem consume (h : RelayInv ed25519 w) {n t : ℕ} {challenge : MailboxChallenge} {id : Text}
    {i : Item MailboxChallenge} (hk : w.challenges.get id = some i) (hi : i.value = challenge) :
    RelayInv ed25519 { w.logged (.consumed n challenge t) with
      challenges := w.challenges.erase id } := by
  subst hi
  obtain ⟨hid, k, hissued⟩ := h.stored hk
  constructor
  · refine ⟨fun k' c t' hc he => ?_, h.justified⟩
    have hn := (h.spent hc).1
    rw [he, hid, hk] at hn
    cases hn
  · intro id' i' hk'
    change (w.challenges.erase id).get id' = some i' at hk'
    rw [SortedMap.get_erase] at hk'
    split_ifs at hk'
    obtain ⟨he, m, hm⟩ := h.stored hk'
    exact ⟨he, m, List.mem_cons_of_mem _ hm⟩
  · intro m m' c c' hc hc'
    rcases List.mem_cons.1 hc with hc | hc
    · cases hc
    · rcases List.mem_cons.1 hc' with hc' | hc'
      · cases hc'
      · exact h.unique hc hc'
  · intro m c hc
    rcases List.mem_cons.1 hc with hc | hc
    · cases hc
    · exact h.uuid hc
  · intro m c t' hc
    change (w.challenges.erase id).get c.challengeId = none ∧ _
    rcases List.mem_cons.1 hc with hc | hc
    · cases hc
      rw [SortedMap.get_erase, if_pos hid]
      exact ⟨rfl, k, List.mem_cons_of_mem _ hissued⟩
    · obtain ⟨hn, j, hj⟩ := h.spent hc
      rw [SortedMap.get_erase]
      refine ⟨?_, j, List.mem_cons_of_mem _ hj⟩
      split_ifs
      · rfl
      · exact hn
  · intro m req hr
    rcases List.mem_cons.1 hr with hr | hr
    · cases hr
    · exact h.accepted hr

end RelayInv

/-! ## The operations -/

namespace Authority

theorem advanceReadMark_envelope {db : Db} {now position : ℕ} {m d : Text} :
    (advanceReadMark db now m d position).envelope = db.envelope := by
  unfold advanceReadMark
  split
  · simp only; split_ifs <;> rfl
  · rfl

theorem advanceReadMark_ne {db : Db} {now position : ℕ} {m d key : Text}
    (h : key ≠ mailboxReadMarkKey m d) :
    (advanceReadMark db now m d position).readMark key = db.readMark key := by
  unfold advanceReadMark
  split
  · simp only
    split_ifs
    · rfl
    · exact Function.update_of_ne h _ _
  · exact Function.update_of_ne h _ _

/-- The other acts of the relay move no mark and take no envelope away. -/
theorem relay_keeps {cfg : RelayConfig} {r r' : Relay} {a : RelayAct}
    (ho : ¬ MailboxRelay.ownsAct a = true) (h : Relay.step cfg r a = some r') :
    r'.db.readMark = r.db.readMark ∧
      ∀ key i, r.db.envelope.get key = some i → r'.db.envelope.get key ≠ none := by
  have hsame : ∀ {key : Text} {i : Item MailboxEnvelope}, r.db.envelope.get key = some i →
      r.db.envelope.get key ≠ none := fun h => by rw [h]; simp
  cases a with
  | save e t =>
    simp only [Relay.step] at h
    split_ifs at h
    cases h
    have hdb : (r.save cfg e t).db =
        (saveTxn r.db r.now (retentionDeadlineSeconds cfg.retentionCap t e) e).2 := by
      unfold Relay.save
      split <;> simp_all
    rw [hdb]
    unfold saveTxn
    simp only
    split
    · split_ifs <;> exact ⟨rfl, fun key i => hsame⟩
    · refine ⟨rfl, fun key i h => ?_⟩
      change (SortedMap.insert _ _ _).get key ≠ none
      rw [SortedMap.get_insert]
      split_ifs
      · simp
      · exact hsame h
  | delete m id => exact absurd rfl ho
  | tick ms => cases h; exact ⟨rfl, fun key i => hsame⟩
  | backfillScan m =>
    simp only [Relay.step] at h
    split_ifs at h
    cases h
    exact ⟨rfl, fun key i => hsame⟩
  | backfillWrite m =>
    simp only [Relay.step] at h
    split at h
    next => cases h
    next b _ =>
      split_ifs at h
      cases h
      exact ⟨rfl, fun key i => hsame⟩
  | backfillFinish m =>
    simp only [Relay.step] at h
    split at h
    next => cases h
    next b _ =>
      split_ifs at h
      cases h
      unfold backfillFinish
      split <;> exact ⟨rfl, fun key i => hsame⟩
  | advanceReadMark m d p => exact absurd rfl ho

section
variable {ed25519 : List ℕ → Text → List ℕ → Bool} {cfg : RelayConfig} {ttl : ℤ}
  {K : MailboxRelay → Prop} {w w' : MailboxRelay} {event : MailboxEvent}

/-- An event that tells nothing about a store that stays as it is. -/
theorem Accounted.log (hr : ∀ n m d record, event ≠ .resolved n m d record)
    (hc : ∀ n c t, event ≠ .consumed n c t) (hdb : w'.relay = w.relay)
    (hl : w'.log = event :: w.log) : Accounted w w' where
  mark key h := by rw [hdb] at h; exact absurd rfl h
  erased key i h h' := by rw [hdb, h] at h'; cases h'
  resolved n m d record h := by
    rw [hl, List.cons.injEq] at h
    exact absurd h.1 (hr n m d record)
  consumed n c t h := by
    rw [hl, List.cons.injEq] at h
    exact absurd h.1 (hc n c t)

theorem logged_suffix (hl : w'.log = event :: w.log) : w.log <:+ w'.log := by
  rw [hl]; exact List.suffix_cons _ _

/-- What an event in the log shows is stable. -/
theorem stable_log {P : List MailboxEvent → Prop} (h : ∀ l l', l <:+ l' → P l → P l') :
    (authority ed25519 cfg ttl).Stable fun w => P w.log := fun _ _ _ _ hs hp => h _ _ hs hp

theorem stable_mem (event : MailboxEvent) :
    (authority ed25519 cfg ttl).Stable fun w => event ∈ w.log :=
  stable_log fun _ _ hs hm => hs.subset hm

theorem authority_own (w w' : MailboxRelay) (h : (authority ed25519 cfg ttl).guar w w') :
    (authority ed25519 cfg ttl).rely w w' := h.1

theorem stable_gives {α : Type} {P : α → List MailboxEvent → Prop}
    (h : ∀ a l l', l <:+ l' → P a l → P a l') (r : Except Refusal α) :
    (authority ed25519 cfg ttl).Stable (Contract.Gives (fun a w => P a w.log) r) :=
  fun _ _ _ _ hs hp a ha => h a _ _ hs (hp a ha)

theorem accept_safe (req : MailboxRequest) : (authority ed25519 cfg ttl).Safe
    (Contract.Gives fun n w => .accepted n req ∈ w.log) K (MailboxRoutes.perform (.accept req)) := by
  refine Contract.Safe.perform (stable_gives fun n _ _ hs hm => hs.subset hm) ?_
  intro v w r w' hi _ _ hx
  cases hx
  refine ⟨⟨hi.accept req, logged_suffix rfl, Accounted.log ?_ ?_ rfl rfl⟩, ?_⟩
  · intro n m d record h; cases h
  · intro n c t h; cases h
  · rintro n hn
    cases hn
    exact List.mem_cons_self

/-- What an answer of `authorize` shows. -/
def Resolved (n : ℕ) (m d : Text) (answer : Except ResolveError DeviceRecord)
    (log : List MailboxEvent) : Prop :=
  ∀ record, answer = .ok record → .resolved n m d record ∈ log

theorem authorize_safe (n : ℕ) (m d : Text) : (authority ed25519 cfg ttl).Safe
    (Contract.Gives fun answer w => Resolved n m d answer w.log) K
    (MailboxRoutes.perform (.authorize n m d)) := by
  refine Contract.Safe.perform
    (stable_gives fun a l l' hs hm record hr => hs.subset (hm record hr)) ?_
  intro v w r w' hi _ _ hx
  change MailboxRelay.exec cfg ttl (.authorize n m d) v w = some (r, w') at hx
  simp only [MailboxRelay.exec] at hx
  by_cases hf : v.failed = true
  · rw [if_pos hf] at hx
    cases hx
    exact ⟨⟨hi, List.suffix_rfl, .refl w⟩, fun a ha record hr => by cases ha; cases hr⟩
  · rw [if_neg hf] at hx
    split at hx
    next record ha =>
      cases hx
      refine ⟨⟨hi.push trivial trivial, logged_suffix rfl, ?_⟩, ?_⟩
      · constructor
        · exact fun key h => absurd rfl h
        · intro key i h h'
          exact absurd (h.symm.trans h') (by simp)
        · intro n' m' d' record' h
          cases (List.cons.inj h).1
          exact ha
        · intro n' c t h
          cases (List.cons.inj h).1
      · rintro a h record' rfl
        cases h
        exact List.mem_cons_self
    next e ha =>
      cases hx
      exact ⟨⟨hi, List.suffix_rfl, .refl w⟩, fun a ha record hr => by cases ha; cases hr⟩

/-- What an answer of `getValid` shows. -/
def Found (n : ℕ) (id : Text) (answer : Option MailboxChallenge) (log : List MailboxEvent) : Prop :=
  ∀ challenge, answer = some challenge → challenge.challengeId = id ∧
    (∃ k, .issued k challenge ∈ log) ∧ ∃ t, .found n challenge t ∈ log ∧ challenge.LiveAt t

theorem getValid_safe (n : ℕ) (id : Text) : (authority ed25519 cfg ttl).Safe
    (Contract.Gives fun answer w => Found n id answer w.log) K
    (MailboxRoutes.perform (.getValid n id)) := by
  refine Contract.Safe.perform (stable_gives fun a l l' hs hm challenge hc => ?_) ?_
  · obtain ⟨he, ⟨k, hk⟩, t, ht, hl⟩ := hm challenge hc
    exact ⟨he, ⟨k, hs.subset hk⟩, t, hs.subset ht, hl⟩
  intro v w r w' hi _ _ hx
  change MailboxRelay.exec cfg ttl (.getValid n id) v w = some (r, w') at hx
  simp only [MailboxRelay.exec] at hx
  by_cases hf : v.failed = true
  · rw [if_pos hf] at hx
    cases hx
    exact ⟨⟨hi, List.suffix_rfl, .refl w⟩, fun a ha c hc => by cases ha; cases hc⟩
  · rw [if_neg hf] at hx
    split at hx
    next challenge hg =>
      cases hx
      refine ⟨⟨hi.push trivial trivial, logged_suffix rfl, Accounted.log ?_ ?_ rfl rfl⟩, ?_⟩
      · intro n m d record h; cases h
      · intro n c t h; cases h
      · rintro a h challenge' rfl
        cases h
        obtain ⟨⟨i, hk, hiv⟩, hl⟩ := getValidChallenge_eq_some hg
        obtain ⟨he, k, hissued⟩ := hi.stored hk
        rw [hiv] at he hissued
        exact ⟨he, ⟨k, List.mem_cons_of_mem _ hissued⟩, _, List.mem_cons_self, hl⟩
    next =>
      cases hx
      exact ⟨⟨hi, List.suffix_rfl, .refl w⟩, fun a ha c hc => by cases ha; cases hc⟩

theorem highestIssued_safe (m : Text) : (authority ed25519 cfg ttl).Safe
    (Contract.Gives fun _ _ => True) K (MailboxRoutes.perform (.highestIssued m)) := by
  refine Contract.Safe.perform (fun r => fun _ _ _ _ _ _ _ _ => trivial) ?_
  intro v w r w' hi _ _ hx
  cases hx
  exact ⟨⟨hi, List.suffix_rfl, .refl w⟩, fun _ _ => trivial⟩

theorem readMark_safe (m d : Text) : (authority ed25519 cfg ttl).Safe
    (Contract.Gives fun _ _ => True) K (MailboxRoutes.perform (.readMark m d)) := by
  refine Contract.Safe.perform (fun r => fun _ _ _ _ _ _ _ _ => trivial) ?_
  intro v w r w' hi _ _ hx
  cases hx
  exact ⟨⟨hi, List.suffix_rfl, .refl w⟩, fun _ _ => trivial⟩

/-- What an answer of `invalidate` shows. -/
def Consumed (n : ℕ) (id : Text) (answer : Invalidated) (log : List MailboxEvent) : Prop :=
  answer = .consumed → ∃ challenge t, challenge.challengeId = id ∧ challenge.LiveAt t ∧
    .consumed n challenge t ∈ log ∧ ∃ k, .issued k challenge ∈ log

theorem invalidate_safe (n : ℕ) (id : Text) : (authority ed25519 cfg ttl).Safe
    (Contract.Gives fun answer w => Consumed n id answer w.log) K
    (MailboxRoutes.perform (.invalidate n id)) := by
  refine Contract.Safe.perform (stable_gives fun a l l' hs hm ha => ?_) ?_
  · obtain ⟨challenge, t, he, hl, hc, k, hk⟩ := hm ha
    exact ⟨challenge, t, he, hl, hs.subset hc, k, hs.subset hk⟩
  intro v w r w' hi _ _ hx
  change MailboxRelay.exec cfg ttl (.invalidate n id) v w = some (r, w') at hx
  simp only [MailboxRelay.exec] at hx
  by_cases hf : v.failed = true
  · rw [if_pos hf] at hx
    cases hx
    exact ⟨⟨hi, List.suffix_rfl, .refl w⟩, fun a ha hc => by cases ha; cases hc⟩
  rw [if_neg hf] at hx
  by_cases hv : v.conflict = true
  · rw [if_pos hv] at hx
    cases hx
    exact ⟨⟨hi, List.suffix_rfl, .refl w⟩, fun a ha hc => by cases ha; cases hc⟩
  rw [if_neg hv] at hx
  split at hx
  next challenge challenges hinv =>
    cases hx
    obtain ⟨c, hg, hc⟩ := Option.map_eq_some_iff.1 hinv
    cases hc
    obtain ⟨⟨i, hk, hiv⟩, hl⟩ := getValidChallenge_eq_some hg
    obtain ⟨he, k, hissued⟩ := hi.stored hk
    rw [hiv] at he hissued
    refine ⟨⟨hi.consume hk hiv, logged_suffix rfl, ?_⟩, ?_⟩
    · constructor
      · exact fun key h => absurd rfl h
      · intro key i h h'
        exact absurd (h.symm.trans h') (by simp)
      · intro n' m' d' record' h
        cases (List.cons.inj h).1
      · intro n' c' t' h
        cases (List.cons.inj h).1
        rw [he]
        exact ⟨hg, rfl⟩
    · rintro a h -
      exact ⟨_, _, he, hl, List.mem_cons_self, k, List.mem_cons_of_mem _ hissued⟩
  next =>
    cases hx
    exact ⟨⟨hi, List.suffix_rfl, .refl w⟩, fun a ha hc => by cases ha; cases hc⟩

theorem createChallenge_safe (n : ℕ) (m d : Text) : (authority ed25519 cfg ttl).Safe
    (Contract.Gives fun _ _ => True) K (MailboxRoutes.perform (.createChallenge n m d)) := by
  refine Contract.Safe.perform (fun r => fun _ _ _ _ _ _ _ _ => trivial) ?_
  intro v w r w' hi _ hfresh hx
  change MailboxRelay.exec cfg ttl (.createChallenge n m d) v w = some (r, w') at hx
  simp only [MailboxRelay.exec] at hx
  refine ⟨?_, fun _ _ => trivial⟩
  by_cases hf : v.failed = true
  · rw [if_pos hf] at hx
    cases hx
    exact ⟨hi, List.suffix_rfl, .refl w⟩
  · rw [if_neg hf] at hx
    cases hx
    obtain ⟨hu, hnew⟩ := hfresh
    have hids : ∀ n c, .issued n c ∈ w.log → c.challengeId ≠ v.uuid := by
      intro n c hc he
      exact hnew (List.mem_filterMap.2 ⟨_, hc, congrArg some he⟩)
    refine ⟨hi.issue hu hids, logged_suffix rfl, Accounted.log ?_ ?_ rfl rfl⟩
    · intro n m d record h; cases h
    · intro n c t h; cases h

theorem background_safe (a : Background) : (authority ed25519 cfg ttl).Safe
    (Contract.Gives fun _ _ => True) K (MailboxRoutes.perform (.background a)) := by
  refine Contract.Safe.perform (fun r => fun _ _ _ _ _ _ _ _ => trivial) ?_
  intro v w r w' hi _ _ hx
  obtain ⟨w₁, hb, he⟩ := Option.map_eq_some_iff.1 hx
  cases he
  refine ⟨?_, fun _ _ => trivial⟩
  cases a with
  | relay a =>
    simp only [MailboxRelay.background] at hb
    split_ifs at hb with ho
    obtain ⟨relay, hr, rfl⟩ := Option.map_eq_some_iff.1 hb
    obtain ⟨hm, he⟩ := relay_keeps ho hr
    refine ⟨hi.congr rfl rfl rfl, List.suffix_rfl, ?_, ?_, ?_, ?_⟩
    · intro key h
      exact absurd (congrFun hm key) h
    · intro key i h h'
      exact absurd h' (he key i h)
    · exact fun n m d record h => absurd h.symm (List.cons_ne_self _ _)
    · exact fun n c t h => absurd h.symm (List.cons_ne_self _ _)
  | devices a =>
    obtain ⟨devices, -, rfl⟩ := Option.map_eq_some_iff.1 hb
    refine ⟨hi.congr rfl rfl rfl, List.suffix_rfl, ?_, ?_, ?_, ?_⟩
    · exact fun key h => absurd rfl h
    · intro key i h h'
      exact absurd (h.symm.trans h') (by simp)
    · exact fun n m d record h => absurd h.symm (List.cons_ne_self _ _)
    · exact fun n c t h => absurd h.symm (List.cons_ne_self _ _)

/-- An operation on behalf of a request, where what is known warrants its event. -/
theorem effect_safe {c : MailboxCall} {Q : Except Refusal c.Answer → MailboxRelay → Prop}
    (hQ : ∀ r, (authority ed25519 cfg ttl).Stable (Q r))
    (h : ∀ v w r w', RelayInv ed25519 w → K w → MailboxRelay.exec cfg ttl c v w = some (r, w') →
      (w' = w ∨ ∃ event, RelayInv.Plain event ∧ Warranted ed25519 w.log event ∧
        w'.challenges = w.challenges ∧ w'.accepted = w.accepted ∧ w'.log = event :: w.log ∧
        Accounted w w') ∧ Q r w') :
    (authority ed25519 cfg ttl).Safe Q K (MailboxRoutes.perform c) := by
  refine Contract.Safe.perform hQ ?_
  intro v w r w' hi hk _ hx
  obtain ⟨hw, hq⟩ := h v w r w' hi hk hx
  refine ⟨?_, hq⟩
  rcases hw with rfl | ⟨event, hp, hwar, hc, ha, hl, hrec⟩
  · exact ⟨hi, List.suffix_rfl, .refl _⟩
  · exact ⟨(hi.push hp hwar).congr hc ha hl, logged_suffix hl, hrec⟩

theorem advanceReadMark_safe {n position : ℕ} {m d : Text}
    (hK : ∀ w, K w → Warranted ed25519 w.log (.marked n m d position)) :
    (authority ed25519 cfg ttl).Safe (Contract.Gives fun _ _ => True) K
      (MailboxRoutes.perform (.advanceReadMark n m d position)) := by
  refine effect_safe (fun r => fun _ _ _ _ _ _ _ _ => trivial) ?_
  intro v w r w' hi hk hx
  refine ⟨?_, fun _ _ => trivial⟩
  simp only [MailboxRelay.exec] at hx
  by_cases hf : v.failed = true
  · rw [if_pos hf] at hx
    cases hx
    exact Or.inl rfl
  · rw [if_neg hf] at hx
    cases hx
    refine Or.inr ⟨.marked n m d position, trivial, hK w hk, rfl, rfl, rfl, ?_, ?_, ?_, ?_⟩
    · intro key hkey
      refine ⟨n, m, d, position, ?_, rfl⟩
      by_contra hne
      exact hkey (advanceReadMark_ne hne)
    · intro key i h h'
      rw [show (advanceReadMark w.relay.db w.relay.now m d position).envelope =
        w.relay.db.envelope from advanceReadMark_envelope] at h'
      rw [h] at h'; cases h'
    · intro n' m' d' record h
      cases (List.cons.inj h).1
    · intro n' c t h
      cases (List.cons.inj h).1

theorem deleteEnvelope_safe {n : ℕ} {m id : Text}
    (hK : ∀ w, K w → Warranted ed25519 w.log (.deleted n m id)) :
    (authority ed25519 cfg ttl).Safe (Contract.Gives fun _ _ => True) K
      (MailboxRoutes.perform (.deleteEnvelope n m id)) := by
  refine effect_safe (fun r => fun _ _ _ _ _ _ _ _ => trivial) ?_
  intro v w r w' hi hk hx
  refine ⟨?_, fun _ _ => trivial⟩
  simp only [MailboxRelay.exec] at hx
  by_cases hf : v.failed = true
  · rw [if_pos hf] at hx
    cases hx
    exact Or.inl rfl
  · rw [if_neg hf] at hx
    cases hx
    refine Or.inr ⟨.deleted n m id, trivial, hK w hk, rfl, rfl, rfl, ?_, ?_, ?_, ?_⟩
    · exact fun key hkey => absurd rfl hkey
    · intro key i h h'
      refine ⟨n, m, id, ?_, rfl⟩
      change (w.relay.db.envelope.erase (mailboxEnvelopeKey m id)).get key = none at h'
      rw [SortedMap.get_erase] at h'
      split_ifs at h' with hke
      · exact hke
      · rw [h] at h'; cases h'
    · intro n' m' d' record h
      cases (List.cons.inj h).1
    · intro n' c t h
      cases (List.cons.inj h).1

/-- What an answer of a batch shows. -/
def Returned (n : ℕ) (m : Text) (answer : Batch) (log : List MailboxEvent) : Prop :=
  ∀ batch, answer = .selected batch → .returned n m batch ∈ log

theorem getEnvelopeBatch_safe {n : ℕ} {m : Text} {limit : ℤ} {cursor : Text}
    (hK : ∀ w batch, K w → Warranted ed25519 w.log (.returned n m batch)) :
    (authority ed25519 cfg ttl).Safe (Contract.Gives fun answer w => Returned n m answer w.log) K
      (MailboxRoutes.perform (.getEnvelopeBatch n m limit cursor)) := by
  refine effect_safe (stable_gives fun a l l' hs hm batch ha => hs.subset (hm batch ha)) ?_
  intro v w r w' hi hk hx
  have hret : ∀ batch, Accounted w (w.logged (.returned n m batch)) := by
    intro batch
    refine Accounted.log ?_ ?_ rfl rfl
    · intro n m d record h; cases h
    · intro n c t h; cases h
  simp only [MailboxRelay.exec] at hx
  by_cases hf : v.failed = true
  · rw [if_pos hf] at hx
    cases hx
    exact ⟨Or.inl rfl, fun a ha batch hb => by cases ha; cases hb⟩
  rw [if_neg hf] at hx
  split at hx
  next =>
    cases hx
    exact ⟨Or.inl rfl, fun a ha batch hb => by cases ha; cases hb⟩
  next resumeAfter hd =>
    split_ifs at hx with hl ho
    · cases hx
      refine ⟨Or.inr ⟨.returned n m _, trivial, hK w _ hk, rfl, rfl, rfl, hret _⟩, ?_⟩
      intro a ha batch hb
      cases ha; cases hb
      exact List.mem_cons_self
    · cases hx
      refine ⟨Or.inr ⟨.returned n m _, trivial, hK w _ hk, rfl, rfl, rfl, hret _⟩, ?_⟩
      intro a ha batch hb
      cases ha; cases hb
      exact List.mem_cons_self

/-! ## The handlers -/

open Contract MailboxRoutes

/-- Where a route answers with a batch, the batch was returned for some request. -/
def Answered (r : Except Refusal MailboxResponse) (w : MailboxRelay) : Prop :=
  ∀ batch, r = .ok (.envelopes batch) → ∃ n m, .returned n m batch ∈ w.log

theorem answered_error (e : Refusal) (w : MailboxRelay) : Answered (.error e) w :=
  fun _ h => by cases h

theorem done_safe {α : Type} (r : Except Refusal α) :
    (authority ed25519 cfg ttl).Safe (Gives fun a _ => r = .ok a) K (.done r) :=
  fun _ _ _ _ h => h

theorem need_safe {α : Type} (o : Option α) (refusal : Refusal) :
    (authority ed25519 cfg ttl).Safe (Gives fun a _ => o = some a) K (need o refusal) := by
  cases o with
  | none => exact fun _ _ _ a h => by cases h
  | some a => exact fun _ _ _ b h => by cases h; rfl

/-- The first part of a handler, whose result the rest may use together with what it knew. -/
theorem route_seq {α β : Type} {p : Route α} {f : α → Route β}
    {Q : Except Refusal β → MailboxRelay → Prop} {P : MailboxRelay → Prop}
    {P₁ : α → MailboxRelay → Prop} (hP : (authority ed25519 cfg ttl).Stable P)
    (hp : (authority ed25519 cfg ttl).Safe (Gives P₁) P p)
    (he : ∀ e w, Q (.error e) w)
    (hf : ∀ a, (authority ed25519 cfg ttl).Safe Q (fun w => P w ∧ P₁ a w) (f a)) :
    (authority ed25519 cfg ttl).Safe Q P (p >>= f) :=
  Safe.seq hP authority_own hp hf he

theorem gives_error {α : Type} {P : α → MailboxRelay → Prop} (e : Refusal) (w : MailboxRelay) :
    Gives P (.error e) w := fun _ h => by cases h

theorem authorizeRoute_safe (n : ℕ) (m d : Text) : (authority ed25519 cfg ttl).Safe
    (Gives fun record w => .resolved n m d record ∈ w.log) (fun _ => True)
    (MailboxRoutes.authorize n m d) := by
  refine route_seq Stable.true (authorize_safe n m d) gives_error fun answer => ?_
  cases answer with
  | ok record => exact fun w _ hk a h => by cases h; exact hk.2 record rfl
  | error e => exact fun w _ _ => gives_error _ _

theorem verifySignature_safe (transcript signature : Text) (record : DeviceRecord) :
    (authority ed25519 cfg ttl).Safe
      (Gives fun _ _ => verifyMessageSignature ed25519 transcript signature record.devicePubKey = true)
      K (verifySignature ed25519 transcript signature record) := by
  unfold verifySignature
  by_cases hv : verifyMessageSignature ed25519 transcript signature record.devicePubKey = true
  · rw [if_pos hv]
    exact fun _ _ _ _ _ => hv
  · rw [if_neg hv]
    exact fun w _ _ => gives_error _ _

theorem withinIssuedOf_safe (m : Text) (readThrough : Option Text) (position : ℕ) :
    (authority ed25519 cfg ttl).Safe (Gives fun _ _ => True) (fun _ => True)
      (withinIssuedOf m readThrough position) := by
  unfold withinIssuedOf
  split_ifs
  · refine route_seq Stable.true (highestIssued_safe m) gives_error fun answer => ?_
    refine route_seq (Stable.true.and .true) (need_safe answer _) gives_error fun highest => ?_
    exact fun w _ _ a _ => trivial
  · exact fun w _ _ a _ => trivial

theorem consume_safe (n : ℕ) (id : Text) : (authority ed25519 cfg ttl).Safe
    (Gives fun _ w => Consumed n id .consumed w.log) (fun _ => True) (consume n id) := by
  refine route_seq Stable.true (invalidate_safe n id) gives_error fun answer => ?_
  cases answer with
  | consumed => exact fun w _ hk a _ => hk.2
  | invalid => exact fun w _ _ => gives_error _ _
  | failed => exact fun w _ _ => gives_error _ _

theorem recordPosition_safe {n position : ℕ} {m d : Text} {readThrough : Option Text}
    {P : MailboxRelay → Prop} (hP : (authority ed25519 cfg ttl).Stable P)
    (hw : ∀ w, P w → readThrough.isSome = true → Warranted ed25519 w.log (.marked n m d position)) :
    (authority ed25519 cfg ttl).Safe (Gives fun _ _ => True) P
      (recordPosition n m d readThrough position) := by
  unfold recordPosition
  split_ifs with hr
  · refine route_seq hP (advanceReadMark_safe fun w hk => hw w hk hr) gives_error fun answer => ?_
    cases answer with
    | none => exact fun w _ _ => gives_error _ _
    | some u => exact fun w _ _ a _ => trivial
  · exact fun w _ _ a _ => trivial

theorem resumeCursor_safe (req : SignedPollRequest) : (authority ed25519 cfg ttl).Safe
    (Gives fun _ _ => True) (fun _ => True) (resumeCursor req) := by
  unfold resumeCursor
  split_ifs
  · refine route_seq Stable.true (readMark_safe _ _) gives_error fun answer => ?_
    cases answer with
    | none => exact fun w _ _ => gives_error _ _
    | some mark => exact fun w _ _ a _ => trivial
  · exact fun w _ _ a _ => trivial

theorem selectBatch_safe {n : ℕ} {m : Text} {limit : ℤ} {cursor : Text} {P : MailboxRelay → Prop}
    (hP : (authority ed25519 cfg ttl).Stable P)
    (hw : ∀ w batch, P w → Warranted ed25519 w.log (.returned n m batch)) :
    (authority ed25519 cfg ttl).Safe (Gives fun batch w => .returned n m batch ∈ w.log) P
      (selectBatch n m limit cursor) := by
  refine route_seq hP (getEnvelopeBatch_safe hw) gives_error fun answer => ?_
  cases answer with
  | selected batch => exact fun w _ hk a h => by cases h; exact hk.2 batch rfl
  | invalidCursor => exact fun w _ _ => gives_error _ _
  | failed => exact fun w _ _ => gives_error _ _

theorem deleteEnvelopes_safe {n : ℕ} {m : Text} {P : MailboxRelay → Prop}
    (hP : (authority ed25519 cfg ttl).Stable P) : ∀ ids : List Text,
    (∀ w, P w → ∀ id ∈ ids, Warranted ed25519 w.log (.deleted n m id)) →
    (authority ed25519 cfg ttl).Safe (Gives fun _ _ => True) P (deleteEnvelopes n m ids)
  | [], _ => fun w _ _ a _ => trivial
  | id :: ids, hw => by
    unfold deleteEnvelopes
    refine route_seq hP (deleteEnvelope_safe fun w hk => hw w hk id (by simp)) gives_error
      fun answer => ?_
    refine route_seq (hP.and .true) (need_safe answer _) gives_error fun _ => ?_
    exact (deleteEnvelopes_safe hP ids fun w hk id hid => hw w hk id (by simp [hid])).weaken
      fun w _ hk => hk.1.1

/-- What the first half of a poll finds out, ahead of the consumption of its challenge. -/
structure PollReady (ed25519 : List ℕ → Text → List ℕ → Bool) (n : ℕ) (req : SignedPollRequest)
    (challenge : MailboxChallenge) (log : List MailboxEvent) : Prop where
  accepted : .accepted n (.poll req) ∈ log
  found : Found n req.challengeId (some challenge) log
  checked : checkPollChallenge req challenge = .ok ()
  verified : Verified ed25519 log n req.recipientMailboxId req.deviceId
    (pollTranscript req challenge.nonce) req.signature

/-- A poll whose challenge was consumed is cleared. -/
theorem PollReady.cleared {n : ℕ} {req : SignedPollRequest} {challenge : MailboxChallenge}
    (hi : RelayInv ed25519 w) (h : PollReady ed25519 n req challenge w.log)
    (hc : Consumed n req.challengeId .consumed w.log) :
    PollCleared ed25519 w.log n req challenge := by
  obtain ⟨hid, ⟨k, hk⟩, t, ht, hl⟩ := h.found challenge rfl
  obtain ⟨consumed, t', hid', hl', hc, k', hk'⟩ := hc rfl
  have hsame : consumed = challenge := hi.unique hk' hk (hid'.trans hid.symm)
  subst hsame
  have hm : consumed.recipientMailboxId = req.recipientMailboxId ∧
      consumed.deviceId = req.deviceId := by
    have hch := h.checked
    unfold checkPollChallenge at hch
    split_ifs at hch with hne
    rw [not_or, not_not, not_not] at hne
    exact hne
  exact ⟨h.accepted, ⟨k, hk⟩, hid, hm.1, hm.2, ⟨t, ht, hl⟩, ⟨t', hc, hl'⟩, h.verified⟩

theorem PollReady.mono {log log' : List MailboxEvent} {n : ℕ} {req : SignedPollRequest}
    {challenge : MailboxChallenge} (hs : log <:+ log')
    (h : PollReady ed25519 n req challenge log) : PollReady ed25519 n req challenge log' := by
  obtain ⟨record, hr, hv⟩ := h.verified
  refine ⟨hs.subset h.accepted, fun c hc => ?_, h.checked, record, hs.subset hr, hv⟩
  obtain ⟨hid, ⟨k, hk⟩, t, ht, hl⟩ := h.found c hc
  exact ⟨hid, ⟨k, hs.subset hk⟩, t, hs.subset ht, hl⟩

theorem reports_of {readThrough : Option Text} {position : ℕ}
    (h : decodeReadThroughShape readThrough = .ok position) (hs : readThrough.isSome = true) :
    Reports readThrough position := ⟨hs, h⟩

/-- The second half of a poll: from the consumption of the challenge on. -/
theorem redeem_safe (req : SignedPollRequest) (n position : ℕ) (challenge : MailboxChallenge)
    (hpos : decodeReadThroughShape req.readThrough = .ok position)
    (hm : challenge.recipientMailboxId = req.recipientMailboxId) :
    (authority ed25519 cfg ttl).Safe Answered
      (fun w => PollCleared ed25519 w.log n req challenge) (do
        recordPosition n req.recipientMailboxId req.deviceId req.readThrough position
        let cursor ← resumeCursor req
        let batch ← selectBatch n challenge.recipientMailboxId
          (pollBatchSize cfg req.batchSize) cursor
        return .envelopes batch) := by
  have hst : (authority ed25519 cfg ttl).Stable fun w =>
      PollCleared ed25519 w.log n req challenge :=
    stable_log (P := fun log => PollCleared ed25519 log n req challenge) fun _ _ hs h => h.mono hs
  refine route_seq hst (recordPosition_safe hst fun w hk hr => ?_) answered_error fun _ => ?_
  · exact Or.inl ⟨req, challenge, hk, rfl, rfl, reports_of hpos hr⟩
  refine route_seq (hst.and .true) ((resumeCursor_safe req).weaken fun _ _ _ => trivial)
    answered_error fun cursor => ?_
  refine route_seq ((hst.and .true).and .true)
    (selectBatch_safe ((hst.and .true).and .true) fun w batch hk => ?_) answered_error fun batch => ?_
  · exact ⟨req, challenge, hk.1.1, hm⟩
  · intro w _ hk b hb
    cases hb
    exact ⟨n, _, hk.2⟩

/-- **A poll is safe.** -/
theorem pollMailbox_safe (req : SignedPollRequest) : (authority ed25519 cfg ttl).Safe Answered
    (fun _ => True) (MailboxRoutes.pollMailbox ed25519 cfg req) := by
  unfold MailboxRoutes.pollMailbox
  refine route_seq Stable.true (accept_safe _) answered_error fun n => ?_
  have hst₁ : (authority ed25519 cfg ttl).Stable fun w =>
      True ∧ .accepted n (.poll req) ∈ w.log := Stable.true.and (stable_mem _)
  refine route_seq hst₁ (done_safe _) answered_error fun position => ?_
  have hst₂ := hst₁.and (.const (P := checkPollShape req = .ok position))
  refine route_seq hst₂ (getValid_safe n _) answered_error fun answer => ?_
  have hst₃ := hst₂.and (stable_log (P := Found n req.challengeId answer)
    fun l l' hs hm c hc => by
      obtain ⟨hid, ⟨k, hk⟩, t, ht, hl⟩ := hm c hc
      exact ⟨hid, ⟨k, hs.subset hk⟩, t, hs.subset ht, hl⟩)
  refine route_seq hst₃ (need_safe answer _) answered_error fun challenge => ?_
  have hst₄ := hst₃.and (.const (P := answer = some challenge))
  refine route_seq hst₄ (done_safe _) answered_error fun _ => ?_
  have hst₅ := hst₄.and (.const (P := checkPollChallenge req challenge = .ok ()))
  refine route_seq hst₅ ((authorizeRoute_safe n _ _).weaken fun _ _ _ => trivial) answered_error
    fun record => ?_
  have hst₆ := hst₅.and (stable_mem (.resolved n req.recipientMailboxId req.deviceId record))
  refine route_seq hst₆ (verifySignature_safe _ _ record) answered_error fun _ => ?_
  -- from here on the poll is known to be ready
  have hst : (authority ed25519 cfg ttl).Stable fun w =>
      PollReady ed25519 n req challenge w.log :=
    stable_log (P := PollReady ed25519 n req challenge) fun _ _ hs h => h.mono hs
  refine Safe.weaken (K := fun w => PollReady ed25519 n req challenge w.log ∧
    checkPollShape req = .ok position) ?_ ?_
  · rintro w - ⟨⟨⟨⟨⟨⟨⟨-, ha⟩, hp⟩, hf⟩, he⟩, hc⟩, hr⟩, hv⟩
    subst he
    exact ⟨⟨ha, hf, hc, record, hr, hv⟩, hp⟩
  refine Safe.assume fun hshape => ?_
  refine route_seq hst ((withinIssuedOf_safe _ _ _).weaken fun _ _ _ => trivial) answered_error
    fun _ => ?_
  refine route_seq (hst.and .true) ((consume_safe n _).weaken fun _ _ _ => trivial) answered_error
    fun _ => ?_
  have hpos : decodeReadThroughShape req.readThrough = .ok position := by
    unfold checkPollShape at hshape
    split_ifs at hshape
    exact hshape
  by_cases hc : checkPollChallenge req challenge = .ok ()
  · have hm : challenge.recipientMailboxId = req.recipientMailboxId := by
      unfold checkPollChallenge at hc
      split_ifs at hc with hne
      rw [not_or, not_not] at hne
      exact hne.1
    exact (redeem_safe req n position challenge hpos hm).weaken fun w hi hk =>
      hk.1.1.cleared hi hk.2
  · refine Safe.weaken (K := fun w => PollCleared ed25519 w.log n req challenge ∧ False) ?_
      (Safe.assume fun h => h.elim)
    exact fun w _ hk => absurd hk.1.1.checked hc

/-- **An acknowledgement is safe.** -/
theorem ackMailbox_safe (req : AckRequest) : (authority ed25519 cfg ttl).Safe Answered
    (fun _ => True) (ackMailbox ed25519 cfg req) := by
  unfold ackMailbox
  refine route_seq Stable.true (accept_safe _) answered_error fun n => ?_
  have hst₁ : (authority ed25519 cfg ttl).Stable fun w =>
      True ∧ .accepted n (.ack req) ∈ w.log := Stable.true.and (stable_mem _)
  refine route_seq hst₁ (done_safe _) answered_error fun position => ?_
  have hst₂ := hst₁.and (.const (P := checkAckShape cfg req = .ok position))
  refine route_seq hst₂ ((authorizeRoute_safe n _ _).weaken fun _ _ _ => trivial) answered_error
    fun record => ?_
  have hst₃ := hst₂.and (stable_mem (.resolved n req.recipientMailboxId req.deviceId record))
  refine route_seq hst₃ (verifySignature_safe _ _ record) answered_error fun _ => ?_
  have hst : (authority ed25519 cfg ttl).Stable fun w => AckCleared ed25519 w.log n req :=
    stable_log (P := fun log => AckCleared ed25519 log n req) fun _ _ hs h => h.mono hs
  refine Safe.weaken (K := fun w => AckCleared ed25519 w.log n req ∧
    checkAckShape cfg req = .ok position) ?_ ?_
  · rintro w - ⟨⟨⟨⟨-, ha⟩, hp⟩, hr⟩, hv⟩
    exact ⟨⟨ha, record, hr, hv⟩, hp⟩
  refine Safe.assume fun hshape => ?_
  have hpos : decodeReadThroughShape req.readThrough = .ok position := by
    unfold checkAckShape at hshape
    split_ifs at hshape
    split at hshape
    · cases hshape
    · exact hshape
  refine route_seq hst ((withinIssuedOf_safe _ _ _).weaken fun _ _ _ => trivial) answered_error
    fun _ => ?_
  refine route_seq (hst.and .true) (deleteEnvelopes_safe (hst.and .true) _ fun w hk id hid => ?_)
    answered_error fun _ => ?_
  · exact ⟨req, hk.1, rfl, hid⟩
  refine route_seq ((hst.and .true).and .true)
    (recordPosition_safe ((hst.and .true).and .true) fun w hk hr => ?_) answered_error fun _ => ?_
  · exact Or.inr ⟨req, hk.1.1, rfl, rfl, reports_of hpos hr⟩
  · exact fun w _ _ b hb => by cases hb

theorem createChallengeRoute_safe (req : ChallengeRequest) : (authority ed25519 cfg ttl).Safe
    Answered (fun _ => True) (createChallenge ed25519 req) := by
  unfold createChallenge
  have hst := Stable.true (R := authority ed25519 cfg ttl)
  refine route_seq hst (accept_safe _) answered_error fun n => ?_
  refine Safe.weaken (K := fun _ => True) (fun _ _ _ => trivial) ?_
  refine route_seq hst (done_safe _) answered_error fun _ => ?_
  refine Safe.weaken (K := fun _ => True) (fun _ _ _ => trivial) ?_
  refine route_seq hst (authorizeRoute_safe n _ _) answered_error fun record => ?_
  refine Safe.weaken (K := fun _ => True) (fun _ _ _ => trivial) ?_
  refine route_seq hst (verifySignature_safe _ _ record) answered_error fun _ => ?_
  refine Safe.weaken (K := fun _ => True) (fun _ _ _ => trivial) ?_
  refine route_seq hst (createChallenge_safe n _ _) answered_error fun answer => ?_
  refine route_seq (hst.and hst) (need_safe answer _) answered_error fun challenge => ?_
  exact fun w _ _ b hb => by cases hb

theorem serve_safe (job : MailboxRequest ⊕ Background) : (authority ed25519 cfg ttl).Safe
    Answered (fun _ => True) (MailboxRoutes.serve ed25519 cfg job) := by
  rcases job with (req | req | req) | a
  · exact createChallengeRoute_safe req
  · exact pollMailbox_safe req
  · exact ackMailbox_safe req
  · refine route_seq Stable.true (background_safe a) answered_error fun _ => ?_
    exact fun w _ _ b hb => by cases hb

end

end Authority

/-- One step of the processes of the relay. -/
def MailboxProcesses.step (ed25519 : List ℕ → Text → List ℕ → Bool) (cfg : RelayConfig)
    (challengeTTLSeconds : ℤ) : MailboxProcesses →
    PoolAct (MailboxRequest ⊕ Background) Occasion → Option MailboxProcesses :=
  Pool.step (MailboxRelay.exec cfg challengeTTLSeconds) (MailboxRoutes.serve ed25519 cfg)

/-- The relay before any request. -/
def MailboxProcesses.init (relay : Relay) (devices : DeviceState) : MailboxProcesses :=
  ⟨.init relay devices, fun _ => none⟩

/-- The result of a process that has ended. -/
def MailboxProcesses.outcome (s : MailboxProcesses) (i : ℕ) : Option (Except Refusal MailboxResponse) :=
  match s.proc i with
  | some (.done r) => some r
  | _ => none

def redeemingDevice : DeviceRecord :=
  ⟨"device_record".toList, 1, List.replicate 43 'A', ['d'], List.replicate 43 'A', none, [], 0,
    List.replicate 86 'A'⟩

def redeemingMailbox : Text := deriveMailboxID redeemingDevice.identityId

def redeemedId : Text := "22222222-2222-4222-8222-222222222222".toList

/-- A poll of the device, and the same poll again. -/
def redeemingPoll : SignedPollRequest where
  recipientMailboxId := redeemingMailbox
  deviceId := ['d']
  batchSize := 0
  cursor := []
  readThrough := some ['0']
  challengeId := redeemedId
  signature := List.replicate 86 'A'

def onOccasion : Occasion := ⟨false, false, redeemedId, ['n']⟩

/-- Something in the background, in one step of a process. -/
def inBackground (a : Background) : List (PoolAct (MailboxRequest ⊕ Background) Occasion) :=
  [.start 0 (.inr a), .step 0 onOccasion]

/-- The device publishes and takes a challenge; then a poll and its replay run side by side. -/
def redeemingRun : List (PoolAct (MailboxRequest ⊕ Background) Occasion) :=
  inBackground (.devices (.save redeemingDevice)) ++
  inBackground (.relay (.backfillScan redeemingMailbox)) ++
  inBackground (.relay (.backfillFinish redeemingMailbox)) ++
  .start 1 (.inl (.challenge ⟨redeemingMailbox, ['d'], List.replicate 86 'A'⟩)) ::
    List.replicate 3 (.step 1 onOccasion) ++
  [.start 2 (.inl (.poll redeemingPoll)), .start 3 (.inl (.poll redeemingPoll))] ++
  (List.replicate 5 [.step 2 onOccasion, .step 3 onOccasion]).flatten ++
  List.replicate 3 (.step 2 onOccasion)

def redeemingStep : MailboxProcesses → PoolAct (MailboxRequest ⊕ Background) Occasion →
    Option MailboxProcesses :=
  MailboxProcesses.step (fun _ _ _ => true) ⟨1000, 1000000, 10, 16⟩ 60

def redeemingStart : MailboxProcesses :=
  .init (.init 5000) ⟨⟨.empty, fun _ => none⟩, none⟩

end Echolet
