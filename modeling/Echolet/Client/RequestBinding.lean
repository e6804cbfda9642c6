/-
  What the signature of a mailbox request binds.

  * `transcriptOf` is the text that `PollMailbox` and `AckMailbox` verify for a request that
    passed their checks; equal texts come from one route and one shape (`pollTranscript_inj`,
    `ackTranscript_eq_iff`);
  * `Regrouped` acknowledgements are the exception: ids may hold commas, and their list is
    signed as one joined text;
  * `request_signature_binds`: equal transcripts have the same effect exactly where the
    requests are not regrouped, and the client signs the relay's texts.
-/
import Echolet.Relay.Authority
import Echolet.Client.MailboxAuth

namespace Echolet

/-! ## Admitted requests -/

namespace MailboxRequest

def mailbox : MailboxRequest → Text
  | .challenge req => req.recipientMailboxId
  | .poll req => req.recipientMailboxId
  | .ack req => req.recipientMailboxId

def device : MailboxRequest → Text
  | .challenge req => req.deviceId
  | .poll req => req.deviceId
  | .ack req => req.deviceId

/-- The changes a cleared request makes, for the position it reports. -/
def changes (n position : ℕ) : MailboxRequest → List MailboxCall
  | .challenge req => [.createChallenge n req.recipientMailboxId req.deviceId]
  | .poll req => .invalidate n req.challengeId ::
      if req.readThrough.isSome = true then
        [.advanceReadMark n req.recipientMailboxId req.deviceId position] else []
  | .ack req => req.envelopeIds.map (.deleteEnvelope n req.recipientMailboxId) ++
      if req.readThrough.isSome = true then
        [.advanceReadMark n req.recipientMailboxId req.deviceId position] else []

/-- Two requests of one route that ask for the same changes; `cursor` and `batch_size` only
    select the page of a poll. -/
def SameEffect : MailboxRequest → MailboxRequest → Prop
  | .poll req, .poll req' => req.challengeId = req'.challengeId ∧ req.readThrough = req'.readThrough
  | .ack req, .ack req' => req.readThrough = req'.readThrough ∧
      req.envelopeIds.Perm req'.envelopeIds
  | _, _ => False

/-- Two acknowledgements of different ids whose sorted lists, cut at every comma, are the same. -/
def Regrouped : MailboxRequest → MailboxRequest → Prop
  | .ack req, .ack req' => req.readThrough = req'.readThrough ∧
      pieces ',' (sortStrings req.envelopeIds) = pieces ',' (sortStrings req'.envelopeIds) ∧
      ¬ req.envelopeIds.Perm req'.envelopeIds
  | _, _ => False

/-- The envelope ids a request names can be told apart in a joined list. -/
def Separable : MailboxRequest → Prop
  | .ack req => ∀ id ∈ req.envelopeIds, id ≠ [] ∧ ',' ∉ id
  | _ => True

/-- The same effect is the same changes, the deletions in any order. -/
theorem SameEffect.changes_perm {r r' : MailboxRequest} (h : SameEffect r r')
    (hm : r.mailbox = r'.mailbox) (hd : r.device = r'.device) (n position : ℕ) :
    (r.changes n position).Perm (r'.changes n position) := by
  cases r with
  | challenge req => exact h.elim
  | poll req =>
    cases r' with
    | poll req' =>
      simp only [mailbox, device] at hm hd
      simp only [changes, h.1, h.2, hm, hd, List.Perm.refl]
    | _ => exact h.elim
  | ack req =>
    cases r' with
    | ack req' =>
      simp only [mailbox, device] at hm hd
      simp only [changes, h.1, hm, hd]
      exact (h.2.map _).append_right _
    | _ => exact h.elim

end MailboxRequest

/-- The text a request is verified against, once it passed the checks of its fields and of its
    challenge.  The device record says under which key, and is left open. -/
def transcriptOf (cfg : RelayConfig) (w : MailboxRelay) : MailboxRequest → Option Text
  | .challenge _ => none
  | .poll req => do
    let _ ← (checkPollShape req).toOption
    let challenge ← getValidChallenge w.challenges w.relay.now req.challengeId
    let _ ← (checkPollChallenge req challenge).toOption
    return pollTranscript req challenge.nonce
  | .ack req => do
    let _ ← (checkAckShape cfg req).toOption
    return ackTranscript req

/-! ## Reading the fields -/

/-- A position that was decoded is free of colons. -/
theorem colon_notMem_readThrough {t : Text} {position : ℕ}
    (h : decodeReadThroughShape (some t) = .ok position) : ':' ∉ t := by
  unfold decodeReadThroughShape at h
  simp only at h
  split_ifs at h with hne
  split at h
  next p hp =>
    unfold decodeMailboxCursor at hp
    rw [if_neg hne] at hp
    split_ifs at hp with hl
    unfold parseDecimal at hp
    split_ifs at hp with hd
    intro hc
    exact absurd (List.all_eq_true.1 hd.2 _ hc) (by decide)
  next => cases h

theorem checkPollShape_readThrough {req : SignedPollRequest} {position : ℕ}
    (h : checkPollShape req = .ok position) :
    decodeReadThroughShape req.readThrough = .ok position := by
  unfold checkPollShape at h
  split_ifs at h
  exact h

theorem checkAckShape_readThrough {cfg : RelayConfig} {req : AckRequest} {position : ℕ}
    (h : checkAckShape cfg req = .ok position) :
    decodeReadThroughShape req.readThrough = .ok position := by
  unfold checkAckShape at h
  split_ifs at h
  split at h
  · cases h
  · exact h

section
variable {o o' a a' b c d e x x' : Text}

/-- The shapes of the four transcripts begin with their opening. -/
theorem opens_four : o <+: o ++ a ++ ':' :: b ++ ':' :: c ++ ':' :: d := by
  simp only [List.append_assoc]
  exact List.prefix_append _ _

theorem opens_five : o <+: o ++ a ++ ':' :: b ++ ':' :: c ++ ':' :: d ++ ':' :: e := by
  simp only [List.append_assoc]
  exact List.prefix_append _ _

theorem opens_three : o <+: o ++ a ++ ':' :: b ++ ':' :: c := by
  simp only [List.append_assoc]
  exact List.prefix_append _ _

/-- Texts with openings of which neither extends the other. -/
theorem opens_ne (h : o <+: x) (h' : o' <+: x') (hn : ¬ o <+: o') (hn' : ¬ o' <+: o) : x ≠ x' := by
  rintro rfl
  rcases List.prefix_or_prefix_of_prefix h h' with hp | hp
  · exact hn hp
  · exact hn' hp

/-- The first field behind an opening, where it is free of colons. -/
theorem first_field (ha : ':' ∉ a) (ha' : ':' ∉ a') (h : o ++ a ++ ':' :: x = o ++ a' ++ ':' :: x') :
    a = a' ∧ x = x' := by
  rw [List.append_assoc, List.append_assoc] at h
  exact join_inj_left ha ha' (List.append_cancel_left h)

end

/-- **Equal poll transcripts** name one challenge and one reported position. -/
theorem pollTranscript_inj {req req' : SignedPollRequest} {nonce nonce' : Text}
    (hc : ':' ∉ req.challengeId) (hc' : ':' ∉ req'.challengeId)
    (hr : ∀ t, req.readThrough = some t → ':' ∉ t) (hr' : ∀ t, req'.readThrough = some t → ':' ∉ t)
    (h : pollTranscript req nonce = pollTranscript req' nonce') :
    req.challengeId = req'.challengeId ∧ req.readThrough = req'.readThrough := by
  have hv : ¬ "echolet-mailbox-challenge:v1:".toList <+: "echolet-mailbox-challenge:v2:".toList ∧
      ¬ "echolet-mailbox-challenge:v2:".toList <+: "echolet-mailbox-challenge:v1:".toList := by
    decide
  unfold pollTranscript at h
  cases hrt : req.readThrough with
  | none =>
    cases hrt' : req'.readThrough with
    | none =>
      simp only [hrt, hrt'] at h
      unfold createMailboxChallengeMessage at h
      generalize "echolet-mailbox-challenge:v1:".toList = o at h
      simp only [List.append_assoc, List.cons_append] at h
      rw [← List.append_assoc, ← List.append_assoc] at h
      exact ⟨(first_field hc hc' h).1, rfl⟩
    | some t' =>
      simp only [hrt, hrt'] at h
      exact absurd h (opens_ne opens_four opens_five hv.1 hv.2)
  | some t =>
    cases hrt' : req'.readThrough with
    | none =>
      simp only [hrt, hrt'] at h
      exact absurd h (opens_ne opens_five opens_four hv.2 hv.1)
    | some t' =>
      simp only [hrt, hrt'] at h
      unfold createMailboxChallengeMessageV2 at h
      generalize "echolet-mailbox-challenge:v2:".toList = o at h
      obtain ⟨hrest, rfl⟩ := join_inj (hr t hrt) (hr' t' hrt') h
      simp only [List.append_assoc, List.cons_append] at hrest
      rw [← List.append_assoc, ← List.append_assoc] at hrest
      exact ⟨(first_field hc hc' hrest).1, rfl⟩

/-- **Equal acknowledgement transcripts** report one position, and their lists of ids have the
    same pieces; nothing more. -/
theorem ackTranscript_eq_iff {req req' : AckRequest}
    (hr : ∀ t, req.readThrough = some t → ':' ∉ t) (hr' : ∀ t, req'.readThrough = some t → ':' ∉ t)
    (hm : req.recipientMailboxId = req'.recipientMailboxId) (hd : req.deviceId = req'.deviceId) :
    ackTranscript req = ackTranscript req' ↔ req.readThrough = req'.readThrough ∧
      pieces ',' (sortStrings req.envelopeIds) = pieces ',' (sortStrings req'.envelopeIds) := by
  have hv : ¬ "echolet-mailbox-ack:v1:".toList <+: "echolet-mailbox-ack:v2:".toList ∧
      ¬ "echolet-mailbox-ack:v2:".toList <+: "echolet-mailbox-ack:v1:".toList := by decide
  have hids : ∀ {o x y : Text}, o ++ ':' :: x = o ++ ':' :: y ↔ x = y := by simp
  rw [← intercalate_eq_iff]
  unfold ackTranscript
  rw [hm, hd]
  cases hrt : req.readThrough with
  | none =>
    cases hrt' : req'.readThrough with
    | none =>
      simp only [true_and]
      exact hids
    | some t' =>
      simp only [reduceCtorEq, false_and, iff_false]
      exact opens_ne opens_three opens_four hv.1 hv.2
  | some t =>
    cases hrt' : req'.readThrough with
    | none =>
      simp only [reduceCtorEq, false_and, iff_false]
      exact opens_ne opens_four opens_three hv.2 hv.1
    | some t' =>
      simp only [Option.some.injEq]
      unfold createMailboxAckMessageV2
      generalize "echolet-mailbox-ack:v2:".toList = o
      constructor
      · intro h
        obtain ⟨hleft, ht⟩ := join_inj (hr t hrt) (hr' t' hrt') h
        exact ⟨ht, hids.1 hleft⟩
      · rintro ⟨rfl, h⟩
        rw [normalizedMailboxEnvelopeIDs, normalizedMailboxEnvelopeIDs, joinStrings, joinStrings, h]

/-- No text is a transcript of both routes. -/
theorem pollTranscript_ne_ackTranscript (req : SignedPollRequest) (nonce : Text)
    (req' : AckRequest) : pollTranscript req nonce ≠ ackTranscript req' := by
  have hv : ∀ p ∈ ["echolet-mailbox-challenge:v1:".toList, "echolet-mailbox-challenge:v2:".toList],
      ∀ q ∈ ["echolet-mailbox-ack:v1:".toList, "echolet-mailbox-ack:v2:".toList],
      ¬ p <+: q ∧ ¬ q <+: p := by decide
  have hpoll : ∃ p ∈ ["echolet-mailbox-challenge:v1:".toList,
      "echolet-mailbox-challenge:v2:".toList], p <+: pollTranscript req nonce := by
    unfold pollTranscript
    split
    · exact ⟨_, List.mem_cons_self, opens_four⟩
    · exact ⟨_, List.mem_cons_of_mem _ List.mem_cons_self, opens_five⟩
  have hack : ∃ q ∈ ["echolet-mailbox-ack:v1:".toList, "echolet-mailbox-ack:v2:".toList],
      q <+: ackTranscript req' := by
    unfold ackTranscript
    split
    · exact ⟨_, List.mem_cons_self, opens_three⟩
    · exact ⟨_, List.mem_cons_of_mem _ List.mem_cons_self, opens_four⟩
  obtain ⟨p, hp, ho⟩ := hpoll
  obtain ⟨q, hq, ho'⟩ := hack
  exact opens_ne ho ho' (hv p hp q hq).1 (hv p hp q hq).2

/-- Ids that are not empty and hold no comma are never regrouped. -/
theorem MailboxRequest.not_regrouped {r r' : MailboxRequest} (h : r.Separable)
    (h' : r'.Separable) : ¬ Regrouped r r' := by
  intro hreg
  cases r with
  | challenge req => exact hreg
  | poll req => exact hreg
  | ack req =>
    cases r' with
    | challenge req' => exact hreg
    | poll req' => exact hreg
    | ack req' =>
      obtain ⟨-, hp, hne⟩ := hreg
      have hsort : ∀ ids : List Text, (sortStrings ids).Perm ids := fun ids =>
        List.perm_insertionSort _ ids
      refine hne (((hsort _).symm.trans ?_).trans (hsort _))
      have hfree : ∀ {ids : List Text}, (∀ id ∈ ids, id ≠ [] ∧ ',' ∉ id) →
          ∀ id ∈ sortStrings ids, ',' ∉ id := fun hi id hid => (hi id ((hsort _).mem_iff.1 hid)).2
      have hempty : ∀ {ids : List Text}, (∀ id ∈ ids, id ≠ [] ∧ ',' ∉ id) →
          sortStrings ids ≠ [[]] := by
        intro ids hi he
        exact (hi [] ((hsort ids).mem_iff.1 (by rw [he]; simp))).1 rfl
      by_cases hn : sortStrings req.envelopeIds = []
      · by_cases hn' : sortStrings req'.envelopeIds = []
        · rw [hn, hn']
        · rw [hn, pieces, pieces_of_notMem (hfree h') hn'] at hp
          exact absurd hp.symm (hempty h')
      · by_cases hn' : sortStrings req'.envelopeIds = []
        · rw [hn', pieces, pieces_of_notMem (hfree h) hn] at hp
          exact absurd hp (hempty h)
        · rw [pieces_of_notMem (hfree h) hn, pieces_of_notMem (hfree h') hn'] at hp
          rw [hp]

/-! ## The binding -/

theorem ascii_of_uuid {t : Text} (h : clientMailboxUUID t = true) : ∀ c ∈ t, c.toNat < 128 := by
  simp only [clientMailboxUUID, Bool.or_eq_true, decide_eq_true_eq] at h
  rcases h with h | rfl
  · intro c hc
    by_contra hn
    have hle : ∀ d : Char, d.toNat < 128 → ¬ c ≤ d := by
      intro d hd hcd
      have hv : c.toNat ≤ d.toNat := hcd
      omega
    have hne : ∀ d : Char, d.toNat < 128 → c ≠ d := by
      rintro d hd rfl
      exact hn hd
    have hhex : isHex c = false := by
      simp only [isHex, decide_eq_false_iff_not]
      rintro (⟨-, hd⟩ | ⟨-, hd⟩ | ⟨-, hd⟩)
      · exact hle '9' (by decide) hd
      · exact hle 'f' (by decide) hd
      · exact hle 'F' (by decide) hd
    refine notMem_of_matchesAll (fun p hp => ?_) h hc
    simp only [uuidGroups, List.mem_append, List.mem_replicate, List.mem_singleton] at hp
    rcases hp with (((((((((⟨-, rfl⟩ | rfl) | ⟨-, rfl⟩) | rfl) | rfl) | ⟨-, rfl⟩) | rfl) | rfl) |
      ⟨-, rfl⟩) | rfl) | ⟨-, rfl⟩
    · exact hhex
    · exact decide_eq_false (hne '-' (by decide))
    · exact hhex
    · exact decide_eq_false (hne '-' (by decide))
    · exact decide_eq_false fun hd => hle '8' (by decide) hd.2
    · exact hhex
    · exact decide_eq_false (hne '-' (by decide))
    · refine decide_eq_false fun hm => ?_
      simp only [List.mem_cons, List.not_mem_nil, or_false] at hm
      rcases hm with rfl | rfl | rfl | rfl | rfl | rfl <;> exact hn (by decide)
    · exact hhex
    · exact decide_eq_false (hne '-' (by decide))
    · exact hhex
  · have hall : nilUUID.all (fun c => decide (c.toNat < 128)) = true := rfl
    simpa using hall

/-- What an admitted poll shows of its text. -/
theorem transcriptOf_poll {ed25519 : List ℕ → Text → List ℕ → Bool} {cfg : RelayConfig}
    {w : MailboxRelay} (hi : RelayInv ed25519 w) {req : SignedPollRequest} {t : Text}
    (h : transcriptOf cfg w (.poll req) = some t) :
    (∃ nonce, t = pollTranscript req nonce) ∧ ':' ∉ req.challengeId ∧
      ∀ rt, req.readThrough = some rt → ':' ∉ rt := by
  simp only [transcriptOf, Option.bind_eq_bind, Option.bind_eq_some_iff, Option.pure_def,
    Option.some.injEq] at h
  obtain ⟨position, hp, challenge, hg, -, -, rfl⟩ := h
  obtain ⟨⟨i, hk, rfl⟩, -⟩ := getValidChallenge_eq_some hg
  obtain ⟨hid, n, hissued⟩ := hi.stored hk
  have hshape : checkPollShape req = .ok position := by
    cases hs : checkPollShape req with
    | error e => rw [hs] at hp; cases hp
    | ok p => rw [hs] at hp; cases hp; rfl
  refine ⟨⟨_, rfl⟩, ?_, fun rt hrt => ?_⟩
  · rw [← hid]
    exact colon_notMem_uuid (hi.uuid hissued)
  · have hr := checkPollShape_readThrough hshape
    rw [hrt] at hr
    exact colon_notMem_readThrough hr

/-- What an admitted acknowledgement shows of its text. -/
theorem transcriptOf_ack {cfg : RelayConfig} {w : MailboxRelay} {req : AckRequest} {t : Text}
    (h : transcriptOf cfg w (.ack req) = some t) :
    t = ackTranscript req ∧ ∀ rt, req.readThrough = some rt → ':' ∉ rt := by
  simp only [transcriptOf, Option.bind_eq_bind, Option.bind_eq_some_iff, Option.pure_def,
    Option.some.injEq] at h
  obtain ⟨position, hp, rfl⟩ := h
  have hshape : checkAckShape cfg req = .ok position := by
    cases hs : checkAckShape cfg req with
    | error e => rw [hs] at hp; cases hp
    | ok p => rw [hs] at hp; cases hp; rfl
  refine ⟨rfl, fun rt hrt => ?_⟩
  have hr := checkAckShape_readThrough hshape
  rw [hrt] at hr
  exact colon_notMem_readThrough hr

/-- Equal transcripts of admitted requests have the same effect, or the requests are regrouped. -/
theorem sameEffect_iff {ed25519 : List ℕ → Text → List ℕ → Bool} {cfg : RelayConfig}
    {w w' : MailboxRelay} (hi : RelayInv ed25519 w) (hi' : RelayInv ed25519 w')
    {r r' : MailboxRequest} {t t' : Text} (hm : r.mailbox = r'.mailbox) (hd : r.device = r'.device)
    (ht : transcriptOf cfg w r = some t) (ht' : transcriptOf cfg w' r' = some t') :
    (t = t' → r.SameEffect r') ↔ ¬ r.Regrouped r' := by
  cases r with
  | challenge req => cases ht
  | poll req =>
    obtain ⟨⟨nonce, rfl⟩, hc, hr⟩ := transcriptOf_poll hi ht
    cases r' with
    | challenge req' => cases ht'
    | poll req' =>
      obtain ⟨⟨nonce', rfl⟩, hc', hr'⟩ := transcriptOf_poll hi' ht'
      exact ⟨fun _ hreg => hreg, fun _ he => pollTranscript_inj hc hc' hr hr' he⟩
    | ack req' =>
      obtain ⟨rfl, -⟩ := transcriptOf_ack ht'
      exact ⟨fun _ hreg => hreg, fun _ he =>
        absurd he (pollTranscript_ne_ackTranscript req nonce req')⟩
  | ack req =>
    obtain ⟨rfl, hr⟩ := transcriptOf_ack ht
    cases r' with
    | challenge req' => cases ht'
    | poll req' =>
      obtain ⟨⟨nonce', rfl⟩, -, -⟩ := transcriptOf_poll hi' ht'
      exact ⟨fun _ hreg => hreg, fun _ he =>
        absurd he.symm (pollTranscript_ne_ackTranscript req' nonce' req)⟩
    | ack req' =>
      obtain ⟨rfl, hr'⟩ := transcriptOf_ack ht'
      have heq := ackTranscript_eq_iff hr hr' hm hd
      constructor
      · rintro h ⟨hrt, hp, hne⟩
        exact hne (h (heq.2 ⟨hrt, hp⟩)).2
      · intro hreg he
        obtain ⟨hrt, hp⟩ := heq.1 he
        refine ⟨hrt, ?_⟩
        by_contra hne
        exact hreg ⟨hrt, hp, hne⟩

/-- The state of every run meets the invariant. -/
theorem MailboxProcesses.inv_of_run {ed25519 : List ℕ → Text → List ℕ → Bool} {cfg : RelayConfig}
    {challengeTTLSeconds : ℤ} {relay : Relay} {devices : DeviceState} {s : MailboxProcesses}
    (h : Run (MailboxProcesses.step ed25519 cfg challengeTTLSeconds)
      (Pool.Meets MailboxRelay.Fresh) (.init relay devices) s) : RelayInv ed25519 s.shared := by
  let R := authority ed25519 cfg challengeTTLSeconds
  have hstep : ∀ {t t' : MailboxProcesses} {a}, Contract.Ok R Authority.Answered t →
      Pool.Meets MailboxRelay.Fresh t a →
      MailboxProcesses.step ed25519 cfg challengeTTLSeconds t a = some t' →
      Contract.Ok R Authority.Answered t' := fun hok hm hst =>
    (hok.step Authority.authority_own Authority.serve_safe hm hst).1
  have hok : Contract.Ok R Authority.Answered s :=
    h.invariant (fun t a t' hok hm hst => hstep hok hm hst)
      (Contract.Ok.idle (RelayInv.init relay devices))
  exact hok.inv

/-- The signer's text of an acknowledgement of envelopes that met the client's schema. -/
theorem CryptoCore.createMailboxAckMessage_ackTranscript {req : AckRequest}
    (h : ∀ id ∈ req.envelopeIds, clientMailboxUUID id = true) :
    CryptoCore.createMailboxAckMessage req.recipientMailboxId req.deviceId req.envelopeIds
      req.readThrough = ackTranscript req := by
  have he := CryptoCore.createMailboxAckMessage_eq (fun id hid => ascii_of_uuid (h id hid))
    req.recipientMailboxId req.deviceId
  unfold ackTranscript
  cases req.readThrough with
  | none => exact he.1
  | some rt => exact he.2 rt

theorem CryptoCore.createMailboxChallengeMessage_pollTranscript (req : SignedPollRequest)
    (nonce : Text) :
    CryptoCore.createMailboxChallengeMessage req.challengeId req.recipientMailboxId req.deviceId
      nonce req.readThrough = pollTranscript req nonce := by
  have he := CryptoCore.createMailboxChallengeMessage_eq req.challengeId req.recipientMailboxId
    req.deviceId nonce
  unfold pollTranscript
  cases req.readThrough with
  | none => exact he.1
  | some rt => exact he.2 rt

/-- **A signed mailbox request binds its effect, unless its ids can be regrouped.**  Two requests
    for one mailbox and device, admitted at any two moments, whose verified texts are equal have
    the same effect exactly where they are not regrouped, which ids without commas never are; and
    the client's texts are the relay's. -/
theorem request_signature_binds {ed25519 : List ℕ → Text → List ℕ → Bool} {cfg : RelayConfig}
    {challengeTTLSeconds : ℤ} {relay relay' : Relay} {devices devices' : DeviceState}
    {s s' : MailboxProcesses}
    (h : Run (MailboxProcesses.step ed25519 cfg challengeTTLSeconds)
      (Pool.Meets MailboxRelay.Fresh) (.init relay devices) s)
    (h' : Run (MailboxProcesses.step ed25519 cfg challengeTTLSeconds)
      (Pool.Meets MailboxRelay.Fresh) (.init relay' devices') s')
    {r r' : MailboxRequest} {t t' : Text} (hm : r.mailbox = r'.mailbox) (hd : r.device = r'.device)
    (ht : transcriptOf cfg s.shared r = some t) (ht' : transcriptOf cfg s'.shared r' = some t') :
    ((t = t' → r.SameEffect r') ↔ ¬ r.Regrouped r') ∧
    (r.Separable → r'.Separable → ¬ r.Regrouped r') ∧
    (r.SameEffect r' → ∀ n position, (r.changes n position).Perm (r'.changes n position)) ∧
    (∀ (req : SignedPollRequest) nonce, CryptoCore.createMailboxChallengeMessage req.challengeId
      req.recipientMailboxId req.deviceId nonce req.readThrough = pollTranscript req nonce) ∧
    ∀ req : AckRequest, (∀ id ∈ req.envelopeIds, clientMailboxUUID id = true) →
      CryptoCore.createMailboxAckMessage req.recipientMailboxId req.deviceId req.envelopeIds
        req.readThrough = ackTranscript req :=
  ⟨sameEffect_iff (MailboxProcesses.inv_of_run h) (MailboxProcesses.inv_of_run h') hm hd ht ht',
    MailboxRequest.not_regrouped, fun hs => hs.changes_perm hm hd,
    CryptoCore.createMailboxChallengeMessage_pollTranscript,
    fun _ => CryptoCore.createMailboxAckMessage_ackTranscript⟩

/-- The relay once the device has its challenge. -/
def challengedRun : List (PoolAct (MailboxRequest ⊕ Background) Occasion) := redeemingRun.take 10

/-- The same poll with another page, under another signature. -/
def redeemingPollElsewhere : SignedPollRequest :=
  { redeemingPoll with batchSize := 5, cursor := ['1'], signature := ['s'] }

theorem request_signature_binds_page : ∃ s : MailboxProcesses,
    Run redeemingStep (Pool.Meets MailboxRelay.Fresh) redeemingStart s ∧
    redeemingPoll.cursor ≠ redeemingPollElsewhere.cursor ∧
    ∃ t, transcriptOf ⟨1000, 1000000, 10, 16⟩ s.shared (.poll redeemingPoll) = some t ∧
      transcriptOf ⟨1000, 1000000, 10, 16⟩ s.shared (.poll redeemingPollElsewhere) = some t ∧
      MailboxRequest.SameEffect (.poll redeemingPoll) (.poll redeemingPollElsewhere) := by
  let s := (replay redeemingStep (Pool.Meets MailboxRelay.Fresh) challengedRun redeemingStart).get
    (by decide +kernel)
  have hr : Run redeemingStep (Pool.Meets MailboxRelay.Fresh) redeemingStart s :=
    Run.of_replay (Option.some_get _).symm
  have ht : transcriptOf ⟨1000, 1000000, 10, 16⟩ s.shared (.poll redeemingPoll) =
      some (pollTranscript redeemingPoll ['n']) := by decide +kernel
  have ht' : transcriptOf ⟨1000, 1000000, 10, 16⟩ s.shared (.poll redeemingPollElsewhere) =
      some (pollTranscript redeemingPoll ['n']) := by decide +kernel
  have hb := request_signature_binds hr hr rfl rfl ht ht'
  exact ⟨s, hr, by decide, _, ht, ht', hb.1.2 (hb.2.1 trivial trivial) rfl⟩

/-! ## Regrouped acknowledgements -/

def regroupedIds : Text × Text :=
  ("11111111-1111-4111-8111-111111111111".toList, "33333333-3333-4333-8333-333333333333".toList)

/-- An acknowledgement of two envelopes. -/
def signedAck : AckRequest where
  recipientMailboxId := redeemingMailbox
  deviceId := ['d']
  envelopeIds := [regroupedIds.1, regroupedIds.2]
  signature := List.replicate 86 'A'
  readThrough := none

/-- One id made of both. -/
def regroupedAck : AckRequest :=
  { signedAck with envelopeIds := [regroupedIds.1 ++ ',' :: regroupedIds.2] }

/-- A verifier that accepts the signature of one text alone. -/
def regroupingStep : MailboxProcesses → PoolAct (MailboxRequest ⊕ Background) Occasion →
    Option MailboxProcesses :=
  MailboxProcesses.step (fun _ message _ => decide (message = ackTranscript signedAck))
    ⟨1000, 1000000, 10, 16⟩ 60

def regroupingRun : List (PoolAct (MailboxRequest ⊕ Background) Occasion) :=
  inBackground (.devices (.save redeemingDevice)) ++
  .start 1 (.inl (.ack signedAck)) :: List.replicate 4 (.step 1 onOccasion) ++
  .start 2 (.inl (.ack regroupedAck)) :: List.replicate 3 (.step 2 onOccasion)

/-- **A captured acknowledgement authorizes another one**: the signature of the two ids is
    accepted for the one id made of both. -/
theorem regrouped_ack_admitted : ∃ s : MailboxProcesses,
    Run regroupingStep (Pool.Meets MailboxRelay.Fresh) redeemingStart s ∧
    s.outcome 1 = some (.ok (.acked 2)) ∧ s.outcome 2 = some (.ok (.acked 1)) ∧
    ∃ t, transcriptOf ⟨1000, 1000000, 10, 16⟩ s.shared (.ack signedAck) = some t ∧
      transcriptOf ⟨1000, 1000000, 10, 16⟩ s.shared (.ack regroupedAck) = some t ∧
      ¬ MailboxRequest.SameEffect (.ack signedAck) (.ack regroupedAck) := by
  let s := (replay regroupingStep (Pool.Meets MailboxRelay.Fresh) regroupingRun redeemingStart).get
    (by decide +kernel)
  have hr : Run regroupingStep (Pool.Meets MailboxRelay.Fresh) redeemingStart s :=
    Run.of_replay (Option.some_get _).symm
  refine ⟨s, hr, by decide +kernel, by decide +kernel, ackTranscript signedAck,
    by decide +kernel, by decide +kernel, ?_⟩
  rintro ⟨-, hperm⟩
  exact absurd hperm.length_eq (by decide)

end Echolet
