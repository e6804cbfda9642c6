/-
  What an import of a contact keeps.

  The import is two transactions, `importContact` and `requestMailboxRewalk`, and polls of
  other processes write the same record around their pages.  `ImportKept` says of a world that
  a trusted contact has lost nothing: the stored re-walk position precedes whatever has not
  been offered since, or everything has been offered.

  `Safe` names what a process can spoil: no stored position lies before the envelope, or a
  re-walk in flight will pass it by.  `import_kept`: where the contact becomes trusted, and
  where an envelope is stored afterwards, only while the envelopes concerned are safe, every
  state reached is `ImportKept`; and with the first condition alone nothing stored before the
  contact was trusted is lost.
-/
import Echolet.Client.Rewalk

namespace Echolet

namespace World

variable {cfg : RelayConfig} {dev : Device} {w w' : World} {r r' : Relay}
  {js js' : List ReceivedPage} {T : ℕ} {P : ℕ → Prop} {q : ℕ} {e : MailboxEnvelope}

/-- A stored re-walk resumes before position `q`. -/
def StoredBefore (w : World) (q : ℕ) : Prop := ∃ p, storedPosition w.rewalk = some p ∧ p < q

/-- While the contact is trusted, a stored re-walk precedes every live envelope that has not
    been offered since, or every live envelope has been offered since. -/
def ImportKept (dev : Device) (w : World) : Prop :=
  ∀ tr, w.trusted = some tr →
    (∃ p, storedPosition w.rewalk = some p ∧ ∀ q e, w.relay.At q e →
      e.recipientMailboxId = dev.mailboxId → ¬ Offered tr.since w.judged q e → p < q) ∨
    ∀ q e, w.relay.At q e → e.recipientMailboxId = dev.mailboxId → Offered tr.since w.judged q e

/-! ## What a re-walk in flight passes by -/

/-- The record written after a page covers position `q`. -/
def Covered (reply : Reply) (q : ℕ) : Prop := nextCursor reply.batch = none ∨ q ≤ reply.upto

/-- A re-walk in flight will pass the envelope by: its position is beyond it, the page at hand
    covers it, or the page on its way covers and does not hold it. -/
def Passes (q : ℕ) (e : MailboxEnvelope) : Client → Request → Prop
  | .idle, _ => False
  | .walking walk, _ => ∃ t c, walk.rewalk = some t ∧ decodeMailboxCursor t = some c ∧ q ≤ c
  | .waiting walk, request =>
    (∃ t c, walk.rewalk = some t ∧ decodeMailboxCursor t = some c ∧ q ≤ c) ∨
    walk.rewalk.isSome = true ∧ ∃ reply, request = .answered reply ∧ Covered reply q ∧
      (q, e) ∉ reply.batch.items
  | .judging walk p, _ | .recording walk p, _ => walk.rewalk.isSome = true ∧ Covered p.reply q

/-- Nothing spoils the envelope: a stored re-walk precedes it and none in flight passes it by. -/
def Safe (w : World) (q : ℕ) (e : MailboxEnvelope) : Prop :=
  w.StoredBefore q ∧ ∀ i, ¬ Passes q e (w.client i) (w.request i)

/-- The contact becomes trusted only while every live envelope of the mailbox is safe. -/
def SafeImport (dev : Device) (w : World) : Act → Prop
  | .importContact => w.trusted = none → ∀ q e, w.relay.At q e →
    e.recipientMailboxId = dev.mailboxId → w.Safe q e
  | _ => True

/-- And an envelope stored while it is trusted is safe at its new position. -/
def SafeArrival (dev : Device) (w : World) : Act → Prop
  | .relay (.save e _) => w.trusted ≠ none → e.recipientMailboxId = dev.mailboxId →
    w.relay.db.envelope.peek (seconds w.relay.now) e.key = none →
      w.Safe (highestIssuedPosition w.relay.db dev.mailboxId + 1) e
  | _ => True

/-! ## The invariant -/

/-- A page without a continuation accounts for every live envelope of interest. -/
def Whole (dev : Device) (P : ℕ → Prop) (r : Relay) (reply : Reply) : Prop :=
  nextCursor reply.batch = none → ∀ q e, r.At q e → e.recipientMailboxId = dev.mailboxId →
    P q → q ≤ reply.upto

def WholeProc (dev : Device) (P : ℕ → Prop) (r : Relay) : Client → Request → Prop
  | .waiting walk, .answered reply => walk.rewalk.isSome = true → Whole dev P r reply
  | .judging walk p, _ | .recording walk p, _ => walk.rewalk.isSome = true → Whole dev P r p.reply
  | _, _ => True

/-- What holds of the envelopes of interest while a contact is trusted since step `T`. -/
structure ImportInv (cfg : RelayConfig) (dev : Device) (T : ℕ) (P : ℕ → Prop) (w : World) :
    Prop where
  rewalk : RewalkInv cfg dev T P w
  whole : ∀ i, WholeProc dev P w.relay (w.client i) (w.request i)
  done : w.rewalk = none → ∀ q e, w.relay.At q e → e.recipientMailboxId = dev.mailboxId →
    P q → Offered T w.judged q e

/-- Every envelope of interest that a step makes live is safe. -/
def NewSafe (dev : Device) (P : ℕ → Prop) (w w' : World) : Prop :=
  ∀ q e, w'.relay.At q e → e.recipientMailboxId = dev.mailboxId → P q →
    w.relay.At q e ∨ w.Safe q e

theorem Passes.of_null {c : Client} {rq : Request} {reply : Reply} {walk : PollWalk}
    (hc : c = .waiting walk) (hrq : rq = .answered reply) (hw : walk.rewalk.isSome = true)
    (hnext : nextCursor reply.batch = none) (hp : ¬ Passes q e c rq) : (q, e) ∈ reply.batch.items := by
  subst hc hrq
  by_contra hmem
  exact hp (Or.inr ⟨hw, reply, rfl, Or.inl hnext, hmem⟩)

/-- A page without a continuation still accounts for everything when only safe envelopes
    have appeared: it holds them, or no re-walk has it. -/
theorem WholeProc.new {c : Client} {rq : Request} (h : WholeProc dev P r c rq)
    (hq : RequestOk dev r rq) (hn : ∀ q e, r'.At q e → e.recipientMailboxId = dev.mailboxId →
      P q → r.At q e ∨ ¬ Passes q e c rq) : WholeProc dev P r' c rq := by
  unfold WholeProc at h ⊢
  split
  next walk reply =>
    intro hw hnext q e ha hm hp
    rcases hn q e ha hm hp with ha | hpass
    · exact h hw hnext q e ha hm hp
    · exact hq.within _ (Passes.of_null rfl rfl hw hnext hpass)
  next walk p _ =>
    intro hw hnext q e ha hm hp
    rcases hn q e ha hm hp with ha | hpass
    · exact h hw hnext q e ha hm hp
    · exact (hpass ⟨hw, Or.inl hnext⟩).elim
  next walk p _ =>
    intro hw hnext q e ha hm hp
    rcases hn q e ha hm hp with ha | hpass
    · exact h hw hnext q e ha hm hp
    · exact (hpass ⟨hw, Or.inl hnext⟩).elim
  next => trivial

/-- The page the relay reads last accounts for all positions issued. -/
theorem whole_readReply {req : PollRequest} (hi : r.Inv cfg)
    (hm : req.recipientMailboxId = dev.mailboxId) (start : ℕ) :
    Whole dev P r (readReply cfg r req start) := by
  intro hnext q e ha he _
  simp only [readReply, hm, Relay.readBatch_page, nextCursor] at hnext ⊢
  cases hn : (r.page dev.mailboxId (pollBatchSize cfg req.batchSize) pollEnvelopeByteBudget
      start).next with
  | some n =>
    rw [hn] at hnext
    simp only [Option.map_some, Option.getD_some] at hnext
    split_ifs at hnext with hnil
    exact absurd hnil (decimal_ne_nil n)
  | none =>
    simp only [Option.isSome_none, Bool.false_eq_true, if_false]
    rw [← he]
    exact (ha.bounds hi).2

theorem serve_whole {q q' : Request} {c : Client} (hi : r.Inv cfg) (hq : RequestOk dev r q)
    (h : WholeProc dev P r c q) (hs : serve cfg r q = some (q', r'))
    (hn : ∀ q e, r'.At q e → e.recipientMailboxId = dev.mailboxId → P q → r.At q e) :
    WholeProc dev P r' c q' := by
  have hold : ∀ q e, r'.At q e → e.recipientMailboxId = dev.mailboxId → P q →
      r.At q e ∨ ¬ Passes q e c .idle := fun q e ha hm hp => Or.inl (hn q e ha hm hp)
  cases c with
  | idle => trivial
  | walking walk => trivial
  | waiting walk =>
    cases q with
    | arrived req =>
      simp only [serve, Option.some.injEq] at hs
      split at hs <;> cases hs <;> trivial
    | checked req position => cases hs; trivial
    | recorded req =>
      simp only [serve, Option.some.injEq] at hs
      split at hs <;> cases hs <;> trivial
    | resumed req start =>
      simp only [serve] at hs
      split_ifs at hs
      cases hs
      exact fun _ => whole_readReply hi hq.1 start
    | _ => cases hs
  | judging walk p => exact @WholeProc.new _ _ _ _ (.judging walk p) .idle h trivial hold
  | recording walk p => exact @WholeProc.new _ _ _ _ (.recording walk p) .idle h trivial hold

theorem ImportInv.proc (h : ImportInv cfg dev T P w) (hr : RewalkInv cfg dev T P w')
    (hn : NewSafe dev P w w') (i : ℕ)
    (ho : ∀ j, j ≠ i → w'.client j = w.client j ∧ w'.request j = w.request j)
    (hw : WholeProc dev P w'.relay (w'.client i) (w'.request i))
    (hd : w'.rewalk = none → ∀ q e, w'.relay.At q e → e.recipientMailboxId = dev.mailboxId →
      P q → Offered T w'.judged q e) : ImportInv cfg dev T P w' := by
  refine ⟨hr, fun j => ?_, hd⟩
  by_cases hj : j = i
  · rw [hj]; exact hw
  · rw [(ho j hj).1, (ho j hj).2]
    exact (h.whole j).new (h.rewalk.base.procs j).request fun q e ha hm hp =>
      (hn q e ha hm hp).imp_right fun hsafe => hsafe.2 j

/-- **What an import keeps goes through every step** that makes only safe envelopes live. -/
theorem ImportInv.effect {a : Act} (h : ImportInv cfg dev T P w) (he : Effect cfg dev w a w')
    (hn : NewSafe dev P w w') : ImportInv cfg dev T P w' := by
  have hr := h.rewalk.effect he
  have hg := (he.grows h.rewalk.base.relay).2
  -- where the record stays empty, a new envelope is not safe
  have hdone : w.rewalk = none → ∀ q e, w'.relay.At q e → e.recipientMailboxId = dev.mailboxId →
      P q → Offered T w'.judged q e := by
    intro hnone q e ha hm hp
    rcases hn q e ha hm hp with hold | ⟨⟨p, hst, -⟩, -⟩
    · exact (h.done hnone q e hold hm hp).grows hg
    · rw [hnone] at hst
      cases hst
  have hwhole : ∀ j, WholeProc dev P w'.relay (w.client j) (w.request j) := fun j =>
    (h.whole j).new (h.rewalk.base.procs j).request fun q e ha hm hp =>
      (hn q e ha hm hp).imp_right fun hsafe => hsafe.2 j
  cases he with
  | relay => exact ⟨hr, hwhole, hdone⟩
  | trust => exact ⟨hr, hwhole, hdone⟩
  | request => exact ⟨hr, hwhole, fun hnone => by cases hnone⟩
  | @start i hc hq =>
    refine h.proc hr hn i (fun j hj => by simp [hj]) ?_ hdone
    simp only [setClient_client, if_true]
    trivial
  | @stop i =>
    refine h.proc hr hn i (fun j hj => by simp [hj]) ?_ hdone
    simp only [setClient_client, if_true]
    trivial
  | @send i walk hc hq =>
    refine h.proc hr hn i (fun j hj => by simp [hj]) ?_ hdone
    simp only [setRequest_client, setClient_client, setRequest_request, if_true]
    trivial
  | @serve i q r hs =>
    refine h.proc hr hn i (fun j hj => by simp [hj]) ?_ hdone
    simp only [setRequest_client, setRequest_request, if_true]
    refine serve_whole h.rewalk.base.relay (h.rewalk.base.procs i).request (h.whole i) hs ?_
    intro q e ha _ _
    rcases serve_relay hs with rfl | ⟨_, _, -, -, hmark⟩
    · exact ha
    · rcases Relay.step_at h.rewalk.base.relay hmark ha with ha | ⟨⟨_, hsave⟩, -⟩
      · exact ha
      · cases hsave
  | @deliver i walk reply hc hq =>
    have hi := hwhole i
    rw [hc, hq] at hi
    refine h.proc hr hn i (fun j hj => by simp [hj]) ?_ hdone
    simp only [setRequest_client, setClient_client, if_true]
    exact hi
  | @drop i =>
    have hi := hwhole i
    refine h.proc hr hn i (fun j hj => by simp [hj]) ?_ hdone
    simp only [setRequest_client, setRequest_request, if_true]
    cases hc : w.client i with
    | judging walk p => rw [hc] at hi; exact hi
    | recording walk p => rw [hc] at hi; exact hi
    | _ => trivial
  | @judge i walk p x v hc hx =>
    have hi := hwhole i
    rw [hc] at hi
    refine h.proc hr hn i (fun j hj => by simp [hj]) ?_ hdone
    simp only [setClient_client, if_true]
    exact hi
  | @endPage i walk p hc hlen =>
    have hi := hwhole i
    rw [hc] at hi
    refine h.proc hr hn i (fun j hj => by simp [hj]) ?_ hdone
    simp only [setClient_client, if_true]
    exact hi
  | @record i walk p hc =>
    have hi := hwhole i
    have hk := (h.rewalk.clients i).grows hg
    rw [hc] at hi hk
    refine h.proc hr hn i (fun j hj => by simp [hj]) ?_ ?_
    · simp only [setClient_client, if_true]
      split <;> trivial
    · intro hnone q e ha hm hp
      cases hw : walk.rewalk with
      | none =>
        simp only [PollWalk.record, hw] at hnone
        exact hdone hnone q e ha hm hp
      | some t =>
        have hsome : walk.rewalk.isSome = true := by rw [hw]; rfl
        cases hpn : p.next with
        | none => exact (hk hsome).offered q e ha hm hp (hi hsome hpn q e ha hm hp)
        | some position =>
          simp only [PollWalk.record, hw, hpn] at hnone
          cases hnone

theorem ImportInv.step {a : Act} (h : ImportInv cfg dev T P w) (hs : w.step cfg dev a = some w')
    (hn : NewSafe dev P w w') : ImportInv cfg dev T P w' := by
  have hr := h.rewalk.step hs
  obtain ⟨w₁, he, rfl⟩ := step_effect hs
  obtain ⟨-, hw, hd⟩ := h.effect he hn
  exact ⟨hr, hw, hd⟩

/-! ## The contact becomes trusted -/

/-- A bound in front of every live envelope of the mailbox vouches for all of them. -/
theorem Vouched.before {c : ℕ} (hc : c ≤ highestIssuedPosition r.db dev.mailboxId)
    (h : ∀ q e, r.At q e → e.recipientMailboxId = dev.mailboxId → ¬ q ≤ c) :
    Vouched dev T P r js c :=
  ⟨hc, fun q e ha hm _ hq => absurd hq (h q e ha hm)⟩

/-- Where every live envelope is safe, nothing has been passed by yet. -/
theorem ReadInv.trusting (h : ReadInv cfg dev w) (hT : T ≤ w.steps)
    (hsafe : ∀ q e, w.relay.At q e → e.recipientMailboxId = dev.mailboxId → w.Safe q e) :
    ImportInv cfg dev T P w := by
  have hbefore : ∀ t, w.rewalk = some t → ∀ c, decodeMailboxCursor (rewalkPosition t) = some c →
      ∀ q e, w.relay.At q e → e.recipientMailboxId = dev.mailboxId → ¬ q ≤ c := by
    intro t ht c hc q e ha hm hq
    obtain ⟨⟨p, hp, hlt⟩, -⟩ := hsafe q e ha hm
    rw [ht] at hp
    change decodeMailboxCursor (rewalkPosition t) = some p at hp
    rw [hc] at hp
    cases hp
    omega
  have hcovered : ∀ i walk p, w.client i = .judging walk p ∨ w.client i = .recording walk p →
      walk.rewalk.isSome = true → ∀ q e, w.relay.At q e → e.recipientMailboxId = dev.mailboxId →
        ¬ Covered p.reply q := by
    intro i walk p hc hw q e ha hm hcov
    have hpass := (hsafe q e ha hm).2 i
    rcases hc with hc | hc <;> rw [hc] at hpass <;> exact hpass ⟨hw, hcov⟩
  have htoken : ∀ i walk, w.client i = .walking walk ∨ w.client i = .waiting walk →
      ∀ t, walk.rewalk = some t → TokenOk dev T P w.relay w.judged t := by
    intro i walk hc t ht c hdec
    have hwalk : WalkOk walk ∧ KnownWalk dev w.relay w.judged walk := by
      have hb := (h.base.procs i).client
      have hk := h.clients i
      rcases hc with hc | hc <;> rw [hc] at hb hk <;> exact ⟨hb, hk⟩
    refine .before (hwalk.2.1 t (hwalk.1.2 t ht) c hdec).issued fun q e ha hm hq => ?_
    have hpass := (hsafe q e ha hm).2 i
    rcases hc with hc | hc <;> rw [hc] at hpass
    · exact hpass ⟨t, c, ht, hdec, hq⟩
    · exact hpass (Or.inl ⟨t, c, ht, hdec, hq⟩)
  refine ⟨⟨h.base, hT, fun t ht c hc => ?_, fun i => ?_⟩, fun i => ?_, fun hnone q e ha hm _ => ?_⟩
  · exact .before (h.rewalk t ht c hc).issued (hbefore t ht c hc)
  · have hb := (h.base.procs i).client
    have hk := h.clients i
    cases hc : w.client i with
    | idle => trivial
    | walking walk => exact htoken i walk (Or.inl hc)
    | waiting walk => exact htoken i walk (Or.inr hc)
    | judging walk p =>
      rw [hc] at hb hk
      intro hw
      refine ⟨.before hk.issued fun q e ha hm hq => ?_,
        Or.inr (.before hb.2.2.1.issued fun q e ha hm hq => ?_)⟩
      · refine hcovered i walk p (Or.inl hc) hw q e ha hm ?_
        cases hn : nextCursor p.reply.batch with
        | none => exact Or.inl hn
        | some t => exact Or.inr (hq.trans (hb.2.2.1.next t hn).2.le)
      · exact hcovered i walk p (Or.inl hc) hw q e ha hm (Or.inr hq)
    | recording walk p =>
      rw [hc] at hb
      intro hw
      exact .before hb.2.1.issued fun q e ha hm hq =>
        hcovered i walk p (Or.inr hc) hw q e ha hm (Or.inr hq)
  · cases hc : w.client i with
    | idle => trivial
    | walking walk => trivial
    | waiting walk =>
      cases hq : w.request i with
      | answered reply =>
        intro hw hnext q e ha hm _
        have hpass := (hsafe q e ha hm).2 i
        have hs := (h.base.procs i).request
        rw [hq] at hs
        exact hs.within _ (Passes.of_null hc hq hw hnext hpass)
      | _ => trivial
    | judging walk p =>
      intro hw hnext q e ha hm _
      exact (hcovered i walk p (Or.inl hc) hw q e ha hm (Or.inl hnext)).elim
    | recording walk p =>
      intro hw hnext q e ha hm _
      exact (hcovered i walk p (Or.inr hc) hw q e ha hm (Or.inl hnext)).elim
  · obtain ⟨⟨p, hp, -⟩, -⟩ := hsafe q e ha hm
    rw [hnone] at hp
    cases hp

/-- What holds on the way: a trusted contact keeps the envelopes `P` picks for it. -/
structure TrustInv (cfg : RelayConfig) (dev : Device) (P : Trust → ℕ → Prop) (w : World) :
    Prop where
  read : ReadInv cfg dev w
  issued : ∀ tr, w.trusted = some tr → tr.issued ≤ highestIssuedPosition w.relay.db dev.mailboxId
  kept : ∀ tr, w.trusted = some tr → ImportInv cfg dev tr.since (P tr) w

variable {Q : Trust → ℕ → Prop}

theorem TrustInv.init (now : ℕ) : TrustInv cfg dev Q (World.init now) where
  read := ReadInv.init now
  issued _ h := by cases h
  kept _ h := by cases h

theorem TrustInv.step {a : Act} (h : TrustInv cfg dev Q w) (hsafe : SafeImport dev w a)
    (hs : w.step cfg dev a = some w')
    (hn : ∀ tr, w.trusted = some tr → NewSafe dev (Q tr) w w') : TrustInv cfg dev Q w' := by
  have hread := h.read.step hs
  have hkept : ∀ tr, w.trusted = some tr → ImportInv cfg dev tr.since (Q tr) w' := fun tr htr =>
    (h.kept tr htr).step hs (hn tr htr)
  have hissued : ∀ tr, w.trusted = some tr →
      tr.issued ≤ highestIssuedPosition w'.relay.db dev.mailboxId := fun tr htr =>
    (h.issued tr htr).trans ((step_grows h.read.base.relay hs).later.issued _)
  obtain ⟨w₁, he, rfl⟩ := step_effect hs
  cases htr : w.trusted with
  | some tr =>
    have hsame : w₁.trusted = some tr := by cases he <;> simp [setClient, setRequest, htr]
    exact ⟨hread, fun tr' h' => hissued tr' (htr.trans (hsame.symm.trans h')),
      fun tr' h' => hkept tr' (htr.trans (hsame.symm.trans h'))⟩
  | none =>
    cases he with
    | trust =>
      refine ⟨hread, fun tr h' => ?_, fun tr h' => ?_⟩ <;>
        (rw [htr] at h'; cases h')
      · exact le_rfl
      · exact hread.trusting le_rfl (hsafe htr)
    | _ =>
      refine ⟨hread, fun tr h' => ?_, fun tr h' => ?_⟩ <;>
        (simp only [setClient, setRequest, htr] at h'; cases h')

/-- An envelope live since is one saved anew. -/
theorem SafeArrival.new {a : Act} (hi : w.relay.Inv cfg) (ha : SafeArrival dev w a)
    (hs : w.step cfg dev a = some w') (htr : w.trusted ≠ none) :
    NewSafe dev (fun _ => True) w w' := by
  intro q e hq hm _
  obtain ⟨w₁, he, rfl⟩ := step_effect hs
  cases he with
  | relay ho hr =>
    rcases Relay.step_at hi hr hq with hq | ⟨⟨t, rfl⟩, hp, rfl⟩
    · exact Or.inl hq
    · rw [hm]
      exact Or.inr (ha htr hm hp)
  | serve hserve =>
    rcases serve_relay hserve with rfl | ⟨_, _, -, -, hmark⟩
    · exact Or.inl hq
    · rcases Relay.step_at hi hmark hq with hq | ⟨⟨_, hsave⟩, -⟩
      · exact Or.inl hq
      · cases hsave
  | _ => exact Or.inl hq

theorem ImportInv.imported (h : ImportInv cfg dev T P w) (hq : P q)
    (ha : w.relay.At q e) (hm : e.recipientMailboxId = dev.mailboxId) :
    Offered T w.judged q e ∨ w.StoredBefore q := by
  cases hr : w.rewalk with
  | none => exact Or.inl (h.done hr q e ha hm hq)
  | some t =>
    obtain ⟨p, hp⟩ := storedPosition_some t
    by_cases hle : q ≤ p
    · exact Or.inl ((h.rewalk.stored t hr p hp).offered q e ha hm hq hle)
    · exact Or.inr ⟨p, by rw [hr]; exact hp, by omega⟩

/-- Nothing stored by now becomes live again later. -/
theorem NewSafe.issued {a : Act} {n : ℕ} (hi : w.relay.Inv cfg) (hs : w.step cfg dev a = some w')
    (hn : n ≤ highestIssuedPosition w.relay.db dev.mailboxId) : NewSafe dev (· ≤ n) w w' := by
  intro q e ha hm hq
  have hl := (step_grows hi hs).later
  exact Or.inl (hl.at ha (by rw [hm]; exact hq.trans hn))

/-- **A completed import is kept.** Once the re-walk is requested with no re-walk in flight
    that passes a live envelope by, each of them is offered again or still ahead of a stored
    re-walk, through every later run. -/
theorem request_kept {w₀ : World} (now : ℕ)
    (hr : Run (World.step cfg dev) Any (World.init now) w₀)
    (hidle : ∀ q e, w₀.relay.At q e → e.recipientMailboxId = dev.mailboxId →
      ∀ i, ¬ Passes q e (w₀.client i) (w₀.request i))
    (hs : w₀.step cfg dev .requestRewalk = some w) (hr' : Run (World.step cfg dev) Any w w') :
    ∀ q e, w'.relay.At q e → e.recipientMailboxId = dev.mailboxId →
      q ≤ highestIssuedPosition w.relay.db dev.mailboxId →
        Offered w.steps w'.judged q e ∨ w'.StoredBefore q := by
  set n := highestIssuedPosition w.relay.db dev.mailboxId
  have hread : ReadInv cfg dev w := ((ReadInv.init now).run hr).step hs
  have hsafe : ∀ q e, w.relay.At q e → e.recipientMailboxId = dev.mailboxId → w.Safe q e := by
    obtain ⟨w₁, he, rfl⟩ := step_effect hs
    cases he
    intro q e ha hm
    exact ⟨⟨0, rfl, (ha.bounds hread.base.relay).1⟩, hidle q e ha hm⟩
  have hend : ImportInv cfg dev w.steps (· ≤ n) w' ∧
      n ≤ highestIssuedPosition w'.relay.db dev.mailboxId := by
    refine hr'.invariant (I := fun v => ImportInv cfg dev w.steps (· ≤ n) v ∧
      n ≤ highestIssuedPosition v.relay.db dev.mailboxId) (fun v a v' hi _ hst => ?_)
      ⟨hread.trusting le_rfl hsafe, le_rfl⟩
    have hb := hi.1.rewalk.base.relay
    exact ⟨hi.1.step hst (.issued hb hst hi.2), hi.2.trans ((step_grows hb hst).later.issued _)⟩
  exact fun q e ha hm hq => hend.1.imported hq ha hm

/-- **An import is not lost** where the contact becomes trusted while every live envelope is
    safe: whatever was stored by then is offered again or still ahead of a stored re-walk, and
    if all envelopes that arrive later are safe as well, so is everything. -/
theorem import_kept (now : ℕ) :
    (∀ w, Run (World.step cfg dev) (fun w a => SafeImport dev w a ∧ SafeArrival dev w a)
      (World.init now) w → ImportKept dev w) ∧
    ∀ w, Run (World.step cfg dev) (SafeImport dev) (World.init now) w →
      ∀ tr, w.trusted = some tr → ∀ q e, w.relay.At q e → e.recipientMailboxId = dev.mailboxId →
        q ≤ tr.issued → Offered tr.since w.judged q e ∨ w.StoredBefore q := by
  constructor
  · intro w hr tr htr
    have h : TrustInv cfg dev (fun _ _ => True) w :=
      hr.invariant (fun w a w' hi hc hst => hi.step hc.1 hst fun tr htr =>
        hc.2.new hi.read.base.relay hst (by rw [htr]; simp)) (.init now)
    have hk := h.kept tr htr
    cases hrw : w.rewalk with
    | none => exact Or.inr fun q e ha hm => hk.done hrw q e ha hm trivial
    | some t =>
      obtain ⟨p, hp⟩ := storedPosition_some t
      refine Or.inl ⟨p, hp, fun q e ha hm hno => ?_⟩
      rcases hk.imported trivial ha hm with hoff | ⟨p', hp', hlt⟩
      · exact absurd hoff hno
      · rw [hrw, hp] at hp'
        cases hp'
        exact hlt
  · intro w hr tr htr q e ha hm hq
    have h : TrustInv cfg dev (fun tr q => q ≤ tr.issued) w :=
      hr.invariant (fun w a w' hi hc hst => hi.step hc hst fun tr htr =>
        .issued hi.read.base.relay hst (hi.issued tr htr)) (.init now)
    exact (h.kept tr htr).imported hq ha hm

/-- The steps that `SafeImport` and `SafeArrival` say nothing about. -/
def Quiet (_ : World) : Act → Prop
  | .importContact | .relay (.save _ _) => False
  | _ => True

instance (w : World) (a : Act) : Decidable (Quiet w a) := by
  unfold Quiet
  split <;> infer_instance

theorem Quiet.safe {a : Act} (h : Quiet w a) : SafeImport dev w a ∧ SafeArrival dev w a := by
  unfold Quiet at h
  split at h
  · exact h.elim
  · exact h.elim
  · next hi hs =>
    constructor
    · unfold SafeImport
      split
      · exact (hi rfl).elim
      · trivial
    · unfold SafeArrival
      split
      · exact (hs _ _ rfl).elim
      · trivial

/-- A contact is imported while the mailbox is empty, and a re-walk of it requested. -/
def importedEmpty : World :=
  (replay (World.step defaultConfig phone) Any [.importContact] (World.init 0)).get
    (by decide)

def importedOpen : World :=
  (replay (World.step defaultConfig phone) Quiet (.requestRewalk :: (openMailbox ['m']).map .relay)
    importedEmpty).get (by decide)

/-- A note arrives afterwards. -/
def firstNote : Act := .relay (.save (note ['m'] ['a'] '1') 0)

def importedNote : World :=
  (importedOpen.step defaultConfig phone firstNote).get (by decide)

theorem importedNote_kept : ImportKept phone importedNote := by
  have hempty : Run (World.step defaultConfig phone)
      (fun w a => SafeImport phone w a ∧ SafeArrival phone w a) (World.init 0) importedEmpty := by
    refine .single (a := .importContact) ⟨fun _ q e ha _ => ?_, trivial⟩ rfl
    obtain ⟨⟨⟨x, hx⟩, -⟩, -⟩ := ha
    cases hx
  have hopen : Run (World.step defaultConfig phone) Quiet importedEmpty importedOpen :=
    Run.of_replay (Option.some_get _).symm
  have hsafe : SafeImport phone importedOpen firstNote ∧ SafeArrival phone importedOpen firstNote :=
    ⟨trivial, fun _ _ _ => ⟨⟨0, by decide, by decide⟩, fun _ hpass => hpass⟩⟩
  have hrun := hempty.trans (hopen.mono fun _ _ h => h.safe)
  exact (import_kept 0).1 importedNote (hrun.tail hsafe (Option.some_get _).symm)

/-- The mark is past the note that was refused; the import stops between its transactions. -/
def importInterrupted : World :=
  (replay (World.step defaultConfig phone) Any [.stop 0, .importContact] afterFirstNote).get
    (by decide)

theorem importInterrupted_run :
    Run (World.step defaultConfig phone) Any (World.init 0) importInterrupted := by
  have hfirst : Run (World.step defaultConfig phone) Any (World.init 0) afterFirstNote :=
    Run.of_replay (Option.some_get _).symm
  have hrest : Run (World.step defaultConfig phone) Any afterFirstNote importInterrupted :=
    Run.of_replay (Option.some_get _).symm
  exact hfirst.trans hrest

theorem import_lost : ¬ ∀ w, Run (World.step defaultConfig phone) Any (World.init 0) w →
    ImportKept phone w := by
  intro h
  rcases h importInterrupted importInterrupted_run (importInterrupted.trusted.get (by decide))
    (Option.some_get _).symm with ⟨p, hp, -⟩ | hall
  · rw [show importInterrupted.rewalk = none by decide +kernel] at hp
    cases hp
  · exact absurd (hall 1 (note ['m'] ['a'] '1') (by decide +kernel) rfl) (by decide +kernel)

end World

end Echolet
