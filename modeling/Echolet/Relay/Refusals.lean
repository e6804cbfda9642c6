/-
  What a refused poll leaves behind.

  `Alone` is the contract of a route that nothing interrupts.  All calls of a poll but one
  are `Quiet`: they leave the mailboxes, the clock and the ordering locks as they are.  The
  exception is the record of the reported position, which comes before the selection; the
  only refusal of the request after it is that of the cursor (`cursorRefusal`).

  * `refused_poll`: a poll refused with a 4xx status leaves envelopes, index entries and
    counters alone, and the read marks too unless it is the cursor that was refused;
  * `cursor_refused_after_mark`: then the mark was moved.
-/
import Echolet.Relay.Authority

namespace Echolet

open Contract MailboxRoutes

/-- The refusal of a cursor that cannot be read. -/
def cursorRefusal : Refusal :=
  ⟨400, "INVALID_SCHEMA", "cursor is not a continuation token issued by this relay"⟩

/-- The store operations that leave the mailboxes as they are. -/
def MailboxCall.Quiet : MailboxCall → Prop
  | .advanceReadMark _ _ _ _ | .deleteEnvelope _ _ _ | .background _ => False
  | _ => True

namespace Refusals

variable {ed25519 : List ℕ → Text → List ℕ → Bool} {cfg : RelayConfig} {ttl : ℤ} {r₀ : Relay}
  {α β : Type}

theorem exec_quiet {c : MailboxCall} {v : Occasion} {w w' : MailboxRelay}
    {r : Except Refusal c.Answer} (hc : c.Quiet)
    (h : MailboxRelay.exec cfg ttl c v w = some (r, w')) : w'.relay = w.relay := by
  cases c with
  | advanceReadMark | deleteEnvelope | background => exact hc.elim
  | accept req => cases h; rfl
  | highestIssued m => cases h; rfl
  | readMark m d => cases h; rfl
  | authorize n m d =>
    simp only [MailboxRelay.exec] at h
    split_ifs at h
    · cases h; rfl
    · split at h <;> cases h <;> rfl
  | createChallenge n m d =>
    simp only [MailboxRelay.exec] at h
    split_ifs at h <;> cases h <;> rfl
  | getValid n id =>
    simp only [MailboxRelay.exec] at h
    split_ifs at h
    · cases h; rfl
    · split at h <;> cases h <;> rfl
  | invalidate n id =>
    simp only [MailboxRelay.exec] at h
    split_ifs at h
    · cases h; rfl
    · cases h; rfl
    · split at h <;> cases h <;> rfl
  | getEnvelopeBatch n m limit cursor =>
    simp only [MailboxRelay.exec] at h
    by_cases hf : v.failed = true
    · rw [if_pos hf] at h
      cases h; rfl
    rw [if_neg hf] at h
    cases hd : decodeMailboxCursor cursor with
    | none => rw [hd] at h; cases h; rfl
    | some c =>
      rw [hd] at h
      split_ifs at h <;> cases h <;> rfl

/-- A store failure is an answer like any other. -/
theorem exec_answers {c : MailboxCall} {v : Occasion} {w w' : MailboxRelay}
    {r : Except Refusal c.Answer} (h : MailboxRelay.exec cfg ttl c v w = some (r, w')) :
    ∃ a, r = .ok a := by
  cases r with
  | ok a => exact ⟨a, rfl⟩
  | error e =>
    exfalso
    cases c <;> simp only [MailboxRelay.exec] at h
    case background a => simp at h
    all_goals repeat' split at h
    all_goals cases h

/-- A route by itself, with any failures of the store. -/
def Alone (cfg : RelayConfig) (ttl : ℤ) :
    Contract MailboxCall MailboxCall.Answer Refusal Occasion MailboxRelay where
  exec := MailboxRelay.exec cfg ttl
  allowed _ _ _ := True
  inv _ := True
  guar _ _ := True
  rely w w' := w = w'

theorem stable (K : MailboxRelay → Prop) : (Alone cfg ttl).Stable K := by
  rintro w w' - - rfl hk
  exact hk

/-- The relay is as it was. -/
def Still (r₀ : Relay) (w : MailboxRelay) : Prop := w.relay = r₀

/-- A call that leaves the mailboxes alone. -/
theorem perform_safe {c : MailboxCall} (hc : c.Quiet) :
    (Alone cfg ttl).Safe (fun r w => (∃ a, r = .ok a) ∧ Still r₀ w) (Still r₀) (MailboxRoutes.perform c) := by
  refine Safe.perform (fun _ => stable _) fun v w r w' _ hk _ hx => ⟨⟨trivial, trivial⟩, ?_⟩
  exact ⟨exec_answers hx, (exec_quiet hc hx).trans hk⟩

/-- A program of quiet calls leaves the relay as it was. -/
theorem quiet_safe {p : Route α} (hp : p.Only MailboxCall.Quiet) :
    (Alone cfg ttl).Safe (fun _ => Still r₀) (Still r₀) p := by
  induction p with
  | done r => exact fun w _ hk => hk
  | call c next ih =>
    intro v w r w' _ hk _ hx
    exact ⟨⟨trivial, trivial⟩, Still r₀, stable _, (exec_quiet hp.1 hx).trans hk, ih r (hp.2 r)⟩

/-- A quiet part of a handler, then the rest. -/
theorem quiet_seq {p : Route α} {f : α → Route β} {Q : Except Refusal β → MailboxRelay → Prop}
    (hp : p.Only MailboxCall.Quiet) (he : ∀ e w, Still r₀ w → Q (.error e) w)
    (hf : ∀ a, (Alone cfg ttl).Safe Q (Still r₀) (f a)) :
    (Alone cfg ttl).Safe Q (Still r₀) (p >>= f) :=
  Safe.bind (quiet_safe hp) hf fun e w _ hk => he e w hk

/-! ## The parts of a poll -/

theorem need_only {P : MailboxCall → Prop} (o : Option α) (refusal : Refusal) :
    (need o refusal : Route α).Only P := by
  cases o <;> trivial

theorem authorize_only (n : ℕ) (m d : Text) :
    (MailboxRoutes.authorize n m d).Only MailboxCall.Quiet := by
  refine Program.Only.bind (Program.Only.perform trivial) fun answer => ?_
  cases answer <;> trivial

theorem verifySignature_only (transcript signature : Text) (record : DeviceRecord) :
    (verifySignature ed25519 transcript signature record).Only MailboxCall.Quiet := by
  unfold verifySignature
  split_ifs <;> trivial

theorem withinIssuedOf_only (m : Text) (readThrough : Option Text) (position : ℕ) :
    (withinIssuedOf m readThrough position).Only MailboxCall.Quiet := by
  unfold withinIssuedOf
  split_ifs
  · refine Program.Only.bind (Program.Only.perform trivial) fun answer => ?_
    exact Program.Only.bind (need_only answer _) fun highest => trivial
  · trivial

theorem consume_only (n : ℕ) (id : Text) : (consume n id).Only MailboxCall.Quiet := by
  refine Program.Only.bind (Program.Only.perform trivial) fun answer => ?_
  cases answer <;> trivial

/-- The mailboxes once the reported position is recorded. -/
def marked (r₀ : Relay) (req : SignedPollRequest) (position : ℕ) : Relay :=
  { r₀ with db := recordReadThrough r₀.db r₀.now req.toPollRequest position }

/-- The result is a value, or an error with one of these refusals. -/
def Fails (P : Refusal → Prop) (r : Except Refusal α) : Prop := ∀ e, r = .error e → P e

theorem exec_advanceReadMark {n position : ℕ} {m d : Text} {v : Occasion} {w w' : MailboxRelay}
    {u : Unit} (h : MailboxRelay.exec cfg ttl (.advanceReadMark n m d position) v w =
      some (.ok (some u), w')) :
    w'.relay = { w.relay with db := advanceReadMark w.relay.db w.relay.now m d position } := by
  simp only [MailboxRelay.exec] at h
  by_cases hf : v.failed = true
  · rw [if_pos hf] at h
    cases h
  · rw [if_neg hf] at h
    cases h
    rfl

/-- The position is recorded, or the store failed. -/
theorem recordPosition_safe (n : ℕ) (req : SignedPollRequest) (position : ℕ) :
    (Alone cfg ttl).Safe (fun r w => Fails (·.status = 500) r ∧
        ∀ u, r = .ok u → Still (marked r₀ req position) w) (Still r₀)
      (recordPosition n req.recipientMailboxId req.deviceId req.readThrough position) := by
  unfold recordPosition
  cases hr : req.readThrough with
  | none =>
    intro w _ hk
    refine ⟨fun e he => (by cases he), fun _ _ => ?_⟩
    rw [Still, marked, recordReadThrough, hr]
    exact hk
  | some t =>
    rw [Option.isSome_some, if_pos rfl]
    intro v w r w' _ hk _ hx
    have hx : MailboxRelay.exec cfg ttl
      (.advanceReadMark n req.recipientMailboxId req.deviceId position) v w = some (r, w') := hx
    obtain ⟨answer, rfl⟩ := exec_answers hx
    refine ⟨⟨trivial, trivial⟩, _, stable fun v => v = w', rfl, ?_⟩
    cases answer with
    | none => exact fun w _ _ => ⟨fun e he => (by cases he; rfl), fun _ hu => by cases hu⟩
    | some u =>
      rintro v - rfl
      refine ⟨fun e he => (by cases he), fun _ _ => ?_⟩
      rw [Still, marked, recordReadThrough, hr, ← hk]
      exact exec_advanceReadMark hx

/-- The position to resume at is read, or the store failed. -/
theorem resumeCursor_safe (req : SignedPollRequest) :
    (Alone cfg ttl).Safe (fun r w => Fails (·.status = 500) r ∧ Still r₀ w) (Still r₀)
      (resumeCursor req) := by
  unfold resumeCursor
  split_ifs
  · refine Safe.bind (perform_safe trivial) (fun answer => ?_) fun e w _ ⟨⟨_, he⟩, _⟩ => by cases he
    cases answer with
    | none => exact fun w _ hk => ⟨fun e he => (by cases he; rfl), hk.2⟩
    | some mark => exact fun w _ hk => ⟨fun e he => (by cases he), hk.2⟩
  · exact fun w _ hk => ⟨fun e he => (by cases he), hk⟩

/-- A page is selected, or the cursor is refused, or the store failed. -/
theorem selectBatch_safe (n : ℕ) (m : Text) (limit : ℤ) (cursor : Text) :
    (Alone cfg ttl).Safe (fun r w => Fails (fun e => e.status = 500 ∨ e = cursorRefusal) r ∧
      Still r₀ w) (Still r₀) (selectBatch n m limit cursor) := by
  unfold selectBatch
  refine Safe.bind (perform_safe trivial) (fun answer => ?_) fun e w _ ⟨⟨_, he⟩, _⟩ => by cases he
  cases answer with
  | selected batch => exact fun w _ hk => ⟨fun e he => (by cases he), hk.2⟩
  | invalidCursor => exact fun w _ hk => ⟨fun e he => (by cases he; exact Or.inr rfl), hk.2⟩
  | failed => exact fun w _ hk => ⟨fun e he => (by cases he; exact Or.inl rfl), hk.2⟩

/-! ## A poll -/

/-- What a poll leaves: after a refusal of the request the relay is as it was, or the cursor was
    refused and the reported position is recorded. -/
def Leaves (r₀ : Relay) (req : SignedPollRequest) (r : Except Refusal MailboxResponse)
    (w : MailboxRelay) : Prop :=
  ∀ e, r = .error e → 400 ≤ e.status → e.status < 500 → w.relay = r₀ ∨
    e = cursorRefusal ∧ ∃ position, decodeReadThroughShape req.readThrough = .ok position ∧
      w.relay = marked r₀ req position

theorem leaves_still {req : SignedPollRequest} (e : Refusal) (w : MailboxRelay)
    (h : Still r₀ w) : Leaves r₀ req (.error e) w := fun _ _ _ _ => Or.inl h

theorem leaves_failed {req : SignedPollRequest} {e : Refusal} (w : MailboxRelay)
    (h : e.status = 500) : Leaves r₀ req (.error e) w := by
  intro e' he' _ hlt
  cases he'
  omega

/-- The part of a poll from the record of its position on. -/
theorem record_safe (req : SignedPollRequest) {n position : ℕ} {m : Text}
    (hpos : decodeReadThroughShape req.readThrough = .ok position) :
    (Alone cfg ttl).Safe (Leaves r₀ req) (Still r₀) (do
      recordPosition n req.recipientMailboxId req.deviceId req.readThrough position
      let cursor ← resumeCursor req
      let batch ← selectBatch n m (pollBatchSize cfg req.batchSize) cursor
      return .envelopes batch) := by
  refine Safe.bind (recordPosition_safe n req position) (fun _ => ?_)
    fun e w _ h => leaves_failed w (h.1 e rfl)
  refine Safe.weaken (K := Still (marked r₀ req position)) (fun w _ h => h.2 _ rfl) ?_
  refine Safe.bind (resumeCursor_safe req) (fun cursor => ?_)
    fun e w _ h => leaves_failed w (h.1 e rfl)
  refine Safe.weaken (K := Still (marked r₀ req position)) (fun w _ h => h.2) ?_
  refine Safe.bind (selectBatch_safe n m _ cursor) (fun batch => ?_) fun e w _ ⟨hf, hk⟩ => ?_
  · exact fun w _ _ e he => by cases he
  · rcases hf e rfl with h500 | hc
    · exact leaves_failed w h500
    · intro e' he' _ _
      cases he'
      exact Or.inr ⟨hc, position, hpos, hk⟩

theorem pollMailbox_safe (req : SignedPollRequest) :
    (Alone cfg ttl).Safe (Leaves r₀ req) (Still r₀)
      (MailboxRoutes.pollMailbox ed25519 cfg req) := by
  unfold MailboxRoutes.pollMailbox
  refine quiet_seq (Program.Only.perform trivial) leaves_still fun n => ?_
  cases hp : checkPollShape req with
  | error refusal => exact fun w _ hk => leaves_still refusal w hk
  | ok position =>
    have hpos : decodeReadThroughShape req.readThrough = .ok position := by
      unfold checkPollShape at hp
      split_ifs at hp
      exact hp
    change (Alone cfg ttl).Safe _ _ (MailboxRoutes.perform (.getValid n req.challengeId) >>= _)
    refine quiet_seq (Program.Only.perform trivial) leaves_still fun answer => ?_
    refine quiet_seq (need_only answer _) leaves_still fun challenge => ?_
    refine quiet_seq (p := .done _) trivial leaves_still fun _ => ?_
    refine quiet_seq (authorize_only n _ _) leaves_still fun record => ?_
    refine quiet_seq (verifySignature_only _ _ record) leaves_still fun _ => ?_
    refine quiet_seq (withinIssuedOf_only _ _ position) leaves_still fun _ => ?_
    exact quiet_seq (consume_only n _) leaves_still fun _ => record_safe req hpos

end Refusals

/-! ## Refused polls -/

/-- **A refused poll leaves the mailboxes unchanged**, except that a refusal of the cursor comes
    after the reported position was recorded. -/
theorem refused_poll {ed25519 : List ℕ → Text → List ℕ → Bool} {cfg : RelayConfig} {ttl : ℤ}
    {req : SignedPollRequest} {vs : List Occasion} {w w' : MailboxRelay} {refusal : Refusal}
    (h : (MailboxRoutes.pollMailbox ed25519 cfg req).steps (MailboxRelay.exec cfg ttl) vs w =
      some (.done (.error refusal), w'))
    (h400 : 400 ≤ refusal.status) (h500 : refusal.status < 500) :
    w'.relay.db.envelope = w.relay.db.envelope ∧ w'.relay.db.order = w.relay.db.order ∧
    w'.relay.db.sequence = w.relay.db.sequence ∧
    (refusal ≠ cursorRefusal → w'.relay.db.readMark = w.relay.db.readMark) ∧
    (w'.relay.db.readMark = w.relay.db.readMark ∨ ∃ position,
      decodeReadThroughShape req.readThrough = .ok position ∧ w'.relay.db.readMark =
        (recordReadThrough w.relay.db w.relay.now req.toPollRequest position).readMark) := by
  obtain ⟨-, K, hk, hsafe⟩ := Safe.alone (R := Refusals.Alone cfg ttl) (fun _ _ _ => trivial)
    (Refusals.pollMailbox_safe req) trivial (show Refusals.Still w.relay w from rfl) h
  rcases hsafe w' trivial hk refusal rfl h400 h500 with he | ⟨hc, position, hpos, he⟩
  · rw [he]
    exact ⟨rfl, rfl, rfl, fun _ => rfl, Or.inl rfl⟩
  · have hrec : ∀ db : Db, (recordReadThrough db w.relay.now req.toPollRequest position).envelope =
        db.envelope ∧ (recordReadThrough db w.relay.now req.toPollRequest position).order = db.order ∧
        (recordReadThrough db w.relay.now req.toPollRequest position).sequence = db.sequence := by
      intro db
      unfold recordReadThrough
      cases req.toPollRequest.readThrough with
      | none => exact ⟨rfl, rfl, rfl⟩
      | some t => simp
    obtain ⟨h1, h2, h3⟩ := hrec w.relay.db
    rw [he]
    exact ⟨h1, h2, h3, fun hne => absurd hc hne, Or.inr ⟨position, hpos, rfl⟩⟩

/-- The device publishes, is sent an envelope and takes a challenge. -/
def reportingRun : List (PoolAct (MailboxRequest ⊕ Background) Occasion) :=
  inBackground (.devices (.save redeemingDevice)) ++
  inBackground (.relay (.backfillScan redeemingMailbox)) ++
  inBackground (.relay (.backfillFinish redeemingMailbox)) ++
  inBackground (.relay (.save (note redeemingMailbox ['a'] '0') 5000)) ++
  .start 1 (.inl (.challenge ⟨redeemingMailbox, ['d'], List.replicate 86 'A'⟩)) ::
    List.replicate 3 (.step 1 onOccasion)

theorem reportingRun_isSome : (replay redeemingStep (Pool.Meets MailboxRelay.Fresh) reportingRun
    redeemingStart).isSome = true := by decide +kernel

/-- The relay after that run. -/
def reportingState : MailboxProcesses :=
  (replay redeemingStep (Pool.Meets MailboxRelay.Fresh) reportingRun redeemingStart).get
    reportingRun_isSome

/-- A poll of the device by itself, after some calls. -/
def reporting (readThrough cursor : Text) (calls : ℕ) :=
  (MailboxRoutes.pollMailbox (fun _ _ _ => true) ⟨1000, 1000000, 10, 16⟩
    { redeemingPoll with readThrough := some readThrough, cursor := cursor }).steps
    (MailboxRelay.exec ⟨1000, 1000000, 10, 16⟩ 60) (List.replicate calls onOccasion)
    reportingState.shared

/-- A poll that reports a position above every one issued is refused, and no mark moves. -/
theorem refused_poll_above : ∃ w' refusal,
    reporting ['2'] ['x'] 4 = some (.done (.error refusal), w') ∧
    w'.relay.db.readMark = reportingState.shared.relay.db.readMark := by
  have hr : Program.result (reporting ['2'] ['x'] 4) = some (.error ⟨400, "INVALID_SCHEMA",
      "read_through is above every position issued for this mailbox"⟩) := by decide +kernel
  obtain ⟨w', hw⟩ := Program.result_eq hr
  exact ⟨w', _, hw, (refused_poll hw (by decide) (by decide)).2.2.2.1 (by decide)⟩

/-- **A refused cursor comes too late**: the mark of the device has moved from none to the
    position it reported. -/
theorem cursor_refused_after_mark :
    Run redeemingStep (Pool.Meets MailboxRelay.Fresh) redeemingStart reportingState ∧
    cursorRefusal.status = 400 ∧ ∃ w',
      reporting ['1'] ['x'] 7 = some (.done (.error cursorRefusal), w') ∧
      readMark reportingState.shared.relay.db 5000 redeemingMailbox ['d'] = 0 ∧
      readMark w'.relay.db 5000 redeemingMailbox ['d'] = 1 := by
  have hr : Program.result (reporting ['1'] ['x'] 7) = some (.error cursorRefusal) := by
    decide +kernel
  obtain ⟨w', hw⟩ := Program.result_eq hr
  refine ⟨Run.of_replay (Option.some_get _).symm, rfl, w', hw, by decide +kernel, ?_⟩
  have hm : (reporting ['1'] ['x'] 7).map
      (fun x => readMark x.2.relay.db 5000 redeemingMailbox ['d']) = some 1 := by
    decide +kernel
  rw [hw] at hm
  exact Option.some.inj hm

end Echolet
