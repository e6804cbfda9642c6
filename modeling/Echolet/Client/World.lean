/-
  One device of a mailbox and the relay, step by step.

  Any number of client processes poll over the profile of the device; each of them, and each
  poll request on its way through the relay, makes one step at a time, interleaved with any
  other steps of the relay: sends, acknowledgements (deletes), expiry, backfills, the polls of
  other devices.  A process may stop at any step, its request may go on without it, and an
  answer may be lost.

  `judged`, `steps`, `trusted` and the fields `start`, `upto`, `since` of pages are ghosts:
  the pages whose envelopes all have a verdict, the number of steps so far, since when the
  contact is trusted, and what a page accounts for and when it was received.

  * `Base` holds in every reachable world; its `Sound` pages hold every live envelope from
    their start to the position they vouch for;
  * `Vouched dev T P r js c`: every live envelope of interest (`P`) up to `c` is in one of the
    judged pages `js`, received since step `T`; `Vouched.page` extends it over one page.
-/
import Echolet.Relay.Pages
import Echolet.Client.Poll

namespace Echolet

/-! ## Pages and processes -/

/-- A page on its way: resumed after `start`, accounting for the positions up to `upto`. -/
structure Reply where
  start : ℕ
  batch : EnvelopeBatch
  upto : ℕ

/-- A page in judgement, received at step `since`. -/
structure ReceivedPage where
  reply : Reply
  since : ℕ
  page : List Judgement

def ReceivedPage.next (p : ReceivedPage) : Option Text := nextCursor p.reply.batch

/-- A poll request inside the relay. -/
inductive Request where
  | idle
  | arrived (req : PollRequest)
  | checked (req : PollRequest) (position : ℕ)
  | recorded (req : PollRequest)
  | resumed (req : PollRequest) (start : ℕ)
  | answered (reply : Reply)
  | refused

/-- A client process in the page loop of `poll`. -/
inductive Client where
  | idle
  | walking (walk : PollWalk)
  | waiting (walk : PollWalk)
  | judging (walk : PollWalk) (page : ReceivedPage)
  | recording (walk : PollWalk) (page : ReceivedPage)

/-- Since when a contact is trusted, and the highest position issued at that time. -/
structure Trust where
  since : ℕ
  issued : ℕ

structure World where
  relay : Relay
  rewalk : RewalkRecord
  client : ℕ → Client
  request : ℕ → Request
  judged : List ReceivedPage
  steps : ℕ
  trusted : Option Trust

inductive Act where
  | relay (a : RelayAct)
  /-- The transaction of `importContact`. -/
  | importContact
  /-- The transaction of `requestMailboxRewalk`. -/
  | requestRewalk
  | start (i : ℕ)
  /-- The process ends: it is killed, a request fails, or the profile is busy. -/
  | stop (i : ℕ)
  | send (i : ℕ)
  | serve (i : ℕ)
  | deliver (i : ℕ)
  /-- The relay gives a request up, or its answer is lost. -/
  | drop (i : ℕ)
  | judge (i : ℕ) (verdict : Verdict)
  | endPage (i : ℕ)
  | record (i : ℕ)

def World.init (now : ℕ) : World :=
  ⟨.init now, none, fun _ => .idle, fun _ => .idle, [], 0, none⟩

/-- The page the repository reads for a request, with what it accounts for. -/
def readReply (cfg : RelayConfig) (r : Relay) (req : PollRequest) (start : ℕ) : Reply :=
  let batch := readBatch r.db r.now req.recipientMailboxId (pollBatchSize cfg req.batchSize)
    pollEnvelopeByteBudget start
  ⟨start, batch, if batch.hasMore then lastPosition batch.items
    else highestIssuedPosition r.db req.recipientMailboxId⟩

/-- The next step of `PollMailbox` for a request. -/
def serve (cfg : RelayConfig) (r : Relay) : Request → Option (Request × Relay)
  | .arrived req => some <|
    match checkReadThrough r.db req with
    | .ok position => (.checked req position, r)
    | .error _ => (.refused, r)
  | .checked req position =>
    some (.recorded req, { r with db := recordReadThrough r.db r.now req position })
  | .recorded req => some <|
    match decodeMailboxCursor (pollCursor r.db r.now req) with
    | some start => (.resumed req start, r)
    | none => (.refused, r)
  | .resumed req start =>
    if r.ordered req.recipientMailboxId then some (.answered (readReply cfg r req start), r)
    else none
  | _ => none

namespace World

variable (cfg : RelayConfig) (dev : Device)

/-- A step of the relay that records a position for this device. -/
def ownMark : RelayAct → Bool
  | .advanceReadMark m d _ => m = dev.mailboxId ∧ d = dev.deviceId
  | _ => false

def setClient (w : World) (i : ℕ) (c : Client) : World :=
  { w with client := Function.update w.client i c }

def setRequest (w : World) (i : ℕ) (q : Request) : World :=
  { w with request := Function.update w.request i q }

def act (w : World) : Act → Option World
  | .relay a =>
    if ownMark dev a then none else (w.relay.step cfg a).map fun r => { w with relay := r }
  | .importContact => some { w with
      trusted := some (w.trusted.getD
        ⟨w.steps + 1, highestIssuedPosition w.relay.db dev.mailboxId⟩) }
  | .requestRewalk => some { w with rewalk := requestMailboxRewalk }
  | .start i =>
    match w.client i, w.request i with
    | .idle, .idle => some (w.setClient i (.walking (PollWalk.start (pendingMailboxRewalk w.rewalk))))
    | _, _ => none
  | .stop i => some (w.setClient i .idle)
  | .send i =>
    match w.client i, w.request i with
    | .walking walk, .idle =>
      some ((w.setClient i (.waiting walk)).setRequest i (.arrived (walk.request dev)))
    | _, _ => none
  | .serve i => (serve cfg w.relay (w.request i)).map fun (q, r) =>
      { w.setRequest i q with relay := r }
  | .deliver i =>
    match w.client i, w.request i with
    | .waiting walk, .answered reply =>
      some ((w.setClient i (.judging walk ⟨reply, w.steps, []⟩)).setRequest i .idle)
    | _, _ => none
  | .drop i => some (w.setRequest i .idle)
  | .judge i verdict =>
    match w.client i with
    | .judging walk p =>
      match p.reply.batch.items[p.page.length]? with
      | some x => some (w.setClient i (.judging walk { p with page := p.page ++ [(x, verdict)] }))
      | none => none
    | _ => none
  | .endPage i =>
    match w.client i with
    | .judging walk p =>
      if p.page.length = p.reply.batch.items.length then
        some { w.setClient i (.recording (walk.judged p.page p.next) p) with
          judged := p :: w.judged }
      else none
    | _ => none
  | .record i =>
    match w.client i with
    | .recording walk p =>
      some { w.setClient i (match (walk.recorded p.next).next p.page with
          | some walk => .walking walk
          | none => .idle) with
        rewalk := walk.record p.next w.rewalk }
    | _ => none

def step (w : World) (a : Act) : Option World :=
  (w.act cfg dev a).map fun w' => { w' with steps := w.steps + 1 }

/-- What a step does, apart from counting it. -/
inductive Effect (w : World) : Act → World → Prop
  | relay {a : RelayAct} {r : Relay} : ownMark dev a = false → w.relay.step cfg a = some r →
      Effect w (.relay a) { w with relay := r }
  | trust : Effect w .importContact { w with trusted := some (w.trusted.getD
      ⟨w.steps + 1, highestIssuedPosition w.relay.db dev.mailboxId⟩) }
  | request : Effect w .requestRewalk { w with rewalk := requestMailboxRewalk }
  | start {i : ℕ} : w.client i = .idle → w.request i = .idle → Effect w (.start i)
      (w.setClient i (.walking (PollWalk.start (pendingMailboxRewalk w.rewalk))))
  | stop {i : ℕ} : Effect w (.stop i) (w.setClient i .idle)
  | send {i : ℕ} {walk : PollWalk} : w.client i = .walking walk → w.request i = .idle →
      Effect w (.send i)
        ((w.setClient i (.waiting walk)).setRequest i (.arrived (walk.request dev)))
  | serve {i : ℕ} {q : Request} {r : Relay} : serve cfg w.relay (w.request i) = some (q, r) →
      Effect w (.serve i) { w.setRequest i q with relay := r }
  | deliver {i : ℕ} {walk : PollWalk} {reply : Reply} : w.client i = .waiting walk →
      w.request i = .answered reply → Effect w (.deliver i)
        ((w.setClient i (.judging walk ⟨reply, w.steps, []⟩)).setRequest i .idle)
  | drop {i : ℕ} : Effect w (.drop i) (w.setRequest i .idle)
  | judge {i : ℕ} {walk : PollWalk} {p : ReceivedPage} {x : ℕ × MailboxEnvelope} {v : Verdict} :
      w.client i = .judging walk p → p.reply.batch.items[p.page.length]? = some x →
      Effect w (.judge i v)
        (w.setClient i (.judging walk { p with page := p.page ++ [(x, v)] }))
  | endPage {i : ℕ} {walk : PollWalk} {p : ReceivedPage} : w.client i = .judging walk p →
      p.page.length = p.reply.batch.items.length → Effect w (.endPage i)
        { w.setClient i (.recording (walk.judged p.page p.next) p) with judged := p :: w.judged }
  | record {i : ℕ} {walk : PollWalk} {p : ReceivedPage} : w.client i = .recording walk p →
      Effect w (.record i) { w.setClient i (match (walk.recorded p.next).next p.page with
          | some walk => .walking walk
          | none => .idle) with
        rewalk := walk.record p.next w.rewalk }

variable {cfg dev} {w w' : World}

theorem act_effect {a : Act} (h : w.act cfg dev a = some w') : Effect cfg dev w a w' := by
  cases a with
  | relay a =>
    simp only [act] at h
    split_ifs at h with ho
    obtain ⟨r, hr, rfl⟩ := Option.map_eq_some_iff.1 h
    exact .relay (by simpa using ho) hr
  | importContact => cases h; exact .trust
  | requestRewalk => cases h; exact .request
  | start i =>
    simp only [act] at h
    split at h
    next hc hq => cases h; exact .start hc hq
    next => cases h
  | stop i => cases h; exact .stop
  | send i =>
    simp only [act] at h
    split at h
    next walk hc hq => cases h; exact .send hc hq
    next => cases h
  | serve i =>
    obtain ⟨⟨q, r⟩, hs, rfl⟩ := Option.map_eq_some_iff.1 h
    exact .serve hs
  | deliver i =>
    simp only [act] at h
    split at h
    next walk reply hc hq => cases h; exact .deliver hc hq
    next => cases h
  | drop i => cases h; exact .drop
  | judge i v =>
    simp only [act] at h
    split at h
    next walk p hc =>
      split at h
      next x hx => cases h; exact .judge hc hx
      next => cases h
    next => cases h
  | endPage i =>
    simp only [act] at h
    split at h
    next walk p hc =>
      split_ifs at h with hl
      cases h; exact .endPage hc hl
    next => cases h
  | record i =>
    simp only [act] at h
    split at h
    next walk p hc => cases h; exact .record hc
    next => cases h

theorem step_effect {a : Act} (h : w.step cfg dev a = some w') :
    ∃ w₁, Effect cfg dev w a w₁ ∧ w' = { w₁ with steps := w.steps + 1 } := by
  obtain ⟨w₁, h₁, rfl⟩ := Option.map_eq_some_iff.1 h
  exact ⟨w₁, act_effect h₁, rfl⟩

@[simp] theorem setClient_client (w : World) (i j : ℕ) (c : Client) :
    (w.setClient i c).client j = if j = i then c else w.client j := Function.update_apply _ _ _ _

@[simp] theorem setClient_request (w : World) (i : ℕ) (c : Client) :
    (w.setClient i c).request = w.request := rfl

@[simp] theorem setRequest_request (w : World) (i j : ℕ) (q : Request) :
    (w.setRequest i q).request j = if j = i then q else w.request j := Function.update_apply _ _ _ _

@[simp] theorem setRequest_client (w : World) (i : ℕ) (q : Request) :
    (w.setRequest i q).client = w.client := rfl

/-! ## What a page vouches for -/

/-- A page holds every live envelope from its start to the position it accounts for. -/
structure Sound (dev : Device) (r : Relay) (reply : Reply) : Prop where
  issued : reply.upto ≤ highestIssuedPosition r.db dev.mailboxId
  within : ∀ x ∈ reply.batch.items, x.1 ≤ reply.upto
  covers : ∀ q e, r.At q e → e.recipientMailboxId = dev.mailboxId → reply.start < q →
    q ≤ reply.upto → (q, e) ∈ reply.batch.items
  next : ∀ t, nextCursor reply.batch = some t →
    t = encodeMailboxCursor reply.upto ∧ reply.start < reply.upto

theorem Sound.later {r r' : Relay} {reply : Reply} (h : Sound dev r reply)
    (hl : r.Later r') : Sound dev r' reply where
  issued := h.issued.trans (hl.issued _)
  within := h.within
  covers q e ha hm hs hu := h.covers q e (hl.at ha (by rw [hm]; exact hu.trans h.issued)) hm hs hu
  next := h.next

theorem sound_readReply {r : Relay} {req : PollRequest} (hi : r.Inv cfg)
    (ho : r.ordered dev.mailboxId = true) (hm : req.recipientMailboxId = dev.mailboxId)
    (start : ℕ) : Sound dev r (readReply cfg r req start) := by
  have hpos := pollBatchSize_pos cfg req.batchSize
  simp only [readReply, hm, Relay.readBatch_page]
  cases hn : (r.page dev.mailboxId (pollBatchSize cfg req.batchSize) pollEnvelopeByteBudget
      start).next with
  | some n =>
    have hl : lastPosition (r.page dev.mailboxId (pollBatchSize cfg req.batchSize)
        pollEnvelopeByteBudget start).items = n := pageOf_next hn
    obtain ⟨hlt, hle⟩ := Relay.page_next hi ho hpos hn
    simp only [Option.isSome_some, if_true, hl]
    refine ⟨hle, fun x hx => ?_, fun q e ha he hs hu => ?_, fun t ht => ?_⟩
    · exact pageOf_le_next (fitsPage_first hpos _) Relay.page_ordered hn hx
    · rw [← he] at hn ⊢
      refine ha.mem_page hi hpos hs fun k hk => ?_
      rw [hn] at hk
      cases hk
      exact hu
    · simp only [nextCursor, Option.map_some, Option.getD_some] at ht
      split_ifs at ht
      cases ht
      exact ⟨rfl, hlt⟩
  | none =>
    refine ⟨by simp, fun x hx => ?_, fun q e ha he hs hu => ?_, fun t ht => ?_⟩
    · exact (Relay.visible_le hi ho (Relay.mem_page hx).1).2
    · rw [← he] at hn ⊢
      exact ha.mem_page hi hpos hs fun k hk => by rw [hn] at hk; cases hk
    · simp [nextCursor] at ht

/-- A later relay, and more judged pages. -/
structure Grows (r : Relay) (js : List ReceivedPage) (r' : Relay) (js' : List ReceivedPage) :
    Prop where
  later : r.Later r'
  judged : ∀ p ∈ js, p ∈ js'

/-- Inside the relay only the mark of a poll that reports a position changes the store. -/
theorem serve_relay {r r' : Relay} {q q' : Request} (h : serve cfg r q = some (q', r')) :
    r' = r ∨ ∃ req position, q = .checked req position ∧ req.readThrough.isSome = true ∧
      r.step cfg (.advanceReadMark req.recipientMailboxId req.deviceId position) = some r' := by
  cases q with
  | arrived req => simp only [serve, Option.some.injEq] at h; split at h <;> cases h <;> simp
  | checked req position =>
    simp only [serve, Option.some.injEq] at h
    cases h
    cases hr : req.readThrough with
    | none => left; simp [recordReadThrough, hr]
    | some t => right; exact ⟨req, position, rfl, by simp [hr], by simp [recordReadThrough, hr, Relay.step]⟩
  | recorded req => simp only [serve, Option.some.injEq] at h; split at h <;> cases h <;> simp
  | resumed req start =>
    simp only [serve] at h
    split_ifs at h
    cases h; exact Or.inl rfl
  | _ => cases h

theorem Effect.grows {a : Act} (hi : w.relay.Inv cfg) (h : Effect cfg dev w a w') :
    w'.relay.Inv cfg ∧ Grows w.relay w.judged w'.relay w'.judged := by
  cases h with
  | relay ho hr => exact ⟨hi.step hr, Relay.step_later hi hr, fun _ h => h⟩
  | serve hs =>
    rcases serve_relay hs with rfl | ⟨_, _, -, -, hr⟩
    · exact ⟨hi, .refl _, fun _ h => h⟩
    · exact ⟨hi.step hr, Relay.step_later hi hr, fun _ h => h⟩
  | endPage => exact ⟨hi, .refl _, fun _ h => List.mem_cons_of_mem _ h⟩
  | _ => exact ⟨hi, .refl _, fun _ h => h⟩

theorem step_grows {a : Act} (hi : w.relay.Inv cfg) (hs : w.step cfg dev a = some w') :
    Grows w.relay w.judged w'.relay w'.judged := by
  obtain ⟨w₁, he, rfl⟩ := step_effect hs
  exact (he.grows hi).2

/-! ## The base invariant -/

/-- A walk between pages: a re-walk in flight resumes at its own position. -/
def WalkOk (walk : PollWalk) : Prop :=
  (∀ t, walk.cursor = some t → t ≠ []) ∧ ∀ t, walk.rewalk = some t → walk.cursor = some t

/-- A page was resumed at the cursor of its walk, if the walk had one. -/
def Resumed (walk : PollWalk) (start : ℕ) : Prop :=
  ∀ t, walk.cursor = some t → decodeMailboxCursor t = some start

def ClientOk (dev : Device) (r : Relay) : Client → Prop
  | .idle => True
  | .walking walk | .waiting walk => WalkOk walk
  | .judging walk p => WalkOk walk ∧ Resumed walk p.reply.start ∧ Sound dev r p.reply ∧
    p.page.map (·.1) <+: p.reply.batch.items
  | .recording walk p => walk.cursor = p.next ∧ Sound dev r p.reply ∧
    p.page.map (·.1) = p.reply.batch.items

def RequestOk (dev : Device) (r : Relay) : Request → Prop
  | .arrived req | .checked req _ | .recorded req | .resumed req _ =>
    req.recipientMailboxId = dev.mailboxId ∧ req.deviceId = dev.deviceId
  | .answered reply => Sound dev r reply
  | _ => True

/-- The request a client waits for is its own. -/
def Linked (dev : Device) (walk : PollWalk) : Request → Prop
  | .arrived req | .checked req _ | .recorded req => req = walk.request dev
  | .resumed _ start => Resumed walk start
  | .answered reply => Resumed walk reply.start
  | _ => True

/-- What holds of one client and its request. -/
structure ProcOk (dev : Device) (r : Relay) (c : Client) (q : Request) : Prop where
  client : ClientOk dev r c
  request : RequestOk dev r q
  link : ∀ walk, c = .waiting walk → Linked dev walk q

theorem ClientOk.later {r r' : Relay} {c : Client} (h : ClientOk dev r c) (hl : r.Later r') :
    ClientOk dev r' c := by
  cases c with
  | judging walk p => exact ⟨h.1, h.2.1, h.2.2.1.later hl, h.2.2.2⟩
  | recording walk p => exact ⟨h.1, h.2.1.later hl, h.2.2⟩
  | _ => exact h

theorem RequestOk.later {r r' : Relay} {q : Request} (h : RequestOk dev r q) (hl : r.Later r') :
    RequestOk dev r' q := by
  cases q with
  | answered reply => exact Sound.later h hl
  | _ => exact h

theorem ProcOk.later {r r' : Relay} {c : Client} {q : Request} (h : ProcOk dev r c q)
    (hl : r.Later r') : ProcOk dev r' c q :=
  ⟨h.client.later hl, h.request.later hl, h.link⟩

structure Base (cfg : RelayConfig) (dev : Device) (w : World) : Prop where
  relay : w.relay.Inv cfg
  procs : ∀ i, ProcOk dev w.relay (w.client i) (w.request i)
  judged : ∀ p ∈ w.judged, p.page.map (·.1) = p.reply.batch.items

theorem Base.init (now : ℕ) : Base cfg dev (World.init now) :=
  ⟨Relay.Inv.init now, fun _ => ⟨trivial, trivial, fun _ h => by cases h⟩, by simp [World.init]⟩

/-- One process made a step, the others stand where they were. -/
theorem Base.proc (h : Base cfg dev w) (hg : w'.relay.Inv cfg ∧ Grows w.relay w.judged w'.relay w'.judged)
    (hj : ∀ p ∈ w'.judged, p.page.map (·.1) = p.reply.batch.items) (i : ℕ)
    (ho : ∀ j, j ≠ i → w'.client j = w.client j ∧ w'.request j = w.request j)
    (hi : ProcOk dev w'.relay (w'.client i) (w'.request i)) : Base cfg dev w' := by
  refine ⟨hg.1, fun j => ?_, hj⟩
  by_cases hji : j = i
  · rw [hji]; exact hi
  · rw [(ho j hji).1, (ho j hji).2]
    exact (h.procs j).later hg.2.later

theorem rewalkPosition_ne_nil (t : Text) : rewalkPosition t ≠ [] := by
  unfold rewalkPosition
  split_ifs with h
  · rintro rfl; revert h; decide
  · decide

theorem walkOk_start (stored : RewalkRecord) :
    WalkOk (PollWalk.start (pendingMailboxRewalk stored)) := by
  refine ⟨fun t ht => ?_, fun t ht => ht⟩
  obtain ⟨s, -, rfl⟩ := Option.map_eq_some_iff.1 ht
  exact rewalkPosition_ne_nil s

theorem nextCursor_ne_nil {batch : EnvelopeBatch} {t : Text} (h : nextCursor batch = some t) :
    t ≠ [] := by
  unfold nextCursor at h
  split_ifs at h with hn
  cases h; exact hn

/-- A poll that carries a cursor resumes at it. -/
theorem resumed_of_request {walk : PollWalk} {db : Db} {now start : ℕ} (hw : WalkOk walk)
    (h : decodeMailboxCursor (pollCursor db now (walk.request dev)) = some start) :
    Resumed walk start := by
  intro t ht
  rw [pollCursor, if_neg] at h
  · simpa [PollWalk.request, ht] using h
  · simpa [PollWalk.request, ht] using hw.1 t ht

theorem serve_ok {r r' : Relay} {c : Client} {q q' : Request} (hi : r.Inv cfg)
    (h : ProcOk dev r c q) (hs : serve cfg r q = some (q', r')) (hl : r.Later r') :
    ProcOk dev r' c q' := by
  refine ⟨h.client.later hl, ?_, fun walk hw => ?_⟩
  · cases q with
    | arrived req =>
      simp only [serve, Option.some.injEq] at hs
      split at hs <;> cases hs
      exacts [h.request, trivial]
    | checked req position => cases hs; exact h.request
    | recorded req =>
      simp only [serve, Option.some.injEq] at hs
      split at hs <;> cases hs
      exacts [h.request, trivial]
    | resumed req start =>
      simp only [serve] at hs
      split_ifs at hs with ho
      cases hs
      rw [h.request.1] at ho
      exact sound_readReply hi ho h.request.1 start
    | _ => cases hs
  · have hlink := h.link walk hw
    have hwalk : WalkOk walk := by have := h.client; rwa [hw] at this
    cases q with
    | arrived req =>
      simp only [serve, Option.some.injEq] at hs
      split at hs <;> cases hs
      exacts [hlink, trivial]
    | checked req position => cases hs; exact hlink
    | recorded req =>
      simp only [serve, Option.some.injEq] at hs
      split at hs <;> cases hs
      next hd =>
        change req = walk.request dev at hlink
        rw [hlink] at hd
        exact resumed_of_request hwalk hd
      next => trivial
    | resumed req start =>
      simp only [serve] at hs
      split_ifs at hs
      cases hs; exact hlink
    | _ => cases hs

/-- **The base invariant holds after every step.** -/
theorem Base.effect {a : Act} (h : Base cfg dev w) (he : Effect cfg dev w a w') :
    Base cfg dev w' := by
  have hg := he.grows h.relay
  cases he with
  | relay | trust | request => exact ⟨hg.1, fun j => (h.procs j).later hg.2.later, h.judged⟩
  | @start i hc hq =>
    refine h.proc hg h.judged i (fun j hj => by simp [hj]) ?_
    simp only [setClient_client, if_true, setClient_request, hq]
    exact ⟨walkOk_start _, trivial, fun walk hw => by cases hw⟩
  | @stop i =>
    refine h.proc hg h.judged i (fun j hj => by simp [hj]) ?_
    simp only [setClient_client, if_true, setClient_request]
    exact ⟨trivial, (h.procs i).request, fun walk hw => by cases hw⟩
  | @send i walk hc hq =>
    refine h.proc hg h.judged i (fun j hj => by simp [hj]) ?_
    have hw := (h.procs i).client
    rw [hc] at hw
    simp only [setRequest_client, setClient_client, if_true, setRequest_request]
    exact ⟨hw, ⟨rfl, rfl⟩, fun walk' hw' => by cases hw'; rfl⟩
  | @serve i q r hs =>
    refine h.proc hg h.judged i (fun j hj => by simp [hj]) ?_
    simp only [setRequest_client, setRequest_request, if_true]
    exact serve_ok h.relay (h.procs i) hs hg.2.later
  | @deliver i walk reply hc hq =>
    refine h.proc hg h.judged i (fun j hj => by simp [hj]) ?_
    have hw := (h.procs i).client
    have hr := (h.procs i).request
    have hl := (h.procs i).link walk hc
    rw [hc] at hw
    rw [hq] at hr hl
    simp only [setRequest_client, setClient_client, if_true, setRequest_request]
    exact ⟨⟨hw, hl, hr, List.nil_prefix⟩, trivial, fun walk' hw' => by cases hw'⟩
  | @drop i =>
    refine h.proc hg h.judged i (fun j hj => by simp [hj]) ?_
    simp only [setRequest_client, setRequest_request, if_true]
    exact ⟨(h.procs i).client, trivial, fun _ _ => trivial⟩
  | @judge i walk p x v hc hx =>
    refine h.proc hg h.judged i (fun j hj => by simp [hj]) ?_
    have hw := (h.procs i).client
    rw [hc] at hw
    obtain ⟨hwalk, hres, hs, hpre⟩ := hw
    simp only [setClient_client, if_true, setClient_request]
    refine ⟨⟨hwalk, hres, hs, ?_⟩, (h.procs i).request, fun walk' hw' => by cases hw'⟩
    obtain ⟨rest, hrest⟩ := hpre
    rw [← hrest] at hx
    rw [List.getElem?_append_right (by simp), List.length_map, Nat.sub_self] at hx
    obtain ⟨y, rest, rfl⟩ : ∃ y ys, rest = y :: ys := by
      cases rest with
      | nil => cases hx
      | cons y ys => exact ⟨y, ys, rfl⟩
    cases hx
    exact ⟨rest, by simpa using hrest⟩
  | @endPage i walk p hc hlen =>
    have hw := (h.procs i).client
    rw [hc] at hw
    obtain ⟨-, -, hs, hpre⟩ := hw
    have hall : p.page.map (·.1) = p.reply.batch.items := hpre.eq_of_length (by simpa using hlen)
    refine h.proc hg (fun p' hp' => ?_) i (fun j hj => by simp [hj]) ?_
    · rcases List.mem_cons.1 hp' with rfl | hp'
      · exact hall
      · exact h.judged p' hp'
    · simp only [setClient_client, if_true, setClient_request]
      exact ⟨⟨rfl, hs, hall⟩, (h.procs i).request, fun walk' hw' => by cases hw'⟩
  | @record i walk p hc =>
    refine h.proc hg h.judged i (fun j hj => by simp [hj]) ?_
    have hw := (h.procs i).client
    rw [hc] at hw
    simp only [setClient_client, if_true, setClient_request]
    refine ⟨?_, (h.procs i).request, fun walk' hw' => ?_⟩
    · split
      next walk' hnext =>
        unfold PollWalk.next at hnext
        split_ifs at hnext
        cases hnext
        refine ⟨fun t ht => ?_, fun t ht => ?_⟩
        · exact nextCursor_ne_nil (hw.1.symm.trans ht)
        · obtain ⟨_, -, ht⟩ := Option.bind_eq_some_iff.1 ht
          exact hw.1.trans ht
      next => trivial
    · split at hw' <;> cases hw'

theorem Base.step {a : Act} (h : Base cfg dev w) (hs : w.step cfg dev a = some w') :
    Base cfg dev w' := by
  obtain ⟨w₁, he, rfl⟩ := step_effect hs
  obtain ⟨hr, hp, hj⟩ := h.effect he
  exact ⟨hr, hp, hj⟩

theorem Base.run {C : World → Act → Prop} (h : Base cfg dev w)
    (hr : Run (World.step cfg dev) C w w') : Base cfg dev w' :=
  hr.invariant (fun _ _ _ hi _ hst => hi.step hst) h

/-! ## What has been offered -/

section
variable {r r' : Relay} {js js' : List ReceivedPage} {T : ℕ} {P : ℕ → Prop} {c : ℕ}

/-- The envelope was in one of the judged pages, received since step `T`. -/
def Offered (T : ℕ) (js : List ReceivedPage) (q : ℕ) (e : MailboxEnvelope) : Prop :=
  ∃ p ∈ js, T ≤ p.since ∧ (q, e) ∈ p.reply.batch.items

/-- Every live envelope of interest up to `c` has been offered since step `T`. -/
structure Vouched (dev : Device) (T : ℕ) (P : ℕ → Prop) (r : Relay) (js : List ReceivedPage)
    (c : ℕ) : Prop where
  issued : c ≤ highestIssuedPosition r.db dev.mailboxId
  offered : ∀ q e, r.At q e → e.recipientMailboxId = dev.mailboxId → P q → q ≤ c → Offered T js q e

theorem Offered.grows {q : ℕ} {e : MailboxEnvelope} (h : Offered T js q e)
    (hg : Grows r js r' js') : Offered T js' q e := by
  obtain ⟨p, hp, ht, hm⟩ := h
  exact ⟨p, hg.judged p hp, ht, hm⟩

theorem Vouched.grows (h : Vouched dev T P r js c) (hg : Grows r js r' js') :
    Vouched dev T P r' js' c where
  issued := h.issued.trans (hg.later.issued _)
  offered q e ha hm hq hc := by
    have hold := hg.later.at ha (by rw [hm]; exact hc.trans h.issued)
    exact (h.offered q e hold hm hq hc).grows hg

/-- Nothing stands at the head of a mailbox. -/
theorem Vouched.head (hi : r.Inv cfg) : Vouched dev T P r js 0 where
  issued := Nat.zero_le _
  offered q e ha _ _ hq := by
    have := (ha.bounds hi).1
    omega

/-- **A judged page** extends what is vouched for from its start to the end of the page. -/
theorem Vouched.page {p : ReceivedPage} (h : Vouched dev T P r js p.reply.start)
    (hs : Sound dev r p.reply) (hp : p ∈ js) (ht : T ≤ p.since) :
    Vouched dev T P r js p.reply.upto where
  issued := hs.issued
  offered q e ha hm hq hu := by
    by_cases hc : q ≤ p.reply.start
    · exact h.offered q e ha hm hq hc
    · exact ⟨p, hp, ht, hs.covers q e ha hm (by omega) hu⟩

/-- The position a token stands for is vouched for, if the relay accepts it. -/
def TokenOk (dev : Device) (T : ℕ) (P : ℕ → Prop) (r : Relay) (js : List ReceivedPage)
    (t : Text) : Prop :=
  ∀ c, decodeMailboxCursor t = some c → Vouched dev T P r js c

theorem TokenOk.grows {t : Text} (h : TokenOk dev T P r js t) (hg : Grows r js r' js') :
    TokenOk dev T P r' js' t := fun c hc => (h c hc).grows hg

theorem TokenOk.head (hi : r.Inv cfg) : TokenOk dev T P r js headPosition := by
  intro c hc
  rw [decode_head] at hc
  cases hc
  exact .head hi

theorem TokenOk.encode (h : Vouched dev T P r js c) : TokenOk dev T P r js (encodeMailboxCursor c) := by
  intro p hp
  rw [decodeMailboxCursor_encode hp]
  exact h

/-- A token that is no re-walk position reads as the head. -/
theorem TokenOk.rewalkPosition {t : Text} (hi : r.Inv cfg) (h : TokenOk dev T P r js t) :
    TokenOk dev T P r js (rewalkPosition t) := by
  unfold Echolet.rewalkPosition
  split_ifs
  · exact h
  · exact .head hi

/-- The token a judged page hands on. -/
theorem TokenOk.next {p : ReceivedPage} {t : Text} (h : Vouched dev T P r js p.reply.upto)
    (hs : Sound dev r p.reply) (ht : p.next = some t) : TokenOk dev T P r js t := by
  rw [(hs.next t ht).1]
  exact .encode h

end

end World

end Echolet
