/-
  A page of envelopes is judged envelope by envelope: a rejected one leaves no trace.

  * `judge_steps`: one envelope is one transaction, which commits or leaves the store as it was;
  * `accept_kept`: the store after a page is the store after the page without what it rejected,
    and `accept_aborted` is the same for a page that a failure cuts short;
  * `PollLog` follows a poll by itself: it asks for acknowledgements only if it accepted
    something or judged nothing, and until then changes no record but the re-walk.
-/
import Echolet.Client.Plain

namespace Echolet

variable {rt : Runtime} {dev : Device} {record : DeviceRecord}

/-! ## One envelope -/

/-- The verdict about an envelope by the end of its transaction. -/
def verdictOf : Except Failure Unit → Except Failure Verdict
  | .ok _ => .ok .accepted
  | .error e =>
    if isNotAnEnvelopeVerdict e = true then .error e else .ok (.rejected (rejectionCode e))

theorem judge_eq (e : MailboxEnvelope) :
    judge e = .call (.acceptOne e) fun r => .done (verdictOf r) := by
  refine congrArg (Program.call (ClientCall.acceptOne e)) (funext fun r => ?_)
  cases r with
  | ok u => rfl
  | error f =>
    change (if isNotAnEnvelopeVerdict f = true then throw f
      else pure (.rejected (rejectionCode f)) : Messenger Verdict) = .done (if _ then _ else _)
    split_ifs <;> rfl

/-- The transaction of an envelope. -/
abbrev accepting (rt : Runtime) (dev : Device) (v : Surroundings) (e : MailboxEnvelope)
    (s : ClientStore) : Except Failure Unit × ClientStore :=
  attempt v (acceptOne rt dev v.within e) s

theorem judge_steps {e : MailboxEnvelope} {vs : List Surroundings} {w w' : Ledger}
    {r : Except Failure Verdict} :
    Program.steps (Ledger.perform rt dev record) vs (judge e) w = some (.done r, w') ↔
      ∃ v, vs = [v] ∧ verdictOf (accepting rt dev v e w.store).1 = r ∧
        w' = w.logged (.acceptOne e) (accepting rt dev v e w.store).1
          (accepting rt dev v e w.store).2 := by
  rw [judge_eq]
  cases vs with
  | nil => simp [Program.steps]
  | cons v vs =>
    change Program.steps _ vs (.done (verdictOf (accepting rt dev v e w.store).1)) _ = _ ↔ _
    rw [Program.steps_done]
    constructor
    · rintro ⟨rfl, hr, hw⟩
      exact ⟨v, rfl, hr, hw.symm⟩
    · rintro ⟨v', hv, hr, hw⟩
      obtain ⟨rfl, rfl⟩ := List.cons.inj hv
      exact ⟨rfl, hr, hw.symm⟩

theorem verdictOf_accepted {r : Except Failure Unit} (h : verdictOf r = .ok .accepted) :
    r = .ok () := by
  cases r with
  | ok u => rfl
  | error e =>
    change (if _ then _ else _) = _ at h
    split_ifs at h
    cases h

/-- An envelope that is not accepted leaves the store as it was. -/
theorem accepting_rejected {v : Surroundings} {e : MailboxEnvelope} {s : ClientStore}
    (h : verdictOf (accepting rt dev v e s).1 ≠ .ok .accepted) :
    (accepting rt dev v e s).2 = s := by
  cases hr : (accepting rt dev v e s).1 with
  | ok u => rw [hr] at h; exact absurd rfl h
  | error f => exact attempt_error (Prod.ext hr rfl)

/-! ## A page -/

theorem accept_cons_steps {x : ℕ × MailboxEnvelope} {xs : List (ℕ × MailboxEnvelope)}
    {vs : List Surroundings} {w w' : Ledger} {r : Except Failure (List Judgement)}
    (h : Program.steps (Ledger.perform rt dev record) vs (accept (x :: xs)) w =
      some (.done r, w')) :
    ∃ v vs' verdict, vs = v :: vs' ∧ verdictOf (accepting rt dev v x.2 w.store).1 = verdict ∧
      match verdict with
      | .error e => vs' = [] ∧ r = .error e ∧ w'.store = w.store
      | .ok verdict => ∃ r', r = r'.map ((x, verdict) :: ·) ∧
          Program.steps (Ledger.perform rt dev record) vs' (accept xs)
            (w.logged (.acceptOne x.2) (accepting rt dev v x.2 w.store).1
              (accepting rt dev v x.2 w.store).2) = some (.done r', w') := by
  obtain ⟨vs₁, vs₂, r₁, w₁, rfl, hj, hrest⟩ := Program.steps_bind.1 h
  obtain ⟨v, rfl, hv, rfl⟩ := judge_steps.1 hj
  refine ⟨v, vs₂, r₁, rfl, hv, ?_⟩
  cases r₁ with
  | error e =>
    obtain ⟨rfl, rfl, rfl⟩ := Program.steps_done.1 hrest
    refine ⟨rfl, rfl, accepting_rejected ?_⟩
    rw [hv]
    simp
  | ok verdict =>
    obtain ⟨vs₃, vs₄, r₂, w₂, rfl, hacc, hdone⟩ := Program.steps_bind.1 hrest
    cases r₂ with
    | ok js =>
      obtain ⟨rfl, rfl, rfl⟩ := Program.steps_done.1 hdone
      exact ⟨.ok js, rfl, by simpa using hacc⟩
    | error e =>
      obtain ⟨rfl, rfl, rfl⟩ := Program.steps_done.1 hdone
      exact ⟨.error e, rfl, by simpa using hacc⟩

/-- The envelopes of a page that were accepted, with the surroundings they were judged in. -/
def kept {α : Type} (page : List α) (js : List Judgement) : List α :=
  ((page.zip js).filter fun x => x.2.2 = .accepted).map (·.1)

/-- The page without what it rejected. -/
theorem accept_kept : ∀ {page : List ((ℕ × MailboxEnvelope) × Surroundings)} {w w' u : Ledger}
    {js : List Judgement}, u.store = w.store →
    Program.steps (Ledger.perform rt dev record) (page.map (·.2)) (accept (page.map (·.1))) w =
      some (.done (.ok js), w') →
    ∃ u', Program.steps (Ledger.perform rt dev record) ((kept page js).map (·.2))
      (accept ((kept page js).map (·.1))) u =
        some (.done (.ok (js.filter fun j => j.2 = .accepted)), u') ∧ u'.store = w'.store
  | [], w, w', u, js, hu, h => by
    obtain ⟨-, hr, rfl⟩ := Program.steps_done.1 h
    cases hr
    exact ⟨u, rfl, hu⟩
  | x :: page, w, w', u, js, hu, h => by
    obtain ⟨v, vs, verdict, hvs, hv, hm⟩ := accept_cons_steps h
    obtain ⟨rfl, rfl⟩ := List.cons.inj hvs
    cases verdict with
    | error e => cases hm.2.1
    | ok verdict =>
      obtain ⟨r', hr', hrest⟩ := hm
      cases r' with
      | error e => cases hr'
      | ok js' =>
        obtain rfl : js = (x.1, verdict) :: js' := Except.ok.inj hr'
        by_cases ha : verdict = .accepted
        · subst ha
          -- the accepted envelope is judged in the same store, and leaves the same store
          have hsame : accepting rt dev x.2 x.1.2 u.store = accepting rt dev x.2 x.1.2 w.store := by
            rw [hu]
          obtain ⟨u', hu', hst⟩ := accept_kept (u := u.logged (.acceptOne x.1.2)
            (accepting rt dev x.2 x.1.2 u.store).1 (accepting rt dev x.2 x.1.2 u.store).2)
            (by rw [hsame]; rfl) hrest
          refine ⟨u', ?_, hst⟩
          simp only [kept, List.zip_cons_cons, List.filter_cons, decide_true, if_true, List.map_cons]
          refine Program.steps_bind.2 ⟨[x.2], _, _, _, rfl, judge_steps.2 ⟨x.2, rfl, rfl, rfl⟩, ?_⟩
          rw [hsame, hv]
          change Program.steps _ _ (accept _ >>= fun page =>
            (pure ((x.1, Verdict.accepted) :: page) : Messenger _)) _ = _
          refine Program.steps_bind.2 ⟨_, [], .ok (js'.filter fun j => j.2 = .accepted), u',
            (List.append_nil _).symm, ?_, rfl⟩
          rw [← hsame]
          exact hu'
        · have hst : (accepting rt dev x.2 x.1.2 w.store).2 = w.store :=
            accepting_rejected (by rw [hv]; simpa using ha)
          obtain ⟨u', hu', hst'⟩ := accept_kept (u := u) (by rw [hu]; exact hst.symm) hrest
          refine ⟨u', ?_, hst'⟩
          simp only [kept, List.zip_cons_cons, List.filter_cons, ha, decide_false, if_false,
            Bool.false_eq_true]
          exact hu'

/-- A page that a failure cuts short: what was accepted before it stays. -/
theorem accept_aborted : ∀ {xs : List (ℕ × MailboxEnvelope)} {vs : List Surroundings}
    {w w' : Ledger} {e : Failure},
    Program.steps (Ledger.perform rt dev record) vs (accept xs) w = some (.done (.error e), w') →
    isNotAnEnvelopeVerdict e = true ∧ ∃ before x after js w₁, xs = before ++ x :: after ∧
      vs.length = before.length + 1 ∧
      Program.steps (Ledger.perform rt dev record) (vs.take before.length) (accept before) w =
        some (.done (.ok js), w₁) ∧ w'.store = w₁.store
  | [], vs, w, w', e, h => by
    obtain ⟨-, hr, -⟩ := Program.steps_done.1 h
    cases hr
  | x :: xs, vs, w, w', e, h => by
    obtain ⟨v, vs, verdict, rfl, hv, hm⟩ := accept_cons_steps h
    cases verdict with
    | error f =>
      obtain ⟨rfl, he, hst⟩ := hm
      cases he
      refine ⟨?_, [], x, xs, [], w, rfl, rfl, rfl, hst⟩
      cases hr : (accepting rt dev v x.2 w.store).1 with
      | ok u => rw [hr] at hv; cases hv
      | error g =>
        rw [hr] at hv
        change (if _ then _ else _) = _ at hv
        split_ifs at hv with hg
        cases hv
        exact hg
    | ok verdict =>
      obtain ⟨r', hr', hrest⟩ := hm
      cases r' with
      | ok js => cases hr'
      | error f =>
        cases hr'
        obtain ⟨he, before, y, after, js, w₁, rfl, hlen, hb, hst⟩ := accept_aborted hrest
        refine ⟨he, x :: before, y, after, (x, verdict) :: js, w₁, rfl, ?_, ?_, hst⟩
        · rw [List.length_cons, hlen, List.length_cons]
        · refine Program.steps_bind.2 ⟨[v], _, _, _, rfl, judge_steps.2 ⟨v, rfl, rfl, rfl⟩, ?_⟩
          rw [hv]
          change Program.steps _ _ (accept _ >>= fun page =>
            (pure ((x, verdict) :: page) : Messenger _)) _ = _
          exact Program.steps_bind.2 ⟨_, [], .ok js, w₁, (List.append_nil _).symm, hb, rfl⟩

/-! ## A poll by itself -/

def ClientCall.judges : ClientCall → Bool
  | .acceptOne _ => true
  | _ => false

def ClientCall.acks : ClientCall → Bool
  | .ackMailbox _ => true
  | _ => false

/-- An envelope was accepted. -/
def Moment.accepts (m : Moment) : Prop := m.call.judges = true ∧ m.succeeded = true

/-- The store but for the re-walk. -/
def SameButRewalk (s s' : ClientStore) : Prop := s' = { s with rewalk := s'.rewalk }

/-- What a poll that began in a store has done so far. -/
structure PollLog (s₀ : ClientStore) (w : Ledger) : Prop where
  acks : (∃ m ∈ w.log, m.call.acks = true) →
    (∀ m ∈ w.log, m.call.judges = false) ∨ ∃ m ∈ w.log, m.accepts
  frame : (∀ m ∈ w.log, ¬ m.accepts ∧ m.call.acks = false) → SameButRewalk s₀ w.store

/-- A poll by itself: nothing happens between its calls. -/
abbrev pollAlone (rt : Runtime) (dev : Device) (record : DeviceRecord) (s₀ : ClientStore) :
    Contract ClientCall ClientCall.Answer Failure Surroundings Ledger :=
  onLedger rt dev record (fun _ _ _ => True) (PollLog s₀) (fun _ _ => True) fun _ _ => False

/-- What the counts of a walk say about the calls so far. -/
structure Counted (received : ℕ) (rejected : List (Text × Text)) (w : Ledger) : Prop where
  acks : ∀ m ∈ w.log, m.call.acks = false
  accepted : 0 < received → ∃ m ∈ w.log, m.accepts
  judged : received = 0 → rejected = [] → ∀ m ∈ w.log, m.call.judges = false

/-- The acknowledgements may begin. -/
def MayAck (w : Ledger) : Prop :=
  (∀ m ∈ w.log, m.call.judges = false) ∨ ∃ m ∈ w.log, m.accepts

variable {s₀ : ClientStore}

theorem SameButRewalk.trans {s s' s'' : ClientStore} (h : SameButRewalk s s')
    (h' : SameButRewalk s' s'') : SameButRewalk s s'' := by
  unfold SameButRewalk at *
  rw [h', h]

/-- A call that judges nothing, asks for no acknowledgement and changes at most the re-walk. -/
def Plain (rt : Runtime) (dev : Device) (record : DeviceRecord) (c : ClientCall) : Prop :=
  c.judges = false ∧ c.acks = false ∧ ∀ v x s, c.transaction rt dev record v = some x →
    SameButRewalk s (attempt v x s).2

theorem Plain.safe {c : ClientCall} (hc : Plain rt dev record c) {K : Ledger → Prop}
    (hK : ∀ w r s, K w → K (w.logged c r s)) :
    (pollAlone rt dev record s₀).Safe (fun _ => K) K (perform c) := by
  refine safe_perform (fun _ _ _ _ _ h => h.elim) fun v w r s hi hk _ hs => ?_
  have hframe : SameButRewalk w.store s := by
    unfold Performed at hs
    split at hs
    next x hx =>
      have := hc.2.2 v x w.store hx
      rwa [hs] at this
    next => rw [hs.1]; rfl
  refine ⟨⟨⟨?_, fun h => ?_⟩, trivial⟩, hK _ _ _ hk⟩
  · rintro ⟨m, hm, ha⟩
    rcases List.mem_cons.1 hm with rfl | hm
    · exact absurd ha (by simp [hc.2.1])
    · rcases hi.acks ⟨m, hm, ha⟩ with hj | ⟨n, hn, hacc⟩
      · refine Or.inl fun n hn => ?_
        rcases List.mem_cons.1 hn with rfl | hn
        · exact hc.1
        · exact hj n hn
      · exact Or.inr ⟨n, List.mem_cons_of_mem _ hn, hacc⟩
  · exact (hi.frame fun m hm => h m (List.mem_cons_of_mem _ hm)).trans hframe

/-- What is known of the log outlives a call that neither judges nor acknowledges. -/
theorem Counted.logged {received : ℕ} {rejected : List (Text × Text)} {c : ClientCall}
    (hj : c.judges = false) (ha : c.acks = false) {w : Ledger} {r : Except Failure c.Answer}
    {s : ClientStore} (h : Counted received rejected w) : Counted received rejected (w.logged c r s) := by
  refine ⟨fun m hm => ?_, fun hr => ?_, fun hr hl m hm => ?_⟩
  · rcases List.mem_cons.1 hm with rfl | hm
    · exact ha
    · exact h.acks m hm
  · obtain ⟨m, hm, hacc⟩ := h.accepted hr
    exact ⟨m, List.mem_cons_of_mem _ hm, hacc⟩
  · rcases List.mem_cons.1 hm with rfl | hm
    · exact hj
    · exact h.judged hr hl m hm

theorem MayAck.logged {c : ClientCall} (hj : c.judges = false) {w : Ledger}
    {r : Except Failure c.Answer} {s : ClientStore} (h : MayAck w) : MayAck (w.logged c r s) := by
  rcases h with h | ⟨m, hm, hacc⟩
  · refine Or.inl fun m hm => ?_
    rcases List.mem_cons.1 hm with rfl | hm
    · exact hj
    · exact h m hm
  · exact Or.inr ⟨m, List.mem_cons_of_mem _ hm, hacc⟩

theorem SameButRewalk.attempt_read {α : Type} (f : ClientStore → α) (v : Surroundings)
    (s : ClientStore) : SameButRewalk s (attempt v (Tx.read f) s).2 := by
  unfold attempt
  split_ifs <;> rfl

theorem plain_mailboxAuthorization : Plain rt dev record .mailboxAuthorization :=
  ⟨rfl, rfl, fun v x s hx => by cases hx; exact .attempt_read (fun _ => ()) v s⟩

theorem plain_pendingMailboxRewalk : Plain rt dev record .pendingMailboxRewalk :=
  ⟨rfl, rfl, fun v x s hx => by cases hx; exact .attempt_read _ v s⟩

theorem plain_pendingAcks : Plain rt dev record .pendingAcks :=
  ⟨rfl, rfl, fun v x s hx => by cases hx; exact .attempt_read _ v s⟩

theorem plain_keepMailboxRewalk {position : Text} :
    Plain rt dev record (.keepMailboxRewalk position) :=
  ⟨rfl, rfl, fun v x s hx => by cases hx; unfold attempt; split_ifs <;> rfl⟩

theorem plain_finishMailboxRewalk : Plain rt dev record .finishMailboxRewalk :=
  ⟨rfl, rfl, fun v x s hx => by cases hx; unfold attempt; split_ifs <;> rfl⟩

/-- A call that is no transaction. -/
theorem plain_request {c : ClientCall} (hj : c.judges = false) (ha : c.acks = false)
    (hc : ∀ v, c.transaction rt dev record v = none) : Plain rt dev record c :=
  ⟨hj, ha, fun v x s hx => by rw [hc v] at hx; cases hx⟩

variable {received : ℕ} {rejected : List (Text × Text)}

/-- The results and errors after which the counts still say what was done. -/
def Keeps {α : Type} (K : Ledger → Prop) : Except Failure α → Ledger → Prop
  | .ok _ => K
  | .error _ => fun _ => True

theorem Plain.keeps {c : ClientCall} (hc : Plain rt dev record c) {K : Ledger → Prop}
    (hK : ∀ w r s, K w → K (w.logged c r s)) :
    (pollAlone rt dev record s₀).Safe (Keeps K) K (perform c) :=
  (hc.safe hK).post fun r w _ h => by cases r <;> trivial

theorem readPage_safe {request : PollRequest} :
    (pollAlone rt dev record s₀).Safe (Keeps (Counted received rejected))
      (Counted received rejected) (readPage request) := by
  refine (plain_mailboxAuthorization.keeps fun w r s => .logged rfl rfl).bind (fun _ => ?_)
    fun _ _ _ h => h
  refine ((plain_request rfl rfl fun _ => rfl).keeps fun w r s => .logged rfl rfl).bind (fun t => ?_)
    fun _ _ _ h => h
  refine ((plain_request rfl rfl fun _ => rfl).keeps fun w r s => .logged rfl rfl).bind
    (fun now => ?_) fun _ _ _ h => h
  have hrest : (pollAlone rt dev record s₀).Safe (Keeps (Counted received rejected))
      (Counted received rejected)
      (do perform .mailboxAuthorization; perform (.pollMailbox request)) := by
    refine (plain_mailboxAuthorization.keeps fun w r s => .logged rfl rfl).bind (fun _ => ?_)
      fun _ _ _ h => h
    exact (plain_request rfl rfl fun _ => rfl).keeps fun w r s => .logged rfl rfl
  split_ifs
  · exact fun _ _ _ => trivial
  · exact hrest

/-- The verdict about an envelope is counted. -/
theorem judge_safe {x : ℕ × MailboxEnvelope} :
    (pollAlone rt dev record s₀).Safe (fun r w => ∀ verdict, r = .ok verdict →
        Counted (received + receivedCount [(x, verdict)])
          (rejected ++ rejectedEnvelopes [(x, verdict)]) w)
      (Counted received rejected) (judge x.2) := by
  rw [judge_eq]
  intro v w r w' hi hk _ hx
  obtain ⟨s, rfl, hs⟩ := perform_logged (c := .acceptOne x.2) rt dev record hx
  have hatt : accepting rt dev v x.2 w.store = (r, s) := hs
  have hnoack : ∀ m ∈ (w.logged (.acceptOne x.2) r s).log, m.call.acks = false := by
    intro m hm
    rcases List.mem_cons.1 hm with rfl | hm
    · rfl
    · exact hk.acks m hm
  refine ⟨⟨⟨?_, fun h => ?_⟩, trivial⟩,
    fun w => ∀ verdict, verdictOf r = .ok verdict →
      Counted (received + receivedCount [(x, verdict)])
        (rejected ++ rejectedEnvelopes [(x, verdict)]) w, fun _ _ _ _ h => h.elim, ?_, fun w _ h => h⟩
  · rintro ⟨m, hm, ha⟩
    rw [hnoack m hm] at ha
    cases ha
  · -- the envelope was not accepted, so its transaction left the store as it was
    have hr : r.isOk = false := by
      have := (h _ (List.mem_cons_self ..)).1
      simpa [Moment.accepts, Moment.succeeded, ClientCall.judges] using this
    have hst : s = w.store := by
      have hsnd : (accepting rt dev v x.2 w.store).2 = s := by rw [hatt]
      rw [← hsnd]
      refine accepting_rejected ?_
      rw [hatt]
      intro hv
      have hok : r = .ok () := verdictOf_accepted hv
      rw [hok] at hr
      cases hr
    change SameButRewalk s₀ s
    rw [hst]
    exact hi.frame fun m hm => h m (List.mem_cons_of_mem _ hm)
  · intro verdict hv
    cases verdict with
    | accepted =>
      obtain rfl := verdictOf_accepted hv
      exact ⟨hnoack, fun _ => ⟨_, List.mem_cons_self .., rfl, rfl⟩, fun h => by
        simp [receivedCount] at h⟩
    | rejected code =>
      refine ⟨hnoack, fun h => ?_, fun _ h => by simp [rejectedEnvelopes] at h⟩
      obtain ⟨m, hm, hacc⟩ := hk.accepted (by simpa [receivedCount] using h)
      exact ⟨m, List.mem_cons_of_mem _ hm, hacc⟩

theorem receivedCount_cons (j : Judgement) (js : List Judgement) :
    receivedCount (j :: js) = receivedCount [j] + receivedCount js := by
  rw [receivedCount, receivedCount, receivedCount, ← List.countP_append]
  rfl

theorem rejectedEnvelopes_cons (j : Judgement) (js : List Judgement) :
    rejectedEnvelopes (j :: js) = rejectedEnvelopes [j] ++ rejectedEnvelopes js := by
  rw [rejectedEnvelopes, rejectedEnvelopes, rejectedEnvelopes, ← List.filterMap_append]
  rfl

theorem accept_safe : ∀ {xs : List (ℕ × MailboxEnvelope)} {received : ℕ}
    {rejected : List (Text × Text)},
    (pollAlone rt dev record s₀).Safe (fun r w => ∀ js, r = .ok js →
        Counted (received + receivedCount js) (rejected ++ rejectedEnvelopes js) w)
      (Counted received rejected) (accept xs)
  | [], received, rejected => by
    intro w _ hk js hjs
    cases hjs
    simpa [receivedCount, rejectedEnvelopes] using hk
  | x :: xs, received, rejected => by
    refine judge_safe.bind (fun verdict => ?_) fun e w _ _ js hjs => by cases hjs
    refine (accept_safe.weaken fun w _ h => h verdict rfl).bind (fun js => ?_)
      fun e w _ _ js hjs => by cases hjs
    intro w _ hk js' hjs
    cases hjs
    have h := hk js rfl
    rw [Nat.add_assoc, List.append_assoc] at h
    rwa [receivedCount_cons, rejectedEnvelopes_cons]

theorem advanceRewalk_safe {walk : PollWalk} {nextCursor : Option Text} :
    (pollAlone rt dev record s₀).Safe (Keeps (Counted received rejected))
      (Counted received rejected) (advanceRewalk walk nextCursor) := by
  unfold advanceRewalk
  split
  · exact fun w _ hk => hk
  · exact plain_finishMailboxRewalk.keeps fun w r s => .logged rfl rfl
  · exact plain_keepMailboxRewalk.keeps fun w r s => .logged rfl rfl

theorem walkPages_safe : ∀ {n : ℕ} {walk : PollWalk},
    (pollAlone rt dev record s₀).Safe (fun r w => ∀ walk', r = .ok walk' →
        Counted walk'.received walk'.rejected w)
      (Counted walk.received walk.rejected) (walkPages dev n walk)
  | 0, walk => by
    intro w _ hk walk' hw
    cases hw
    exact hk
  | n + 1, walk => by
    refine readPage_safe.bind (fun batch => ?_) fun e w _ _ walk' hw => by cases hw
    refine accept_safe.bind (fun js => ?_) fun e w _ _ walk' hw => by cases hw
    refine (advanceRewalk_safe.weaken fun w _ h => h js rfl).bind (fun _ => ?_)
      fun e w _ _ walk' hw => by cases hw
    dsimp only
    split
    · intro w _ hk walk' hw
      cases hw
      exact hk
    next walk' hnext =>
      refine walkPages_safe.weaken fun w _ hk => ?_
      unfold PollWalk.next at hnext
      split_ifs at hnext
      cases hnext
      exact hk

/-- Once an acknowledgement was asked for, the frame says nothing more. -/
theorem ackChunks_safe : ∀ {n : ℕ} {ids : List Text},
    (pollAlone rt dev record s₀).Safe (fun _ _ => True) MayAck (ackChunks n ids)
  | 0, ids => fun _ _ _ => trivial
  | n + 1, ids => by
    unfold ackChunks
    split_ifs
    · exact fun _ _ _ => trivial
    refine (plain_mailboxAuthorization.keeps fun w r s => MayAck.logged rfl).bind (fun _ => ?_)
      fun _ _ _ _ => trivial
    have hack : (pollAlone rt dev record s₀).Safe
        (fun _ w => MayAck w ∧ ∃ m ∈ w.log, m.call.acks = true) MayAck
        (perform (.ackMailbox (ids.take 100))) := by
      refine safe_perform (fun _ _ _ _ _ h => h.elim) fun v w r s hi hk _ hs => ?_
      obtain rfl : s = w.store := hs.1
      have hmay : MayAck (w.logged (.ackMailbox (ids.take 100)) r w.store) := hk.logged rfl
      refine ⟨⟨⟨fun _ => hmay, fun h => ?_⟩, trivial⟩, hmay, _, List.mem_cons_self .., rfl⟩
      exact absurd (h _ (List.mem_cons_self ..)).2 (by simp [ClientCall.acks])
    refine hack.bind (fun _ => ?_) fun _ _ _ _ => trivial
    have hforget : (pollAlone rt dev record s₀).Safe (fun _ => MayAck)
        (fun w => MayAck w ∧ ∃ m ∈ w.log, m.call.acks = true)
        (perform (.forgetAcks (ids.take 100))) := by
      refine safe_perform (fun _ _ _ _ _ h => h.elim) fun v w r s hi hk _ hs => ?_
      have hmay : MayAck (w.logged (.forgetAcks (ids.take 100)) r s) := hk.1.logged rfl
      obtain ⟨m, hm, ha⟩ := hk.2
      refine ⟨⟨⟨fun _ => hmay, fun h => ?_⟩, trivial⟩, hmay⟩
      exact absurd (h m (List.mem_cons_of_mem _ hm)).2 (by simp [ha])
    refine hforget.bind (fun _ => ?_) fun _ _ _ _ => trivial
    exact ackChunks_safe

theorem ackPending_safe :
    (pollAlone rt dev record s₀).Safe (fun _ _ => True) MayAck ackPending := by
  refine (plain_pendingAcks.keeps fun w r s => MayAck.logged rfl).bind (fun ids => ?_)
    fun _ _ _ _ => trivial
  refine ackChunks_safe.bind (fun _ => ?_) fun _ _ _ _ => trivial
  exact fun _ _ _ => trivial

theorem pollOwned_safe : (pollAlone rt dev record s₀).Safe (fun _ _ => True)
    (Counted 0 []) (pollOwned dev) := by
  refine (plain_pendingMailboxRewalk.keeps fun w r s => .logged rfl rfl).bind (fun rewalk => ?_)
    fun _ _ _ _ => trivial
  have hwalk := @walkPages_safe rt dev record s₀ maxPollPagesPerPoll (.start rewalk)
  refine Contract.Safe.bind (Q := fun _ _ => True) hwalk (fun walk => ?_) fun _ _ _ _ => trivial
  have hack : (∀ w, Counted walk.received walk.rejected w → MayAck w) →
      (pollAlone rt dev record s₀).Safe (fun _ _ => True)
        (fun w => ∀ walk', (.ok walk : Except Failure PollWalk) = .ok walk' →
          Counted walk'.received walk'.rejected w)
        (do let _ ← ackPending
            return (⟨walk.received, walk.more, walk.rejected⟩ : PollResult)) := by
    intro h
    refine (ackPending_safe.weaken fun w _ hk => h w (hk walk rfl)).bind (fun _ => ?_)
      fun _ _ _ _ => trivial
    exact fun _ _ _ => trivial
  split
  next first rest hr =>
    split_ifs with hz
    · exact fun _ _ _ => trivial
    · exact hack fun w hk => Or.inr (hk.accepted (Nat.pos_of_ne_zero hz))
  next hr =>
    refine hack fun w hk => ?_
    rcases Nat.eq_zero_or_pos walk.received with hz | hz
    · exact Or.inl (hk.judged hz hr)
    · exact Or.inr (hk.accepted hz)

theorem poll_safe : (pollAlone rt dev record s₀).Safe (fun _ _ => True) (Counted 0 []) (poll dev) :=
  pollOwned_safe.recover (fun _ _ _ _ => trivial) fun _ _ _ _ => trivial

/-- **Batch isolation.** A page leaves the store, and the count, of the page without what it
    rejected; a failure that is no verdict leaves what was accepted before it; and a poll that
    judged envelopes and accepted none has asked for no acknowledgement and changed nothing but
    the re-walk, wherever it is or ended. -/
theorem batch_isolation (rt : Runtime) (dev : Device) (record : DeviceRecord) :
    (∀ (page : List ((ℕ × MailboxEnvelope) × Surroundings)) (w w' : Ledger) (js : List Judgement),
      Program.steps (Ledger.perform rt dev record) (page.map (·.2)) (accept (page.map (·.1))) w =
        some (.done (.ok js), w') →
      ∃ js' w'', Program.steps (Ledger.perform rt dev record) ((kept page js).map (·.2))
          (accept ((kept page js).map (·.1))) w = some (.done (.ok js'), w'') ∧
        w''.store = w'.store ∧ (∀ j ∈ js', j.2 = .accepted) ∧
        receivedCount js' = receivedCount js) ∧
    (∀ (page : List (ℕ × MailboxEnvelope)) (vs : List Surroundings) (w w' : Ledger) (e : Failure),
      Program.steps (Ledger.perform rt dev record) vs (accept page) w =
        some (.done (.error e), w') →
      isNotAnEnvelopeVerdict e = true ∧ ∃ before x after js w₁, page = before ++ x :: after ∧
        vs.length = before.length + 1 ∧
        Program.steps (Ledger.perform rt dev record) (vs.take before.length) (accept before) w =
          some (.done (.ok js), w₁) ∧ w'.store = w₁.store) ∧
    (∀ (vs : List Surroundings) (s : ClientStore) (p : Messenger PollResult) (w : Ledger),
      Program.steps (Ledger.perform rt dev record) vs (poll dev) ⟨s, []⟩ = some (p, w) →
      (∃ m ∈ w.log, m.call.judges = true) → (∀ m ∈ w.log, ¬ m.accepts) →
      (∀ m ∈ w.log, m.call.acks = false) ∧ SameButRewalk s w.store) := by
  refine ⟨fun page w w' js h => ?_, fun page vs w w' e h => accept_aborted h, ?_⟩
  · obtain ⟨w'', hw, hst⟩ := accept_kept rfl h
    refine ⟨_, w'', hw, hst, fun j hj => by simpa using (List.mem_filter.1 hj).2, ?_⟩
    rw [receivedCount, receivedCount, List.countP_filter]
    exact List.countP_congr fun j _ => by simp
  · rintro vs s p w h ⟨m, hm, hj⟩ hnone
    have hstart : PollLog s ⟨s, []⟩ := ⟨by simp, fun _ => rfl⟩
    obtain ⟨hlog, -⟩ := Contract.Safe.alone (R := pollAlone rt dev record s)
      (fun _ _ _ => trivial) poll_safe hstart ⟨by simp, by simp, by simp⟩ h
    have hack : ∀ m ∈ w.log, m.call.acks = false := by
      intro n hn
      by_contra ha
      rcases hlog.acks ⟨n, hn, by simpa using ha⟩ with hno | ⟨k, hk, hacc⟩
      · rw [hno m hm] at hj
        cases hj
      · exact hnone k hk hacc
    exact ⟨hack, hlog.frame fun n hn => ⟨hnone n hn, hack n hn⟩⟩

/-- One envelope of the contact and one of a stranger; a store that refuses the second
    transaction; and a poll whose only envelope is the stranger's. -/
theorem batch_isolation_stranger :
    let own := plainEnvelope 'E' ['x']
    let strange := plainEnvelope 'I' ['y']
    let perform := Ledger.perform plainRuntime plainDevice plainRecord
    (∃ w' js' w'', Program.steps perform [plainly 5 .done, plainly 5 .done]
        (accept [(1, own), (2, strange)]) ⟨plainStore, []⟩ =
          some (.done (.ok [((1, own), .accepted), ((2, strange), .rejected
            "CONTACT_NOT_TRUSTED".toList)]), w') ∧
      Program.steps perform [plainly 5 .done] (accept [(1, own)]) ⟨plainStore, []⟩ =
        some (.done (.ok js'), w'') ∧ w''.store = w'.store) ∧
    (∃ w' before w₁ js, Program.steps perform [plainly 5 .done, { plainly 5 .done with refused := true }]
        (accept [(1, own), (2, strange)]) ⟨plainStore, []⟩ =
          some (.done (.error .persistence), w') ∧
      Program.steps perform ([plainly 5 .done, { plainly 5 .done with refused := true }].take
        (List.length before)) (accept before) ⟨plainStore, []⟩ = some (.done (.ok js), w₁) ∧
      w'.store = w₁.store) ∧
    ∃ w, Program.steps perform [plainly 5 .done, plainly 5 .done, plainly 5 (.challenge 9),
        plainly 5 .done, plainly 5 .done, plainly 5 (.page ⟨[(2, strange)], none⟩), plainly 5 .done]
        (poll plainDevice) ⟨plainStore, []⟩ =
          some (.done (.error (.inbound "CONTACT_NOT_TRUSTED".toList)), w) ∧
      (∀ m ∈ w.log, m.call.acks = false) ∧ SameButRewalk plainStore w.store := by
  intro own strange perform
  obtain ⟨hpage, habort, hpoll⟩ := batch_isolation plainRuntime plainDevice plainRecord
  refine ⟨?_, ?_, ?_⟩
  · obtain ⟨w', h⟩ := Program.result_eq (r := .ok [((1, own), .accepted), ((2, strange),
      .rejected "CONTACT_NOT_TRUSTED".toList)]) (by decide +kernel : Program.result (Program.steps
        perform [plainly 5 .done, plainly 5 .done] (accept [(1, own), (2, strange)])
        ⟨plainStore, []⟩) = _)
    obtain ⟨js', w'', h', hst, -⟩ :=
      hpage [((1, own), plainly 5 .done), ((2, strange), plainly 5 .done)] _ w' _ h
    exact ⟨w', js', w'', h, h', hst⟩
  · obtain ⟨w', h⟩ := Program.result_eq (r := .error .persistence) (by decide +kernel :
      Program.result (Program.steps perform [plainly 5 .done,
        { plainly 5 .done with refused := true }] (accept [(1, own), (2, strange)])
        ⟨plainStore, []⟩) = _)
    obtain ⟨-, before, x, after, js, w₁, -, -, hb, hst⟩ := habort _ _ _ w' _ h
    exact ⟨w', before, w₁, js, h, hb, hst⟩
  · let o := Program.steps perform [plainly 5 .done, plainly 5 .done, plainly 5 (.challenge 9),
      plainly 5 .done, plainly 5 .done, plainly 5 (.page ⟨[(2, strange)], none⟩), plainly 5 .done]
      (poll plainDevice) ⟨plainStore, []⟩
    have hlog : (o.elim false fun x => x.2.log.any (fun m => m.call.judges) &&
        x.2.log.all fun m => !(m.call.judges && m.succeeded)) = true := by decide
    obtain ⟨w, h⟩ := Program.result_eq (r := .error (.inbound "CONTACT_NOT_TRUSTED".toList))
      (by decide : Program.result o = _)
    rw [h, Option.elim_some, Bool.and_eq_true, List.any_eq_true, List.all_eq_true] at hlog
    refine ⟨w, h, hpoll _ _ _ w h hlog.1 fun m hm hacc => ?_⟩
    have := hlog.2 m hm
    simp [hacc.1, hacc.2] at this

end Echolet
