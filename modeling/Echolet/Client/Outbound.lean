/-
  Outbound messages are committed once, and every transmission is the committed one.

  * `OutboxKept` is what any call may do to the outbox: a record keeps its message, and a
    delivered one stays delivered;
  * `OutboxInv` is the invariant of the store, and `OutboxLog` ties it to the envelopes sent;
  * `Stored` is what a process knows of a record it holds;
  * `send_ends`, `send_asks`: what a send does about a record with another content.
-/
import Echolet.Client.Calls
import Echolet.Client.Plain

namespace Echolet

variable {rt : Runtime} {dev : Device} {record : DeviceRecord} {s s' s₀ : ClientStore}

/-! ## The store -/

/-- The same message, to the same recipient, in the same envelope. -/
def Outbox.Same (r r' : Outbox) : Prop := r'.contentHash = r.contentHash ∧ r'.envelope = r.envelope

/-- No record is lost or changed, and no delivered one is pending again. -/
def OutboxKept (s s' : ClientStore) : Prop :=
  ∀ id r, s.outbox.get id = some r → ∃ r', s'.outbox.get id = some r' ∧ r.Same r' ∧
    (r.status = .delivered → r'.status = .delivered)

theorem OutboxKept.of_eq (h : s'.outbox = s.outbox) : OutboxKept s s' := by
  intro id r hr
  exact ⟨r, by rw [h, hr], ⟨rfl, rfl⟩, fun h => h⟩

theorem OutboxKept.refl (s : ClientStore) : OutboxKept s s := .of_eq rfl

theorem OutboxKept.trans {s'' : ClientStore} (h : OutboxKept s s') (h' : OutboxKept s' s'') :
    OutboxKept s s'' := by
  intro id r hr
  obtain ⟨r₁, hr₁, hs₁, hd₁⟩ := h id r hr
  obtain ⟨r₂, hr₂, hs₂, hd₂⟩ := h' id r₁ hr₁
  exact ⟨r₂, hr₂, ⟨hs₂.1.trans hs₁.1, hs₂.2.trans hs₁.2⟩, fun h => hd₂ (hd₁ h)⟩

/-- The store has the message of a record under its id, delivered where the record says so. -/
def Stored (record : Outbox) (s : ClientStore) : Prop :=
  ∃ r, s.outbox.get record.envelope.messageId = some r ∧ record.Same r ∧
    (record.status = .delivered → r.status = .delivered)

theorem Stored.kept {r : Outbox} (h : Stored r s) (hs : OutboxKept s s') : Stored r s' := by
  obtain ⟨r₁, hr, hsame, hd⟩ := h
  obtain ⟨r₂, hr₂, hsame₂, hd₂⟩ := hs _ r₁ hr
  exact ⟨r₂, hr₂, ⟨hsame₂.1.trans hsame.1, hsame₂.2.trans hsame.2⟩, fun h => hd₂ (hd h)⟩

structure OutboxInv (s : ClientStore) : Prop where
  keyed : ∀ {id r}, s.outbox.get id = some r → r.envelope.messageId = id
  committed : ∀ {k e}, s.history.get k = some e → e.direction = .outbound →
    s.outbox.get e.messageId ≠ none
  unique : ∀ {k k' e e'}, s.history.get k = some e → s.history.get k' = some e' →
    e.direction = .outbound → e'.direction = .outbound → e.messageId = e'.messageId → k = k'

theorem OutboxInv.stored (h : OutboxInv s) {id : Text} {r : Outbox}
    (hr : s.outbox.get id = some r) : Stored r s :=
  ⟨r, by rw [h.keyed hr, hr], ⟨rfl, rfl⟩, fun h => h⟩

variable {v : Circumstances} {c : ClientCall}

/-- What a call must know: it marks only a record that is stored. -/
def MarksStored (c : ClientCall) (s : ClientStore) : Prop :=
  ∀ r, c = .setDelivered r → Stored r s

theorem Effect.outboxKept (he : Effect rt dev v s c s') (hc : MarksStored c s) :
    OutboxKept s s' := by
  cases he with
  | accepted a =>
    obtain ⟨_, _, _, _, _, rfl⟩ := a.frame
    exact .of_eq rfl
  | @committed input _ _ _ _ m =>
    intro id r hr
    refine ⟨r, ?_, ⟨rfl, rfl⟩, fun h => h⟩
    rw [m.after]
    change (s.outbox.insert _ _).get id = _
    rw [SortedMap.get_insert_ne _ _ ?_, hr]
    rintro rfl
    rw [m.fresh] at hr
    cases hr
  | @delivered record =>
    intro id r hr
    obtain ⟨r₁, hr₁, hsame, -⟩ := hc record rfl
    by_cases hid : id = record.envelope.messageId
    · subst hid
      cases hr₁.symm.trans hr
      exact ⟨{ record with status := .delivered }, SortedMap.get_insert_self ..,
        ⟨hsame.1.symm, hsame.2.symm⟩, fun _ => rfl⟩
    · exact ⟨r, (SortedMap.get_insert_ne _ _ hid).trans hr, ⟨rfl, rfl⟩, fun h => h⟩
  | published _ p =>
    obtain ⟨_, _, _, rfl⟩ := p
    exact .of_eq rfl
  | _ => exact .of_eq rfl

/-- An outbound entry was there before, or is committed now. -/
theorem Effect.outbound (he : Effect rt dev v s c s') {k : Text} {e : HistoryEntry}
    (hk : s'.history.get k = some e) (hd : e.direction = .outbound) : s.history.get k = some e ∨
      s.outbox.get e.messageId = none ∧ s'.outbox.get e.messageId ≠ none ∧
        k = historyKey (nextSequence s) := by
  cases he with
  | accepted a =>
    obtain ⟨contact, address, message, -, -, hr, -, rfl⟩ := a
    cases hr with
    | before _ => exact Or.inl hk
    | now _ _ r =>
      obtain ⟨plaintext, signal, -, -, rfl⟩ := r
      change (s.history.insert _ _).get k = _ at hk
      rw [SortedMap.get_insert] at hk
      split_ifs at hk
      · cases hk
        cases hd
      · exact Or.inl hk
  | @committed input _ _ _ _ m =>
    rw [m.after] at hk ⊢
    change (s.history.insert _ _).get k = _ at hk
    rw [SortedMap.get_insert] at hk
    split_ifs at hk with hkey
    · cases hk
      refine Or.inr ⟨m.fresh, ?_, hkey⟩
      change (s.outbox.insert input.messageId _).get input.messageId ≠ none
      rw [SortedMap.get_insert_self]
      exact Option.some_ne_none _
    · exact Or.inl hk
  | published _ p =>
    obtain ⟨_, _, _, rfl⟩ := p
    exact Or.inl hk
  | _ => exact Or.inl hk

theorem Effect.keyed (he : Effect rt dev v s c s') (h : OutboxInv s) {id : Text} {r : Outbox}
    (hr : s'.outbox.get id = some r) : r.envelope.messageId = id := by
  cases he with
  | accepted a =>
    obtain ⟨_, _, _, _, _, rfl⟩ := a.frame
    exact h.keyed hr
  | @committed input _ _ _ _ m =>
    rw [m.after] at hr
    change (s.outbox.insert _ _).get id = _ at hr
    rw [SortedMap.get_insert] at hr
    split_ifs at hr with hid
    · cases hr
      exact hid.symm
    · exact h.keyed hr
  | @delivered record =>
    change (s.outbox.insert _ _).get id = _ at hr
    rw [SortedMap.get_insert] at hr
    split_ifs at hr with hid
    · cases hr
      exact hid.symm
    · exact h.keyed hr
  | published _ p =>
    obtain ⟨_, _, _, rfl⟩ := p
    exact h.keyed hr
  | _ => exact h.keyed hr

/-- **Every call keeps the invariant of the outbox**, where it marks only a stored record. -/
theorem OutboxInv.effect (h : OutboxInv s) (he : Effect rt dev v s c s') (hc : MarksStored c s) :
    OutboxInv s' := by
  have hkept := he.outboxKept hc
  have hsome : ∀ {id}, s.outbox.get id ≠ none → s'.outbox.get id ≠ none := by
    intro id hid
    obtain ⟨r, hr⟩ := Option.ne_none_iff_exists'.1 hid
    obtain ⟨r', hr', -⟩ := hkept id r hr
    rw [hr']
    exact Option.some_ne_none _
  refine ⟨fun hr => he.keyed h hr, fun hk hd => ?_, fun hk hk' hd hd' hm => ?_⟩
  · rcases he.outbound hk hd with hold | ⟨-, hnew, -⟩
    · exact hsome (h.committed hold hd)
    · exact hnew
  · rcases he.outbound hk hd with hold | ⟨hn, -, hkey⟩ <;>
      rcases he.outbound hk' hd' with hold' | ⟨hn', -, hkey'⟩
    · exact h.unique hold hold' hd hd' hm
    · rw [← hm] at hn'
      exact absurd hn' (h.committed hold hd)
    · rw [hm] at hn
      exact absurd hn (h.committed hold' hd')
    · rw [hkey, hkey']

/-! ## The log -/

/-- What an answer says of the outbox it was read in. -/
def Told (rt : Runtime) (s : ClientStore) : (c : ClientCall) → Except Failure c.Answer → Prop
  | .readOutbox id, .ok r => r = s.outbox.get id
  | .commitMessage input _ _ _, .ok (r, true) => s.outbox.get input.messageId = some r
  | .commitMessage input _ _ _, .ok (r, false) => s.outbox.get input.messageId = none ∧
      r.contentHash = contentHash rt input ∧ r.envelope.messageId = input.messageId
  | _, _ => True

/-- The calls of a send that write messages. -/
def ClientCall.writesMessage : ClientCall → Bool
  | .commitMessage _ _ _ _ | .setDelivered _ => true
  | _ => false

/-- What a call may do to the outbox. -/
structure OutboxStep (rt : Runtime) (s₀ : ClientStore) (pre : List Moment) (m : Moment) : Prop where
  kept : OutboxKept (before s₀ pre) m.store
  told : Told rt (before s₀ pre) m.call m.answer
  /-- A commit under an id that is used writes nothing at all. -/
  used : ∀ {input contact address verified}, m.call = .commitMessage input contact address verified →
    (before s₀ pre).outbox.get input.messageId ≠ none → m.store = before s₀ pre
  /-- The other calls of a send write at most a claim. -/
  quiet : m.call.ofSend → m.call.writesMessage = false →
    ∃ claims, m.store = { before s₀ pre with claims := claims }

structure OutboxLog (rt : Runtime) (s₀ : ClientStore) (w : Ledger) : Prop where
  store : w.store = before s₀ w.log
  inv : OutboxInv w.store
  content : ∀ {id r}, w.store.outbox.get id = some r →
    ∃ input : SendInput, input.messageId = id ∧ r.contentHash = contentHash rt input
  sent : ∀ {m e}, m ∈ w.log → m.call = .sendEnvelope e →
    ∃ r, w.store.outbox.get e.messageId = some r ∧ r.envelope = e
  step : EachMoment (OutboxStep rt s₀) w.log

theorem told_of_performed {v : Surroundings} {r : Except Failure c.Answer}
    (hp : Performed rt dev record c v s r s') : Told rt s c r := by
  cases r with
  | error e => cases c <;> trivial
  | ok a =>
    cases c with
    | readOutbox id => exact (Tx.read_ok.1 (attempt_ok hp)).1.symm
    | commitMessage input contact address verified =>
      obtain ⟨r, existed⟩ := a
      obtain ⟨rfl, hr, -⟩ | ⟨rfl, ⟨hc, rfl⟩⟩ := commitMessage_ok (attempt_ok hp)
      · exact hr
      · exact ⟨hc.fresh, rfl, rfl⟩
    | _ => trivial

/-- A call of a send that writes no message. -/
theorem Effect.quiet (he : Effect rt dev v s c s') (hsend : c.ofSend)
    (hc : c.writesMessage = false) : ∃ claims, s' = { s with claims := claims } := by
  cases he with
  | same => exact ⟨s.claims, rfl⟩
  | claimed _ _ => exact ⟨_, rfl⟩
  | replaced => exact ⟨_, rfl⟩
  | committed _ => cases hc
  | delivered => cases hc
  | rewalk r hr => cases c <;> first | (cases hr; done) | (rcases hsend with h | h | h <;> cases h)
  | published hp _ =>
    cases c <;> first | (cases hp; done) | (rcases hsend with h | h | h <;> cases h)
  | _ => rcases hsend with h | h | h <;> cases h

theorem Effect.content (he : Effect rt dev v s c s') (hc : MarksStored c s)
    (h : ∀ {id r}, s.outbox.get id = some r →
      ∃ input : SendInput, input.messageId = id ∧ r.contentHash = contentHash rt input)
    {id : Text} {r : Outbox} (hr : s'.outbox.get id = some r) :
    ∃ input : SendInput, input.messageId = id ∧ r.contentHash = contentHash rt input := by
  cases he with
  | accepted a =>
    obtain ⟨_, _, _, _, _, rfl⟩ := a.frame
    exact h hr
  | @committed input _ _ _ _ m =>
    rw [m.after] at hr
    change (s.outbox.insert _ _).get id = _ at hr
    rw [SortedMap.get_insert] at hr
    split_ifs at hr with hid
    · cases hr
      exact ⟨input, hid.symm, rfl⟩
    · exact h hr
  | @delivered record =>
    change (s.outbox.insert _ _).get id = _ at hr
    rw [SortedMap.get_insert] at hr
    split_ifs at hr with hid
    · cases hr
      obtain ⟨r₁, hr₁, hsame, -⟩ := hc record rfl
      obtain ⟨input, hin, hhash⟩ := h hr₁
      exact ⟨input, by rw [hin, hid], by rw [← hhash, hsame.1]⟩
    · exact h hr
  | published _ p =>
    obtain ⟨_, _, _, rfl⟩ := p
    exact h hr
  | _ => exact h hr

/-- **One call.** What is marked or sent must be stored. -/
theorem OutboxLog.logged {w : Ledger} (h : OutboxLog rt s₀ w) {v : Surroundings}
    {r : Except Failure c.Answer} (hp : Performed rt dev record c v w.store r s)
    (hmark : MarksStored c w.store)
    (hsent : ∀ e, c = .sendEnvelope e → ∃ r, w.store.outbox.get e.messageId = some r ∧
      r.envelope = e) : OutboxLog rt s₀ (w.logged c r s) := by
  have he := performed_effect hp
  have hkept := he.outboxKept hmark
  refine ⟨rfl, h.inv.effect he hmark, he.content hmark h.content, fun {m e} hm hcall => ?_,
    h.step.cons ?_⟩
  · have hstored : ∃ r, w.store.outbox.get e.messageId = some r ∧ r.envelope = e := by
      rcases List.mem_cons.1 hm with rfl | hm
      · exact hsent e hcall
      · exact h.sent hm hcall
    obtain ⟨r₁, hr₁, rfl⟩ := hstored
    obtain ⟨r₂, hr₂, hsame, -⟩ := hkept _ r₁ hr₁
    exact ⟨r₂, hr₂, hsame.2⟩
  · have hstore := h.store
    refine ⟨by rw [← hstore]; exact hkept, by rw [← hstore]; exact told_of_performed hp, ?_,
      by rw [← hstore]; exact he.quiet⟩
    intro input contact address verified hcall hused
    rw [← hstore] at hused ⊢
    obtain rfl : c = _ := hcall
    cases r with
    | error e => exact performed_error hp
    | ok out =>
      obtain ⟨r, existed⟩ := out
      obtain ⟨-, -, hs⟩ | ⟨-, ⟨hc, -⟩⟩ := commitMessage_ok (attempt_ok hp)
      · exact hs
      · exact absurd hc.fresh hused

/-! ## The commands -/

/-- Any processes over a store: records are kept. -/
abbrev outboxes (rt : Runtime) (dev : Device) (record : DeviceRecord) (s₀ : ClientStore) :
    Contract ClientCall ClientCall.Answer Failure Surroundings Ledger :=
  onLedger rt dev record (fun _ _ _ => True) (OutboxLog rt s₀)
    (fun w w' => OutboxKept w.store w'.store) fun w w' => OutboxKept w.store w'.store

/-- Calls that neither mark a record nor send one. -/
def Unsending : ClientCall → Prop
  | .setDelivered _ | .sendEnvelope _ => False
  | _ => True

theorem OutboxLog.unsending {w : Ledger} (h : OutboxLog rt s₀ w) {v : Surroundings}
    {r : Except Failure c.Answer} (hc : Unsending c)
    (hp : Performed rt dev record c v w.store r s) :
    OutboxLog rt s₀ (w.logged c r s) ∧ OutboxKept w.store s := by
  have hmark : MarksStored c w.store := by
    rintro r rfl
    exact hc.elim
  refine ⟨h.logged hp hmark ?_, (performed_effect hp).outboxKept hmark⟩
  rintro e rfl
  exact hc.elim

theorem unsending_safe {α : Type} {p : Messenger α} {K : Ledger → Prop} (h : p.Only Unsending) :
    (outboxes rt dev record s₀).Safe (fun _ _ => True) K p := by
  refine Contract.Safe.only (fun c v w r w' hc hi _ hx => ?_) h
  obtain ⟨s, rfl, hs⟩ := perform_logged rt dev record hx
  exact hi.unsending hc hs

theorem Stored.stable {r : Outbox} :
    (outboxes rt dev record s₀).Stable fun w => Stored r w.store :=
  fun _ _ _ _ hs h => h.kept hs

/-- The store has the message of a record, delivered. -/
def Delivered (record : Outbox) (s : ClientStore) : Prop :=
  Stored { record with status := .delivered } s

theorem Delivered.stable {r : Outbox} :
    (outboxes rt dev record s₀).Stable fun w => Delivered r w.store :=
  Stored.stable

theorem stored_call {r : Outbox} {c : ClientCall} (hc : Unsending c ∨ c = .sendEnvelope r.envelope) :
    (outboxes rt dev record s₀).Safe (fun _ w => Stored r w.store) (fun w => Stored r w.store)
      (perform c) := by
  refine safe_perform (fun _ => Stored.stable) fun v w a s hi hk _ hs => ?_
  rcases hc with hc | rfl
  · obtain ⟨hlog, hkept⟩ := hi.unsending hc hs
    exact ⟨⟨hlog, hkept⟩, hk.kept hkept⟩
  · obtain rfl : s = w.store := hs.1
    refine ⟨⟨hi.logged hs (fun _ h => by cases h) ?_, .refl _⟩, hk⟩
    intro e he
    cases he
    obtain ⟨r₁, hr₁, hsame, -⟩ := hk
    exact ⟨r₁, hr₁, hsame.2⟩

/-- The results that say more than that the program ended. -/
def Ended {α : Type} (K : α → Ledger → Prop) : Except Failure α → Ledger → Prop
  | .ok a => K a
  | .error _ => fun _ => True

theorem setDelivered_safe {r : Outbox} : (outboxes rt dev record s₀).Safe
    (Ended fun _ w => Delivered r w.store) (fun w => Stored r w.store)
      (perform (.setDelivered r)) := by
  refine safe_perform (fun a => ?_) fun v w a s hi hk _ hs => ?_
  · cases a
    · exact .true
    · exact Delivered.stable
  have hmark : MarksStored (.setDelivered r) w.store := by
    rintro r' ⟨rfl⟩
    exact hk
  have hlog : OutboxLog rt s₀ (w.logged (.setDelivered r) a s) :=
    hi.logged hs hmark fun _ h => by cases h
  refine ⟨⟨hlog, (performed_effect hs).outboxKept hmark⟩, ?_⟩
  cases a with
  | error e => trivial
  | ok u =>
    obtain rfl := Tx.modify_ok.1 (attempt_ok hs)
    exact ⟨_, SortedMap.get_insert_self .., ⟨rfl, rfl⟩, fun _ => rfl⟩

theorem deliver_safe {r : Outbox} : (outboxes rt dev record s₀).Safe
    (Ended fun a w => a = receipt r ∧ Delivered r w.store) (fun w => Stored r w.store)
      (deliver r) := by
  unfold deliver
  split_ifs with hd
  · intro w _ hk
    obtain ⟨r₁, hr₁, hsame, hst⟩ := hk
    exact ⟨rfl, r₁, hr₁, hsame, fun _ => hst hd⟩
  · refine (stored_call (c := .checkRetry r) (Or.inl trivial)).bind (fun _ => ?_)
      fun _ _ _ _ => trivial
    refine (stored_call (Or.inr rfl)).bind (fun _ => ?_) fun _ _ _ _ => trivial
    refine setDelivered_safe.bind (fun _ => ?_) fun _ _ _ _ => trivial
    exact fun w _ hk => ⟨rfl, hk⟩

theorem deliverAll_safe : ∀ {records : List Outbox}, (outboxes rt dev record s₀).Safe
    (fun _ _ => True) (fun w => ∀ r ∈ records, Stored r w.store) (deliverAll records)
  | [] => fun _ _ _ => trivial
  | r :: records => by
    have hfirst := Contract.Safe.keep (K := fun w : Ledger => ∀ x ∈ r :: records, Stored x w.store)
      (fun w w' hi hi' hg h x hx => (h x hx).kept hg) (fun _ _ h => h)
      ((@deliver_safe rt dev record s₀ r).weaken fun w _ h => h r (List.mem_cons_self ..))
    refine hfirst.bind (fun _ => ?_) fun _ _ _ _ => trivial
    refine (deliverAll_safe.weaken fun w _ h x hx => h.1 x (List.mem_cons_of_mem _ hx)).bind
      (fun _ => ?_) fun _ _ _ _ => trivial
    exact fun _ _ _ => trivial

theorem pendingOutbox_safe {K : Ledger → Prop} : (outboxes rt dev record s₀).Safe
    (Ended fun records w => ∀ r ∈ records, Stored r w.store) K (perform .pendingOutbox) := by
  refine safe_perform (fun a => ?_) fun v w a s hi _ _ hs => ?_
  · cases a with
    | error e => exact .true
    | ok records => exact fun w w' hi hi' hg h r hr => (h r hr).kept hg
  refine ⟨hi.unsending trivial hs, ?_⟩
  cases a with
  | error e => trivial
  | ok records =>
    obtain ⟨rfl, rfl⟩ := Tx.read_ok.1 (attempt_ok hs)
    intro r hr
    obtain ⟨⟨id, r'⟩, hmem, rfl⟩ := List.mem_map.1 (List.mem_of_mem_filter hr)
    exact hi.inv.stored (SortedMap.mem_entries.1 hmem)

theorem retryPending_safe {K : Ledger → Prop} :
    (outboxes rt dev record s₀).Safe (fun _ _ => True) K retryPending := by
  refine Contract.Safe.recover (M := fun _ _ => True) ?_ (fun _ _ _ _ => trivial)
    fun _ _ _ _ => trivial
  exact pendingOutbox_safe.bind (fun records => deliverAll_safe) fun _ _ _ _ => trivial

/-- A send that returned: the message of its input is in the outbox, and delivered. -/
def Sent (rt : Runtime) (input : SendInput) (a : Receipt) (s : ClientStore) : Prop :=
  ∃ r, s.outbox.get input.messageId = some r ∧ r.contentHash = contentHash rt input ∧
    r.status = .delivered ∧ a.messageId = input.messageId ∧ a.envelopeId = r.envelope.envelopeId

theorem Sent.stable {input : SendInput} {a : Receipt} :
    (outboxes rt dev record s₀).Stable fun w => Sent rt input a w.store := by
  rintro w w' _ _ hg ⟨r, hr, hh, hd, hm, he⟩
  obtain ⟨r', hr', hsame, hd'⟩ := hg _ r hr
  exact ⟨r', hr', hsame.1.trans hh, hd' hd, hm, by rw [hsame.2]; exact he⟩

theorem sent_of_delivered {input : SendInput} {r : Outbox} (hid : r.envelope.messageId = input.messageId)
    (hh : r.contentHash = contentHash rt input) (h : Delivered r s) :
    Sent rt input (receipt r) s := by
  obtain ⟨r', hr', hsame, hd⟩ := h
  refine ⟨r', ?_, hsame.1.trans hh, hd rfl, hid, ?_⟩
  · rw [← hid]
    exact hr'
  · rw [hsame.2]
    rfl

/-- What a process knows of a record it read for its input. -/
def Holding (input : SendInput) (r : Outbox) (w : Ledger) : Prop :=
  r.envelope.messageId = input.messageId ∧ Stored r w.store

theorem Holding.stable {input : SendInput} {r : Outbox} :
    (outboxes rt dev record s₀).Stable (Holding input r) :=
  fun _ _ _ _ hg h => ⟨h.1, h.2.kept hg⟩

theorem deliver_own {input : SendInput} {r : Outbox} (hh : r.contentHash = contentHash rt input) :
    (outboxes rt dev record s₀).Safe (Ended fun a w => Sent rt input a w.store) (Holding input r)
      (deliver r) := by
  have hd := Contract.Safe.keep (K := Holding input r) Holding.stable (fun _ _ h => h)
    ((@deliver_safe rt dev record s₀ r).weaken fun w _ h => h.2)
  refine hd.post fun a w _ h => ?_
  cases a with
  | error e => trivial
  | ok a =>
    obtain ⟨⟨hid, -⟩, rfl, hdel⟩ := h
    exact sent_of_delivered hid hh hdel

theorem settle_own {input : SendInput} {r : Outbox} :
    (outboxes rt dev record s₀).Safe (Ended fun a w => Sent rt input a w.store) (Holding input r)
      (settle r (contentHash rt input)) := by
  unfold settle
  split_ifs with hh
  · exact fun _ _ _ => trivial
  · exact deliver_own (not_not.1 hh)

theorem readOutbox_safe {input : SendInput} {K : Ledger → Prop} :
    (outboxes rt dev record s₀).Safe (Ended fun r w => ∀ x, r = some x → Holding input x w) K
      (perform (.readOutbox input.messageId)) := by
  refine safe_perform (fun a => ?_) fun v w a s hi _ _ hs => ?_
  · cases a with
    | error e => exact .true
    | ok r => exact fun w w' hi hi' hg h x hx => Holding.stable w w' hi hi' hg (h x hx)
  refine ⟨hi.unsending trivial hs, ?_⟩
  cases a with
  | error e => trivial
  | ok r =>
    obtain ⟨rfl, rfl⟩ := Tx.read_ok.1 (attempt_ok hs)
    exact fun x hx => ⟨hi.inv.keyed hx, hi.inv.stored hx⟩

theorem commitMessage_safe {input : SendInput} {contact : ContactIdentifiers} {address : Text}
    {verified : Option VerifiedBundle} {K : Ledger → Prop} : (outboxes rt dev record s₀).Safe
      (Ended fun out w => Holding input out.1 w ∧
        (out.2 = false → out.1.contentHash = contentHash rt input)) K
      (perform (.commitMessage input contact address verified)) := by
  refine safe_perform (fun a => ?_) fun v w a s hi _ _ hs => ?_
  · cases a with
    | error e => exact .true
    | ok out => exact fun w w' hi hi' hg h => ⟨Holding.stable w w' hi hi' hg h.1, h.2⟩
  have hlog := hi.unsending (c := .commitMessage input contact address verified) trivial hs
  refine ⟨hlog, ?_⟩
  cases a with
  | error e => trivial
  | ok out =>
    obtain ⟨r, existed⟩ := out
    obtain ⟨rfl, hr, rfl⟩ | ⟨rfl, ⟨hc, rfl⟩⟩ := commitMessage_ok (attempt_ok hs)
    · exact ⟨⟨hi.inv.keyed hr, hi.inv.stored hr⟩, fun h => by cases h⟩
    · have hget : s.outbox.get input.messageId = some hc.record := by
        have hafter := congrArg (fun s => s.outbox.get input.messageId) hc.after
        exact hafter.trans (SortedMap.get_insert_self ..)
      exact ⟨⟨rfl, hlog.1.inv.stored hget⟩, fun _ => rfl⟩

theorem sendTo_safe {input : SendInput} {contact : ContactIdentifiers} {address : Text}
    {K : Ledger → Prop} : (outboxes rt dev record s₀).Safe
      (Ended fun a w => Sent rt input a w.store) K (sendTo rt input contact address) := by
  have hclaim : ∀ c : ClientCall, c.ofClaim → Unsending c := by
    intro c hc
    cases c <;> trivial
  refine (unsending_safe (Program.Only.perform (P := Unsending)
    (c := .claimIdentifier contact address) trivial)).bind (fun claimId => ?_) fun _ _ _ _ => trivial
  refine (unsending_safe (claimIfNeeded_only.mono hclaim)).bind (fun claimed => ?_)
    fun _ _ _ _ => trivial
  refine commitMessage_safe.bind (fun out => ?_) fun _ _ _ _ => trivial
  have hback : ∀ {a : Receipt}, (outboxes rt dev record s₀).Safe
      (Ended fun a w => Sent rt input a w.store) (fun w => Sent rt input a w.store)
      (pure { a with claimReplaced := claimed.any (·.2) } : Messenger Receipt) :=
    fun w _ h => h
  split_ifs with he
  · exact (settle_own.weaken fun w _ h => h.1).bind (fun a => hback) fun _ _ _ _ => trivial
  · have hnew := Contract.Safe.assume fun hh => @deliver_own rt dev record s₀ input out.1 hh
    exact (hnew.weaken fun w _ h => ⟨h.1, h.2 (Bool.eq_false_iff.2 he)⟩).bind (fun a => hback)
      fun _ _ _ _ => trivial

theorem send_safe {input : SendInput} {K : Ledger → Prop} : (outboxes rt dev record s₀).Safe
    (Ended fun a w => Sent rt input a w.store) K (send rt input) := by
  unfold send
  split_ifs
  · refine Contract.Safe.recover (M := Ended fun a w => Sent rt input a w.store) ?_
      (fun _ _ _ h => h) fun _ _ _ _ => trivial
    refine readOutbox_safe.bind (fun r => ?_) fun _ _ _ _ => trivial
    cases r with
    | some r => exact settle_own.weaken fun w _ h => h r rfl
    | none =>
      refine (unsending_safe (Program.Only.perform (P := Unsending) (c := .listContacts)
        trivial)).bind (fun contacts => ?_) fun _ _ _ _ => trivial
      dsimp only
      split
      · exact fun _ _ _ => trivial
      · refine (unsending_safe (Program.Only.perform (P := Unsending) (c := .hasPublication)
          trivial)).bind (fun published => ?_) fun _ _ _ _ => trivial
        split_ifs
        · exact fun _ _ _ => trivial
        · split
          · exact fun _ _ _ => trivial
          · exact sendTo_safe
  · exact fun _ _ _ => trivial

/-- What the outcome of a command says of the outbox. -/
def SentOutcome (rt : Runtime) : Outcome → Ledger → Prop
  | .sent input a, w => Sent rt input a w.store
  | _, _ => True

theorem Job.sends (j : Job) : (outboxes rt dev record s₀).Safe (Ended (SentOutcome rt))
    (fun _ => True) (j.program rt dev) := by
  have hpoll : ∀ c : ClientCall, c.ofPoll → Unsending c := by
    intro c hc
    cases c <;> first | trivial | (rcases hc with h | h | h <;> cases h)
  have hpublish : ∀ c : ClientCall, c.ofPublish → Unsending c := by
    intro c hc
    cases c <;> trivial
  have himport : ∀ c : ClientCall, c.ofImport → Unsending c := by
    intro c hc
    cases c <;> trivial
  cases j with
  | poll =>
    exact (unsending_safe (poll_only.mono hpoll)).bind (fun _ _ _ _ => trivial)
      fun _ _ _ _ => trivial
  | retryPendingAcks =>
    exact (unsending_safe (retryPendingAcks_only.mono hpoll)).bind (fun _ _ _ _ => trivial)
      fun _ _ _ _ => trivial
  | send input => exact send_safe.bind (fun _ _ _ h => h) fun _ _ _ _ => trivial
  | retryPending => exact retryPending_safe.bind (fun _ _ _ _ => trivial) fun _ _ _ _ => trivial
  | publish =>
    exact (unsending_safe (publish_only.mono hpublish)).bind (fun _ _ _ _ => trivial)
      fun _ _ _ _ => trivial
  | importContact card =>
    exact (unsending_safe (importContactCard_only.mono himport)).bind (fun _ _ _ _ => trivial)
      fun _ _ _ _ => trivial

theorem ClientStore.Initial.outboxLog (h : s₀.Initial) : OutboxLog rt s₀ ⟨s₀, []⟩ := by
  refine ⟨rfl, ⟨fun hk => ?_, fun hk => ?_, fun hk => ?_⟩, fun hk => ?_, fun hm => ?_, .nil⟩
  · change s₀.outbox.get _ = _ at hk
    rw [h.outbox] at hk
    cases hk
  · change s₀.history.get _ = _ at hk
    rw [h.history] at hk
    cases hk
  · change s₀.history.get _ = _ at hk
    rw [h.history] at hk
    cases hk
  · change s₀.outbox.get _ = _ at hk
    rw [h.outbox] at hk
    cases hk
  · cases hm

/-! ## Another content -/

/-- The record is of an input with this id, and another recipient or text. -/
def OtherContent (rt : Runtime) (input : SendInput) (r : Outbox) : Prop :=
  ∃ first : SendInput, first.messageId = input.messageId ∧ first ≠ input ∧
    r.contentHash = contentHash rt first

/-- The answer shows a record with another content under the id of the input. -/
def ShowsOther (rt : Runtime) (input : SendInput) : (c : ClientCall) → Except Failure c.Answer → Prop
  | .readOutbox _, r => ∃ x, r = .ok (some x) ∧ OtherContent rt input x
  | .commitMessage _ _ _ _, r => ∃ x, r = .ok (x, true) ∧ OtherContent rt input x
  | _, _ => False

/-- The answer shows a record as the one of the input. -/
def ShowsOwn (rt : Runtime) (input : SendInput) (x : Outbox) :
    (c : ClientCall) → Except Failure c.Answer → Prop
  | .readOutbox id, r => id = input.messageId ∧ r = .ok (some x) ∧
      x.contentHash = contentHash rt input
  | .commitMessage input' _ _ _, r => input' = input ∧ (r = .ok (x, false) ∨
      r = .ok (x, true) ∧ x.contentHash = contentHash rt input)
  | _, _ => False

def messageIdConflict : Failure := .outbound "MESSAGE_ID_CONFLICT".toList

theorem settle_other {input : SendInput} {x : Outbox} (hinj : Function.Injective (contentHash rt))
    (h : OtherContent rt input x) : settle x (contentHash rt input) = throw messageIdConflict := by
  obtain ⟨first, -, hne, hx⟩ := h
  refine if_pos fun heq => hne (hinj ?_)
  rw [← hx, heq]

theorem shows_nothing {α : Type} {input : SendInput} {p : Messenger α} {r : Except Failure α}
    (h : p.Only fun c => ∀ r, ¬ ShowsOther rt input c r) : p.Ends (ShowsOther rt input) r :=
  h.ends

/-- **A send that is shown another content under its id ends there**, with a conflict. -/
theorem send_ends (hinj : Function.Injective (contentHash rt)) (input : SendInput) :
    (send rt input).Ends (ShowsOther rt input) (.error messageIdConflict) := by
  have hdelivery : ∀ c : ClientCall, c.ofDelivery → ∀ r, ¬ ShowsOther rt input c r := by
    intro c hc r
    cases c <;> first | exact hc.elim | exact id
  have hclaim : ∀ c : ClientCall, c.ofClaim → ∀ r, ¬ ShowsOther rt input c r := by
    intro c hc r
    cases c <;> first | exact hc.elim | exact id
  have hsettle : ∀ {x : Outbox}, (settle x (contentHash rt input)).Ends (ShowsOther rt input)
      (.error messageIdConflict) := (settle_only.mono hdelivery).ends
  have hcall : ∀ {c : ClientCall}, (∀ r, ¬ ShowsOther rt input c r) →
      (perform c).Ends (ShowsOther rt input) (.error messageIdConflict) :=
    fun h => (Program.Only.perform (P := fun c => ∀ r, ¬ ShowsOther rt input c r) h).ends
  have hto : ∀ contact address, (sendTo rt input contact address).Ends (ShowsOther rt input)
      (.error messageIdConflict) := by
    intro contact address
    refine (hcall fun _ => id).bind fun claimId => ?_
    refine (claimIfNeeded_only.mono hclaim).ends.bind fun claimed => ?_
    refine fun r => ⟨fun hr => ?_, ?_⟩
    · obtain ⟨x, rfl, hx⟩ := hr
      change (settle x (contentHash rt input) >>= fun delivered => (pure _ : Messenger Receipt)) = _
      rw [settle_other hinj hx]
      rfl
    · cases r with
      | error e => trivial
      | ok out =>
        change Program.Ends _ _ (if out.2 = true then _ else _ : Messenger Receipt)
        split_ifs
        · exact hsettle.bind fun _ => trivial
        · exact (deliver_only.mono hdelivery).ends.bind fun _ => trivial
  unfold send
  split_ifs
  · refine Program.Ends.recover (e := messageIdConflict) ?_ rfl fun _ => trivial
    refine fun r => ⟨fun hr => ?_, ?_⟩
    · obtain ⟨x, rfl, hx⟩ := hr
      exact settle_other hinj hx
    · cases r with
      | error e => trivial
      | ok x =>
        cases x with
        | some x => exact hsettle
        | none =>
          refine (hcall (c := .listContacts) fun _ => id).bind fun contacts => ?_
          dsimp only
          split
          · trivial
          · refine (hcall (c := .hasPublication) fun _ => id).bind fun published => ?_
            split_ifs
            · trivial
            · split
              · trivial
              · exact hto _ _
  · trivial

/-- A delivery marks only the record it delivers. -/
theorem deliver_marks {x y : Outbox} :
    (deliver x).Only fun c => c = .setDelivered y → x = y := by
  unfold deliver
  split_ifs
  · trivial
  · refine ⟨fun h => (by cases h), fun r => ?_⟩
    cases r with
    | error e => trivial
    | ok u =>
      refine ⟨fun h => (by cases h), fun r => ?_⟩
      cases r with
      | error e => trivial
      | ok u =>
        refine ⟨fun h => (by cases h; rfl), fun r => ?_⟩
        cases r <;> trivial

theorem settle_marks {x y : Outbox} {hash : Text} : (settle x hash).Only fun c =>
    c = .setDelivered y → x = y ∧ x.contentHash = hash := by
  unfold settle
  split_ifs with hh
  · exact only_throw
  · exact deliver_marks.mono fun c h hc => ⟨h hc, not_not.1 hh⟩

/-- **A send marks only a record that it was shown as its own.** -/
theorem send_asks (input : SendInput) (x : Outbox) :
    (send rt input).Asks (ShowsOwn rt input x) (· = .setDelivered x) := by
  have hclaim : ∀ c : ClientCall, c.ofClaim → ¬ c = .setDelivered x := by
    rintro c hc rfl
    exact hc
  have hcall : ∀ {c : ClientCall}, ¬ c = .setDelivered x →
      (perform c).Asks (ShowsOwn rt input x) (· = .setDelivered x) :=
    fun h => (Program.Only.perform (P := fun c => ¬ c = ClientCall.setDelivered x) h).asks
  have hto : ∀ contact address, (sendTo rt input contact address).Asks (ShowsOwn rt input x)
      (· = .setDelivered x) := by
    intro contact address
    refine (hcall fun h => by cases h).bind fun claimId => ?_
    refine (claimIfNeeded_only.mono hclaim).asks.bind fun claimed => ?_
    refine ⟨fun h => (by cases h), fun r hr => ?_⟩
    cases r with
    | error e => trivial
    | ok out =>
      obtain ⟨y, existed⟩ := out
      change Program.Asks _ _ (if existed = true then _ else _ : Messenger Receipt)
      cases existed with
      | true =>
        refine (settle_marks (y := x)).mono (fun c h hc => ?_) |>.asks.bind fun _ => trivial
        obtain ⟨rfl, hh⟩ := h hc
        exact hr ⟨rfl, Or.inr ⟨rfl, hh⟩⟩
      | false =>
        refine (deliver_marks (y := x)).mono (fun c h hc => ?_) |>.asks.bind fun _ => trivial
        obtain rfl := h hc
        exact hr ⟨rfl, Or.inl rfl⟩
  unfold send
  split_ifs
  · refine Program.Asks.recover ?_ fun _ => trivial
    refine ⟨fun h => (by cases h), fun r hr => ?_⟩
    cases r with
    | error e => trivial
    | ok y =>
      cases y with
      | some y =>
        refine (settle_marks (y := x)).mono (fun c h hc => ?_) |>.asks
        obtain ⟨rfl, hh⟩ := h hc
        exact hr ⟨rfl, rfl, hh⟩
      | none =>
        refine (hcall (c := .listContacts) fun h => by cases h).bind fun contacts => ?_
        dsimp only
        split
        · trivial
        · refine (hcall (c := .hasPublication) fun h => by cases h).bind fun published => ?_
          split_ifs
          · trivial
          · split
            · trivial
            · exact hto _ _
  · trivial

/-- The answer shows a record. -/
def Shown (x : Outbox) : (c : ClientCall) → Except Failure c.Answer → Prop
  | .readOutbox _, r => r = .ok (some x)
  | .commitMessage _ _ _ _, r => ∃ existed, r = .ok (x, existed)
  | .pendingOutbox, r => ∃ records, r = .ok records ∧ x ∈ records
  | _, _ => False

theorem deliverAll_marks {y : Outbox} : ∀ {records : List Outbox},
    (deliverAll records).Only fun c => c = .setDelivered y → y ∈ records
  | [] => trivial
  | x :: records => by
    refine ((deliver_marks (x := x) (y := y)).mono fun c h hc => ?_).bind fun _ =>
      (deliverAll_marks.mono fun c h hc => List.mem_cons_of_mem x (h hc)).bind fun _ => trivial
    rw [h hc]
    exact List.mem_cons_self

theorem retryPending_asks (x : Outbox) :
    retryPending.Asks (Shown x) (· = .setDelivered x) := by
  refine Program.Asks.recover ⟨fun h => (by cases h), fun r hr => ?_⟩ fun e => trivial
  cases r with
  | error e => trivial
  | ok records =>
    refine (deliverAll_marks (y := x)).mono (fun c h hc => ?_) |>.asks
    exact hr ⟨records, rfl, h hc⟩

/-- **Every command marks only records that it was shown.** -/
theorem Job.asks (j : Job) (x : Outbox) :
    (j.program rt dev).Asks (Shown x) (· = .setDelivered x) := by
  have hother : ∀ {α : Type} {p : Messenger α} {P : ClientCall → Prop}, p.Only P →
      ¬ P (.setDelivered x) → p.Asks (Shown x) (· = .setDelivered x) := by
    intro α p P h hno
    have hnever : p.Only fun c => ¬ c = ClientCall.setDelivered x :=
      h.mono fun c hc he => hno (he ▸ hc)
    exact hnever.asks
  cases j with
  | poll => exact (hother poll_only (by rintro (h | h | h) <;> cases h)).bind fun _ => trivial
  | retryPendingAcks =>
    exact (hother retryPendingAcks_only (by rintro (h | h | h) <;> cases h)).bind fun _ => trivial
  | send input =>
    refine ((send_asks input x).mono fun c r h => ?_).bind fun _ => trivial
    cases c with
    | readOutbox id => exact h.2.1
    | commitMessage input' contact address verified =>
      obtain ⟨-, h | ⟨h, -⟩⟩ := h
      · exact ⟨false, h⟩
      · exact ⟨true, h⟩
    | _ => exact h.elim
  | retryPending => exact (retryPending_asks x).bind fun _ => trivial
  | publish => exact (hother publish_only id).bind fun _ => trivial
  | importContact card => exact (hother importContactCard_only id).bind fun _ => trivial

/-- A send commits only its own input. -/
theorem send_commits (input : SendInput) : (send rt input).Only fun c => c.ofSend ∧
    ∀ input' contact address verified, c = .commitMessage input' contact address verified →
      input' = input := by
  have hdelivery : ∀ c : ClientCall, c.ofDelivery → c.ofSend ∧ ∀ input' contact address verified,
      c = .commitMessage input' contact address verified → input' = input := by
    refine fun c hc => ⟨Or.inl hc, ?_⟩
    rintro input' contact address verified rfl
    exact hc.elim
  have hclaim : ∀ c : ClientCall, c.ofClaim → c.ofSend ∧ ∀ input' contact address verified,
      c = .commitMessage input' contact address verified → input' = input := by
    refine fun c hc => ⟨Or.inr (Or.inl hc), ?_⟩
    rintro input' contact address verified rfl
    exact hc.elim
  have hcall : ∀ {c : ClientCall}, (c.ofSend ∧ ∀ input' contact address verified,
      c = .commitMessage input' contact address verified → input' = input) →
      (perform c).Only (fun c => c.ofSend ∧ ∀ input' contact address verified,
        c = .commitMessage input' contact address verified → input' = input) :=
    fun h => ⟨h, fun _ => trivial⟩
  unfold send
  split_ifs
  · refine serial_only ((hcall ⟨Or.inr (Or.inr trivial), fun _ _ _ _ h => by cases h⟩).bind
      fun x => ?_)
    split
    · exact settle_only.mono hdelivery
    · refine (hcall ⟨Or.inr (Or.inr trivial), fun _ _ _ _ h => by cases h⟩).bind fun contacts => ?_
      split
      · exact only_throw
      · refine (hcall ⟨Or.inr (Or.inr trivial), fun _ _ _ _ h => by cases h⟩).bind
          fun published => ?_
        split_ifs
        · exact only_throw
        split
        · exact only_throw
        refine (hcall ⟨Or.inr (Or.inr trivial), fun _ _ _ _ h => by cases h⟩).bind fun claimId => ?_
        refine (claimIfNeeded_only.mono hclaim).bind fun claimed => ?_
        refine (hcall ⟨Or.inr (Or.inr trivial), fun _ _ _ _ h => by cases h; rfl⟩).bind
          fun out => ?_
        split_ifs
        · exact (settle_only.mono hdelivery).bind fun _ => trivial
        · exact (deliver_only.mono hdelivery).bind fun _ => trivial
  · exact only_throw

/-- **Exactly once.** Whatever processes do over a profile, and wherever they are killed: an id
    has one record, of one content, and at most one outbound entry; every transmission under an
    id is of the same envelope; no record is lost or changed, and none is pending again once it
    was delivered; a send that returned has its message delivered.  A send that is shown another
    content under its id ends there with a conflict: it marks only what it was shown as its own,
    and its commit writes nothing where the id is used. -/
theorem outbound_exactly_once (rt : Runtime) (dev : Device) (record : DeviceRecord)
    (hinj : Function.Injective (contentHash rt)) {s₀ : ClientStore} (h₀ : s₀.Initial)
    {pool : ProfilePool} (h : ProfileRun rt dev record (fun _ _ _ => True) s₀ pool) :
    (∀ id r, pool.shared.store.outbox.get id = some r → r.envelope.messageId = id ∧
      ∃ input : SendInput, input.messageId = id ∧ r.contentHash = contentHash rt input) ∧
    (∀ k k' e e', pool.shared.store.history.get k = some e →
      pool.shared.store.history.get k' = some e' → e.direction = .outbound →
      e'.direction = .outbound → e.messageId = e'.messageId → k = k') ∧
    (∀ m ∈ pool.shared.log, ∀ m' ∈ pool.shared.log, ∀ e e', m.call = .sendEnvelope e →
      m'.call = .sendEnvelope e' → e.messageId = e'.messageId → e = e') ∧
    EachMoment (OutboxStep rt s₀) pool.shared.log ∧
    (∀ post pre, pool.shared.log = post ++ pre → OutboxKept (before s₀ pre) pool.shared.store) ∧
    (∀ i input a, pool.proc i = some (.done (.ok (.sent input a))) →
      Sent rt input a pool.shared.store) ∧
    ∀ input, (send rt input).Ends (ShowsOther rt input) (.error messageIdConflict) ∧
      (∀ x, (send rt input).Asks (ShowsOwn rt input x) (· = .setDelivered x)) ∧
      (send rt input).Only fun c => c.ofSend ∧ ∀ input' contact address verified,
        c = .commitMessage input' contact address verified → input' = input := by
  obtain ⟨hok, -⟩ := Contract.Ok.run (R := outboxes rt dev record s₀) (T := fun _ _ => True)
    (fun _ _ h => h) Job.sends (fun _ => trivial) (fun _ _ _ _ _ _ _ => trivial) h
    (.idle h₀.outboxLog)
  obtain ⟨hstore, hinv, hcontent, hsent, hstep⟩ := hok.inv
  refine ⟨fun id r hr => ⟨hinv.keyed hr, hcontent hr⟩,
    fun k k' e e' hk hk' hd hd' => hinv.unique hk hk' hd hd', ?_, hstep, fun post pre hsplit => ?_,
    fun i input a hp => ?_, fun input => ⟨send_ends hinj input, send_asks input,
      send_commits input⟩⟩
  · intro m hm m' hm' e e' hcall hcall' hid
    obtain ⟨r, hr, rfl⟩ := hsent hm hcall
    obtain ⟨r', hr', rfl⟩ := hsent hm' hcall'
    rw [hid, hr'] at hr
    cases hr
    rfl
  · have heach : EachMoment (fun pre m => OutboxKept (before s₀ pre) m.store) (post ++ pre) := by
      rw [← hsplit]
      exact fun post m pre hs => (hstep post m pre hs).kept
    rw [hstore, hsplit]
    exact heach.between .refl fun _ _ _ => .trans
  · obtain ⟨K, -, hk, hsafe⟩ := hok.safe i _ hp
    exact hsafe _ hok.inv hk

/-- A process that has sent a message. -/
def hasSent (input : SendInput) : Option (Messenger Outcome) → Bool
  | some (.done (.ok (.sent sent _))) => sent = input
  | _ => false

/-- A process that has failed. -/
def hasFailed (e : Failure) : Option (Messenger Outcome) → Bool
  | some (.done (.error failure)) => failure = e
  | _ => false

theorem eq_of_hasSent {input : SendInput} {p : Option (Messenger Outcome)}
    (h : hasSent input p = true) : ∃ a, p = some (.done (.ok (.sent input a))) := by
  unfold hasSent at h
  split at h
  next a => exact ⟨a, by rw [of_decide_eq_true h]⟩
  next => cases h

theorem eq_of_hasFailed {e : Failure} {p : Option (Messenger Outcome)}
    (h : hasFailed e p = true) : p = some (.done (.error e)) := by
  unfold hasFailed at h
  split at h
  · rw [of_decide_eq_true h]
  · cases h

/-- A first message is sent, and another text under its id: the second send is refused. -/
theorem outbound_exactly_once_conflict : ∃ pool,
    ProfileRun plainRuntime plainDevice plainRecord (fun _ _ _ => True) emptyStore pool ∧
    Program.result ((pool.proc 1).map fun p => (p, ())) = some (.error messageIdConflict) ∧
    (∃ a, pool.proc 0 = some (.done (.ok (.sent (plainInput ['h']) a))) ∧
      Sent plainRuntime (plainInput ['h']) a pool.shared.store) ∧
    EachMoment (OutboxStep plainRuntime emptyStore) pool.shared.log := by
  let o := replay (Pool.step (Ledger.perform plainRuntime plainDevice plainRecord)
    (Job.program plainRuntime plainDevice)) (Pool.Meets fun _ _ _ => True)
    (firstImport 0 ++ firstPublish 0 ++ firstSend 0 (plainInput ['h']) ++
      [.start 1 (.send (plainInput ['i'])), .step 1 (plainly 5 .done)])
    (⟨⟨emptyStore, []⟩, fun _ => none⟩ : ProfilePool)
  have ho : o.elim false (fun pool =>
      hasSent (plainInput ['h']) (pool.proc 0) && hasFailed messageIdConflict (pool.proc 1)) =
      true := by decide +kernel
  obtain ⟨pool, hpool⟩ : ∃ pool, o = some pool := by
    cases h : o with
    | none => rw [h] at ho; cases ho
    | some pool => exact ⟨pool, rfl⟩
  have hrun := Run.of_replay hpool
  rw [hpool, Option.elim_some, Bool.and_eq_true] at ho
  obtain ⟨hfirst, hsecond⟩ := ho
  obtain ⟨-, -, -, hstep, -, hsent, -⟩ := outbound_exactly_once plainRuntime plainDevice plainRecord
    plainRuntime_hash emptyStore_initial hrun
  refine ⟨pool, hrun, ?_, ?_, hstep⟩
  · rw [eq_of_hasFailed hsecond]
    rfl
  · obtain ⟨a, ha⟩ := eq_of_hasSent hfirst
    exact ⟨a, ha, hsent 0 _ a ha⟩

end Echolet
