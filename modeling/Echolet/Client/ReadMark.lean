/-
  The read mark of a device never passes an envelope that was not judged.

  Every position the device uses (cursors, reported positions, the re-walk record, its mark
  in the relay, requests on their way) is `Known`: every live envelope up to it was in a
  page that has been fully judged.  A page handed on extends that by what it holds
  (`Vouched.page`), so the invariant `ReadInv` goes through every step, and
  `read_mark_safe` reads it off the mark.
-/
import Echolet.Client.World

namespace Echolet

namespace World

variable {cfg : RelayConfig} {dev : Device} {w w' : World} {r r' : Relay}
  {js js' : List ReceivedPage}

/-- Every live envelope of the mailbox up to `c` was in a judged page. -/
abbrev Known (dev : Device) (r : Relay) (js : List ReceivedPage) (c : ℕ) : Prop :=
  Vouched dev 0 (fun _ => True) r js c

abbrev KnownToken (dev : Device) (r : Relay) (js : List ReceivedPage) (t : Text) : Prop :=
  TokenOk dev 0 (fun _ => True) r js t

def KnownWalk (dev : Device) (r : Relay) (js : List ReceivedPage) (walk : PollWalk) : Prop :=
  (∀ t, walk.cursor = some t → KnownToken dev r js t) ∧
    ∀ t, walk.readThrough = some t → KnownToken dev r js t

def KnownClient (dev : Device) (r : Relay) (js : List ReceivedPage) : Client → Prop
  | .idle => True
  | .walking walk | .waiting walk => KnownWalk dev r js walk
  | .judging _ p => Known dev r js p.reply.start
  | .recording walk p => KnownWalk dev r js walk ∧ Known dev r js p.reply.upto

def KnownRequest (dev : Device) (r : Relay) (js : List ReceivedPage) : Request → Prop
  | .arrived req => KnownToken dev r js req.cursor ∧
    ∀ t, req.readThrough = some t → KnownToken dev r js t
  | .checked req position => KnownToken dev r js req.cursor ∧
    (req.readThrough.isSome = true → Known dev r js position)
  | .recorded req => KnownToken dev r js req.cursor
  | .resumed _ start => Known dev r js start
  | .answered reply => Known dev r js reply.start
  | _ => True

/-- The mark the relay stores for the device, if any, is known. -/
def KnownMark (dev : Device) (r : Relay) (js : List ReceivedPage) : Prop :=
  ∀ item, r.db.readMark (mailboxReadMarkKey dev.mailboxId dev.deviceId) = some item →
    Known dev r js item.value

structure ReadInv (cfg : RelayConfig) (dev : Device) (w : World) : Prop where
  base : Base cfg dev w
  mark : KnownMark dev w.relay w.judged
  rewalk : ∀ t, w.rewalk = some t → KnownToken dev w.relay w.judged (rewalkPosition t)
  clients : ∀ i, KnownClient dev w.relay w.judged (w.client i)
  requests : ∀ i, KnownRequest dev w.relay w.judged (w.request i)

/-! ## Knowledge stays -/

theorem KnownWalk.grows {walk : PollWalk} (h : KnownWalk dev r js walk) (hg : Grows r js r' js') :
    KnownWalk dev r' js' walk :=
  ⟨fun t ht => (h.1 t ht).grows hg, fun t ht => (h.2 t ht).grows hg⟩

theorem KnownClient.grows {c : Client} (h : KnownClient dev r js c) (hg : Grows r js r' js') :
    KnownClient dev r' js' c := by
  cases c with
  | idle => trivial
  | walking walk => exact KnownWalk.grows h hg
  | waiting walk => exact KnownWalk.grows h hg
  | judging walk p => exact Vouched.grows h hg
  | recording walk p => exact ⟨h.1.grows hg, h.2.grows hg⟩

theorem KnownRequest.grows {q : Request} (h : KnownRequest dev r js q)
    (hg : Grows r js r' js') : KnownRequest dev r' js' q := by
  cases q with
  | arrived req => exact ⟨h.1.grows hg, fun t ht => (h.2 t ht).grows hg⟩
  | checked req position => exact ⟨h.1.grows hg, fun hp => (h.2 hp).grows hg⟩
  | recorded req => exact TokenOk.grows h hg
  | resumed req start => exact Vouched.grows h hg
  | answered reply => exact Vouched.grows h hg
  | _ => trivial

theorem KnownMark.grows (h : KnownMark dev r js) (hg : Grows r js r' js')
    (hm : r'.db.readMark (mailboxReadMarkKey dev.mailboxId dev.deviceId) =
      r.db.readMark (mailboxReadMarkKey dev.mailboxId dev.deviceId)) : KnownMark dev r' js' := by
  intro item hit
  rw [hm] at hit
  exact (h item hit).grows hg

/-! ## The mark -/

/-- The marks of other devices stand under other keys. -/
theorem mailboxReadMarkKey_ne {m d : Text} (h : ¬ (m = dev.mailboxId ∧ d = dev.deviceId)) :
    mailboxReadMarkKey dev.mailboxId dev.deviceId ≠ mailboxReadMarkKey m d := by
  intro he
  rcases join_cases dev.colon_notMem_deviceId he.symm with ⟨rfl, rfl⟩ | ⟨x, hx, -⟩
  · exact h ⟨rfl, rfl⟩
  · exact dev.colon_notMem_mailboxId (by rw [hx]; simp)

theorem advanceReadMark_readMark (db : Db) (now : ℕ) (m d k : Text) (position : ℕ) :
    (advanceReadMark db now m d position).readMark k = db.readMark k ∨
      k = mailboxReadMarkKey m d ∧ ∃ item, item.value = position ∧
        (advanceReadMark db now m d position).readMark k = some item := by
  have hset : ∀ item : Item ℕ, Function.update db.readMark (mailboxReadMarkKey m d) (some item) k =
      db.readMark k ∨ k = mailboxReadMarkKey m d ∧
        Function.update db.readMark (mailboxReadMarkKey m d) (some item) k = some item := by
    intro item
    by_cases hk : k = mailboxReadMarkKey m d
    · right; rw [hk]; exact ⟨rfl, Function.update_self _ _ _⟩
    · left; exact Function.update_of_ne hk _ _
  unfold advanceReadMark
  cases markItem db now m d with
  | none =>
    rcases hset ⟨position, seconds (now + mailboxReadMarkTTL)⟩ with h | ⟨hk, h⟩
    · exact Or.inl h
    · exact Or.inr ⟨hk, _, rfl, h⟩
  | some item =>
    simp only
    split_ifs
    · exact Or.inl rfl
    · rcases hset ⟨position, seconds (now + mailboxReadMarkTTL)⟩ with h | ⟨hk, h⟩
      · exact Or.inl h
      · exact Or.inr ⟨hk, _, rfl, h⟩

/-- Other steps of the relay leave the mark of this device alone. -/
theorem relay_readMark {a : RelayAct} (hi : r.Inv cfg) (ho : ownMark dev a = false)
    (h : r.step cfg a = some r') :
    r'.db.readMark (mailboxReadMarkKey dev.mailboxId dev.deviceId) = r.db.readMark (mailboxReadMarkKey dev.mailboxId dev.deviceId) := by
  rcases Relay.step_cases hi.locks h with ⟨e, t, -, -, -, ⟨-, rfl⟩ | ⟨-, rfl⟩⟩ | ⟨m, id, -, rfl⟩ |
    ⟨ms, -, rfl⟩ | ⟨m, -, hs, hb, rfl⟩ | ⟨m, b, -, hb, -, rfl⟩ | ⟨m, b, -, hb, hw, rfl⟩ |
    ⟨m, d, p, rfl, rfl⟩
  · rfl
  · rfl
  · rfl
  · rfl
  · rfl
  · rfl
  · simp only [backfillFinish]
    split <;> rfl
  · have hne : mailboxReadMarkKey dev.mailboxId dev.deviceId ≠ mailboxReadMarkKey m d :=
      mailboxReadMarkKey_ne (by simpa [ownMark] using ho)
    rcases advanceReadMark_readMark r.db r.now m d _ p with h | ⟨hk, -⟩
    · exact h
    · exact absurd hk hne

theorem checkReadThrough_ok {db : Db} {req : PollRequest} {position : ℕ}
    (h : checkReadThrough db req = .ok position) {t : Text} (ht : req.readThrough = some t) :
    decodeMailboxCursor t = some position := by
  unfold checkReadThrough at h
  split_ifs at h
  · cases h
  · rw [ht] at h
    unfold decodeReadThroughShape at h
    simp only at h
    split_ifs at h
    · cases h
    · cases hd : decodeMailboxCursor t with
      | none => rw [hd] at h; cases h
      | some p =>
        rw [hd] at h
        cases hw : readThroughWithinIssued db req.recipientMailboxId (some t) p with
        | error e => simp only [bind, Except.bind, hw] at h; cases h
        | ok u => simp only [bind, Except.bind, pure, Except.pure, hw] at h; cases h; rfl

/-- A visible mark is a stored one. -/
theorem readMark_known (hm : KnownMark dev r js) (hi : r.Inv cfg) (now : ℕ) :
    Known dev r js (readMark r.db now dev.mailboxId dev.deviceId) := by
  unfold readMark
  cases h : markItem r.db now dev.mailboxId dev.deviceId with
  | none => exact .head hi
  | some item => exact hm item (Option.filter_eq_some_iff.1 h).1

/-- A poll resumes at its cursor, or at the mark. -/
theorem pollCursor_known {req : PollRequest} {now start : ℕ} (hc : KnownToken dev r js req.cursor)
    (hm : Known dev r js (readMark r.db now dev.mailboxId dev.deviceId)) (hi : r.Inv cfg)
    (hreq : req.recipientMailboxId = dev.mailboxId ∧ req.deviceId = dev.deviceId)
    (h : decodeMailboxCursor (pollCursor r.db now req) = some start) : Known dev r js start := by
  rw [pollCursor, hreq.1, hreq.2] at h
  split_ifs at h
  · simp only at h
    split_ifs at h
    · rw [decodeMailboxCursor_encode h]; exact hm
    · cases h; exact .head hi
  · exact hc start h

/-! ## The invariant -/

theorem ReadInv.init (now : ℕ) : ReadInv cfg dev (World.init now) where
  base := Base.init now
  mark _ h := by cases h
  rewalk _ h := by cases h
  clients _ := trivial
  requests _ := trivial

/-- One process made a step, the others stand where they were. -/
theorem ReadInv.proc (h : ReadInv cfg dev w) (hb : Base cfg dev w')
    (hg : Grows w.relay w.judged w'.relay w'.judged) (hm : KnownMark dev w'.relay w'.judged)
    (hr : ∀ t, w'.rewalk = some t → KnownToken dev w'.relay w'.judged (rewalkPosition t)) (i : ℕ)
    (ho : ∀ j, j ≠ i → w'.client j = w.client j ∧ w'.request j = w.request j)
    (hc : KnownClient dev w'.relay w'.judged (w'.client i))
    (hq : KnownRequest dev w'.relay w'.judged (w'.request i)) : ReadInv cfg dev w' := by
  refine ⟨hb, hm, hr, fun j => ?_, fun j => ?_⟩
  · by_cases hj : j = i
    · rw [hj]; exact hc
    · rw [(ho j hj).1]; exact (h.clients j).grows hg
  · by_cases hj : j = i
    · rw [hj]; exact hq
    · rw [(ho j hj).2]; exact (h.requests j).grows hg

/-- A step of a request inside the relay. -/
theorem serve_known {q q' : Request} (hi : r.Inv cfg) (hown : RequestOk dev r q)
    (hk : KnownRequest dev r js q) (hm : KnownMark dev r js)
    (hs : serve cfg r q = some (q', r')) (hg : Grows r js r' js) :
    KnownRequest dev r' js q' ∧ KnownMark dev r' js := by
  cases q with
  | arrived req =>
    simp only [serve, Option.some.injEq] at hs
    split at hs
    next position hp =>
      cases hs
      refine ⟨⟨hk.1, fun ht => ?_⟩, hm⟩
      obtain ⟨t, ht⟩ := Option.isSome_iff_exists.1 ht
      exact hk.2 t ht position (checkReadThrough_ok hp ht)
    next => cases hs; exact ⟨trivial, hm⟩
  | checked req position =>
    cases hs
    refine ⟨hk.1.grows hg, fun item hit => ?_⟩
    cases ht : req.readThrough with
    | none =>
      simp only [recordReadThrough, ht] at hit
      exact (hm item hit).grows hg
    | some t =>
      simp only [recordReadThrough, ht] at hit
      rcases advanceReadMark_readMark r.db r.now req.recipientMailboxId req.deviceId
          (mailboxReadMarkKey dev.mailboxId dev.deviceId) position with hsame | ⟨-, new, rfl, hset⟩
      · rw [hsame] at hit
        exact (hm item hit).grows hg
      · rw [hset] at hit
        cases hit
        exact (hk.2 (by rw [ht]; rfl)).grows hg
  | recorded req =>
    simp only [serve, Option.some.injEq] at hs
    split at hs
    next start hd =>
      cases hs
      exact ⟨pollCursor_known hk (readMark_known hm hi _) hi hown hd, hm⟩
    next => cases hs; exact ⟨trivial, hm⟩
  | resumed req start =>
    simp only [serve] at hs
    split_ifs at hs
    cases hs
    exact ⟨hk, hm⟩
  | _ => cases hs

/-- **The invariant holds after every step.** -/
theorem ReadInv.effect {a : Act} (h : ReadInv cfg dev w) (he : Effect cfg dev w a w') :
    ReadInv cfg dev w' := by
  have hb := h.base.effect he
  obtain ⟨hi, hg⟩ := he.grows h.base.relay
  have hrw : ∀ t, w.rewalk = some t → KnownToken dev w'.relay w'.judged (rewalkPosition t) :=
    fun t ht => (h.rewalk t ht).grows hg
  have hcl := fun j => (h.clients j).grows hg
  have hrq := fun j => (h.requests j).grows hg
  cases he with
  | relay ho hr =>
    exact ⟨hb, h.mark.grows hg (relay_readMark h.base.relay ho hr), hrw, hcl, hrq⟩
  | trust => exact ⟨hb, h.mark.grows hg rfl, hrw, hcl, hrq⟩
  | request =>
    refine ⟨hb, h.mark.grows hg rfl, fun t ht => ?_, hcl, hrq⟩
    cases ht
    exact TokenOk.rewalkPosition hi (.head hi)
  | @start i hc hq =>
    refine h.proc hb hg (h.mark.grows hg rfl) hrw i (fun j hj => by simp [hj]) ?_ (hrq i)
    simp only [setClient_client, if_true]
    refine ⟨fun t ht => ?_, fun t ht => by cases ht⟩
    obtain ⟨stored, hst, rfl⟩ := Option.map_eq_some_iff.1 ht
    exact hrw stored hst
  | @stop i =>
    refine h.proc hb hg (h.mark.grows hg rfl) hrw i (fun j hj => by simp [hj]) ?_ (hrq i)
    simp only [setClient_client, if_true]
    trivial
  | @send i walk hc hq =>
    have hk := hcl i
    rw [hc] at hk
    refine h.proc hb hg (h.mark.grows hg rfl) hrw i (fun j hj => by simp [hj]) ?_ ?_
    · simp only [setRequest_client, setClient_client, if_true]
      exact hk
    · simp only [setRequest_request, if_true]
      refine ⟨fun c hcur => ?_, hk.2⟩
      cases hw : walk.cursor with
      | none =>
        simp only [PollWalk.request, hw, Option.getD_none] at hcur
        cases hcur
        exact .head hi
      | some t =>
        simp only [PollWalk.request, hw, Option.getD_some] at hcur
        exact hk.1 t hw c hcur
  | @serve i q r hs =>
    obtain ⟨hk, hm⟩ := serve_known h.base.relay (h.base.procs i).request (h.requests i) h.mark hs hg
    refine h.proc hb hg hm hrw i (fun j hj => by simp [hj]) (hcl i) ?_
    simp only [setRequest_request, if_true]
    exact hk
  | @deliver i walk reply hc hq =>
    have hk := hrq i
    rw [hq] at hk
    refine h.proc hb hg (h.mark.grows hg rfl) hrw i (fun j hj => by simp [hj]) ?_ ?_
    · simp only [setRequest_client, setClient_client, if_true]
      exact hk
    · simp only [setRequest_request, if_true]
      trivial
  | @drop i =>
    refine h.proc hb hg (h.mark.grows hg rfl) hrw i (fun j hj => by simp [hj]) (hcl i) ?_
    simp only [setRequest_request, if_true]
    trivial
  | @judge i walk p x v hc hx =>
    have hk := hcl i
    rw [hc] at hk
    refine h.proc hb hg (h.mark.grows hg rfl) hrw i (fun j hj => by simp [hj]) ?_ (hrq i)
    simp only [setClient_client, if_true]
    exact hk
  | @endPage i walk p hc hlen =>
    have hk := hcl i
    have hs := (h.base.procs i).client.later hg.later
    rw [hc] at hk hs
    have hup := Vouched.page hk hs.2.2.1 (List.mem_cons_self ..) (Nat.zero_le _)
    refine h.proc hb hg (h.mark.grows hg rfl) hrw i (fun j hj => by simp [hj]) ?_ (hrq i)
    simp only [setClient_client, if_true]
    exact ⟨⟨fun t ht => TokenOk.next hup hs.2.2.1 ht, fun t ht => TokenOk.next hup hs.2.2.1 ht⟩, hup⟩
  | @record i walk p hc =>
    have hk := hcl i
    have hs := (h.base.procs i).client.later hg.later
    rw [hc] at hk hs
    refine h.proc hb hg (h.mark.grows hg rfl) (fun t ht => ?_) i (fun j hj => by simp [hj]) ?_
      (hrq i)
    · simp only [PollWalk.record] at ht
      split at ht
      next => exact hrw t ht
      next => cases ht
      next position hpos =>
        cases ht
        exact TokenOk.rewalkPosition hi (TokenOk.rewalkPosition hi (TokenOk.next hk.2 hs.2.1 hpos))
    · simp only [setClient_client, if_true]
      split
      next walk' hnext =>
        unfold PollWalk.next at hnext
        split_ifs at hnext
        cases hnext
        exact hk.1
      next => trivial

theorem ReadInv.step {a : Act} (h : ReadInv cfg dev w) (hs : w.step cfg dev a = some w') :
    ReadInv cfg dev w' := by
  obtain ⟨w₁, he, rfl⟩ := step_effect hs
  obtain ⟨⟨hb, hp, hj⟩, hm, hr, hc, hq⟩ := h.effect he
  exact ⟨⟨hb, hp, hj⟩, hm, hr, hc, hq⟩

theorem ReadInv.run {C : World → Act → Prop} (h : ReadInv cfg dev w)
    (hr : Run (World.step cfg dev) C w w') : ReadInv cfg dev w' :=
  hr.invariant (fun _ _ _ hi _ hst => hi.step hst) h

/-- **The read mark is safe.** In every world reached from an empty store, every live envelope
    of the device's mailbox at or below its mark was in a page the device received and judged
    to the last envelope. -/
theorem read_mark_safe (now : ℕ) (w : World) (hr : Run (World.step cfg dev) Any (World.init now) w)
    (q : ℕ) (e : MailboxEnvelope) (ha : w.relay.At q e) (hm : e.recipientMailboxId = dev.mailboxId)
    (hq : q ≤ readMark w.relay.db w.relay.now dev.mailboxId dev.deviceId) :
    ∃ p ∈ w.judged, p.page.map (·.1) = p.reply.batch.items ∧ ∃ v, ((q, e), v) ∈ p.page := by
  have h : ReadInv cfg dev w := (ReadInv.init now).run hr
  have hknown := readMark_known h.mark h.base.relay w.relay.now
  obtain ⟨p, hp, -, hmem⟩ := hknown.offered q e ha hm trivial hq
  have hall := h.base.judged p hp
  rw [← hall] at hmem
  obtain ⟨⟨x, v⟩, hj, rfl⟩ := List.mem_map.1 hmem
  exact ⟨p, hp, hall, v, hj⟩

theorem colon_notMem_nilUUID : ':' ∉ nilUUID := by decide

/-- A device that reads one envelope a page. -/
def phone : Device := ⟨['i'], nilUUID, ['m'], 1, by decide, colon_notMem_nilUUID⟩

/-- Two notes arrive; a poll judges the first and asks for the page after it. -/
def firstNoteJudged : List Act :=
  (openMailbox ['m'] ++ [RelayAct.save (note ['m'] ['a'] '1') 0,
    .save (note ['m'] ['a'] '2') 0]).map .relay ++
  [.start 0, .send 0, .serve 0, .serve 0, .serve 0, .serve 0, .deliver 0,
    .judge 0 (.rejected "CONTACT_NOT_TRUSTED".toList), .endPage 0, .record 0, .send 0, .serve 0,
    .serve 0]

def afterFirstNote : World :=
  (replay (World.step defaultConfig phone) Any firstNoteJudged (World.init 0)).get
    (by decide +kernel)

theorem read_mark_safe_first : ∃ p ∈ afterFirstNote.judged,
    p.page.map (·.1) = p.reply.batch.items ∧ ∃ v, ((1, note ['m'] ['a'] '1'), v) ∈ p.page :=
  read_mark_safe 0 afterFirstNote (Run.of_replay (Option.some_get _).symm) 1
    (note ['m'] ['a'] '1') (by decide +kernel) rfl (by decide +kernel)

end World

end Echolet
