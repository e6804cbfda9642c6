/-
  Acknowledgements in chunks.

  `ackPending` sends what is pending in chunks of a hundred ids; the relay bounds the ids of one
  request by its mailbox batch, which is set on its own.

  * `Chunked` follows one `ackPending` under any answers: what was requested and what is left make
    up what was pending, so an id is in one chunk;
  * `RemovalLog` follows all processes over a profile: an id leaves the pending ones only with a
    chunk that was acknowledged.
-/
import Echolet.Client.Inbound
import Echolet.Relay.MailboxHandler

namespace Echolet

variable {rt : Runtime} {dev : Device} {record : DeviceRecord} {s s' s₀ : ClientStore}

/-! ## The requests of one `ackPending` -/

abbrev ClientExchange := Program.Exchange ClientCall ClientCall.Answer Failure

/-- The ids of a request for acknowledgements. -/
def ackedIds : (c : ClientCall) × Except Failure c.Answer → Option (List Text)
  | ⟨.ackMailbox ids, _⟩ => some ids
  | _ => none

/-- The chunks that were requested, in their order. -/
def requested (l : ClientExchange) : List (List Text) := (l.filterMap ackedIds).reverse

/-- A prefix of `ackPending` over a store: any answers to its requests, and any place to stop. -/
def AckRun (s : ClientStore) (l : ClientExchange) (p : Messenger ℕ) : Prop :=
  ∃ v vs, v .pendingAcks = .ok (s.pendingAck.entries.map (·.1)) ∧
    ackPending.steps Program.recorded (v :: vs) [] = some (p, l)

/-- The relay refuses a request for the number of its ids. -/
def RefusedForCount (cfg : RelayConfig) (ids : List Text) : Prop :=
  checkAcked cfg ids =
    .error ⟨400, "INVALID_SCHEMA", "envelope_ids exceeds the maximum mailbox batch"⟩

theorem refusedForCount_iff {cfg : RelayConfig} {ids : List Text} :
    RefusedForCount cfg ids ↔ maxAckedEnvelopeIDs cfg < ids.length := by
  unfold RefusedForCount checkAcked
  split_ifs with h h'
  · exact ⟨fun _ => h, fun _ => rfl⟩
  · refine ⟨fun he => ?_, fun hlt => absurd hlt h⟩
    exact absurd (congrArg Refusal.message (Except.error.inj he)) (by decide)
  · refine ⟨fun he => ?_, fun hlt => absurd hlt h⟩
    cases he

/-- What was requested of the ids, in chunks of a hundred, and what is left of them. -/
structure Chunked (ids rest : List Text) (l : ClientExchange) : Prop where
  split : (requested l).flatten ++ rest = ids
  sizes : ∀ chunk ∈ requested l, chunk.length ≤ min 100 ids.length

/-- Ids are forgotten after they were acknowledged, as one chunk. -/
def ForgetsAcked (l : ClientExchange) : Prop :=
  ∀ post chunk r pre, l = post ++ ⟨.forgetAcks chunk, r⟩ :: pre →
    ⟨.ackMailbox chunk, .ok ()⟩ ∈ pre

variable {ids rest : List Text} {l : ClientExchange}

theorem Chunked.other (h : Chunked ids rest l) {c : ClientCall} {r : Except Failure c.Answer}
    (hc : ackedIds ⟨c, r⟩ = none) : Chunked ids rest (⟨c, r⟩ :: l) := by
  have hreq : requested (⟨c, r⟩ :: l) = requested l := by
    rw [requested, List.filterMap_cons_none hc]
    rfl
  exact ⟨by rw [hreq]; exact h.split, by rw [hreq]; exact h.sizes⟩

/-- The next chunk. -/
theorem Chunked.chunk (h : Chunked ids rest l) {r : Except Failure Unit} :
    Chunked ids (rest.drop 100) (⟨.ackMailbox (rest.take 100), r⟩ :: l) := by
  have hreq : requested (⟨.ackMailbox (rest.take 100), r⟩ :: l) =
      requested l ++ [rest.take 100] := by
    simp [requested, ackedIds]
  have hrest : rest.length ≤ ids.length := by
    rw [← h.split, List.length_append]
    exact Nat.le_add_left _ _
  refine ⟨?_, fun chunk hchunk => ?_⟩
  · rw [hreq, List.flatten_append, List.flatten_singleton, List.append_assoc,
      List.take_append_drop]
    exact h.split
  · rw [hreq, List.mem_append, List.mem_singleton] at hchunk
    obtain hold | rfl := hchunk
    · exact h.sizes chunk hold
    · rw [List.length_take]
      omega

theorem ForgetsAcked.cons (h : ForgetsAcked l) {c : ClientCall} {r : Except Failure c.Answer}
    (hc : ∀ chunk, c = .forgetAcks chunk → ⟨.ackMailbox chunk, .ok ()⟩ ∈ l) :
    ForgetsAcked (⟨c, r⟩ :: l) := by
  intro post chunk r' pre hl
  cases post with
  | nil =>
    obtain ⟨hhead, rfl⟩ := List.cons.inj hl
    exact hc chunk (congrArg Sigma.fst hhead)
  | cons _ post => exact h post chunk r' pre (List.cons.inj hl).2

/-- One `ackPending` by itself, with any answers. -/
abbrev acking (ids : List Text) :
    Contract ClientCall ClientCall.Answer Failure ((c : ClientCall) → Except Failure c.Answer)
      ClientExchange :=
  ⟨Program.recorded, fun _ _ _ => True, fun l => (∃ rest, Chunked ids rest l) ∧ ForgetsAcked l,
    fun _ _ => True, fun l l' => l' = l⟩

theorem acking_perform {c : ClientCall} {K : ClientExchange → Prop}
    {Q : Except Failure c.Answer → ClientExchange → Prop}
    (h : ∀ r l, ForgetsAcked l → K l → ((∃ rest, Chunked ids rest (⟨c, r⟩ :: l)) ∧
      ForgetsAcked (⟨c, r⟩ :: l)) ∧ Q r (⟨c, r⟩ :: l)) : (acking ids).Safe Q K (perform c) := by
  refine Contract.Safe.perform (fun r l l' _ _ hl hq => ?_) fun v l r l' hi hk _ hx => ?_
  · rw [show l' = l from hl]
    exact hq
  · cases hx
    obtain ⟨hinv, hq⟩ := h (v c) l hi.2 hk
    exact ⟨⟨hinv, trivial⟩, hq⟩

/-- **The loop** sends what is left of the ids. -/
theorem ackChunks_sends : ∀ {n : ℕ} {rest : List Text}, rest.length ≤ n →
    (acking ids).Safe (fun r l => r = .ok () → Chunked ids [] l) (Chunked ids rest) (ackChunks n rest)
  | 0, rest, hn => by
    intro l _ hk _
    rwa [List.length_eq_zero_iff.1 (Nat.le_zero.1 hn)] at hk
  | n + 1, rest, hn => by
    unfold ackChunks
    split_ifs with hrest
    · rintro l _ hk -
      rwa [hrest] at hk
    have hauth : (acking ids).Safe (fun _ => Chunked ids rest) (Chunked ids rest)
        (perform .mailboxAuthorization) :=
      acking_perform fun r l hf hk =>
        ⟨⟨⟨rest, hk.other rfl⟩, hf.cons fun _ hc => (by cases hc)⟩, hk.other rfl⟩
    have hack : (acking ids).Safe (fun r l => Chunked ids (rest.drop 100) l ∧
          (r = .ok () → ⟨.ackMailbox (rest.take 100), .ok ()⟩ ∈ l)) (Chunked ids rest)
        (perform (.ackMailbox (rest.take 100))) := by
      refine acking_perform fun r l hf hk => ?_
      refine ⟨⟨⟨_, hk.chunk⟩, hf.cons fun _ hc => (by cases hc)⟩, hk.chunk, fun hr => ?_⟩
      rw [hr]
      exact List.mem_cons_self ..
    have hforget : (acking ids).Safe (fun _ => Chunked ids (rest.drop 100))
        (fun l => Chunked ids (rest.drop 100) l ∧ ⟨.ackMailbox (rest.take 100), .ok ()⟩ ∈ l)
        (perform (.forgetAcks (rest.take 100))) := by
      refine acking_perform fun r l hf hk => ?_
      have hsent := hk.1.other (c := .forgetAcks (rest.take 100)) (r := r) rfl
      refine ⟨⟨⟨_, hsent⟩, hf.cons fun chunk hc => ?_⟩, hsent⟩
      cases hc
      exact hk.2
    have hdrop : (rest.drop 100).length ≤ n := by
      have := List.length_pos_iff.2 hrest
      rw [List.length_drop]
      omega
    refine hauth.bind (fun _ => ?_) fun _ _ _ _ h => by cases h
    refine hack.bind (fun _ => ?_) fun _ _ _ _ h => by cases h
    refine (hforget.weaken fun l _ h => ⟨h.1, h.2 rfl⟩).bind (fun _ => ?_)
      fun _ _ _ _ h => by cases h
    exact ackChunks_sends hdrop

/-- One `ackPending`, wherever it stops. -/
theorem AckRun.sent {p : Messenger ℕ} (h : AckRun s l p) :
    let ids := s.pendingAck.entries.map (·.1)
    ((∃ rest, Chunked ids rest l) ∧ ForgetsAcked l) ∧ ∀ n, p = .done (.ok n) → Chunked ids [] l := by
  intro ids
  obtain ⟨v, vs, hv, hs⟩ := h
  change (((Program.done (v .pendingAcks) : Messenger (List Text)) >>= fun ids => do
      ackChunks ids.length ids
      return ids.length).steps Program.recorded vs [⟨.pendingAcks, v .pendingAcks⟩]) = _ at hs
  rw [hv] at hs
  have hsafe : (acking ids).Safe (fun r l => ∀ n, r = .ok n → Chunked ids [] l) (Chunked ids ids)
      (do ackChunks ids.length ids; return ids.length : Messenger ℕ) := by
    refine (ackChunks_sends le_rfl).bind (fun _ => ?_) fun _ _ _ _ _ h => by cases h
    exact fun l _ hk _ _ => hk rfl
  have hstart : Chunked ids ids [⟨.pendingAcks, .ok ids⟩] :=
    ⟨rfl, fun _ hc => absurd hc (List.not_mem_nil)⟩
  have hfirst : ForgetsAcked [⟨.pendingAcks, .ok ids⟩] :=
    ForgetsAcked.cons (fun post _ _ _ hl => by cases post <;> cases hl) fun _ hc => by cases hc
  obtain ⟨hinv, K, hk, hp⟩ := Contract.Safe.alone (fun _ _ _ => trivial) hsafe
    ⟨⟨ids, hstart⟩, hfirst⟩ hstart hs
  refine ⟨hinv, fun n hn => ?_⟩
  subst hn
  exact hp l hinv hk n rfl

/-! ## The store -/

/-- An id is pending until it is forgotten. -/
theorem Effect.forgets {v : Circumstances} {c : ClientCall} (he : Effect rt dev v s c s') {id : Text}
    (hid : s.pendingAck.get id ≠ none) (hno : s'.pendingAck.get id = none) :
    ∃ ids, c = .forgetAcks ids ∧ id ∈ ids := by
  cases he with
  | @accepted e _ a =>
    obtain ⟨contact, address, message, -, -, hr, -, rfl⟩ := a
    have hm : message.pendingAck = s.pendingAck := by
      cases hr with
      | before _ => rfl
      | now _ _ r =>
        obtain ⟨plaintext, signal, -, -, rfl⟩ := r
        rfl
    change (message.pendingAck.insert _ _).get id = none at hno
    rw [SortedMap.get_insert, hm] at hno
    split_ifs at hno
    exact absurd hno hid
  | forgotten ids =>
    refine ⟨ids, rfl, ?_⟩
    by_contra hmem
    exact hid ((get_foldl_erase.trans (if_neg hmem)).symm.trans hno)
  | committed m =>
    rw [m.after] at hno
    exact absurd hno hid
  | published _ p =>
    obtain ⟨_, _, _, rfl⟩ := p
    exact absurd hno hid
  | _ => exact absurd hno hid

/-- A chunk was acknowledged. -/
def ChunkAcked (log : List Moment) (ids : List Text) : Prop :=
  ∃ m ∈ log, m.call = .ackMailbox ids ∧ m.succeeded = true

/-- What is pending no more went with a chunk that was acknowledged before. -/
def Removal (s₀ : ClientStore) (pre : List Moment) (m : Moment) : Prop :=
  ∀ id, (before s₀ pre).pendingAck.get id ≠ none → m.store.pendingAck.get id = none →
    ∃ ids, m.call = .forgetAcks ids ∧ id ∈ ids ∧ ChunkAcked pre ids

structure RemovalLog (s₀ : ClientStore) (w : Ledger) : Prop where
  store : w.store = before s₀ w.log
  removals : EachMoment (Removal s₀) w.log

theorem RemovalLog.logged {w : Ledger} (h : RemovalLog s₀ w) {c : ClientCall} {v : Surroundings}
    {r : Except Failure c.Answer} (hp : Performed rt dev record c v w.store r s)
    (hack : ∀ ids, c = .forgetAcks ids → ChunkAcked w.log ids) :
    RemovalLog s₀ (w.logged c r s) := by
  refine ⟨rfl, h.removals.cons fun id hid hno => ?_⟩
  rw [← h.store] at hid
  obtain ⟨ids, hc, hmem⟩ := (performed_effect hp).forgets hid hno
  exact ⟨ids, hc, hmem, hack ids hc⟩

abbrev removing (rt : Runtime) (dev : Device) (record : DeviceRecord) (s₀ : ClientStore) :
    Contract ClientCall ClientCall.Answer Failure Surroundings Ledger :=
  onLedger rt dev record (fun _ _ _ => True) (RemovalLog s₀) (fun w w' => w.log <:+ w'.log)
    fun w w' => w.log <:+ w'.log

theorem ChunkAcked.stable : (removing rt dev record s₀).Stable fun w => ChunkAcked w.log ids :=
  fun _ _ _ _ hl ⟨m, hm, h⟩ => ⟨m, hl.subset hm, h⟩

/-- A chunk that was acknowledged, and then forgotten. -/
theorem ackChunks_removes : ∀ {n : ℕ} {rest : List Text} {K : Ledger → Prop},
    (removing rt dev record s₀).Safe (fun _ _ => True) K (ackChunks n rest)
  | 0, _, _ => fun _ _ _ => trivial
  | n + 1, rest, K => by
    unfold ackChunks
    split_ifs
    · exact fun _ _ _ => trivial
    have hauth : (removing rt dev record s₀).Safe (fun _ _ => True) K
        (perform .mailboxAuthorization) :=
      safe_perform (fun _ => .true) fun v w r s hi _ _ hs =>
        ⟨⟨hi.logged hs fun _ hc => (by cases hc), List.suffix_cons ..⟩, trivial⟩
    have hack : (removing rt dev record s₀).Safe
        (fun r w => r = .ok () → ChunkAcked w.log (rest.take 100)) (fun _ => True)
        (perform (.ackMailbox (rest.take 100))) := by
      refine safe_perform (fun r w w' hi hi' hl h hr => ChunkAcked.stable w w' hi hi' hl (h hr))
        fun v w r s hi _ _ hs => ?_
      refine ⟨⟨hi.logged hs fun _ hc => (by cases hc), List.suffix_cons ..⟩, ?_⟩
      rintro rfl
      exact ⟨_, List.mem_cons_self .., rfl, rfl⟩
    have hforget : (removing rt dev record s₀).Safe (fun _ _ => True)
        (fun w => ChunkAcked w.log (rest.take 100)) (perform (.forgetAcks (rest.take 100))) := by
      refine safe_perform (fun _ => .true) fun v w r s hi hk _ hs => ?_
      refine ⟨⟨hi.logged hs fun ids hc => ?_, List.suffix_cons ..⟩, trivial⟩
      cases hc
      exact hk
    refine hauth.bind (fun _ => ?_) fun _ _ _ _ => trivial
    refine hack.bind (fun _ => ?_) fun _ _ _ _ => trivial
    refine (hforget.weaken fun w _ h => h rfl).bind (fun _ => ?_) fun _ _ _ _ => trivial
    exact ackChunks_removes

theorem Job.removes (j : Job) : (removing rt dev record s₀).Safe (fun _ _ => True)
    (fun _ => True) (j.program rt dev) := by
  refine Job.settles (fun c v w r w' hc hi _ hx => ?_) (fun K => ?_) j
  · obtain ⟨s, rfl, hs⟩ := perform_logged rt dev record hx
    refine ⟨hi.logged hs fun ids he => ?_, List.suffix_cons ..⟩
    subst he
    exact absurd trivial hc
  · refine Contract.Safe.bind (M := fun _ _ => True) ?_
      (fun ids => ackChunks_removes.bind (fun _ _ _ _ => trivial) fun _ _ _ _ => trivial)
      fun _ _ _ _ => trivial
    exact safe_perform (fun _ => .true) fun v w r s hi _ _ hs =>
      ⟨⟨hi.logged hs fun _ hc => (by cases hc), List.suffix_cons ..⟩, trivial⟩

/-! ## The chunks and the relay -/

/-- An id of no repeated list is in at most one part of it. -/
theorem countP_flatten {id : Text} : ∀ {chunks : List (List Text)}, chunks.flatten.Nodup →
    chunks.countP (fun chunk => id ∈ chunk) = if id ∈ chunks.flatten then 1 else 0
  | [], _ => rfl
  | chunk :: chunks, h => by
    rw [List.flatten_cons, List.nodup_append] at h
    obtain ⟨-, htail, hdisj⟩ := h
    rw [List.countP_cons, countP_flatten htail, List.flatten_cons]
    by_cases hchunk : id ∈ chunk
    · have hother : id ∉ chunks.flatten := fun hid => hdisj id hchunk id hid rfl
      simp [hchunk, hother]
    · simp only [hchunk, decide_false, List.mem_append, false_or]
      rfl

/-- Where acknowledgements are pending, the first chunk may be requested. -/
theorem AckRun.first (h : s.pendingAck.entries ≠ []) : ∃ l p, AckRun s l p ∧
    (s.pendingAck.entries.map (·.1)).take 100 ∈ requested l := by
  let ids := s.pendingAck.entries.map (·.1)
  let answer : (c : ClientCall) → Except Failure c.Answer
    | .pendingAcks => .ok ids
    | .mailboxAuthorization => .ok ()
    | _ => .error .other
  have hids : ids ≠ [] := fun hnil => h (List.map_eq_nil_iff.1 hnil)
  refine ⟨[⟨.ackMailbox (ids.take 100), .error .other⟩, ⟨.mailboxAuthorization, .ok ()⟩,
    ⟨.pendingAcks, .ok ids⟩], .done (.error .other), ⟨answer, [answer, answer], rfl, ?_⟩,
    List.mem_singleton_self _⟩
  change ((ackChunks ids.length ids >>= fun _ => (return ids.length : Messenger ℕ)).steps
    Program.recorded [answer, answer] [⟨.pendingAcks, .ok ids⟩]) = _
  obtain ⟨n, hn⟩ := Nat.exists_eq_succ_of_ne_zero (List.length_pos_iff.2 hids).ne'
  rw [hn, ackChunks, if_neg hids]
  rfl

/-- **Batches of acknowledgements.** No chunk of `ackPending` is refused for its size exactly
    where the relay's batch is not below what the first chunk carries; whatever the answers are,
    a pending id is in at most one chunk, in exactly one where `ackPending` ends well, and a chunk
    is forgotten only after it was acknowledged; and whatever processes do over a profile, an id
    is pending until a chunk with it was acknowledged and forgotten. -/
theorem ack_batches (rt : Runtime) (dev : Device) (record : DeviceRecord) (cfg : RelayConfig)
    (s : ClientStore) :
    ((∀ l p, AckRun s l p → ∀ chunk ∈ requested l, ¬ RefusedForCount cfg chunk) ↔
      (1 ≤ cfg.maxMailboxBatch → (min 100 s.pendingAck.entries.length : ℕ) ≤ cfg.maxMailboxBatch)) ∧
    (∀ l p, AckRun s l p →
      (∀ id, s.pendingAck.get id ≠ none →
        (requested l).countP (fun chunk => id ∈ chunk) ≤ 1 ∧
        ∀ n, p = .done (.ok n) → (requested l).countP (fun chunk => id ∈ chunk) = 1) ∧
      ForgetsAcked l) ∧
    ∀ pool, ProfileRun rt dev record (fun _ _ _ => True) s pool →
      EachMoment (Removal s) pool.shared.log := by
  have hlen : (s.pendingAck.entries.map (·.1)).length = s.pendingAck.entries.length :=
    List.length_map ..
  refine ⟨⟨fun h hbatch => ?_, fun h l p hrun chunk hchunk hrefused => ?_⟩, fun l p hrun => ?_,
    fun pool hpool => ?_⟩
  · by_cases hnil : s.pendingAck.entries = []
    · rw [hnil]
      exact Int.le_trans (by decide) hbatch
    · obtain ⟨l, p, hrun, hmem⟩ := AckRun.first hnil
      have hfits := h l p hrun _ hmem
      rw [refusedForCount_iff, List.length_take, hlen, maxAckedEnvelopeIDs,
        if_pos (by omega)] at hfits
      omega
  · obtain ⟨⟨⟨rest, hsent⟩, -⟩, -⟩ := hrun.sent
    have hsize := hsent.sizes chunk hchunk
    rw [refusedForCount_iff, maxAckedEnvelopeIDs] at hrefused
    rw [hlen] at hsize
    split_ifs at hrefused with hpos
    · have := h (by omega)
      omega
    · simp only [maxAckEnvelopeIDs] at hrefused
      omega
  · obtain ⟨⟨⟨rest, hsent⟩, hforgets⟩, hdone⟩ := hrun.sent
    have hnodup := s.pendingAck.keys_nodup
    refine ⟨fun id hid => ?_, hforgets⟩
    have hpart : (requested l).flatten.Nodup := by
      rw [← hsent.split] at hnodup
      exact (List.nodup_append.1 hnodup).1
    rw [countP_flatten hpart]
    refine ⟨by split_ifs <;> omega, fun n hn => if_pos ?_⟩
    have hall := (hdone n hn).split
    rw [List.append_nil] at hall
    obtain ⟨key, hkey⟩ := Option.ne_none_iff_exists'.1 hid
    rw [hall]
    exact List.mem_map_of_mem (SortedMap.mem_entries.2 hkey)
  · obtain ⟨hok, -⟩ := Contract.Ok.run (R := removing rt dev record s) (Q := fun _ _ => True)
      (T := fun _ _ => True) (fun _ _ h => h) Job.removes (fun _ => trivial)
      (fun _ _ _ _ _ _ _ => trivial) hpool (.idle ⟨rfl, .nil⟩)
    exact hok.inv.removals

/-- A relay whose batch is one, and a profile with two ids pending. -/
def narrowRelay : RelayConfig := ⟨262144, 10000, 1, 20⟩

def twoPending : ClientStore :=
  { emptyStore with pendingAck := (SortedMap.empty.insert ['x'] []).insert ['y'] [] }

/-- Its chunk of both is refused. -/
theorem narrow_batch_refused : ¬ ∀ (cfg : RelayConfig) (s : ClientStore), 1 ≤ cfg.maxMailboxBatch →
    ∀ l p, AckRun s l p → ∀ chunk ∈ requested l, ¬ RefusedForCount cfg chunk := by
  intro h
  obtain ⟨l, p, hrun, hmem⟩ := AckRun.first (s := twoPending) (by decide)
  refine h narrowRelay twoPending le_rfl l p hrun _ hmem ?_
  rw [refusedForCount_iff]
  decide

end Echolet
