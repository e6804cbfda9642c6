/-
  Inbound messages are recorded exactly once, and acknowledged after that.

  * `InboxInv` is the invariant of the store: history entries are numbered, every inbound entry
    has its mark in the inbox, and every mark in the inbox has its entry;
  * `InboxLog` ties the store to the calls performed: an inbound entry comes from an envelope
    that decrypted under the pinned sender, and what is pending or was sent as an
    acknowledgement was committed before.
-/
import Echolet.Client.Calls
import Echolet.Client.Plain

namespace Echolet

variable {rt : Runtime} {dev : Device} {record : DeviceRecord} {s s' s₀ : ClientStore}

/-! ## The store -/

/-- The address of the contact of a history entry. -/
def EntryAddress (s : ClientStore) (e : HistoryEntry) (address : Text) : Prop :=
  ∃ contact, s.contacts.get e.contactIdentityId = some contact ∧
    signalAddressForDevice e.contactIdentityId contact.deviceId = some address

structure InboxInv (s : ClientStore) : Prop where
  numbered : ∀ {k e}, s.history.get k = some e →
    k = historyKey e.sequence ∧ e.sequence < nextSequence s
  marked : ∀ {k e}, s.history.get k = some e → e.direction = .inbound →
    ∃ address, EntryAddress s e address ∧ s.inbox.get (messageKey address e.messageId) ≠ none
  recorded : ∀ {key}, s.inbox.get key ≠ none → ∃ k e address, s.history.get k = some e ∧
    e.direction = .inbound ∧ EntryAddress s e address ∧ key = messageKey address e.messageId
  unique : ∀ {k k' e e' address}, s.history.get k = some e → s.history.get k' = some e' →
    e.direction = .inbound → e'.direction = .inbound → EntryAddress s e address →
    EntryAddress s e' address → e.messageId = e'.messageId → k = k'

theorem EntryAddress.unique {e : HistoryEntry} {a a' : Text} (h : EntryAddress s e a)
    (h' : EntryAddress s e a') : a = a' := by
  obtain ⟨c, hc, ha⟩ := h
  obtain ⟨c', hc', ha'⟩ := h'
  rw [hc] at hc'
  cases hc'
  exact Option.some.inj (ha.symm.trans ha')

theorem EntryAddress.mono {e : HistoryEntry} {a : Text} (h : EntryAddress s e a)
    (hc : ∀ {id c}, s.contacts.get id = some c → s'.contacts.get id = some c) :
    EntryAddress s' e a := by
  obtain ⟨c, hget, ha⟩ := h
  exact ⟨c, hc hget, ha⟩

/-- In a later store an inbound entry has the address it had. -/
theorem InboxInv.address_back (h : InboxInv s) {k : Text} {e : HistoryEntry} {a : Text}
    (hk : s.history.get k = some e) (hd : e.direction = .inbound) (ha : EntryAddress s' e a)
    (hc : ∀ {id c}, s.contacts.get id = some c → s'.contacts.get id = some c) :
    EntryAddress s e a := by
  obtain ⟨a', ha', -⟩ := h.marked hk hd
  rwa [ha.unique (ha'.mono hc)]

theorem historyKey_inj {m n : ℕ} (h : historyKey m = historyKey n) : m = n := by
  rw [← value_padded 16 m, ← value_padded 16 n]
  exact congrArg value h

theorem InboxInv.fresh (h : InboxInv s) : s.history.get (historyKey (nextSequence s)) = none := by
  cases hg : s.history.get (historyKey (nextSequence s)) with
  | none => rfl
  | some e =>
    obtain ⟨hk, hlt⟩ := h.numbered hg
    exact absurd (historyKey_inj hk) (Nat.ne_of_gt hlt)

/-- Contacts may be added. -/
theorem InboxInv.frame (h : InboxInv s) (hh : s'.history = s.history)
    (hn : s'.historySequence = s.historySequence) (hi : s'.inbox = s.inbox)
    (hc : ∀ {id c}, s.contacts.get id = some c → s'.contacts.get id = some c) : InboxInv s' := by
  refine ⟨fun hk => ?_, fun hk hd => ?_, fun hk => ?_, fun hk hk' hd hd' ha ha' hm => ?_⟩
  · rw [hh] at hk
    rw [nextSequence, hn]
    exact h.numbered hk
  · rw [hh] at hk
    rw [hi]
    obtain ⟨a, ha, hin⟩ := h.marked hk hd
    exact ⟨a, ha.mono hc, hin⟩
  · rw [hi] at hk
    rw [hh]
    obtain ⟨k, e, a, he, hd, ha, rfl⟩ := h.recorded hk
    exact ⟨k, e, a, he, hd, ha.mono hc, rfl⟩
  · rw [hh] at hk hk'
    exact h.unique hk hk' hd hd' (h.address_back hk hd ha hc) (h.address_back hk' hd' ha' hc) hm

/-- An outbound entry is appended. -/
theorem InboxInv.append_outbound (h : InboxInv s) {e : HistoryEntry}
    (hd : e.direction = .outbound) (hseq : e.sequence = nextSequence s)
    (hh : s'.history = s.history.insert (historyKey (nextSequence s)) e)
    (hn : s'.historySequence = some (nextSequence s)) (hi : s'.inbox = s.inbox)
    (hc : s'.contacts = s.contacts) : InboxInv s' := by
  have hold : ∀ {k e'}, s'.history.get k = some e' → e'.direction = .inbound →
      s.history.get k = some e' := by
    intro k e' hk hd'
    rw [hh, SortedMap.get_insert] at hk
    split_ifs at hk
    · cases hk
      rw [hd] at hd'
      cases hd'
    · exact hk
  have hadd : ∀ {a e'}, EntryAddress s' e' a ↔ EntryAddress s e' a := by
    intro a e'
    unfold EntryAddress
    rw [hc]
  refine ⟨fun {k e'} hk => ?_, fun hk hd' => ?_, fun hk => ?_, fun hk hk' hd hd' ha ha' hm => ?_⟩
  · rw [nextSequence, hn]
    rw [hh, SortedMap.get_insert] at hk
    split_ifs at hk with hkey
    · cases hk
      rw [hkey, hseq]
      exact ⟨rfl, Nat.lt_succ_self _⟩
    · obtain ⟨hk', hlt⟩ := h.numbered hk
      exact ⟨hk', Nat.lt_succ_of_lt hlt⟩
  · rw [hi]
    obtain ⟨a, ha, hin⟩ := h.marked (hold hk hd') hd'
    exact ⟨a, hadd.2 ha, hin⟩
  · rw [hi] at hk
    obtain ⟨k, e', a, he, hd', ha, rfl⟩ := h.recorded hk
    refine ⟨k, e', a, ?_, hd', hadd.2 ha, rfl⟩
    rw [hh, SortedMap.get_insert_ne _ _ ?_]
    · exact he
    · rintro rfl
      rw [h.fresh] at he
      cases he
  · exact h.unique (hold hk hd) (hold hk' hd') hd hd' (hadd.1 ha) (hadd.1 ha') hm

/-- An inbound entry is appended, where it had no mark, and is marked. -/
theorem InboxInv.append_inbound (h : InboxInv s) {e : HistoryEntry} {address hash : Text}
    (hd : e.direction = .inbound) (hseq : e.sequence = nextSequence s)
    (hadr : EntryAddress s e address) (hnew : s.inbox.get (messageKey address e.messageId) = none)
    (hh : s'.history = s.history.insert (historyKey (nextSequence s)) e)
    (hn : s'.historySequence = some (nextSequence s))
    (hi : s'.inbox = s.inbox.insert (messageKey address e.messageId) hash)
    (hc : s'.contacts = s.contacts) : InboxInv s' := by
  have hadd : ∀ {a e'}, EntryAddress s' e' a ↔ EntryAddress s e' a := by
    intro a e'
    unfold EntryAddress
    rw [hc]
  have hin : ∀ {key}, s.inbox.get key ≠ none → s'.inbox.get key ≠ none := by
    intro key hk
    rw [hi, SortedMap.get_insert]
    split_ifs
    · exact Option.some_ne_none _
    · exact hk
  -- an entry of the same sender and message would have had the mark
  have hdiff : ∀ {k e'}, s.history.get k = some e' → e'.direction = .inbound →
      EntryAddress s e' address → e'.messageId ≠ e.messageId := by
    intro k e' hk hd' ha hm
    obtain ⟨a, ha', hmark⟩ := h.marked hk hd'
    rw [ha'.unique ha, hm] at hmark
    exact hmark hnew
  refine ⟨fun {k e'} hk => ?_, fun hk hd' => ?_, fun {key} hk => ?_, ?_⟩
  · rw [nextSequence, hn]
    rw [hh, SortedMap.get_insert] at hk
    split_ifs at hk with hkey
    · cases hk
      rw [hkey, hseq]
      exact ⟨rfl, Nat.lt_succ_self _⟩
    · obtain ⟨hk', hlt⟩ := h.numbered hk
      exact ⟨hk', Nat.lt_succ_of_lt hlt⟩
  · rw [hh, SortedMap.get_insert] at hk
    split_ifs at hk
    · cases hk
      refine ⟨address, hadd.2 hadr, ?_⟩
      rw [hi, SortedMap.get_insert_self]
      exact Option.some_ne_none _
    · obtain ⟨a, ha, hmark⟩ := h.marked hk hd'
      exact ⟨a, hadd.2 ha, hin hmark⟩
  · rw [hi, SortedMap.get_insert] at hk
    split_ifs at hk with hkey
    · refine ⟨historyKey (nextSequence s), e, address, ?_, hd, hadd.2 hadr, hkey⟩
      rw [hh, SortedMap.get_insert_self]
    · obtain ⟨k, e', a, he, hd', ha, rfl⟩ := h.recorded hk
      refine ⟨k, e', a, ?_, hd', hadd.2 ha, rfl⟩
      rw [hh, SortedMap.get_insert_ne _ _ ?_]
      · exact he
      · rintro rfl
        rw [h.fresh] at he
        cases he
  · intro k k' e₁ e₂ a hk hk' hd₁ hd₂ ha₁ ha₂ hm
    rw [hadd] at ha₁ ha₂
    rw [hh, SortedMap.get_insert] at hk hk'
    split_ifs at hk hk' with hkey hkey' hkey'
    · rw [hkey, hkey']
    · cases hk
      rw [ha₁.unique hadr] at ha₂
      exact absurd hm.symm (hdiff hk' hd₂ ha₂)
    · cases hk'
      rw [ha₂.unique hadr] at ha₁
      exact absurd hm (hdiff hk hd₁ ha₁)
    · exact h.unique hk hk' hd₁ hd₂ ha₁ ha₂ hm

/-- **Every call keeps the invariant of the inbox.** -/
theorem InboxInv.effect {v : Circumstances} {c : ClientCall} (h : InboxInv s)
    (he : Effect rt dev v s c s') : InboxInv s' := by
  have hc : ∀ {id contact}, s.contacts.get id = some contact → s'.contacts.get id = some contact :=
    fun h => he.contact_stays h
  cases he with
  | @accepted e _ a =>
    obtain ⟨contact, address, message, -, hsend, hr, -, rfl⟩ := a
    cases hr with
    | before _ => exact h.frame rfl rfl rfl hc
    | now hnew _ r =>
      obtain ⟨plaintext, signal, -, -, rfl⟩ := r
      have hcontact : s.contacts.get contact.identityId = some contact := by
        rw [hsend.identity]
        exact hsend.pinned
      exact h.append_inbound (e := ⟨nextSequence s, contact.identityId, e.messageId, .inbound,
        plaintext, e.createdAtMs⟩) rfl rfl ⟨contact, hcontact, hsend.named⟩ hnew rfl rfl rfl rfl
  | @committed input contact _ _ _ m =>
    refine h.append_outbound (e := ⟨nextSequence s, contact.identityId, input.messageId, .outbound,
      input.plaintext, v.now⟩) rfl rfl ?_ ?_ ?_ ?_ <;> rw [m.after]
  | published _ p =>
    obtain ⟨_, _, _, rfl⟩ := p
    exact h.frame rfl rfl rfl hc
  | _ => exact h.frame rfl rfl rfl hc

/-- What is accepted has its entry in the history. -/
theorem Accepted.entry {v : Circumstances} {e : MailboxEnvelope} (h : InboxInv s)
    (a : Accepted rt dev v e s s') : ∃ k entry address, s'.history.get k = some entry ∧
      entry.direction = .inbound ∧ EntryAddress s' entry address ∧
      entry.contactIdentityId = e.senderIdentityId ∧ entry.messageId = e.messageId := by
  have h' : InboxInv s' := h.effect (.accepted a)
  obtain ⟨contact, address, message, -, hsend, hr, -, rfl⟩ := a
  have hmark : message.inbox.get (messageKey address e.messageId) ≠ none := by
    cases hr with
    | before hm =>
      rw [hm]
      exact Option.some_ne_none _
    | now _ _ r =>
      obtain ⟨plaintext, signal, -, -, rfl⟩ := r
      change (s.inbox.insert _ _).get _ ≠ none
      rw [SortedMap.get_insert_self]
      exact Option.some_ne_none _
  obtain ⟨k, entry, address', hk, hd, ⟨c, hc, hnamed⟩, hkey⟩ := h'.recorded hmark
  obtain ⟨rfl, hm⟩ := messageKey_inj hsend.named hnamed hkey
  refine ⟨k, entry, address, hk, hd, ⟨c, hc, hnamed⟩, ?_, hm.symm⟩
  rw [(signalAddressForDevice_inj hnamed hsend.named).1, hsend.identity]

theorem ClientStore.Initial.inboxInv (h : s.Initial) : InboxInv s := by
  refine ⟨fun hk => ?_, fun hk => ?_, fun hk => ?_, fun hk => ?_⟩
  · rw [h.history] at hk; cases hk
  · rw [h.history] at hk; cases hk
  · rw [h.inbox] at hk; exact absurd rfl hk
  · rw [h.history] at hk; cases hk

/-- The entry a message leaves that decrypted under its pinned sender. -/
structure Source (rt : Runtime) (s : ClientStore) (e : MailboxEnvelope) (entry : HistoryEntry) where
  contact : ContactIdentifiers
  address : Text
  type : ℕ
  body : Bytes
  plaintext : Text
  entropy : ℕ
  signal : SignalStore
  sender : PinnedSender s e contact address
  unwrapped : rt.enc.unwrap e.ciphertext = some (type, body)
  decrypted : SignalClient.Decrypted rt.lib rt.enc address e.messageId type body entropy s.signal
    plaintext signal
  entry : entry = ⟨nextSequence s, contact.identityId, e.messageId, .inbound, plaintext,
    e.createdAtMs⟩

/-- An inbound entry was there before, or a message decrypted under its pinned sender. -/
theorem Effect.inbound {v : Circumstances} {c : ClientCall} (he : Effect rt dev v s c s') {k : Text}
    {entry : HistoryEntry} (hk : s'.history.get k = some entry) (hd : entry.direction = .inbound) :
    s.history.get k = some entry ∨
      ∃ e, c = .acceptOne e ∧ Nonempty (Source rt s e entry) := by
  cases he with
  | @accepted e _ a =>
    obtain ⟨contact, address, message, -, hsend, hr, -, rfl⟩ := a
    cases hr with
    | before _ => exact Or.inl hk
    | now _ hw r =>
      obtain ⟨plaintext, signal, hdec, hvalid, rfl⟩ := r
      change (s.history.insert _ _).get k = _ at hk
      rw [SortedMap.get_insert] at hk
      split_ifs at hk
      · cases hk
        exact Or.inr ⟨e, rfl, ⟨⟨contact, address, _, _, plaintext, _, signal, hsend, hw, hdec, rfl⟩⟩⟩
      · exact Or.inl hk
  | committed m =>
    rw [m.after] at hk
    change (s.history.insert _ _).get k = _ at hk
    rw [SortedMap.get_insert] at hk
    split_ifs at hk
    · cases hk
      cases hd
    · exact Or.inl hk
  | published _ p =>
    obtain ⟨_, _, _, rfl⟩ := p
    exact Or.inl hk
  | _ => exact Or.inl hk

theorem get_foldl_erase {id : Text} : ∀ {ids : List Text} {m : SortedMap Text Text},
    (ids.foldl (fun m id => m.erase id) m).get id = if id ∈ ids then none else m.get id
  | [], m => by rw [List.foldl_nil, if_neg List.not_mem_nil]
  | i :: ids, m => by
    rw [List.foldl_cons, get_foldl_erase, SortedMap.get_erase]
    by_cases hmem : id ∈ ids
    · rw [if_pos hmem, if_pos (List.mem_cons_of_mem i hmem)]
    · simp only [List.mem_cons, hmem, or_false, if_false]

/-- An acknowledgement was pending before, or its envelope is accepted now. -/
theorem Effect.pending {v : Circumstances} {c : ClientCall} (he : Effect rt dev v s c s') {id : Text}
    (hid : s'.pendingAck.get id ≠ none) : s.pendingAck.get id ≠ none ∨
      ∃ e, c = .acceptOne e ∧ e.envelopeId = id ∧ Nonempty (Accepted rt dev v e s s') := by
  cases he with
  | @accepted e _ a =>
    by_cases hkey : id = e.envelopeId
    · exact Or.inr ⟨e, rfl, hkey.symm, ⟨a⟩⟩
    · obtain ⟨contact, address, message, -, -, hr, -, rfl⟩ := a
      change (message.pendingAck.insert _ _).get id ≠ none at hid
      rw [SortedMap.get_insert_ne _ _ hkey] at hid
      cases hr with
      | before _ => exact Or.inl hid
      | now _ _ r =>
        obtain ⟨plaintext, signal, -, -, rfl⟩ := r
        exact Or.inl hid
  | forgotten ids =>
    refine Or.inl fun hno => hid (get_foldl_erase.trans ?_)
    rw [hno, ite_self]
  | committed m =>
    rw [m.after] at hid
    exact Or.inl hid
  | published _ p =>
    obtain ⟨_, _, _, rfl⟩ := p
    exact Or.inl hid
  | _ => exact Or.inl hid

/-! ## The log -/

/-- An inbound entry comes from an envelope that decrypted under its pinned sender, in a
    transaction that committed. -/
def Origin (rt : Runtime) (s₀ : ClientStore) (log : List Moment) (entry : HistoryEntry) : Prop :=
  ∃ post m pre e, log = post ++ m :: pre ∧ m.call = .acceptOne e ∧ m.succeeded = true ∧
    Nonempty (Source rt (before s₀ pre) e entry)

/-- An envelope was accepted, and its message was in the history from then on. -/
def Acknowledgeable (log : List Moment) (id : Text) : Prop :=
  ∃ m ∈ log, ∃ e, m.call = .acceptOne e ∧ m.succeeded = true ∧ e.envelopeId = id ∧
    ∃ k entry address, m.store.history.get k = some entry ∧ entry.direction = .inbound ∧
      EntryAddress m.store entry address ∧ entry.contactIdentityId = e.senderIdentityId ∧
      entry.messageId = e.messageId

structure InboxLog (rt : Runtime) (s₀ : ClientStore) (w : Ledger) : Prop where
  store : w.store = before s₀ w.log
  inv : InboxInv w.store
  origin : ∀ {k entry}, w.store.history.get k = some entry → entry.direction = .inbound →
    Origin rt s₀ w.log entry
  pending : ∀ {id}, w.store.pendingAck.get id ≠ none → Acknowledgeable w.log id
  acked : EachMoment (fun pre m => ∀ ids, m.call = .ackMailbox ids →
    ∀ id ∈ ids, Acknowledgeable pre id) w.log

theorem Origin.cons {log : List Moment} {m : Moment} {entry : HistoryEntry}
    (h : Origin rt s₀ log entry) : Origin rt s₀ (m :: log) entry := by
  obtain ⟨post, n, pre, e, rfl, h⟩ := h
  exact ⟨m :: post, n, pre, e, rfl, h⟩

theorem Acknowledgeable.mono {log log' : List Moment} {id : Text} (h : Acknowledgeable log id)
    (hl : log <:+ log') : Acknowledgeable log' id := by
  obtain ⟨m, hm, h⟩ := h
  exact ⟨m, hl.subset hm, h⟩

/-- **One call.** A request for acknowledgements must be for envelopes that were accepted. -/
theorem InboxLog.logged {w : Ledger} (h : InboxLog rt s₀ w) {c : ClientCall} {v : Surroundings}
    {r : Except Failure c.Answer} (hp : Performed rt dev record c v w.store r s)
    (hack : ∀ ids, c = .ackMailbox ids → ∀ id ∈ ids, Acknowledgeable w.log id) :
    InboxLog rt s₀ (w.logged c r s) := by
  have he := performed_effect hp
  have hlog : w.log <:+ (w.logged c r s).log := List.suffix_cons ..
  refine ⟨rfl, h.inv.effect he, fun {k entry} hk hd => ?_, fun {id} hid => ?_, h.acked.cons hack⟩
  · change s.history.get k = some entry at hk
    cases r with
    | error f =>
      rw [performed_error hp] at hk
      exact (h.origin hk hd).cons
    | ok a =>
      rcases he.inbound hk hd with hold | ⟨e, rfl, hsrc⟩
      · exact (h.origin hold hd).cons
      · rw [h.store] at hsrc
        exact ⟨[], ⟨.acceptOne e, .ok a, s⟩, w.log, e, rfl, rfl, rfl, hsrc⟩
  · change s.pendingAck.get id ≠ none at hid
    cases r with
    | error f =>
      rw [performed_error hp] at hid
      exact (h.pending hid).mono hlog
    | ok a =>
      rcases he.pending hid with hold | ⟨e, rfl, hkey, ⟨hacc⟩⟩
      · exact (h.pending hold).mono hlog
      · exact ⟨⟨.acceptOne e, .ok a, s⟩, List.mem_cons_self .., e, rfl, rfl, hkey,
          hacc.entry h.inv⟩

/-! ## The commands -/

/-- Any processes over a store: the log only grows. -/
abbrev inboxes (rt : Runtime) (dev : Device) (record : DeviceRecord) (s₀ : ClientStore) :
    Contract ClientCall ClientCall.Answer Failure Surroundings Ledger :=
  onLedger rt dev record (fun _ _ _ => True) (InboxLog rt s₀) (fun w w' => w.log <:+ w'.log)
    fun w w' => w.log <:+ w'.log

def AllAcknowledgeable (ids : List Text) (w : Ledger) : Prop :=
  ∀ id ∈ ids, Acknowledgeable w.log id

theorem AllAcknowledgeable.stable {ids : List Text} :
    (inboxes rt dev record s₀).Stable (AllAcknowledgeable ids) :=
  fun _ _ _ _ hl h id hid => (h id hid).mono hl

/-- Calls that ask for no acknowledgement. -/
def Quiet (c : ClientCall) : Prop := ∀ ids, c ≠ .ackMailbox ids

theorem quiet_perform {c : ClientCall} (hc : Quiet c) {ids : List Text} :
    (inboxes rt dev record s₀).Safe (fun _ => AllAcknowledgeable ids) (AllAcknowledgeable ids)
      (perform c) := by
  refine safe_perform (fun _ => AllAcknowledgeable.stable) fun v w r s hi hk _ hs => ?_
  have hl : w.log <:+ (w.logged c r s).log := List.suffix_cons ..
  exact ⟨⟨hi.logged hs fun ids he => absurd he (hc ids), hl⟩, fun id hid => (hk id hid).mono hl⟩

theorem ackMailbox_safe {ids : List Text} : (inboxes rt dev record s₀).Safe (fun _ _ => True)
    (AllAcknowledgeable ids) (perform (.ackMailbox ids)) := by
  refine safe_perform (fun _ => .true) fun v w r s hi hk _ hs => ?_
  refine ⟨⟨hi.logged hs fun ids' he => ?_, List.suffix_cons ..⟩, trivial⟩
  cases he
  exact hk

/-- Every chunk is of ids that were there when the acknowledgements were read. -/
theorem ackChunks_acknowledge : ∀ {n : ℕ} {ids : List Text},
    (inboxes rt dev record s₀).Safe (fun _ _ => True) (AllAcknowledgeable ids) (ackChunks n ids)
  | 0, _ => fun _ _ _ => trivial
  | n + 1, ids => by
    unfold ackChunks
    split_ifs
    · exact fun _ _ _ => trivial
    refine (quiet_perform fun _ h => by cases h).bind (fun _ => ?_) fun _ _ _ _ => trivial
    have hfirst : (inboxes rt dev record s₀).Safe (fun _ w => AllAcknowledgeable ids w ∧ True)
        (AllAcknowledgeable ids) (perform (.ackMailbox (ids.take 100))) :=
      Contract.Safe.keep AllAcknowledgeable.stable (fun _ _ h => h)
        (ackMailbox_safe.weaken fun w _ hk id hid => hk id (List.mem_of_mem_take hid))
    refine (hfirst.post fun r w _ h => h.1).bind (fun _ => ?_) fun _ _ _ _ => trivial
    refine (quiet_perform fun _ h => by cases h).bind (fun _ => ?_) fun _ _ _ _ => trivial
    exact ackChunks_acknowledge.weaken fun w _ hk id hid => hk id (List.mem_of_mem_drop hid)

theorem pendingAcks_safe {K : Ledger → Prop} : (inboxes rt dev record s₀).Safe
    (fun r w => ∀ ids, r = .ok ids → AllAcknowledgeable ids w) K (perform .pendingAcks) := by
  refine safe_perform (fun r w w' hi hi' hl h ids hr => ?_) fun v w r s hi _ _ hs => ?_
  · exact AllAcknowledgeable.stable w w' hi hi' hl (h ids hr)
  have hi' : InboxLog rt s₀ (w.logged .pendingAcks r s) :=
    hi.logged hs fun ids he => by cases he
  refine ⟨⟨hi', List.suffix_cons ..⟩, fun ids hr id hid => ?_⟩
  subst hr
  obtain ⟨rfl, rfl⟩ := Tx.read_ok.1 (attempt_ok hs)
  obtain ⟨⟨_, key⟩, hmem, rfl⟩ := List.mem_map.1 hid
  refine hi'.pending ?_
  change w.store.pendingAck.get _ ≠ none
  rw [SortedMap.mem_entries.1 hmem]
  exact Option.some_ne_none _

theorem ackPending_acknowledge {K : Ledger → Prop} :
    (inboxes rt dev record s₀).Safe (fun _ _ => True) K ackPending := by
  refine pendingAcks_safe.bind (fun ids => ?_) fun _ _ _ _ => trivial
  refine (ackChunks_acknowledge.weaken fun w _ hk => hk ids rfl).bind (fun _ => ?_)
    fun _ _ _ _ => trivial
  exact fun _ _ _ => trivial

/-- Every command is safe. -/
theorem Job.acknowledges (j : Job) : (inboxes rt dev record s₀).Safe (fun _ _ => True)
    (fun _ => True) (j.program rt dev) := by
  refine Job.settles (fun c v w r w' hc hi _ hx => ?_) (fun _ => ackPending_acknowledge) j
  obtain ⟨s, rfl, hs⟩ := perform_logged rt dev record hx
  refine ⟨hi.logged hs fun ids he => ?_, List.suffix_cons ..⟩
  subst he
  exact absurd trivial hc

theorem ClientStore.Initial.inboxLog (h : s₀.Initial) : InboxLog rt s₀ ⟨s₀, []⟩ := by
  refine ⟨rfl, h.inboxInv, fun {k entry} hk => ?_, fun {id} hid => ?_, .nil⟩
  · change s₀.history.get k = _ at hk
    rw [h.history] at hk
    cases hk
  · change s₀.pendingAck.get id ≠ none at hid
    rw [h.pendingAck] at hid
    exact absurd rfl hid

/-- **Exactly once.** Whatever processes do over a profile, with envelopes in any order and
    number, lost answers and killed processes: the history has at most one inbound entry for an
    address and a message id; each comes from an envelope that decrypted under its pinned sender,
    in a transaction that committed; and an id is acknowledged only after an envelope with it was
    accepted, with its message in the history. -/
theorem inbound_exactly_once (rt : Runtime) (dev : Device) (record : DeviceRecord)
    {s₀ : ClientStore} (h₀ : s₀.Initial) {pool : ProfilePool}
    (h : ProfileRun rt dev record (fun _ _ _ => True) s₀ pool) :
    (∀ k k' e e' address, pool.shared.store.history.get k = some e →
      pool.shared.store.history.get k' = some e' → e.direction = .inbound →
      e'.direction = .inbound → EntryAddress pool.shared.store e address →
      EntryAddress pool.shared.store e' address → e.messageId = e'.messageId → k = k') ∧
    (∀ k e, pool.shared.store.history.get k = some e → e.direction = .inbound →
      (∃ address, EntryAddress pool.shared.store e address) ∧
        Origin rt s₀ pool.shared.log e) ∧
    (∀ post m pre ids, pool.shared.log = post ++ m :: pre → m.call = .ackMailbox ids →
      ∀ id ∈ ids, Acknowledgeable pre id) := by
  obtain ⟨hok, -⟩ := Contract.Ok.run (R := inboxes rt dev record s₀) (Q := fun _ _ => True)
    (T := fun _ _ => True) (fun _ _ h => h) Job.acknowledges (fun _ => trivial)
    (fun _ _ _ _ _ _ _ => trivial) h (.idle h₀.inboxLog)
  obtain ⟨-, hinv, horigin, -, hacked⟩ := hok.inv
  refine ⟨fun k k' e e' address hk hk' hd hd' => hinv.unique hk hk' hd hd', fun k e hk hd => ?_,
    fun post m pre ids hs => hacked post m pre hs ids⟩
  obtain ⟨address, hadr, -⟩ := hinv.marked hk hd
  exact ⟨⟨address, hadr⟩, horigin hk hd⟩

/-- A request that acknowledges exactly these envelopes. -/
def ClientCall.acknowledges (ids : List Text) : ClientCall → Bool
  | .ackMailbox sent => sent = ids
  | _ => false

theorem ClientCall.eq_of_acknowledges {ids : List Text} {c : ClientCall}
    (h : c.acknowledges ids = true) : c = .ackMailbox ids := by
  unfold ClientCall.acknowledges at h
  split at h
  · rw [of_decide_eq_true h]
  · cases h

/-- A contact is imported, and a poll accepts its first message and acknowledges it. -/
theorem inbound_exactly_once_first : ∃ pool,
    ProfileRun plainRuntime plainDevice plainRecord (fun _ _ _ => True) emptyStore pool ∧
    (∃ e, pool.shared.store.history.get (historyKey 1) = some e ∧ e.direction = .inbound ∧
      Origin plainRuntime emptyStore pool.shared.log e) ∧
    ∃ post m pre, pool.shared.log = post ++ m :: pre ∧ m.call = .ackMailbox [['x']] ∧
      Acknowledgeable pre ['x'] := by
  let o := replay (Pool.step (Ledger.perform plainRuntime plainDevice plainRecord)
    (Job.program plainRuntime plainDevice)) (Pool.Meets fun _ _ _ => True)
    (firstImport 0 ++ firstPoll 0 (firstEnvelope 'E' ['x']))
    (⟨⟨emptyStore, []⟩, fun _ => none⟩ : ProfilePool)
  have ho : o.elim false (fun pool =>
      (pool.shared.store.history.get (historyKey 1)).any (fun e => e.direction = .inbound) &&
      pool.shared.log.any fun m => m.call.acknowledges [['x']]) = true := by decide +kernel
  obtain ⟨pool, hpool⟩ : ∃ pool, o = some pool := by
    cases h : o with
    | none => rw [h] at ho; cases ho
    | some pool => exact ⟨pool, rfl⟩
  have hrun := Run.of_replay hpool
  rw [hpool, Option.elim_some, Bool.and_eq_true, Option.any_eq_true, List.any_eq_true] at ho
  obtain ⟨⟨e, he, hd⟩, m, hm, hack⟩ := ho
  obtain ⟨-, horigin, hacked⟩ :=
    inbound_exactly_once plainRuntime plainDevice plainRecord emptyStore_initial hrun
  have hd := of_decide_eq_true hd
  refine ⟨pool, hrun, ⟨e, he, hd, (horigin _ e he hd).2⟩, ?_⟩
  have hids := ClientCall.eq_of_acknowledges hack
  obtain ⟨post, pre, hsplit⟩ := List.append_of_mem hm
  exact ⟨post, m, pre, hsplit, hids, hacked post m pre _ hsplit hids _ (List.mem_singleton.2 rfl)⟩

end Echolet
