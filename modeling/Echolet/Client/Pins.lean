/-
  Pins come from confirmed imports, and never change.

  * `Consults` is what is relied on of libsignal: it asks whether the remote key of a session is
    trusted before it saves that session, and saves a session for every message it decrypts;
  * `PinsInv` is the invariant of the store: contacts and approved keys are two sides of one
    pin, and every session is under the approved key of its address;
  * `PinsLog` says of every call what pins it may have made.
-/
import Echolet.Client.Calls
import Echolet.Client.Plain

namespace Echolet

variable {rt : Runtime} {dev : Device} {record : DeviceRecord} {s s' s₀ : ClientStore}

/-! ## The library -/

/-- The key was said to be trusted for the address. -/
def trusts (address key : Text) : (c : RecordsCall) → Except Failure c.Answer → Prop
  | .isTrustedIdentity address' key', r => address' = address ∧ key' = key ∧ r = .ok true
  | _, _ => False

/-- A session of the address was saved. -/
def saves (address : Text) : (c : RecordsCall) → Except Failure c.Answer → Prop
  | .saveSession address' _, _ => address' = address
  | _, _ => False

/-- An operation asks for trust in the remote key of a session before it saves that session. -/
def Careful {α : Type} (remote : Bytes → Text) (p : RecordsProgram α) : Prop :=
  ∀ address session, p.Asks (trusts address (remote session)) (· = .saveSession address session)

/-- What is relied on of libsignal; `remote` is the remote identity key in a session record. -/
structure Consults (lib : Libsignal) (remote : Bytes → Text) : Prop where
  decryptPreKey : ∀ body sender entropy, Careful remote (lib.decryptPreKey body sender entropy)
  decrypt : ∀ body sender entropy, Careful remote (lib.decrypt body sender entropy)
  processPreKeyBundle : ∀ bundle address entropy,
    Careful remote (lib.processPreKeyBundle bundle address entropy)
  encrypt : ∀ payload address entropy, Careful remote (lib.encrypt payload address entropy)
  savedPreKey : ∀ body sender entropy,
    (lib.decryptPreKey body sender entropy).Returns (saves sender)
  saved : ∀ body sender entropy, (lib.decrypt body sender entropy).Returns (saves sender)

/-- Every session is under the approved key of its address. -/
def SessionsPinned (remote : Bytes → Text) (σ : SignalStore) : Prop :=
  ∀ address session, σ.session.get address = some session →
    σ.trust.get address = some (remote session)

theorem Records.answer_session (c : RecordsCall) (σ : SignalStore) :
    (Records.answer c σ).2.session = σ.session ∨ ∃ address session,
      c = .saveSession address session ∧
        (Records.answer c σ).2.session = σ.session.insert address session := by
  have hneed : ∀ {α : Type} (f : SignalStore → Option α),
      ((do Tx.need (← Tx.read f) .other : SignalTx α) σ).2 = σ := by
    intro α f
    change (Tx.bind (Tx.read f) _ σ).2 = σ
    simp only [Tx.bind, Tx.read]
    cases f σ <;> rfl
  cases c with
  | getPreKey id => rw [Records.answer, hneed]; exact Or.inl rfl
  | getSignedPreKey id => rw [Records.answer, hneed]; exact Or.inl rfl
  | getKyberPreKey id => rw [Records.answer, hneed]; exact Or.inl rfl
  | saveSession address session => exact Or.inr ⟨address, session, rfl, rfl⟩
  | saveIdentity address key =>
    left
    change (Tx.bind _ _ σ).2.session = _
    simp only [Tx.bind, Tx.read, Tx.ensure]
    split <;> rfl
  | markKyberPreKeyUsed id signedId baseKey =>
    left
    change (Tx.bind _ _ σ).2.session = _
    simp only [Tx.bind]
    by_cases hu : σ.used.get (usedKey id signedId baseKey) = none
    · rw [Tx.ensure, if_pos hu]; rfl
    · rw [Tx.ensure, if_neg hu]; rfl
  | _ => exact Or.inl rfl

/-- **A careful operation keeps sessions under the approved keys.** -/
theorem SessionsPinned.records {α : Type} {remote : Bytes → Text} {p : RecordsProgram α}
    {σ : SignalStore} (hp : Careful remote p) (h : SessionsPinned remote σ) :
    SessionsPinned remote (SignalClient.records p σ).2 := by
  intro address session
  have htrust : ∀ c σ, σ.trust.get address = some (remote session) →
      (Records.answer c σ).2.trust.get address = some (remote session) := by
    intro c σ ht
    rw [(Records.answer_kept c σ).trust]
    exact ht
  refine Program.Asks.run
    (I := fun σ : SignalStore => σ.session.get address = some session →
      σ.trust.get address = some (remote session))
    (P := fun σ : SignalStore => σ.trust.get address = some (remote session))
    ?_ htrust ?_ (hp address session) (h address session)
  · intro c σ hi hn hs
    rcases Records.answer_session c σ with hsame | ⟨address', session', rfl, hins⟩
    · rw [hsame] at hs
      exact htrust c σ (hi hs)
    · rw [hins, SortedMap.get_insert] at hs
      split_ifs at hs with ha
      · cases hs
        exact htrust _ σ (hn (by rw [ha]))
      · exact htrust _ σ (hi hs)
  · intro c σ hg
    cases c with
    | isTrustedIdentity address' key =>
      obtain ⟨rfl, rfl, hr⟩ := hg
      have ht : σ.isTrusted address' (remote session) = true := Except.ok.inj hr
      exact of_decide_eq_true ht
    | _ => exact hg.elim

theorem session_kept {address : Text} (c : RecordsCall) (σ : SignalStore)
    (h : (σ.session.get address).isSome = true) :
    ((Records.answer c σ).2.session.get address).isSome = true := by
  rcases Records.answer_session c σ with hs | ⟨a, r, -, hs⟩
  · rw [hs]; exact h
  · rw [hs, SortedMap.get_insert]
    split_ifs
    · rfl
    · exact h

/-- After a message was decrypted, there is a session with its sender. -/
theorem decryptBody_session {lib : Libsignal} {remote : Bytes → Text} (hlib : Consults lib remote)
    {address : Text} {type : ℕ} {body payload : Bytes} {entropy : ℕ} {σ σ' : SignalStore}
    (h : SignalClient.decryptBody lib address type body entropy σ = (.ok payload, σ')) :
    (σ'.session.get address).isSome = true := by
  have hsaved : ∀ c σ, saves address c (Records.answer c σ).1 →
      ((Records.answer c σ).2.session.get address).isSome = true := by
    intro c σ hc
    cases c with
    | saveSession a r =>
      obtain rfl : a = address := hc
      change ((σ.session.insert a r).get a).isSome = true
      rw [SortedMap.get_insert_self]
      rfl
    | _ => exact hc.elim
  unfold SignalClient.decryptBody at h
  split_ifs at h
  · exact (hlib.savedPreKey body address entropy).run session_kept hsaved h
  · exact (hlib.saved body address entropy).run session_kept hsaved h
  · exact absurd h Tx.throw_ok

theorem decryptBody_pinned {lib : Libsignal} {remote : Bytes → Text} (hlib : Consults lib remote)
    {address : Text} {type : ℕ} {body payload : Bytes} {entropy : ℕ} {σ σ' : SignalStore}
    (hσ : SessionsPinned remote σ)
    (h : SignalClient.decryptBody lib address type body entropy σ = (.ok payload, σ')) :
    SessionsPinned remote σ' := by
  have hrecords : ∀ {p : RecordsProgram Bytes}, Careful remote p →
      SignalClient.records p σ = (.ok payload, σ') → SessionsPinned remote σ' := by
    intro p hp h
    have hk : SessionsPinned remote (SignalClient.records p σ).2 := hσ.records hp
    rwa [h] at hk
  unfold SignalClient.decryptBody at h
  split_ifs at h
  · exact hrecords (hlib.decryptPreKey body address entropy) h
  · exact hrecords (hlib.decrypt body address entropy) h
  · exact absurd h Tx.throw_ok

/-! ## The store -/

/-- A contact has its device at an address. -/
def ContactIdentifiers.at (c : ContactIdentifiers) (address : Text) : Prop :=
  signalAddressForDevice c.identityId c.deviceId = some address

structure PinsInv (remote : Bytes → Text) (s : ClientStore) : Prop where
  contact : ∀ {id c}, s.contacts.get id = some c → c.identityId = id ∧
    ∃ address, c.at address ∧ s.signal.trust.get address = some c.signalIdentityKey
  trust : ∀ {address key}, s.signal.trust.get address = some key →
    ∃ c, s.contacts.get c.identityId = some c ∧ c.at address ∧ c.signalIdentityKey = key
  session : SessionsPinned remote s.signal

variable {remote : Bytes → Text} {v : Circumstances} {c : ClientCall}

theorem PinsInv.frame (h : PinsInv remote s) (hc : s'.contacts = s.contacts)
    (ht : s'.signal.trust = s.signal.trust) (hs : SessionsPinned remote s'.signal) :
    PinsInv remote s' := by
  refine ⟨fun hget => ?_, fun hget => ?_, hs⟩
  · rw [hc] at hget
    rw [ht]
    exact h.contact hget
  · rw [ht] at hget
    rw [hc]
    exact h.trust hget

theorem Accepted.sessionsPinned (hlib : Consults rt.lib remote) {e : MailboxEnvelope}
    (a : Accepted rt dev v e s s') (h : SessionsPinned remote s.signal) :
    SessionsPinned remote s'.signal := by
  obtain ⟨contact, address, message, -, -, hr, -, rfl⟩ := a
  cases hr with
  | before _ => exact h
  | now _ _ r =>
    obtain ⟨plaintext, signal, ⟨payload, store, -, hd, -, rfl⟩, -, rfl⟩ := r
    have hk : SessionsPinned remote store := decryptBody_pinned hlib h hd
    exact hk

theorem Committed.sessionsPinned (hlib : Consults rt.lib remote) {input : SendInput}
    {contact : ContactIdentifiers} {address : Text} {verified : Option VerifiedBundle}
    (m : Committed rt dev v input contact address verified s s')
    (h : SessionsPinned remote s.signal) : SessionsPinned remote s'.signal := by
  have hest : SessionsPinned remote m.established := by
    rcases m.session with ⟨-, he⟩ | ⟨b, -, he⟩
    · rw [he]; exact h
    · obtain ⟨-, -, hp⟩ := SignalClient.establish_ok he
      have hk := h.records (hlib.processPreKeyBundle b.bundle address v.entropy)
      rwa [hp] at hk
  rw [m.after]
  obtain ⟨-, he⟩ | ⟨-, message, σ, hm, -, he⟩ := SignalClient.encrypt_ok m.encrypted
  · rw [he]; exact hest
  · have hk := hest.records (hlib.encrypt (rt.enc.payload input.messageId input.plaintext) address
      v.entropy)
    rw [hm] at hk
    rw [he]
    exact hk

/-- **Every call keeps the pins**, where an import is of a device at its address. -/
theorem PinsInv.effect (hlib : Consults rt.lib remote) (h : PinsInv remote s)
    (he : Effect rt dev v s c s')
    (hv : ∀ verified, c = .importContact verified →
      verified.bundle.identifiers.at verified.address) : PinsInv remote s' := by
  have hcontact : ∀ {id k}, s.contacts.get id = some k → s'.contacts.get id = some k :=
    fun h => he.contact_stays h
  have htrust : ∀ {a k}, s.signal.trust.get a = some k → s'.signal.trust.get a = some k :=
    fun h => he.trust_stays h
  cases he with
  | accepted a => exact h.frame a.contacts a.trust (a.sessionsPinned hlib h.session)
  | @imported verified hc ht =>
    have hat := hv verified rfl
    have hnewc : (s.contacts.insert verified.bundle.identifiers.identityId
        verified.bundle.identifiers).get verified.bundle.identifiers.identityId =
          some verified.bundle.identifiers := SortedMap.get_insert_self ..
    have hnewt : (s.signal.trust.insert verified.address verified.bundle.signalIdentityKey).get
        verified.address = some verified.bundle.signalIdentityKey := SortedMap.get_insert_self ..
    refine ⟨fun {id k} hget => ?_, fun {a k} hget => ?_, fun a r hr => htrust (h.session a r hr)⟩
    · by_cases hid : id = verified.bundle.identifiers.identityId
      · subst hid
        cases hnewc.symm.trans hget
        exact ⟨rfl, verified.address, hat, hnewt⟩
      · change (s.contacts.insert _ _).get id = _ at hget
        rw [SortedMap.get_insert_ne _ _ hid] at hget
        obtain ⟨hk, a, ha, hka⟩ := h.contact hget
        exact ⟨hk, a, ha, htrust hka⟩
    · by_cases ha : a = verified.address
      · subst ha
        cases hnewt.symm.trans hget
        exact ⟨verified.bundle.identifiers, hnewc, hat, rfl⟩
      · change (s.signal.trust.insert _ _).get a = _ at hget
        rw [SortedMap.get_insert_ne _ _ ha] at hget
        obtain ⟨k', hk', hat', hkey⟩ := h.trust hget
        exact ⟨k', hcontact hk', hat', hkey⟩
  | committed m =>
    exact h.frame (by rw [m.after]) m.trust (m.sessionsPinned hlib h.session)
  | published _ p =>
    obtain ⟨_, _, _, rfl⟩ := p
    exact h.frame rfl rfl h.session
  | _ => exact h.frame rfl rfl h.session

/-- A contact was there before, or is imported now. -/
theorem Effect.new_contact (he : Effect rt dev v s c s') {id : Text} {k : ContactIdentifiers}
    (hk : s'.contacts.get id = some k) : s.contacts.get id = some k ∨
      s.contacts.get id = none ∧ k.identityId = id ∧
        ∃ verified, c = .importContact verified ∧ verified.bundle.identifiers = k := by
  cases he with
  | accepted a =>
    rw [a.contacts] at hk
    exact Or.inl hk
  | @imported verified hc _ =>
    change (s.contacts.insert _ _).get id = _ at hk
    rw [SortedMap.get_insert] at hk
    split_ifs at hk with hid
    · cases hk
      subst hid
      rcases hc with hn | hs
      · exact Or.inr ⟨hn, rfl, verified, rfl, rfl⟩
      · exact Or.inl hs
    · exact Or.inl hk
  | committed m =>
    rw [m.after] at hk
    exact Or.inl hk
  | published _ p =>
    obtain ⟨_, _, _, rfl⟩ := p
    exact Or.inl hk
  | _ => exact Or.inl hk

/-- An approved key was there before, or is imported now. -/
theorem Effect.new_trust (he : Effect rt dev v s c s') {address key : Text}
    (hk : s'.signal.trust.get address = some key) : s.signal.trust.get address = some key ∨
      s.signal.trust.get address = none ∧ ∃ verified, c = .importContact verified ∧
        verified.address = address ∧ verified.bundle.signalIdentityKey = key ∧
        s'.contacts.get verified.bundle.identifiers.identityId =
          some verified.bundle.identifiers := by
  cases he with
  | accepted a =>
    rw [a.trust] at hk
    exact Or.inl hk
  | @imported verified _ ht =>
    change (s.signal.trust.insert _ _).get address = _ at hk
    rw [SortedMap.get_insert] at hk
    split_ifs at hk with ha
    · cases hk
      subst ha
      rcases ht with hn | hs
      · exact Or.inr ⟨hn, verified, rfl, rfl, rfl, SortedMap.get_insert_self ..⟩
      · exact Or.inl hs
    · exact Or.inl hk
  | committed m =>
    rw [m.trust] at hk
    exact Or.inl hk
  | published _ p =>
    obtain ⟨_, _, _, rfl⟩ := p
    exact Or.inl hk
  | _ => exact Or.inl hk

/-- A message is recorded in a session under the pinned key of its sender. -/
theorem Accepted.session (hlib : Consults rt.lib remote) (h : PinsInv remote s)
    {e : MailboxEnvelope} (a : Accepted rt dev v e s s') (hnew : s'.history ≠ s.history) :
    ∃ contact address session, PinnedSender s e contact address ∧
      s'.signal.session.get address = some session ∧
        remote session = contact.signalIdentityKey := by
  have hpinned := a.sessionsPinned hlib h.session
  have htrust := a.trust
  obtain ⟨contact, address, message, -, hsend, hr, -, rfl⟩ := a
  cases hr with
  | before _ => exact absurd rfl hnew
  | now _ _ r =>
    obtain ⟨plaintext, signal, ⟨payload, store, -, hd, -, rfl⟩, -, rfl⟩ := r
    obtain ⟨session, hs⟩ := Option.isSome_iff_exists.1 (decryptBody_session hlib hd)
    refine ⟨contact, address, session, hsend, hs, ?_⟩
    have hk := hpinned address session hs
    rw [htrust, hsend.trusted] at hk
    exact (Option.some.inj hk).symm

/-! ## The log -/

/-- The operator confirmed these identifiers. -/
def ClientCall.confirms (k : ContactIdentifiers) : (c : ClientCall) → Except Failure c.Answer → Prop
  | .confirm k', r => k' = k ∧ r = .ok true
  | _, _ => False

def Confirmed (k : ContactIdentifiers) (log : List Moment) : Prop :=
  ∃ m ∈ log, m.call.confirms k m.answer

/-- A call is an import of a contact whose four identifiers were confirmed. -/
structure Imports (pre : List Moment) (m : Moment) (k : ContactIdentifiers) : Prop where
  call : ∃ verified, m.call = .importContact verified ∧ verified.bundle.identifiers = k
  confirmed : Confirmed k pre

/-- No contact and no approved key has changed. -/
structure PinsKept (s s' : ClientStore) : Prop where
  contact : ∀ {id c}, s.contacts.get id = some c → s'.contacts.get id = some c
  trust : ∀ {address key}, s.signal.trust.get address = some key →
    s'.signal.trust.get address = some key

/-- What pins a call may make, and what it may record. -/
structure PinStep (remote : Bytes → Text) (s₀ : ClientStore) (pre : List Moment) (m : Moment) :
    Prop where
  contact : ∀ {id k}, m.store.contacts.get id = some k →
    (before s₀ pre).contacts.get id = some k ∨
      (before s₀ pre).contacts.get id = none ∧ k.identityId = id ∧ Imports pre m k
  trust : ∀ {address key}, m.store.signal.trust.get address = some key →
    (before s₀ pre).signal.trust.get address = some key ∨
      (before s₀ pre).signal.trust.get address = none ∧ ∃ k, k.at address ∧
        k.signalIdentityKey = key ∧ m.store.contacts.get k.identityId = some k ∧ Imports pre m k
  kept : PinsKept (before s₀ pre) m.store
  recorded : ∀ {e}, m.call = .acceptOne e → m.store.history ≠ (before s₀ pre).history →
    ∃ contact address session, PinnedSender (before s₀ pre) e contact address ∧
      m.store.signal.session.get address = some session ∧
        remote session = contact.signalIdentityKey

structure PinsLog (remote : Bytes → Text) (s₀ : ClientStore) (w : Ledger) : Prop where
  store : w.store = before s₀ w.log
  inv : PinsInv remote w.store
  step : EachMoment (PinStep remote s₀) w.log

/-- **One call.** An import must be of a device at its address, and confirmed. -/
theorem PinsLog.logged (hlib : Consults rt.lib remote) {w : Ledger} (h : PinsLog remote s₀ w)
    {v : Surroundings} {r : Except Failure c.Answer} (hp : Performed rt dev record c v w.store r s)
    (hc : ∀ verified, c = .importContact verified →
      verified.bundle.identifiers.at verified.address ∧
        Confirmed verified.bundle.identifiers w.log) : PinsLog remote s₀ (w.logged c r s) := by
  have he := performed_effect hp
  refine ⟨rfl, h.inv.effect hlib he fun verified hv => (hc verified hv).1, h.step.cons ?_⟩
  have hstore := h.store
  constructor
  · intro id k hk
    rw [← hstore]
    obtain hold | ⟨hn, hid, verified, rfl, rfl⟩ := he.new_contact hk
    · exact Or.inl hold
    · exact Or.inr ⟨hn, hid, ⟨verified, rfl, rfl⟩, (hc verified rfl).2⟩
  · intro address key hk
    rw [← hstore]
    obtain hold | ⟨hn, verified, rfl, rfl, rfl, hget⟩ := he.new_trust hk
    · exact Or.inl hold
    · exact Or.inr ⟨hn, verified.bundle.identifiers, (hc verified rfl).1, rfl, hget,
        ⟨verified, rfl, rfl⟩, (hc verified rfl).2⟩
  · rw [← hstore]
    exact ⟨he.contact_stays, he.trust_stays⟩
  · intro e hcall hnew
    rw [← hstore] at hnew ⊢
    obtain rfl : c = .acceptOne e := hcall
    cases r with
    | error f => exact absurd (by rw [performed_error hp]) hnew
    | ok a =>
      obtain ⟨ha⟩ := acceptOne_ok (attempt_ok hp)
      exact ha.session hlib h.inv hnew

/-! ## The commands -/

/-- Any processes over a store: the log only grows. -/
abbrev pinning (rt : Runtime) (dev : Device) (record : DeviceRecord) (remote : Bytes → Text)
    (s₀ : ClientStore) : Contract ClientCall ClientCall.Answer Failure Surroundings Ledger :=
  onLedger rt dev record (fun _ _ _ => True) (PinsLog remote s₀) (fun w w' => w.log <:+ w'.log)
    fun w w' => w.log <:+ w'.log

/-- Calls that pin nothing. -/
def Unpinning (c : ClientCall) : Prop := ∀ verified, c ≠ .importContact verified

theorem unpinning_safe (hlib : Consults rt.lib remote) {α : Type} {p : Messenger α}
    {K : Ledger → Prop} (h : p.Only Unpinning) :
    (pinning rt dev record remote s₀).Safe (fun _ _ => True) K p := by
  refine Contract.Safe.only (fun c v w r w' hc hi _ hx => ?_) h
  obtain ⟨s, rfl, hs⟩ := perform_logged rt dev record hx
  exact ⟨hi.logged hlib hs fun verified he => absurd he (hc verified), List.suffix_cons ..⟩

theorem importVerifiedSignalBundleV2_eq {wire : WireBundle} {identityId deviceId : Text} {now : ℤ}
    {verified : VerifiedBundle}
    (h : importVerifiedSignalBundleV2 rt wire identityId deviceId now = some verified) :
    signalAddressForDevice identityId deviceId = some verified.address ∧
      verified.bundle = wire := by
  unfold importVerifiedSignalBundleV2 at h
  split at h
  · cases h
  next address ha =>
    split_ifs at h
    cases h
    exact ⟨ha, rfl⟩

theorem Confirmed.stable {k : ContactIdentifiers} :
    (pinning rt dev record remote s₀).Stable fun w => Confirmed k w.log := by
  rintro w w' _ _ hl ⟨m, hm, hk⟩
  exact ⟨m, hl.subset hm, hk⟩

theorem confirm_safe (hlib : Consults rt.lib remote) {k : ContactIdentifiers} {K : Ledger → Prop} :
    (pinning rt dev record remote s₀).Safe (fun r w => r = .ok true → Confirmed k w.log) K
      (perform (.confirm k)) := by
  refine safe_perform (fun r w w' hi hi' hl h hr => ?_) fun v w r s hi _ _ hs => ?_
  · exact Confirmed.stable w w' hi hi' hl (h hr)
  · have hi' := hi.logged hlib hs fun verified he => by cases he
    exact ⟨⟨hi', List.suffix_cons ..⟩, fun hr => ⟨_, List.mem_cons_self .., rfl, hr⟩⟩

/-- An import pins what was confirmed. -/
theorem importContactCard_safe (hlib : Consults rt.lib remote) {card : WireBundle}
    {K : Ledger → Prop} : (pinning rt dev record remote s₀).Safe (fun _ _ => True) K
      (importContactCard rt card) := by
  unfold importContactCard
  split_ifs
  · exact fun _ _ _ => trivial
  refine (unpinning_safe hlib (Program.Only.perform (P := Unpinning) fun _ h => by cases h)).bind
    (fun now => ?_) fun _ _ _ _ => trivial
  split
  · exact fun _ _ _ => trivial
  next verified hv =>
    obtain ⟨hat, hb⟩ := importVerifiedSignalBundleV2_eq hv
    refine (confirm_safe hlib).bind (fun confirmed => ?_) fun _ _ _ _ => trivial
    split_ifs with hyes
    · subst hyes
      refine safe_perform (fun _ => .true) fun v w r s hi hk _ hs => ?_
      refine ⟨⟨hi.logged hlib hs fun verified' he => ?_, List.suffix_cons ..⟩, trivial⟩
      cases he
      rw [hb]
      exact ⟨hat, hk rfl⟩
    · exact fun _ _ _ => trivial

theorem Job.pins (hlib : Consults rt.lib remote) (j : Job) :
    (pinning rt dev record remote s₀).Safe (fun _ _ => True) (fun _ => True) (j.program rt dev) := by
  have hpoll : ∀ c : ClientCall, c.ofPoll → Unpinning c := by
    rintro c hc verified rfl
    rcases hc with h | h | h
    · cases h
    · exact h
    · exact h
  have hsend : ∀ c : ClientCall, c.ofSend → Unpinning c := by
    rintro c hc verified rfl
    rcases hc with h | h | h <;> exact h
  have hpublish : ∀ c : ClientCall, c.ofPublish → Unpinning c := by
    rintro c hc verified rfl
    exact hc
  cases j with
  | poll => exact unpinning_safe hlib ((poll_only.mono hpoll).bind fun _ => trivial)
  | retryPendingAcks =>
    exact unpinning_safe hlib ((retryPendingAcks_only.mono hpoll).bind fun _ => trivial)
  | send input => exact unpinning_safe hlib ((send_only.mono hsend).bind fun _ => trivial)
  | retryPending => exact unpinning_safe hlib ((retryPending_only.mono hsend).bind fun _ => trivial)
  | publish => exact unpinning_safe hlib ((publish_only.mono hpublish).bind fun _ => trivial)
  | importContact card =>
    exact (importContactCard_safe hlib).bind (fun _ _ _ _ => trivial) fun _ _ _ _ => trivial

theorem ClientStore.Initial.pinsLog (h : s₀.Initial) : PinsLog remote s₀ ⟨s₀, []⟩ := by
  refine ⟨rfl, ⟨fun hk => ?_, fun hk => ?_, fun a r hr => ?_⟩, .nil⟩
  · change s₀.contacts.get _ = _ at hk
    rw [h.contacts] at hk
    cases hk
  · change s₀.signal.trust.get _ = _ at hk
    rw [h.trust] at hk
    cases hk
  · change s₀.signal.session.get _ = _ at hr
    rw [h.session] at hr
    cases hr

/-- An import pins only after its own question was answered with yes. -/
theorem importContactCard_asks (card : WireBundle) :
    (importContactCard rt card).Asks (ClientCall.confirms card.identifiers)
      (fun c => ∃ verified, c = .importContact verified) := by
  unfold importContactCard
  split_ifs
  · trivial
  refine ⟨fun h => ?_, fun r _ => ?_⟩
  · obtain ⟨_, h⟩ := h
    cases h
  cases r with
  | error e => trivial
  | ok now =>
    simp only [Program.bind]
    cases hv : importVerifiedSignalBundleV2 rt card card.deviceRecord.identityId
        card.deviceRecord.deviceId now with
    | none => trivial
    | some verified =>
      refine ⟨fun h => ?_, fun r hno => ?_⟩
      · obtain ⟨_, h⟩ := h
        cases h
      cases r with
      | error e => trivial
      | ok confirmed =>
        cases confirmed with
        | true => exact absurd ⟨rfl, rfl⟩ hno
        | false => trivial

/-- **Pins are confirmed, and never change.** Whatever processes do over a profile: a contact and
    an approved key appear only through an import of exactly these four identifiers, after they
    were confirmed; they stay as they are from then on; every session is under the key pinned for
    its address; and a message is recorded only in a session under the key pinned for its
    sender.  Every import asks its own question. -/
theorem pins_immutable (rt : Runtime) (dev : Device) (record : DeviceRecord)
    {remote : Bytes → Text} (hlib : Consults rt.lib remote) {s₀ : ClientStore} (h₀ : s₀.Initial)
    {pool : ProfilePool} (h : ProfileRun rt dev record (fun _ _ _ => True) s₀ pool) :
    EachMoment (PinStep remote s₀) pool.shared.log ∧
    (∀ post pre, pool.shared.log = post ++ pre → PinsKept (before s₀ pre) pool.shared.store) ∧
    (∀ address session, pool.shared.store.signal.session.get address = some session →
      ∃ c, pool.shared.store.contacts.get c.identityId = some c ∧ c.at address ∧
        remote session = c.signalIdentityKey) ∧
    ∀ card, (importContactCard rt card).Asks (ClientCall.confirms card.identifiers)
      (fun c => ∃ verified, c = .importContact verified) := by
  obtain ⟨hok, -⟩ := Contract.Ok.run (R := pinning rt dev record remote s₀) (Q := fun _ _ => True)
    (T := fun _ _ => True) (fun _ _ h => h) (Job.pins hlib) (fun _ => trivial)
    (fun _ _ _ _ _ _ _ => trivial) h (.idle h₀.pinsLog)
  obtain ⟨hstore, hinv, hstep⟩ := hok.inv
  refine ⟨hstep, fun post pre hsplit => ?_, fun address session hs => ?_, importContactCard_asks⟩
  · have heach : EachMoment (fun pre m => PinsKept (before s₀ pre) m.store) (post ++ pre) := by
      rw [← hsplit]
      exact fun post m pre hs => (hstep post m pre hs).kept
    rw [hstore, hsplit]
    exact heach.between (fun s => ⟨fun h => h, fun h => h⟩)
      fun s s' s'' h h' => ⟨fun hc => h'.contact (h.contact hc), fun ht => h'.trust (h.trust ht)⟩
  · obtain ⟨c, hc, hat, hk⟩ := hinv.trust (hinv.session address session hs)
    exact ⟨c, hc, hat, hk.symm⟩

/-! ## The plain library -/

theorem trustedSession_careful {α : Type} {address : Text} {session : Bytes} {a : α} :
    Careful textOf (trustedSession address session a) := by
  intro address' session'
  refine ⟨fun h => (by cases h), fun r hno => ?_⟩
  cases r with
  | error e => trivial
  | ok trusted =>
    cases trusted with
    | false => trivial
    | true =>
      refine ⟨fun h => ?_, fun r _ => ?_⟩
      · cases h
        exact hno ⟨rfl, rfl, rfl⟩
      · cases r <;> trivial

theorem trustedSession_returns {α : Type} {address : Text} {session : Bytes} {a : α} :
    (trustedSession address session a).Returns (saves address) := by
  intro r _
  cases r with
  | error e => trivial
  | ok trusted =>
    cases trusted with
    | false => trivial
    | true =>
      intro r hno
      cases r with
      | error e => trivial
      | ok u => exact absurd rfl hno

theorem existingSession_careful {α : Type} {address : Text} {a : α} :
    Careful textOf (existingSession address a) := by
  intro address' session'
  refine ⟨fun h => (by cases h), fun r _ => ?_⟩
  cases r with
  | error e => trivial
  | ok session =>
    cases session with
    | none => trivial
    | some session => exact trustedSession_careful address' session'

theorem existingSession_returns {α : Type} {address : Text} {a : α} :
    (existingSession address a).Returns (saves address) := by
  intro r _
  cases r with
  | error e => trivial
  | ok session =>
    cases session with
    | none => trivial
    | some session => exact trustedSession_returns

theorem approvedSession_careful {α : Type} {address : Text} {a : α} :
    Careful textOf (approvedSession address a) := by
  intro address' session'
  refine ⟨fun h => (by cases h), fun r _ => ?_⟩
  cases r with
  | error e => trivial
  | ok key =>
    cases key with
    | none => trivial
    | some key => exact trustedSession_careful address' session'

theorem approvedSession_returns {α : Type} {address : Text} {a : α} :
    (approvedSession address a).Returns (saves address) := by
  intro r _
  cases r with
  | error e => trivial
  | ok key =>
    cases key with
    | none => trivial
    | some key => exact trustedSession_returns

theorem plainLibsignal_consults : Consults plainLibsignal textOf where
  decryptPreKey _ _ _ := approvedSession_careful
  decrypt _ _ _ := existingSession_careful
  processPreKeyBundle _ _ _ := trustedSession_careful
  encrypt _ _ _ := existingSession_careful
  savedPreKey _ _ _ := approvedSession_returns
  saved _ _ _ := existingSession_returns

/-- A contact is imported, and its first message makes a session: under the key of its card. -/
theorem pins_immutable_first : ∃ pool,
    ProfileRun plainRuntime plainDevice plainRecord (fun _ _ _ => True) emptyStore pool ∧
    EachMoment (PinStep textOf emptyStore) pool.shared.log ∧
    pool.shared.store.contacts.get (plainId 'E') = some plainCard.identifiers ∧
    ∃ session c, pool.shared.store.signal.session.get plainAddress = some session ∧
      pool.shared.store.contacts.get c.identityId = some c ∧ c.at plainAddress ∧
        textOf session = c.signalIdentityKey := by
  let o := replay (Pool.step (Ledger.perform plainRuntime plainDevice plainRecord)
    (Job.program plainRuntime plainDevice)) (Pool.Meets fun _ _ _ => True)
    (firstImport 0 ++ firstPoll 0 (firstEnvelope 'E' ['x']))
    (⟨⟨emptyStore, []⟩, fun _ => none⟩ : ProfilePool)
  have ho : o.elim false (fun pool =>
      decide (pool.shared.store.contacts.get (plainId 'E') = some plainCard.identifiers) &&
      (pool.shared.store.signal.session.get plainAddress).isSome) = true := by decide +kernel
  obtain ⟨pool, hpool⟩ : ∃ pool, o = some pool := by
    cases h : o with
    | none => rw [h] at ho; cases ho
    | some pool => exact ⟨pool, rfl⟩
  have hrun := Run.of_replay hpool
  rw [hpool, Option.elim_some, Bool.and_eq_true, Option.isSome_iff_exists] at ho
  obtain ⟨hcontact, session, hs⟩ := ho
  obtain ⟨hstep, -, hsession, -⟩ := pins_immutable plainRuntime plainDevice plainRecord
    plainLibsignal_consults emptyStore_initial hrun
  obtain ⟨c, hc, hat, hk⟩ := hsession _ session hs
  exact ⟨pool, hrun, hstep, of_decide_eq_true hcontact, session, c, hs, hc, hat, hk⟩

end Echolet
