/-
  The one-time prekeys of a profile, from their allocation to the message that consumes them.

  * `PreKeyCall` are the transactions that allocate, offer and consume one-time prekeys, or pin a
    contact; `PreKeys` is a profile with what was done with its prekeys so far;
  * `Mint` is what one bundle does to the store, `Offers` what several do, one after the other
    (`Offers.cons`); `PoolKept` is a step that makes none;
  * `Base` is the invariant of every run, `Pool` the one of the runs in which a bundle around the
    current prekey is only made first (`Rooted`);
  * `one_time_prekeys`: the ids that are committed always increase, and in these runs no id is
    offered twice and the slots have prekeys of their own; `one_time_prekeys_missing`: in others
    a slot has none, or the one of another slot.
-/
import Echolet.Client.Plain
import Echolet.Lib.Runs

namespace Echolet

/-! ## What is done with prekeys -/

inductive PreKeyCall where
  | rotatePublicationBundle
  | publicationBundle
  | restorePublicationPool
  | replacePublicationSlot (slot : ℕ)
  | acceptOne (e : MailboxEnvelope)
  | importContact (verified : VerifiedBundle)

namespace PreKeyCall

section
variable (rt : Runtime) (dev : Device) (record : DeviceRecord)

def transaction (v : Surroundings) : PreKeyCall → StoreTx Unit
  | rotatePublicationBundle => do let _ ← Echolet.rotatePublicationBundle rt record v.within
  | publicationBundle => do let _ ← Echolet.publicationBundle rt record v.within
  | restorePublicationPool => do let _ ← Echolet.restorePublicationPool rt record v.mints
  | replacePublicationSlot slot => do
    let _ ← Echolet.replacePublicationSlot rt record v.within slot
  | acceptOne e => Echolet.acceptOne rt dev v.within e
  | importContact verified => do let _ ← Echolet.importContact verified

/-- The answer of a call, which may be thrown at any point, and the store after it. -/
def run (v : Surroundings) (c : PreKeyCall) (s : ClientStore) : Except Failure Unit × ClientStore :=
  attempt v (c.transaction rt dev record v) s

end

/-- Whether a message is received. -/
def receives : PreKeyCall → Bool
  | acceptOne _ => true
  | _ => false

/-- A bundle is made without a rotation, around the current prekey. -/
def Unrotated (s : ClientStore) : PreKeyCall → Prop
  | publicationBundle => s.publication.get 0 = none
  | restorePublicationPool => ∀ slot < poolTarget, s.publication.get slot = none
  | _ => False

end PreKeyCall

/-- The id of the current one-time prekey. -/
def ClientStore.currentId (s : ClientStore) : ℕ := s.signal.preCurrent.getD 1

/-- The id of the prekey in a slot. -/
def ClientStore.slotId (s : ClientStore) (slot : ℕ) : Option ℕ :=
  (s.publication.get slot).bind fun b => b.oneTimePreKey.map (·.keyId)

/-- The ids whose records a transaction wrote. -/
def committedBy (s s' : ClientStore) : List ℕ :=
  (s'.signal.pre.entries.map (·.1)).filter fun id => s'.signal.pre.get id ≠ s.signal.pre.get id

/-- The ids whose records a transaction removed. -/
def removedBy (s s' : ClientStore) : List ℕ :=
  (s.signal.pre.entries.map (·.1)).filter fun id => s'.signal.pre.get id = none

/-- The ids in the bundles that a transaction made, which fills slots from the highest on. -/
def offeredBy (s s' : ClientStore) : List ℕ :=
  ((List.range poolTarget).reverse.filter fun slot =>
    s'.publication.get slot ≠ s.publication.get slot).filterMap s'.slotId

/-- A profile, with the ids that were committed and offered so far, and those that were consumed
    by a message. -/
structure PreKeys where
  store : ClientStore
  committed : List ℕ
  offered : List ℕ
  consumed : List ℕ

namespace PreKeys

/-- A profile that was just created: prekey 1 is committed. -/
def start (s : ClientStore) : PreKeys := ⟨s, [1], [], []⟩

section
variable (rt : Runtime) (dev : Device) (record : DeviceRecord)

def step (k : PreKeys) (a : PreKeyCall × Surroundings) : Option PreKeys :=
  let s := (a.1.run rt dev record a.2 k.store).2
  some ⟨s, k.committed ++ committedBy k.store s, k.offered ++ offeredBy k.store s,
    if a.1.receives then k.consumed ++ removedBy k.store s else k.consumed⟩

/-- A bundle around the current prekey is made before any other one, and that prekey has not been
    consumed. -/
def Rooted (k : PreKeys) (a : PreKeyCall × Surroundings) : Prop :=
  (a.1.run rt dev record a.2 k.store).1 = .ok () → a.1.Unrotated k.store →
    (∀ slot < poolTarget, k.store.publication.get slot = none) ∧
      k.store.signal.pre.get k.store.currentId ≠ none

end

/-- **The slots have one-time prekeys of their own**, whose private keys are stored or consumed. -/
structure Distinct (lib : Libsignal) (k : PreKeys) : Prop where
  carried : ∀ slot b, k.store.publication.get slot = some b → ∃ key, b.oneTimePreKey = some key ∧
    (key.keyId ∈ k.consumed ∨ ∃ bytes, k.store.signal.pre.get key.keyId = some bytes ∧
      lib.preKeyPublic bytes = some key)
  apart : ∀ slot slot' id, slot ≠ slot' → k.store.slotId slot = some id →
    k.store.slotId slot' ≠ some id

end PreKeys

/-! ## The library -/

/-- A callback that may put a prekey in the store. -/
def RecordsCall.savesPreKey : RecordsCall → Prop
  | .savePreKey _ _ => True
  | _ => False

/-- What is relied on of libsignal: to decrypt a message, it reads and removes prekeys and saves
    none, and a prekey is read from a record with the id that it was made with. -/
structure KeepsPreKeys (lib : Libsignal) : Prop where
  decryptPreKey : ∀ body sender entropy,
    (lib.decryptPreKey body sender entropy).Only fun c => ¬ c.savesPreKey
  decrypt : ∀ body sender entropy, (lib.decrypt body sender entropy).Only fun c => ¬ c.savesPreKey
  readable : ∀ id entropy, ∃ key, lib.preKeyPublic (lib.generatePreKey id entropy) = some key ∧
    key.keyId = id

/-- Prekeys are removed at most, and the current one is the same. -/
structure SignalStore.Spends (σ σ' : SignalStore) : Prop where
  preCurrent : σ'.preCurrent = σ.preCurrent
  pre : ∀ id, σ'.pre.get id = σ.pre.get id ∨ σ'.pre.get id = none

theorem SignalStore.Spends.refl (σ : SignalStore) : σ.Spends σ := ⟨rfl, fun _ => Or.inl rfl⟩

theorem SignalStore.Spends.trans {σ σ' σ'' : SignalStore} (h : σ.Spends σ') (h' : σ'.Spends σ'') :
    σ.Spends σ'' := by
  refine ⟨h'.preCurrent.trans h.preCurrent, fun id => ?_⟩
  rcases h'.pre id with hid | hid
  · rw [hid]
    exact h.pre id
  · exact Or.inr hid

theorem Records.answer_spends {c : RecordsCall} (hc : ¬ c.savesPreKey) (σ : SignalStore) :
    σ.Spends (Records.answer c σ).2 := by
  have hneed : ∀ {α : Type} (f : SignalStore → Option α),
      ((do Tx.need (← Tx.read f) .other : SignalTx α) σ).2 = σ := by
    intro α f
    change (Tx.bind (Tx.read f) _ σ).2 = σ
    simp only [Tx.bind, Tx.read]
    cases f σ <;> rfl
  cases c with
  | getPreKey id => rw [Records.answer, hneed]; exact .refl σ
  | getSignedPreKey id => rw [Records.answer, hneed]; exact .refl σ
  | getKyberPreKey id => rw [Records.answer, hneed]; exact .refl σ
  | savePreKey id bytes => exact absurd trivial hc
  | removePreKey id =>
    refine ⟨rfl, fun id' => ?_⟩
    change (σ.pre.erase id).get id' = _ ∨ (σ.pre.erase id).get id' = none
    rw [SortedMap.get_erase]
    split_ifs
    · exact Or.inr rfl
    · exact Or.inl rfl
  | saveIdentity address key =>
    change σ.Spends (Tx.bind _ _ σ).2
    simp only [Tx.bind, Tx.read, Tx.ensure]
    split <;> exact .refl σ
  | markKyberPreKeyUsed id signedId baseKey =>
    change σ.Spends (Tx.bind _ _ σ).2
    simp only [Tx.bind]
    by_cases hu : σ.used.get (usedKey id signedId baseKey) = none
    · rw [Tx.ensure, if_pos hu]
      exact ⟨rfl, fun _ => Or.inl rfl⟩
    · rw [Tx.ensure, if_neg hu]
      exact .refl σ
  | _ => exact ⟨rfl, fun _ => Or.inl rfl⟩

theorem decryptBody_spends {lib : Libsignal} (hlib : KeepsPreKeys lib) {address : Text} {type : ℕ}
    {body payload : Bytes} {entropy : ℕ} {σ σ' : SignalStore}
    (h : SignalClient.decryptBody lib address type body entropy σ = (.ok payload, σ')) :
    σ.Spends σ' := by
  have hrecords : ∀ {p : RecordsProgram Bytes}, p.Only (fun c => ¬ c.savesPreKey) →
      SignalClient.records p σ = (.ok payload, σ') → σ.Spends σ' := by
    intro p hp h
    have hspends : σ.Spends (SignalClient.records p σ).2 :=
      Program.Only.run (fun _ _ hc h => h.trans (Records.answer_spends hc _)) hp (.refl σ)
    rwa [h] at hspends
  unfold SignalClient.decryptBody at h
  split_ifs at h
  · exact hrecords (hlib.decryptPreKey body address entropy) h
  · exact hrecords (hlib.decrypt body address entropy) h
  · exact absurd h Tx.throw_ok

section
variable {rt : Runtime} {dev : Device} {record : DeviceRecord} {v : Circumstances}
  {s s' s₁ : ClientStore} {lib : Libsignal}

/-- The pool is as it was, and prekeys are removed at most. -/
structure PoolKept (s s' : ClientStore) : Prop where
  publication : s'.publication = s.publication
  signal : s.signal.Spends s'.signal

theorem PoolKept.refl (s : ClientStore) : PoolKept s s := ⟨rfl, .refl _⟩

theorem PoolKept.currentId (q : PoolKept s s') : s'.currentId = s.currentId := by
  rw [ClientStore.currentId, q.signal.preCurrent, ClientStore.currentId]

theorem Accepted.quiet (hlib : KeepsPreKeys rt.lib) {e : MailboxEnvelope}
    (a : Accepted rt dev v e s s') : PoolKept s s' := by
  obtain ⟨contact, address, message, -, -, hr, -, rfl⟩ := a
  cases hr with
  | before _ => exact ⟨rfl, .refl _⟩
  | now _ _ r =>
    obtain ⟨plaintext, signal, ⟨payload, store, -, hd, -, rfl⟩, -, rfl⟩ := r
    have hspends := decryptBody_spends hlib hd
    exact ⟨rfl, hspends.preCurrent, hspends.pre⟩

theorem importContact_quiet {verified : VerifiedBundle} {b : Bool}
    (h : importContact verified s = (.ok b, s')) : PoolKept s s' ∧ s'.signal.pre = s.signal.pre := by
  obtain ⟨-, -, rfl⟩ := importContact_ok h
  exact ⟨⟨rfl, rfl, fun _ => Or.inl rfl⟩, rfl⟩

/-! ## One bundle -/

/-- A bundle is put in a slot: it is around the prekey that is the current one now, which is
    stored, and numbers above every earlier one may have been given to new records. -/
structure Mint (lib : Libsignal) (slot lo : ℕ) (s s' : ClientStore) (key : OneTimePreKey) : Prop where
  current : s'.currentId = key.keyId
  above : lo < key.keyId
  grows : s.currentId ≤ s'.currentId
  kept : ∀ id ≤ s.currentId, s'.signal.pre.get id = s.signal.pre.get id
  fresh : ∀ id bytes, s'.signal.pre.get id = some bytes → s.signal.pre.get id = some bytes ∨
    id ≤ s'.currentId ∧ ∃ key, lib.preKeyPublic bytes = some key ∧ key.keyId = id
  stored : ∃ bytes, s'.signal.pre.get key.keyId = some bytes ∧ lib.preKeyPublic bytes = some key
  publication : ∃ b, s'.publication = s.publication.insert slot b ∧ b.oneTimePreKey = some key

/-- **A bundle after a rotation** is around a new prekey. -/
theorem Minted.mint (hlib : KeepsPreKeys rt.lib) {slot : ℕ} {b : WireBundle}
    (m : Minted rt record v slot true s b s') : ∃ key, Mint rt.lib slot s.currentId s s' key := by
  obtain ⟨signal, ⟨hfalse, -⟩ | ⟨-, next, hnext, rfl⟩, hsigned, rfl⟩ := m
  · cases hfalse
  obtain ⟨key, hkey, rfl⟩ := hlib.readable next v.entropy
  have hget : (s.signal.pre.insert key.keyId (rt.lib.generatePreKey key.keyId v.entropy)).get
      key.keyId = some (rt.lib.generatePreKey key.keyId v.entropy) := SortedMap.get_insert_self ..
  refine ⟨key, rfl, hnext, hnext.le, fun id hid => ?_, fun id bytes h => ?_, ⟨_, hget, hkey⟩, b, rfl, ?_⟩
  · exact SortedMap.get_insert_ne _ _ (hid.trans_lt hnext).ne
  · by_cases hid : id = key.keyId
    · rw [hid] at h ⊢
      rw [Option.some.inj (hget.symm.trans h)] at hkey
      exact Or.inr ⟨le_rfl, key, hkey, rfl⟩
    · exact Or.inl ((SortedMap.get_insert_ne _ _ hid).symm.trans h)
  · rw [hsigned.oneTimePreKey]
    change ((s.signal.pre.insert key.keyId _).get key.keyId).bind _ = _
    rw [hget]
    exact hkey

end

/-! ## Several bundles -/

section
variable {rt : Runtime} {record : DeviceRecord} {s s' s₁ : ClientStore} {lib : Libsignal}
  {slot n lo : ℕ} {key : OneTimePreKey}

/-- Whether a slot was filled anew. -/
abbrev Changed (s s' : ClientStore) (slot : ℕ) : Prop :=
  s'.publication.get slot ≠ s.publication.get slot

/-- A slot has a prekey with a number above `lo`, which is stored. -/
def Fills (lib : Libsignal) (lo slot : ℕ) (s' : ClientStore) : Prop :=
  ∃ b key bytes, s'.publication.get slot = some b ∧ b.oneTimePreKey = some key ∧ lo < key.keyId ∧
    key.keyId ≤ s'.currentId ∧ s'.signal.pre.get key.keyId = some bytes ∧
    lib.preKeyPublic bytes = some key

/-- Bundles are put in slots below `n`, one after the other, from the highest slot on. -/
structure Offers (lib : Libsignal) (n lo : ℕ) (s s' : ClientStore) : Prop where
  grows : s.currentId ≤ s'.currentId
  kept : ∀ id ≤ s.currentId, s'.signal.pre.get id = s.signal.pre.get id
  fresh : ∀ id bytes, s'.signal.pre.get id = some bytes → s.signal.pre.get id = some bytes ∨
    id ≤ s'.currentId ∧ ∃ key, lib.preKeyPublic bytes = some key ∧ key.keyId = id
  fills : ∀ slot, Changed s s' slot → slot < n ∧ Fills lib lo slot s'
  order : ∀ i j a b, j < i → Changed s s' i → Changed s s' j → s'.slotId i = some a →
    s'.slotId j = some b → a < b
  latest : s'.currentId = s.currentId ∧ s'.publication = s.publication ∨
    ∃ slot, s'.slotId slot = some s'.currentId

theorem Offers.refl (s : ClientStore) : Offers lib n lo s s :=
  ⟨le_rfl, fun _ _ => rfl, fun _ _ => Or.inl, fun _ h => absurd rfl h, fun _ _ _ _ _ h => absurd rfl h,
    Or.inl ⟨rfl, rfl⟩⟩

theorem Offers.mono (h : Offers lib n lo s s') {m : ℕ} (hm : n ≤ m) : Offers lib m lo s s' :=
  ⟨h.grows, h.kept, h.fresh, fun slot hc => ⟨(h.fills slot hc).1.trans_le hm, (h.fills slot hc).2⟩,
    h.order, h.latest⟩

theorem slotId_eq {b : WireBundle} (hb : s.publication.get slot = some b)
    (hk : b.oneTimePreKey = some key) : s.slotId slot = some key.keyId := by
  rw [ClientStore.slotId, hb, Option.bind_some, hk]
  rfl

theorem Fills.slotId (h : Fills lib lo slot s) : ∃ id, s.slotId slot = some id ∧ lo < id ∧
    id ≤ s.currentId := by
  obtain ⟨b, key, -, hb, hk, hlo, hle, -⟩ := h
  exact ⟨key.keyId, slotId_eq hb hk, hlo, hle⟩

theorem Mint.slotId (m : Mint lib slot lo s s₁ key) : s₁.slotId slot = some key.keyId := by
  obtain ⟨b, hb, hk⟩ := m.publication
  refine slotId_eq ?_ hk
  rw [hb, SortedMap.get_insert_self]

theorem Mint.get_ne (m : Mint lib slot lo s s₁ key) {i : ℕ} (hi : i ≠ slot) :
    s₁.publication.get i = s.publication.get i := by
  obtain ⟨b, hb, -⟩ := m.publication
  rw [hb, SortedMap.get_insert_ne _ _ hi]

/-- **One bundle, and then others in lower slots.** -/
theorem Offers.cons (m : Mint lib slot lo s s₁ key) (h : Offers lib slot s₁.currentId s₁ s') :
    Offers lib (slot + 1) lo s s' := by
  have hunchanged : ∀ i, ¬ i < slot → s'.publication.get i = s₁.publication.get i := fun i hi =>
    not_not.1 fun hc => hi (h.fills i hc).1
  have hslot : s'.slotId slot = some key.keyId := by
    rw [ClientStore.slotId, hunchanged slot (lt_irrefl _)]
    exact m.slotId
  -- a slot that was filled is this one, or a lower one after it
  have hcases : ∀ i, Changed s s' i → i = slot ∨ i < slot ∧ Changed s₁ s' i := by
    intro i hc
    by_cases hi : i = slot
    · exact Or.inl hi
    · have hc₁ : Changed s₁ s' i := by rwa [Changed, m.get_ne hi]
      exact Or.inr ⟨(h.fills i hc₁).1, hc₁⟩
  refine ⟨m.grows.trans h.grows, fun id hid => ?_, fun id bytes hget => ?_, fun i hc => ?_,
    fun i j a b hji hi hj ha hb => ?_, Or.inr ?_⟩
  · rw [h.kept id (hid.trans m.grows), m.kept id hid]
  · rcases h.fresh id bytes hget with hold | hnew
    · rcases m.fresh id bytes hold with hold | ⟨hle, hkey⟩
      · exact Or.inl hold
      · exact Or.inr ⟨hle.trans h.grows, hkey⟩
    · exact Or.inr hnew
  · rcases hcases i hc with rfl | ⟨hlt, hc₁⟩
    · obtain ⟨b, hb, hk⟩ := m.publication
      obtain ⟨bytes, hbytes, hpublic⟩ := m.stored
      refine ⟨Nat.lt_succ_self _, b, key, bytes, ?_, hk, m.above, ?_, ?_, hpublic⟩
      · rw [hunchanged i (lt_irrefl _), hb, SortedMap.get_insert_self]
      · rw [← m.current]
        exact h.grows
      · rw [h.kept _ m.current.ge, hbytes]
    · obtain ⟨-, b, k, bytes, hb, hk, hlo, hrest⟩ := h.fills i hc₁
      have hlow := (m.above.trans_eq m.current.symm).trans hlo
      exact ⟨hlt.trans (Nat.lt_succ_self _), b, k, bytes, hb, hk, hlow, hrest⟩
  · rcases hcases j hj with rfl | ⟨-, hj₁⟩
    · rcases hcases i hi with rfl | ⟨hlt, -⟩
      · exact absurd hji (lt_irrefl _)
      · exact absurd hji hlt.le.not_gt
    · rcases hcases i hi with rfl | ⟨-, hi₁⟩
      · obtain ⟨id, hid, hlo, -⟩ := (h.fills j hj₁).2.slotId
        rw [hslot] at ha
        rw [hb] at hid
        cases ha
        cases hid
        rw [← m.current]
        exact hlo
      · exact h.order i j a b hji hi₁ hj₁ ha hb
  · rcases h.latest with ⟨hsame, -⟩ | hlatest
    · exact ⟨slot, by rw [hslot, hsame, m.current]⟩
    · exact hlatest

/-- The slots that were filled in this order make an increasing list. -/
theorem Offers.offeredBy_sorted (h : Offers lib n lo s s') : (offeredBy s s').Pairwise (· < ·) := by
  unfold offeredBy
  rw [List.pairwise_filterMap]
  have hrange : ((List.range poolTarget).reverse.filter fun slot =>
      s'.publication.get slot ≠ s.publication.get slot).Pairwise (· > ·) :=
    (List.pairwise_reverse.2 List.pairwise_lt_range).filter _
  refine hrange.imp_of_mem fun {i j} hi hj hij a ha b hb => ?_
  exact h.order i j a b hij (of_decide_eq_true (List.mem_filter.1 hi).2)
    (of_decide_eq_true (List.mem_filter.1 hj).2) ha hb

theorem mem_offeredBy {id : ℕ} (h : id ∈ offeredBy s s') : ∃ slot, Changed s s' slot ∧
    s'.slotId slot = some id := by
  obtain ⟨slot, hslot, hid⟩ := List.mem_filterMap.1 h
  exact ⟨slot, of_decide_eq_true (List.mem_filter.1 hslot).2, hid⟩

theorem Offers.mem_offeredBy (h : Offers lib n lo s s') {id : ℕ} (hid : id ∈ offeredBy s s') :
    lo < id ∧ id ≤ s'.currentId := by
  obtain ⟨slot, hc, hslot⟩ := Echolet.mem_offeredBy hid
  obtain ⟨id', hid', hlo, hle⟩ := (h.fills slot hc).2.slotId
  rw [hslot] at hid'
  cases hid'
  exact ⟨hlo, hle⟩

end

/-! ## Every call -/

section
variable {rt : Runtime} {dev : Device} {record : DeviceRecord} {s s' : ClientStore}

/-- A slot of the pool is filled. -/
def Filled (s : ClientStore) : Prop := ∃ slot < poolTarget, (s.publication.get slot).isSome = true

theorem filled_any : Filled s ↔
    ((List.range poolTarget).any fun slot => (s.publication.get slot).isSome) = true := by
  simp only [Filled, List.any_eq_true, List.mem_range]

/-- **The loop of the pool**, where a slot is filled: every bundle is after a rotation. -/
theorem fillSlots_offers (hlib : KeepsPreKeys rt.lib) {v : ℕ → Circumstances} :
    ∀ {n minted m : ℕ} {s s' : ClientStore}, n ≤ poolTarget → Filled s →
      fillSlots rt record v n minted s = (.ok m, s') → Offers rt.lib n s.currentId s s'
  | 0, _, _, s, s', _, _, h => by
    obtain ⟨-, rfl⟩ := Tx.pure_ok.1 h
    exact .refl s
  | n + 1, _, _, s, s', hn, hs, h => by
    unfold fillSlots at h
    obtain ⟨member, _, hm, h⟩ := Tx.bind_ok.1 h
    obtain ⟨rfl, rfl⟩ := Tx.read_ok.1 hm
    split_ifs at h
    · exact (fillSlots_offers hlib (Nat.le_of_succ_le hn) hs h).mono (Nat.le_succ n)
    · obtain ⟨rotate, _, hr, h⟩ := Tx.bind_ok.1 h
      obtain ⟨hrotate, rfl⟩ := Tx.read_ok.1 hr
      rw [filled_any.1 hs] at hrotate
      obtain ⟨b, s₁, hb, h⟩ := Tx.bind_ok.1 h
      rw [← hrotate] at hb
      obtain ⟨minted⟩ := mintPublicationSlot_ok hb
      obtain ⟨key, mint⟩ := minted.mint hlib
      obtain ⟨b', hpub, -⟩ := mint.publication
      refine .cons mint (fillSlots_offers hlib (Nat.le_of_succ_le hn) ⟨n, hn, ?_⟩ h)
      rw [hpub, SortedMap.get_insert_self]
      rfl

/-- What a call that commits does to the prekeys and the pool. -/
inductive PreKeyCall.Effect (lib : Libsignal) (c : PreKeyCall) (s : ClientStore) :
    ClientStore → Prop
  | quiet {s' : ClientStore} : ¬ c.Unrotated s → PoolKept s s' →
      c.receives = true ∨ s'.signal.pre = s.signal.pre → Effect lib c s s'
  | offers {s' : ClientStore} : ¬ c.Unrotated s → Offers lib poolTarget s.currentId s s' →
      Effect lib c s s'
  | unrotated {slot : ℕ} {b : WireBundle} {s' : ClientStore} : c.Unrotated s → slot < poolTarget →
      s.publication.get slot = none →
      slot = 0 ∨ (∀ other < poolTarget, s.publication.get other = none) →
      b.oneTimePreKey = (s.signal.pre.get s.currentId).bind lib.preKeyPublic →
      Offers lib slot s.currentId { s with publication := s.publication.insert slot b } s' →
      Effect lib c s s'

/-- A bundle without a rotation. -/
theorem Minted.unrotated {v : Circumstances} {slot : ℕ} {b : WireBundle}
    (m : Minted rt record v slot false s b s') :
    b.oneTimePreKey = (s.signal.pre.get s.currentId).bind rt.lib.preKeyPublic ∧
      s' = { s with publication := s.publication.insert slot b } := by
  obtain ⟨signal, ⟨-, rfl⟩ | ⟨htrue, -⟩, hsigned, rfl⟩ := m
  · exact ⟨hsigned.oneTimePreKey, rfl⟩
  · cases htrue

theorem restorePublicationPool_effect (hlib : KeepsPreKeys rt.lib) {v : ℕ → Circumstances} {m : ℕ}
    (h : fillSlots rt record v poolTarget 0 s = (.ok m, s')) :
    PreKeyCall.Effect rt.lib .restorePublicationPool s s' := by
  by_cases hs : Filled s
  · refine .offers (fun hnone => ?_) (fillSlots_offers hlib le_rfl hs h)
    obtain ⟨slot, hslot, hsome⟩ := hs
    rw [hnone slot hslot] at hsome
    cases hsome
  · -- the highest slot comes first, and then a slot is filled
    have hnone : ∀ slot < poolTarget, s.publication.get slot = none := fun slot hslot =>
      Option.not_isSome_iff_eq_none.1 fun hsome => hs ⟨slot, hslot, hsome⟩
    have hrotate : ((List.range poolTarget).any fun slot => (s.publication.get slot).isSome) = false :=
      Bool.eq_false_iff.2 fun hany => hs (filled_any.2 hany)
    have h : fillSlots rt record v (19 + 1) 0 s = (.ok m, s') := h
    unfold fillSlots at h
    obtain ⟨member, _, hm, h⟩ := Tx.bind_ok.1 h
    obtain ⟨rfl, rfl⟩ := Tx.read_ok.1 hm
    rw [hnone 19 (by decide), if_neg (by decide)] at h
    obtain ⟨rotate, _, hr, h⟩ := Tx.bind_ok.1 h
    obtain ⟨rfl, rfl⟩ := Tx.read_ok.1 hr
    obtain ⟨b, s₁, hb, h⟩ := Tx.bind_ok.1 h
    rw [hrotate] at hb
    obtain ⟨minted⟩ := mintPublicationSlot_ok hb
    obtain ⟨hkey, rfl⟩ := minted.unrotated
    refine .unrotated hnone (by decide) (hnone 19 (by decide)) (Or.inr hnone) hkey
      (fillSlots_offers hlib (by decide) ?_ h)
    refine ⟨19, by decide, ?_⟩
    change ((s.publication.insert 19 b).get 19).isSome = true
    rw [SortedMap.get_insert_self]
    rfl

theorem publicationBundle_effect {v : Circumstances} {b : WireBundle}
    (h : publicationBundle rt record v s = (.ok b, s')) :
    PreKeyCall.Effect rt.lib .publicationBundle s s' := by
  unfold publicationBundle at h
  obtain ⟨member, _, hm, h⟩ := Tx.bind_ok.1 h
  obtain ⟨hmember, rfl⟩ := Tx.read_ok.1 hm
  cases member with
  | some bundle =>
    obtain ⟨-, rfl⟩ := Tx.pure_ok.1 h
    refine .quiet (fun hnone => ?_) (.refl s) (Or.inr rfl)
    exact absurd (hnone.symm.trans hmember) nofun
  | none =>
    obtain ⟨minted⟩ := mintPublicationSlot_ok h
    obtain ⟨hkey, rfl⟩ := minted.unrotated
    exact .unrotated hmember (by decide) hmember (Or.inl rfl) hkey (.refl _)

theorem mint_effect (hlib : KeepsPreKeys rt.lib) {c : PreKeyCall} (hc : ¬ c.Unrotated s)
    {v : Circumstances} {slot : ℕ} {b : WireBundle} (hslot : slot < poolTarget)
    (m : Minted rt record v slot true s b s') : PreKeyCall.Effect rt.lib c s s' := by
  obtain ⟨key, mint⟩ := m.mint hlib
  exact .offers hc ((Offers.cons mint (.refl s')).mono hslot)

/-- **The effect of a call that commits.** -/
theorem PreKeyCall.run_effect (hlib : KeepsPreKeys rt.lib) {c : PreKeyCall} {v : Surroundings}
    {u : Unit} (h : c.run rt dev record v s = (.ok u, s')) : c.Effect rt.lib s s' := by
  have h := attempt_ok h
  cases c with
  | rotatePublicationBundle =>
    obtain ⟨b, _, hb, h⟩ := Tx.bind_ok.1 h
    obtain ⟨-, rfl⟩ := Tx.pure_ok.1 h
    obtain ⟨m⟩ := mintPublicationSlot_ok hb
    exact mint_effect hlib id (by decide) m
  | publicationBundle =>
    obtain ⟨b, _, hb, h⟩ := Tx.bind_ok.1 h
    obtain ⟨-, rfl⟩ := Tx.pure_ok.1 h
    exact publicationBundle_effect hb
  | restorePublicationPool =>
    obtain ⟨⟨members, minted⟩, _, hb, h⟩ := Tx.bind_ok.1 h
    obtain ⟨-, rfl⟩ := Tx.pure_ok.1 h
    exact restorePublicationPool_effect hlib (restorePublicationPool_ok hb).1
  | replacePublicationSlot slot =>
    obtain ⟨b, _, hb, h⟩ := Tx.bind_ok.1 h
    obtain ⟨-, rfl⟩ := Tx.pure_ok.1 h
    obtain ⟨hslot, ⟨m⟩⟩ := replacePublicationSlot_ok hb
    exact mint_effect hlib id hslot m
  | acceptOne e =>
    obtain ⟨a⟩ := acceptOne_ok h
    exact .quiet id (a.quiet hlib) (Or.inl rfl)
  | importContact verified =>
    obtain ⟨b, _, hb, h⟩ := Tx.bind_ok.1 h
    obtain ⟨-, rfl⟩ := Tx.pure_ok.1 h
    obtain ⟨hquiet, hpre⟩ := importContact_quiet hb
    exact .quiet id hquiet (Or.inr hpre)

/-- A call that throws has changed nothing. -/
theorem PreKeyCall.run_error {c : PreKeyCall} {v : Surroundings} {e : Failure}
    (h : c.run rt dev record v s = (.error e, s')) : s' = s := attempt_error h

end

namespace PreKeys

section
variable {lib : Libsignal} {s s' : ClientStore} {committed offered consumed consumed' : List ℕ}
  {n lo slot : ℕ}

/-! ## The ids that are committed -/

/-- **The invariant of every run**: the ids that were committed increase, up to the current one. -/
structure Base (lib : Libsignal) (s : ClientStore) (committed : List ℕ) : Prop where
  pos : 1 ≤ s.currentId
  sorted : committed.Pairwise (· < ·)
  le : ∀ id ∈ committed, id ≤ s.currentId
  readable : ∀ id bytes, s.signal.pre.get id = some bytes → id ≤ s.currentId ∧
    ∃ key, lib.preKeyPublic bytes = some key ∧ key.keyId = id

theorem mem_committedBy {id : ℕ} : id ∈ committedBy s s' ↔
    (∃ bytes, s'.signal.pre.get id = some bytes) ∧
      s'.signal.pre.get id ≠ s.signal.pre.get id := by
  unfold committedBy
  rw [List.mem_filter, decide_eq_true_eq]
  refine and_congr_left fun _ => ⟨fun h => ?_, ?_⟩
  · obtain ⟨⟨id', bytes⟩, hmem, rfl⟩ := List.mem_map.1 h
    exact ⟨bytes, SortedMap.mem_entries.1 hmem⟩
  · rintro ⟨bytes, hget⟩
    exact List.mem_map.2 ⟨(id, bytes), SortedMap.mem_entries.2 hget, rfl⟩

theorem committedBy_sorted (s s' : ClientStore) : (committedBy s s').Pairwise (· < ·) :=
  (List.pairwise_map.2 s'.signal.pre.sorted).filter _

theorem committedBy_quiet (q : PoolKept s s') : committedBy s s' = [] := by
  refine List.eq_nil_iff_forall_not_mem.2 fun id hid => ?_
  obtain ⟨⟨bytes, hget⟩, hne⟩ := mem_committedBy.1 hid
  rcases q.signal.pre id with hsame | hnone
  · exact hne hsame
  · rw [hnone] at hget
    cases hget

theorem Base.quiet (h : Base lib s committed) (q : PoolKept s s') :
    Base lib s' (committed ++ committedBy s s') := by
  rw [committedBy_quiet q, List.append_nil]
  refine ⟨q.currentId ▸ h.pos, h.sorted, fun id hid => q.currentId ▸ h.le id hid, fun id bytes hget => ?_⟩
  rw [q.currentId]
  rcases q.signal.pre id with hsame | hnone
  · exact h.readable id bytes (hsame.symm.trans hget)
  · rw [hnone] at hget
    cases hget

theorem Base.offers (h : Base lib s committed) (o : Offers lib n lo s s') :
    Base lib s' (committed ++ committedBy s s') := by
  have hnew : ∀ id ∈ committedBy s s', s.currentId < id ∧ id ≤ s'.currentId := by
    intro id hid
    obtain ⟨⟨bytes, hget⟩, hne⟩ := mem_committedBy.1 hid
    refine ⟨not_le.1 fun hle => hne (o.kept id hle), ?_⟩
    rcases o.fresh id bytes hget with hold | ⟨hle, -⟩
    · exact absurd (hget.trans hold.symm) hne
    · exact hle
  refine ⟨h.pos.trans o.grows, List.pairwise_append.2 ⟨h.sorted, committedBy_sorted s s', ?_⟩,
    fun id hid => ?_, fun id bytes hget => ?_⟩
  · exact fun a ha b hb => (h.le a ha).trans_lt (hnew b hb).1
  · rcases List.mem_append.1 hid with hid | hid
    · exact (h.le id hid).trans o.grows
    · exact (hnew id hid).2
  · rcases o.fresh id bytes hget with hold | hnew
    · obtain ⟨hle, hkey⟩ := h.readable id bytes hold
      exact ⟨hle.trans o.grows, hkey⟩
    · exact hnew

/-! ## The prekeys of the pool -/

/-- **The invariant of the pool.** -/
structure Pool (lib : Libsignal) (s : ClientStore) (offered consumed : List ℕ) : Prop where
  sorted : offered.Pairwise (· < ·)
  le : ∀ id ∈ offered, id ≤ s.currentId
  inPool : ∀ slot b, s.publication.get slot = some b → slot < poolTarget
  slotLe : ∀ slot id, s.slotId slot = some id → id ≤ s.currentId
  carried : ∀ slot b, s.publication.get slot = some b → ∃ key, b.oneTimePreKey = some key ∧
    (key.keyId ∈ consumed ∨ ∃ bytes, s.signal.pre.get key.keyId = some bytes ∧
      lib.preKeyPublic bytes = some key)
  apart : ∀ slot slot' id, slot ≠ slot' → s.slotId slot = some id → s.slotId slot' ≠ some id
  /-- Nothing was offered before a slot was filled. -/
  unoffered : ¬ Filled s → offered = []
  /-- The current prekey is the one of some slot. -/
  latest : Filled s → ∃ slot, s.slotId slot = some s.currentId

theorem offeredBy_same (h : s'.publication = s.publication) : offeredBy s s' = [] := by
  refine List.eq_nil_iff_forall_not_mem.2 fun id hid => ?_
  obtain ⟨slot, hc, -⟩ := mem_offeredBy hid
  exact hc (by rw [h])

theorem Pool.quiet (h : Pool lib s offered consumed) (q : PoolKept s s') (hsub : consumed ⊆ consumed')
    (hspent : ∀ id bytes, s.signal.pre.get id = some bytes →
      s'.signal.pre.get id = some bytes ∨ id ∈ consumed') :
    Pool lib s' (offered ++ offeredBy s s') consumed' := by
  have hslot : ∀ slot, s'.slotId slot = s.slotId slot := fun slot => by
    rw [ClientStore.slotId, q.publication, ClientStore.slotId]
  have hfilled : Filled s' ↔ Filled s := by rw [Filled, q.publication, Filled]
  rw [offeredBy_same q.publication, List.append_nil]
  refine ⟨h.sorted, fun id hid => ?_, fun slot b hb => ?_, fun slot id hid => ?_, fun slot b hb => ?_,
    fun i j id hij hid => ?_, fun hf => ?_, fun hf => ?_⟩
  · rw [q.currentId]
    exact h.le id hid
  · rw [q.publication] at hb
    exact h.inPool slot b hb
  · rw [hslot] at hid
    rw [q.currentId]
    exact h.slotLe slot id hid
  · rw [q.publication] at hb
    obtain ⟨key, hk, hconsumed | ⟨bytes, hget, hpublic⟩⟩ := h.carried slot b hb
    · exact ⟨key, hk, Or.inl (hsub hconsumed)⟩
    · rcases hspent key.keyId bytes hget with hkept | hspent
      · exact ⟨key, hk, Or.inr ⟨bytes, hkept, hpublic⟩⟩
      · exact ⟨key, hk, Or.inl hspent⟩
  · rw [hslot] at hid ⊢
    exact h.apart i j id hij hid
  · exact h.unoffered fun hs => hf (hfilled.2 hs)
  · obtain ⟨slot, hid⟩ := h.latest (hfilled.1 hf)
    exact ⟨slot, by rw [hslot, q.currentId, hid]⟩

/-- Bundles around prekeys that no slot has had. -/
theorem Pool.offers (h : Pool lib s offered consumed) (o : Offers lib n lo s s')
    (hn : n ≤ poolTarget) (hoffered : ∀ id ∈ offered, id ≤ lo)
    (hslots : ∀ slot id, s.slotId slot = some id → id ≤ lo)
    (hreadable : ∀ id bytes, s.signal.pre.get id = some bytes → id ≤ s.currentId) :
    Pool lib s' (offered ++ offeredBy s s') consumed := by
  -- what a slot has was there before, or is new and above `lo`
  have hcases : ∀ slot, s'.publication.get slot = s.publication.get slot ∧
      s'.slotId slot = s.slotId slot ∨ Changed s s' slot := by
    intro slot
    by_cases hc : s'.publication.get slot = s.publication.get slot
    · exact Or.inl ⟨hc, by rw [ClientStore.slotId, hc, ClientStore.slotId]⟩
    · exact Or.inr hc
  have hnew : ∀ {slot id}, Changed s s' slot → s'.slotId slot = some id →
      lo < id ∧ id ≤ s'.currentId := by
    intro slot id hc hid
    obtain ⟨id', hid', hlo, hle⟩ := (o.fills slot hc).2.slotId
    rw [hid] at hid'
    cases hid'
    exact ⟨hlo, hle⟩
  refine ⟨List.pairwise_append.2 ⟨h.sorted, o.offeredBy_sorted, fun a ha b hb => ?_⟩, fun id hid => ?_,
    fun slot b hb => ?_, fun slot id hid => ?_, fun slot b hb => ?_, fun i j id hij hi hj => ?_,
    fun hf => ?_, fun hf => ?_⟩
  · exact (hoffered a ha).trans_lt (o.mem_offeredBy hb).1
  · rcases List.mem_append.1 hid with hid | hid
    · exact (h.le id hid).trans o.grows
    · exact (o.mem_offeredBy hid).2
  · rcases hcases slot with ⟨hsame, -⟩ | hc
    · exact h.inPool slot b (hsame.symm.trans hb)
    · exact (o.fills slot hc).1.trans_le hn
  · rcases hcases slot with ⟨-, hsame⟩ | hc
    · exact (h.slotLe slot id (hsame.symm.trans hid)).trans o.grows
    · exact (hnew hc hid).2
  · rcases hcases slot with ⟨hsame, -⟩ | hc
    · obtain ⟨key, hk, hconsumed | ⟨bytes, hget, hpublic⟩⟩ := h.carried slot b (hsame.symm.trans hb)
      · exact ⟨key, hk, Or.inl hconsumed⟩
      · exact ⟨key, hk, Or.inr ⟨bytes, (o.kept _ (hreadable _ _ hget)).trans hget, hpublic⟩⟩
    · obtain ⟨-, b', key, bytes, hb', hk, -, -, hget, hpublic⟩ := o.fills slot hc
      rw [hb] at hb'
      cases hb'
      exact ⟨key, hk, Or.inr ⟨bytes, hget, hpublic⟩⟩
  · rcases hcases i with ⟨-, hi'⟩ | hci <;> rcases hcases j with ⟨-, hj'⟩ | hcj
    · exact h.apart i j id hij (hi'.symm.trans hi) (hj'.symm.trans hj)
    · exact absurd (hslots i id (hi'.symm.trans hi)) (hnew hcj hj).1.not_ge
    · exact absurd (hslots j id (hj'.symm.trans hj)) (hnew hci hi).1.not_ge
    · rcases lt_or_gt_of_ne hij with hlt | hlt
      · exact lt_irrefl _ (o.order j i id id hlt hcj hci hj hi)
      · exact lt_irrefl _ (o.order i j id id hlt hci hcj hi hj)
  · -- no slot is filled, so none was
    have hempty : ∀ slot, s'.publication.get slot = none := fun slot =>
      Option.not_isSome_iff_eq_none.1 fun hsome => by
        obtain ⟨b, hb⟩ := Option.isSome_iff_exists.1 hsome
        rcases hcases slot with ⟨hsame, -⟩ | hc
        · exact hf ⟨slot, h.inPool slot b (hsame.symm.trans hb), hsome⟩
        · exact hf ⟨slot, (o.fills slot hc).1.trans_le hn, hsome⟩
    have hsame : offeredBy s s' = [] := by
      refine List.eq_nil_iff_forall_not_mem.2 fun id hid => ?_
      obtain ⟨slot, -, hslot⟩ := mem_offeredBy hid
      rw [ClientStore.slotId, hempty slot] at hslot
      cases hslot
    have hs : ¬ Filled s := by
      rintro ⟨slot, hlt, hsome⟩
      rcases hcases slot with ⟨hsame, -⟩ | hc
      · exact hf ⟨slot, hlt, by rw [hsame]; exact hsome⟩
      · obtain ⟨-, b, -, -, hb, -⟩ := o.fills slot hc
        rw [hempty slot] at hb
        cases hb
    rw [hsame, List.append_nil, h.unoffered hs]
  · rcases o.latest with ⟨hcur, hpub⟩ | hlatest
    · obtain ⟨slot, hid⟩ := h.latest (by rwa [Filled, hpub] at hf)
      exact ⟨slot, by rw [ClientStore.slotId, hpub, hcur]; exact hid⟩
    · exact hlatest

end

/-! ## Runs -/

section
variable {rt : Runtime} {dev : Device} {record : DeviceRecord} {k k' : PreKeys}
  {a : PreKeyCall × Surroundings}

theorem mem_removedBy {s s' : ClientStore} {id : ℕ} {bytes : Bytes}
    (h : s.signal.pre.get id = some bytes) (hn : s'.signal.pre.get id = none) : id ∈ removedBy s s' :=
  List.mem_filter.2 ⟨List.mem_map.2 ⟨(id, bytes), SortedMap.mem_entries.2 h, rfl⟩,
    decide_eq_true hn⟩

/-- A step is a call that throws, or that has an effect. -/
theorem step_cases (hlib : KeepsPreKeys rt.lib) (h : step rt dev record k a = some k') :
    (∃ e s', a.1.run rt dev record a.2 k.store = (.error e, s') ∧ k'.store = k.store ∧
      k'.committed = k.committed ∧ k'.offered = k.offered ∧ k.consumed ⊆ k'.consumed) ∨
    ∃ s', a.1.run rt dev record a.2 k.store = (.ok (), s') ∧ a.1.Effect rt.lib k.store s' ∧
      k' = ⟨s', k.committed ++ committedBy k.store s', k.offered ++ offeredBy k.store s',
        if a.1.receives then k.consumed ++ removedBy k.store s' else k.consumed⟩ := by
  unfold step at h
  rcases hrun : a.1.run rt dev record a.2 k.store with ⟨e | u, s'⟩
  · rw [hrun] at h
    obtain rfl := PreKeyCall.run_error hrun
    cases h
    refine Or.inl ⟨e, _, rfl, rfl, ?_, ?_, ?_⟩
    · dsimp only
      rw [committedBy_quiet (.refl _), List.append_nil]
    · dsimp only
      rw [offeredBy_same rfl, List.append_nil]
    · dsimp only
      split_ifs
      · exact List.subset_append_left _ _
      · exact List.Subset.refl _
  · rw [hrun] at h
    cases h
    exact Or.inr ⟨s', rfl, PreKeyCall.run_effect hlib hrun, rfl⟩

theorem Base.step (hlib : KeepsPreKeys rt.lib) (hb : Base rt.lib k.store k.committed)
    (h : PreKeys.step rt dev record k a = some k') : Base rt.lib k'.store k'.committed := by
  rcases step_cases hlib h with ⟨-, -, -, hs, hc, -, -⟩ | ⟨s', -, he, rfl⟩
  · rw [hs, hc]
    exact hb
  · cases he with
    | quiet _ q _ => exact hb.quiet q
    | offers _ o => exact hb.offers o
    | @unrotated slot b _ _ _ _ _ _ o =>
      have hb' : Base rt.lib { k.store with publication := k.store.publication.insert slot b }
          k.committed := ⟨hb.pos, hb.sorted, hb.le, hb.readable⟩
      exact hb'.offers o

/-- A first bundle, around the current prekey. -/
theorem mint_unrotated {lib : Libsignal} {s : ClientStore} {committed : List ℕ} (slot : ℕ)
    {b : WireBundle} (hb : Base lib s committed) (hstored : s.signal.pre.get s.currentId ≠ none)
    (hkey : b.oneTimePreKey = (s.signal.pre.get s.currentId).bind lib.preKeyPublic) :
    ∃ key, key.keyId = s.currentId ∧ b.oneTimePreKey = some key ∧ Mint lib slot (s.currentId - 1) s
      { s with publication := s.publication.insert slot b } key := by
  obtain ⟨bytes, hget⟩ := Option.ne_none_iff_exists'.1 hstored
  obtain ⟨-, key, hpublic, hid⟩ := hb.readable _ _ hget
  have hpos := hb.pos
  rw [hget, Option.bind_some, hpublic] at hkey
  refine ⟨key, hid, hkey, hid.symm, by omega, le_rfl, fun _ _ => rfl, fun _ _ => Or.inl,
    ⟨bytes, by rw [hid]; exact hget, hpublic⟩, b, rfl, hkey⟩

theorem Pool.step (hlib : KeepsPreKeys rt.lib) (hb : Base rt.lib k.store k.committed)
    (hp : Pool rt.lib k.store k.offered k.consumed) (hr : Rooted rt dev record k a)
    (h : PreKeys.step rt dev record k a = some k') :
    Pool rt.lib k'.store k'.offered k'.consumed := by
  have hsame : ∀ {consumed'}, k.consumed ⊆ consumed' →
      Pool rt.lib k.store (k.offered ++ offeredBy k.store k.store) consumed' := fun hsub =>
    hp.quiet (.refl _) hsub fun _ _ hget => Or.inl hget
  rcases step_cases hlib h with ⟨-, -, -, hs, -, ho, hc⟩ | ⟨s', hrun, he, rfl⟩
  · have hk := hsame hc
    rw [offeredBy_same rfl, List.append_nil] at hk
    rw [hs, ho]
    exact hk
  · have hconsumed : k.consumed ⊆
        if a.1.receives then k.consumed ++ removedBy k.store s' else k.consumed := by
      split_ifs
      · exact List.subset_append_left _ _
      · exact List.Subset.refl _
    have hgrown : ∀ {n lo : ℕ}, Offers rt.lib n lo k.store s' → n ≤ poolTarget →
        (∀ id ∈ k.offered, id ≤ lo) → (∀ slot id, k.store.slotId slot = some id → id ≤ lo) →
        Pool rt.lib s' (k.offered ++ offeredBy k.store s')
          (if a.1.receives then k.consumed ++ removedBy k.store s' else k.consumed) := by
      intro n lo o hn hoffered hslots
      have hk := hp.offers o hn hoffered hslots fun id bytes hget => (hb.readable id bytes hget).1
      have hk' := hk.quiet (.refl _) hconsumed fun _ _ hget => Or.inl hget
      rwa [offeredBy_same rfl, List.append_nil] at hk'
    cases he with
    | quiet _ q hreceives =>
      refine hp.quiet q hconsumed fun id bytes hget => ?_
      rcases hreceives with hreceives | hpre
      · rcases q.signal.pre id with hkept | hnone
        · exact Or.inl (hkept.trans hget)
        · right
          rw [if_pos hreceives]
          exact List.mem_append_right _ (mem_removedBy hget hnone)
      · exact Or.inl (by rw [hpre]; exact hget)
    | offers _ o => exact hgrown o le_rfl hp.le hp.slotLe
    | unrotated hu hslot _ _ hkey o =>
      obtain ⟨hempty, hstored⟩ := hr (by rw [hrun]) hu
      obtain ⟨key, hid, -, m⟩ := mint_unrotated _ hb hstored hkey
      have hunfilled : ¬ Filled k.store := by
        rintro ⟨slot, hlt, hsome⟩
        rw [hempty slot hlt] at hsome
        cases hsome
      refine hgrown (.cons m o) hslot (fun id hmem => ?_) fun slot id hslot => ?_
      · rw [hp.unoffered hunfilled] at hmem
        cases hmem
      · obtain ⟨b, hb', -⟩ := Option.bind_eq_some_iff.1 hslot
        rw [hempty slot (hp.inPool slot b hb')] at hb'
        cases hb'

/-- **Where the condition fails**, the pool is not as it should be. -/
theorem Pool.exact (hlib : KeepsPreKeys rt.lib) (hb : Base rt.lib k.store k.committed)
    (hp : Pool rt.lib k.store k.offered k.consumed) (hr : ¬ Rooted rt dev record k a)
    (h : PreKeys.step rt dev record k a = some k') : ¬ Distinct rt.lib k' := by
  rw [Rooted, Classical.not_imp, Classical.not_imp] at hr
  obtain ⟨hok, hu, hnot⟩ := hr
  rcases step_cases hlib h with ⟨e, s', hrun, -⟩ | ⟨s', hrun, he, rfl⟩
  · rw [hrun] at hok
    cases hok
  rintro ⟨hcarried, hapart⟩
  cases he with
  | quiet hn _ _ => exact hn hu
  | offers hn _ => exact hn hu
  | @unrotated slot b _ _ _ hnone halone hkey o =>
    have hkept : ∀ i, slot ≤ i → s'.publication.get i = (k.store.publication.insert slot b).get i :=
      fun i hi => not_not.1 fun hc => (o.fills i hc).1.not_ge hi
    have hget : s'.publication.get slot = some b := by
      rw [hkept slot le_rfl, SortedMap.get_insert_self]
    by_cases hstored : k.store.signal.pre.get k.store.currentId = none
    · obtain ⟨key, hk, -⟩ := hcarried slot b hget
      rw [hkey, hstored] at hk
      cases hk
    · -- another slot is filled, and one of them has the current prekey
      obtain ⟨key, hid, hk, -⟩ := mint_unrotated slot hb hstored hkey
      have hfilled : Filled k.store := by
        by_contra hno
        refine hnot ⟨fun i hi => ?_, hstored⟩
        exact Option.not_isSome_iff_eq_none.1 fun hsome => hno ⟨i, hi, hsome⟩
      obtain ⟨slot', hslot'⟩ := hp.latest hfilled
      obtain ⟨other, hother, -⟩ := Option.bind_eq_some_iff.1 hslot'
      rcases halone with rfl | hempty
      · have hne : (0 : ℕ) ≠ slot' := by
          rintro rfl
          rw [hnone] at hother
          cases hother
        refine hapart 0 slot' k.store.currentId hne ?_ ?_
        · rw [← hid]
          exact slotId_eq hget hk
        · rw [ClientStore.slotId, hkept slot' (Nat.zero_le _), SortedMap.get_insert_ne _ _ hne.symm]
          exact hslot'
      · obtain ⟨i, hi, hsome⟩ := hfilled
        rw [hempty i hi] at hsome
        cases hsome

/-- What `SignalClient.create` leaves of prekeys, and no publication. -/
structure Created (lib : Libsignal) (s : ClientStore) : Prop where
  pre : ∃ entropy, s.signal.pre = SortedMap.empty.insert 1 (lib.generatePreKey 1 entropy)
  preCurrent : s.signal.preCurrent = none
  publication : s.publication = .empty

theorem Created.base {lib : Libsignal} (hlib : KeepsPreKeys lib) {s : ClientStore}
    (h : Created lib s) : Base lib s [1] := by
  have hcur : s.currentId = 1 := by rw [ClientStore.currentId, h.preCurrent, Option.getD_none]
  obtain ⟨entropy, hpre⟩ := h.pre
  refine ⟨hcur.ge, List.pairwise_singleton _ _, fun id hid => ?_, fun id bytes hget => ?_⟩
  · rw [List.mem_singleton.1 hid, hcur]
  · rw [hpre, SortedMap.get_insert] at hget
    split_ifs at hget with hid
    · cases hget
      rw [hid, hcur]
      exact ⟨le_rfl, hlib.readable 1 entropy⟩
    · cases hget

theorem Created.pool {lib : Libsignal} {s : ClientStore} (h : Created lib s) :
    Pool lib s [] [] := by
  have hnone : ∀ slot, s.publication.get slot = none := fun slot => by
    rw [h.publication, SortedMap.get_empty]
  have hid : ∀ slot, s.slotId slot = none := fun slot => by
    rw [ClientStore.slotId, hnone, Option.bind_none]
  refine ⟨.nil, nofun, fun slot b hb => ?_, fun slot id hs => ?_, fun slot b hb => ?_,
    fun slot _ id _ hs => ?_, fun _ => rfl, ?_⟩
  · exact absurd ((hnone slot).symm.trans hb) nofun
  · exact absurd ((hid slot).symm.trans hs) nofun
  · exact absurd ((hnone slot).symm.trans hb) nofun
  · exact absurd ((hid slot).symm.trans hs) nofun
  · rintro ⟨slot, -, hsome⟩
    rw [hnone slot] at hsome
    cases hsome

theorem Pool.distinct (hp : Pool rt.lib k.store k.offered k.consumed) : Distinct rt.lib k :=
  ⟨hp.carried, hp.apart⟩

end

/-- **One-time prekeys are never reused.**  The ids that are committed increase in every run.  In
    the runs in which a bundle around the current prekey is made first, and while that prekey is
    stored, the ids that are offered increase too, and the slots have prekeys of their own; a step
    that makes one otherwise leaves a slot without. -/
theorem one_time_prekeys {rt : Runtime} {dev : Device} {record : DeviceRecord}
    (hlib : KeepsPreKeys rt.lib) {s : ClientStore} (hs : Created rt.lib s) :
    (∀ k, Run (step rt dev record) Any (start s) k → k.committed.Pairwise (· < ·)) ∧
    ∀ k, Run (step rt dev record) (Rooted rt dev record) (start s) k →
      k.offered.Pairwise (· < ·) ∧ Distinct rt.lib k ∧
      ∀ a k', step rt dev record k a = some k' →
        (Distinct rt.lib k' ↔ Rooted rt dev record k a) := by
  have hbase : ∀ {k}, Run (step rt dev record) Any (start s) k → Base rt.lib k.store k.committed :=
    fun hrun => hrun.invariant (I := fun k => Base rt.lib k.store k.committed)
      (fun _ _ _ hb _ hst => hb.step hlib hst) (hs.base hlib)
  refine ⟨fun k hrun => (hbase hrun).sorted, fun k hrun => ?_⟩
  have hboth := hrun.invariant (I := fun k => Base rt.lib k.store k.committed ∧
      Pool rt.lib k.store k.offered k.consumed)
    (fun _ _ _ hk hr hst => ⟨hk.1.step hlib hst, hk.2.step hlib hk.1 hr hst⟩)
    ⟨hs.base hlib, hs.pool⟩
  refine ⟨hboth.2.sorted, hboth.2.distinct, fun a k' hst => ⟨fun hd => ?_, fun hr => ?_⟩⟩
  · exact not_not.1 fun hr => hboth.2.exact hlib hboth.1 hr hst hd
  · exact (hboth.2.step hlib hboth.1 hr hst).distinct

/-! ## The initial prekey is consumed -/

/-- A library whose first messages are for prekey 1. -/
def consumingRuntime : Runtime :=
  { plainRuntime with
    lib := { plainLibsignal with
      decryptPreKey := fun body sender entropy => do
        callback (.removePreKey 1)
        plainLibsignal.decryptPreKey body sender entropy } }

theorem textOf_bytesOf {t : Text} (h : ∀ c ∈ t, c.isDigit = true) : textOf (bytesOf t) = t := by
  rw [textOf, bytesOf, List.map_map]
  refine (List.map_congr_left fun c hc => ?_).trans (List.map_id _)
  have hrange := toNat_of_isDigit (h c hc)
  have hnat : c.toNat.toUInt8.toNat = c.toNat := by
    rw [Nat.toUInt8_eq, UInt8.toNat_ofNat']
    omega
  rw [Function.comp, hnat, Char.ofNat_toNat]
  rfl

open Program (Only) in
theorem consumingRuntime_keeps : KeepsPreKeys consumingRuntime.lib := by
  have htrusted : ∀ {address : Text} {session : Bytes} {α : Type} {a : α},
      (trustedSession address session a).Only fun c => ¬ c.savesPreKey := by
    intro address session α a
    refine (Only.perform id).bind fun trusted => ?_
    split_ifs
    · exact (Only.perform id).bind fun _ => trivial
    · trivial
  refine ⟨fun body sender entropy => ?_, fun body sender entropy => ?_, fun id entropy => ?_⟩
  · refine (Only.perform id).bind fun _ => (Only.perform id).bind fun key => ?_
    cases key with
    | none => trivial
    | some key => exact htrusted
  · refine (Only.perform id).bind fun session => ?_
    cases session with
    | none => trivial
    | some session => exact htrusted
  · refine ⟨⟨id, plainKey⟩, ?_, rfl⟩
    change (parseDecimal (textOf (bytesOf (decimal id)))).map _ = _
    rw [textOf_bytesOf fun _ => isDigit_of_mem_decimal, parseDecimal_decimal]
    rfl

theorem emptyStore_created : Created consumingRuntime.lib emptyStore :=
  ⟨⟨0, rfl⟩, rfl, rfl⟩

/-- A contact is imported, and its first message received. -/
def firstContact : List (PreKeyCall × Surroundings) :=
  [(.importContact ⟨plainAddress, plainCard⟩, plainly 5 .done),
    (.acceptOne (firstEnvelope 'E' nilUUID), plainly 5 .done)]

/-- The pool is filled, a message consumes its first prekey, and a slot is filled again: every id
    was offered once. -/
theorem one_time_prekeys_refilled : ∃ k,
    Run (step consumingRuntime plainDevice plainRecord)
      (Rooted consumingRuntime plainDevice plainRecord) (start emptyStore) k ∧
    k.offered = List.range' 1 21 ∧ k.consumed = [1] ∧ Distinct consumingRuntime.lib k := by
  have hroot : Rooted consumingRuntime plainDevice plainRecord (start emptyStore)
      (.restorePublicationPool, plainly 5 .done) := fun _ _ => ⟨fun _ _ => rfl, by decide +kernel⟩
  have hnext : ∀ {k : PreKeys} {c : PreKeyCall}, (¬ ∃ s, c.Unrotated s) →
      Run (step consumingRuntime plainDevice plainRecord)
        (Rooted consumingRuntime plainDevice plainRecord) (start emptyStore) k →
      ∀ k', step consumingRuntime plainDevice plainRecord k (c, plainly 5 .done) = some k' →
        Run (step consumingRuntime plainDevice plainRecord)
          (Rooted consumingRuntime plainDevice plainRecord) (start emptyStore) k' :=
    fun hc h _ hst => h.tail (fun _ hu => (hc ⟨_, hu⟩).elim) hst
  have hrun := hnext (fun ⟨_, h⟩ => h) (hnext (fun ⟨_, h⟩ => h) (hnext (fun ⟨_, h⟩ => h)
    (Run.single hroot rfl) _ (c := .importContact ⟨plainAddress, plainCard⟩) rfl) _
    (c := .acceptOne (firstEnvelope 'E' nilUUID)) rfl) _ (c := .replacePublicationSlot 3) rfl
  exact ⟨_, hrun, by decide +kernel, by decide +kernel,
    ((one_time_prekeys consumingRuntime_keeps emptyStore_created).2 _ hrun).2.1⟩

/-- **The initial prekey is consumed before there is a publication**, and the first bundle of the
    pool has no one-time prekey; or a bundle in another slot comes before the one that
    `publicationBundle` makes, and both have the same. -/
theorem one_time_prekeys_missing : KeepsPreKeys consumingRuntime.lib ∧
    Created consumingRuntime.lib emptyStore ∧
    (∃ k b, Run (step consumingRuntime plainDevice plainRecord) Any (start emptyStore) k ∧
      k.store.publication.get 19 = some b ∧ b.oneTimePreKey = none ∧
      ¬ Distinct consumingRuntime.lib k) ∧
    ∃ k, Run (step consumingRuntime plainDevice plainRecord) Any (start emptyStore) k ∧
      k.store.slotId 0 = some 2 ∧ k.store.slotId 5 = some 2 ∧ ¬ Distinct consumingRuntime.lib k := by
  refine ⟨consumingRuntime_keeps, emptyStore_created, ?_, ?_⟩
  · have hend : (replay (step consumingRuntime plainDevice plainRecord) Any
        (firstContact ++ [(.restorePublicationPool, plainly 5 .done)]) (start emptyStore)).map
        (fun k => (k.store.publication.get 19).map (·.oneTimePreKey)) = some (some none) := by
      decide +kernel
    obtain ⟨k, hk, hslot⟩ := Option.map_eq_some_iff.1 hend
    obtain ⟨b, hb, hnone⟩ := Option.map_eq_some_iff.1 hslot
    refine ⟨k, b, Run.of_replay hk, hb, hnone, fun hd => ?_⟩
    obtain ⟨key, hkey, -⟩ := hd.carried 19 b hb
    rw [hnone] at hkey
    cases hkey
  · have hend : (replay (step consumingRuntime plainDevice plainRecord) Any
        [(.replacePublicationSlot 5, plainly 5 .done), (.publicationBundle, plainly 5 .done)]
        (start emptyStore)).map (fun k => (k.store.slotId 0, k.store.slotId 5)) =
          some (some 2, some 2) := by
      decide +kernel
    obtain ⟨k, hk, hslots⟩ := Option.map_eq_some_iff.1 hend
    obtain ⟨h0, h5⟩ := Prod.mk.inj hslots
    exact ⟨k, Run.of_replay hk, h0, h5, fun hd => hd.apart 0 5 2 (by decide) h0 h5⟩

end PreKeys

end Echolet
