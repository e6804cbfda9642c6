/-
  One-time prekeys are claimed at most once.

  * `publish_cases` and `claim_cases` say what a publication and a claim do to the store;
  * `PreKeyInv` is the invariant of the key families: the index lists exactly the stored
    unclaimed bundles, reservations and claims point to the bundles they were made for, and
    no bundle has two claims (`PreKeyInv.step`);
  * `findAvailable_first`: key order is creation time, then id, so the scan of a claim finds
    the oldest eligible bundle (`fresh_claim`);
  * `claims_at_most_once` puts these together over all runs.
-/
import Echolet.Relay.PreKeys

namespace Echolet

variable {H : Type} {hash : Text → H} {deriveMailboxID : Text → Text}
  {readOrdered : List UInt8 → Option Value} {signed : Value → Bool}

/-! ## What the transactions do -/

/-- Device records and bindings aside, the two stores are the same. -/
def SameKeys (db db' : PreKeyDb H) : Prop := ∃ devices, db' = { db with toDeviceDb := devices }

theorem except_bind_ok {E A B : Type} {x : Except E A} {f : A → Except E B} {y : B}
    (h : (x >>= f) = .ok y) : ∃ a, x = .ok a ∧ f a = .ok y := by
  cases x with
  | error e => cases h
  | ok a => exact ⟨a, rfl, h⟩

section
variable [DecidableEq H]

/-- The store after a first publication, device records aside. -/
def afterPublish (hash : Text → H) (db : PreKeyDb H) (b : SignalPreKeyBundleV2) : PreKeyDb H :=
  { db with
    bundle := Function.update db.bundle b.bundleId (some b)
    otkTuple := Function.update db.otkTuple (tupleDigest hash b) (some b.bundleId)
    otkPublic := Function.update db.otkPublic (publicDigest hash b) (some b.bundleId)
    available := db.available.insert (availableKey b) b.bundleId }

theorem reserve_ok {db db' : PreKeyDb H} {b : SignalPreKeyBundleV2}
    (h : reserveOneTimeKey hash db b = .ok db') : db.otkTuple (tupleDigest hash b) = none ∧
      db.otkPublic (publicDigest hash b) = none ∧ db' = { db with
        otkTuple := Function.update db.otkTuple (tupleDigest hash b) (some b.bundleId)
        otkPublic := Function.update db.otkPublic (publicDigest hash b) (some b.bundleId) } := by
  unfold reserveOneTimeKey at h
  split_ifs at h with h1 h2
  cases h
  exact ⟨by simpa using h1, by simpa using h2, rfl⟩

/-- A publication stores nothing new, or stores a bundle with a new id and a new key. -/
theorem publish_cases {db db' : PreKeyDb H} {b : SignalPreKeyBundleV2} {claimable : Bool}
    (h : saveSignalV2 hash deriveMailboxID db b = .ok (claimable, db')) :
    (∃ stored, db.bundle b.bundleId = some stored ∧ stored.raw = b.raw ∧
      claimable = !stored.claimed ∧ SameKeys db db') ∨
    db.bundle b.bundleId = none ∧ db.otkTuple (tupleDigest hash b) = none ∧
      db.otkPublic (publicDigest hash b) = none ∧ claimable = true ∧
      SameKeys (afterPublish hash db b) db' := by
  unfold saveSignalV2 at h
  split_ifs at h
  split at h
  next stored hs =>
    split_ifs at h with hraw
    obtain ⟨devices, -, h⟩ := except_bind_ok h
    cases h
    exact Or.inl ⟨stored, hs, hraw, rfl, devices, rfl⟩
  next hs =>
    obtain ⟨db₁, hres, h⟩ := except_bind_ok h
    obtain ⟨devices, -, h⟩ := except_bind_ok h
    obtain ⟨ht, hp, rfl⟩ := reserve_ok hres
    cases h
    exact Or.inr ⟨hs, ht, hp, rfl, devices, rfl⟩

end

/-- The store after a claim took a bundle. -/
def afterClaim (db : PreKeyDb H) (key : Text) (b : SignalPreKeyBundleV2) (claimID identityID : Text)
    (deviceID : Option Text) (nowMS : ℤ) : PreKeyDb H :=
  { db with
    bundle := Function.update db.bundle b.bundleId (some { b with claimed := true })
    available := db.available.erase key
    claim := Function.update db.claim claimID
      (some ⟨identityID, deviceID, b.raw, b.bundleId, nowMS⟩) }

/-- The entries the scan of a claim walks over, in key order. -/
def identityEntries (db : PreKeyDb H) (identityID : Text) : List (Text × Text) :=
  db.available.entries.filter fun entry => hasIdentityPrefix identityID entry.1

/-- A claim answers from its record, or takes the bundle the scan found. -/
theorem claim_cases {db db' : PreKeyDb H} {claimID identityID : Text} {deviceID : Option Text}
    {nowMS : ℤ} {bytes : List UInt8}
    (h : claimSignalV2 db claimID identityID deviceID nowMS = .ok (bytes, db')) :
    (∃ r, db.claim claimID = some r ∧ r.identityId = identityID ∧ r.deviceId = deviceID ∧
      r.bundle = bytes ∧ db' = db) ∨
    ∃ key b, db.claim claimID = none ∧ bytes = b.raw ∧
      findAvailable db deviceID nowMS (identityEntries db identityID) = .ok (key, b) ∧
      db' = afterClaim db key b claimID identityID deviceID nowMS := by
  unfold claimSignalV2 at h
  split at h
  next r hr =>
    split_ifs at h with hs
    cases h
    rw [not_or, not_not, not_not] at hs
    exact Or.inl ⟨r, hr, hs.1, hs.2, rfl, rfl⟩
  next hr =>
    obtain ⟨⟨key, b⟩, hf, h⟩ := except_bind_ok h
    cases h
    exact Or.inr ⟨key, b, hr, rfl, hf, rfl⟩

/-- What the scan finds, and that everything before it was passed by. -/
theorem findAvailable_ok {db : PreKeyDb H} {deviceID : Option Text} {nowMS : ℤ} {key : Text}
    {b : SignalPreKeyBundleV2} : ∀ {entries : List (Text × Text)},
    findAvailable db deviceID nowMS entries = .ok (key, b) →
      ∃ before id rest, entries = before ++ (key, id) :: rest ∧ db.bundle id = some b ∧
        skipped b deviceID nowMS = false ∧
        ∀ e ∈ before, ∀ b', db.bundle e.2 = some b' → skipped b' deviceID nowMS = true
  | [], h => by cases h
  | entry :: entries, h => by
    unfold findAvailable at h
    split at h
    next => cases h
    next c hc =>
      split_ifs at h with hs
      · obtain ⟨before, id, rest, rfl, hb, hk, hbefore⟩ := findAvailable_ok h
        refine ⟨entry :: before, id, rest, rfl, hb, hk, fun e he b' hb' => ?_⟩
        rcases List.mem_cons.1 he with rfl | he
        · rw [hc] at hb'; cases hb'; exact hs
        · exact hbefore e he b' hb'
      · cases h
        exact ⟨[], entry.2, entries, rfl, hc, by simpa using hs, by simp⟩

/-- A scan over stored bundles fails only when it passed all of them by. -/
theorem findAvailable_error {db : PreKeyDb H} {deviceID : Option Text} {nowMS : ℤ}
    {err : PreKeyError} : ∀ {entries : List (Text × Text)},
    (∀ e ∈ entries, ∃ b, db.bundle e.2 = some b) →
    findAvailable db deviceID nowMS entries = .error err → err = .unavailable ∧
      ∀ e ∈ entries, ∀ b, db.bundle e.2 = some b → skipped b deviceID nowMS = true
  | [], _, h => by cases h; exact ⟨rfl, by simp⟩
  | entry :: entries, hst, h => by
    obtain ⟨c, hc⟩ := hst entry (by simp)
    unfold findAvailable at h
    rw [hc] at h
    simp only at h
    split_ifs at h with hs
    obtain ⟨he, hall⟩ := findAvailable_error (fun e he => hst e (by simp [he])) h
    refine ⟨he, fun e hm b hb => ?_⟩
    rcases List.mem_cons.1 hm with rfl | hm
    · rw [hc] at hb; cases hb; exact hs
    · exact hall e hm b hb

/-! ## The invariant -/

/-- The key of an available bundle determines the bundle. -/
theorem availableKey_inj {b b' : SignalPreKeyBundleV2} (hb : ':' ∉ b.bundleId)
    (hb' : ':' ∉ b'.bundleId) (h : availableKey b = availableKey b') : b.bundleId = b'.bundleId :=
  (join_inj hb hb' h).2

structure PreKeyInv (hash : Text → H) (readOrdered : List UInt8 → Option Value)
    (db : PreKeyDb H) : Prop where
  stored : ∀ id b, db.bundle id = some b → b.bundleId = id ∧
    parsedBundle readOrdered b.raw = some { b with claimed := false }
  available : ∀ key id, db.available.get key = some id ↔
    ∃ b, db.bundle id = some b ∧ b.claimed = false ∧ key = availableKey b
  tuple : ∀ id b, db.bundle id = some b → db.otkTuple (tupleDigest hash b) = some id
  publicKey : ∀ id b, db.bundle id = some b → db.otkPublic (publicDigest hash b) = some id
  claims : ∀ c r, db.claim c = some r →
    ∃ b, db.bundle r.bundleId = some b ∧ b.claimed = true ∧ b.raw = r.bundle
  once : ∀ c c' r r', db.claim c = some r → db.claim c' = some r' →
    r.bundleId = r'.bundleId → c = c'

namespace PreKeyInv

variable {db db' : PreKeyDb H}

theorem init : PreKeyInv hash readOrdered (PreKeyDb.init H) where
  stored _ _ h := by cases h
  available key id := by
    constructor
    · intro h; cases h
    · rintro ⟨b, h, -⟩; cases h
  tuple _ _ h := by cases h
  publicKey _ _ h := by cases h
  claims _ _ h := by cases h
  once _ _ _ _ h := by cases h

theorem sameKeys (hi : PreKeyInv hash readOrdered db) (h : SameKeys db db') :
    PreKeyInv hash readOrdered db' := by
  obtain ⟨devices, rfl⟩ := h
  exact ⟨hi.stored, hi.available, hi.tuple, hi.publicKey, hi.claims, hi.once⟩

theorem wellFormed (hi : PreKeyInv hash readOrdered db) {id : Text} {b : SignalPreKeyBundleV2}
    (h : db.bundle id = some b) : WellFormed { b with claimed := false } :=
  (parsedBundle_wellFormed (hi.stored id b h).2).1

/-- Bundles with different ids have different bytes. -/
theorem raw_inj (hi : PreKeyInv hash readOrdered db) {id id' : Text} {b b' : SignalPreKeyBundleV2}
    (h : db.bundle id = some b) (h' : db.bundle id' = some b') (hraw : b.raw = b'.raw) :
    id = id' := by
  obtain ⟨hid, hp⟩ := hi.stored id b h
  obtain ⟨hid', hp'⟩ := hi.stored id' b' h'
  rw [hraw, hp'] at hp
  have heq := congrArg SignalPreKeyBundleV2.bundleId (Option.some.inj hp)
  rw [← hid, ← hid']
  exact heq.symm

/-- An index entry and the bundle it stands for. -/
theorem entry (hi : PreKeyInv hash readOrdered db) {key id : Text} {b : SignalPreKeyBundleV2}
    (h : (key, id) ∈ db.available.entries) (hb : db.bundle id = some b) :
    b.bundleId = id ∧ b.claimed = false ∧ key = availableKey b := by
  obtain ⟨b', hb', hc, hk⟩ := (hi.available key id).1 (SortedMap.mem_entries.1 h)
  rw [hb] at hb'
  cases hb'
  exact ⟨(hi.stored id b hb).1, hc, hk⟩

theorem publish [DecidableEq H] (hi : PreKeyInv hash readOrdered db) {b : SignalPreKeyBundleV2}
    (hb : parsedBundle readOrdered b.raw = some b) (hnew : db.bundle b.bundleId = none)
    (ht : db.otkTuple (tupleDigest hash b) = none)
    (hp : db.otkPublic (publicDigest hash b) = none) :
    PreKeyInv hash readOrdered (afterPublish hash db b) := by
  have hwf := (parsedBundle_wellFormed hb).1
  have hlook : ∀ id b', (afterPublish hash db b).bundle id = some b' →
      id = b.bundleId ∧ b' = b ∨ id ≠ b.bundleId ∧ db.bundle id = some b' := by
    intro id b' h
    simp only [afterPublish, Function.update_apply] at h
    split_ifs at h with hid
    · cases h; exact Or.inl ⟨hid, rfl⟩
    · exact Or.inr ⟨hid, h⟩
  have hself : (afterPublish hash db b).bundle b.bundleId = some b := by simp [afterPublish]
  have hother : ∀ id, id ≠ b.bundleId → (afterPublish hash db b).bundle id = db.bundle id :=
    fun id hid => by simp [afterPublish, hid]
  constructor
  case stored =>
    intro id b' h
    rcases hlook id b' h with ⟨rfl, rfl⟩ | ⟨-, h⟩
    · refine ⟨rfl, hb.trans (congrArg some ?_)⟩
      rw [← hwf.unclaimed]
    · exact hi.stored id b' h
  case available =>
    intro key id
    show (db.available.insert (availableKey b) b.bundleId).get key = some id ↔ _
    rw [SortedMap.get_insert]
    by_cases hid : id = b.bundleId
    · subst hid
      rw [hself]
      split_ifs with hk
      · simp [hk, hwf.unclaimed]
      · constructor
        · intro h
          obtain ⟨b', hb', -⟩ := (hi.available key _).1 h
          rw [hnew] at hb'; cases hb'
        · rintro ⟨b', hb', -, hk'⟩
          cases hb'; exact absurd hk' hk
    · rw [hother id hid]
      split_ifs with hk
      · constructor
        · intro h; exact absurd (Option.some.inj h).symm hid
        · rintro ⟨b', hb', -, hk'⟩
          have he := availableKey_inj hwf.id (hi.wellFormed hb').id (hk.symm.trans hk')
          exact absurd (((hi.stored id b' hb').1).symm.trans he.symm) hid
      · exact hi.available key id
  case tuple =>
    intro id b' h
    show Function.update db.otkTuple _ _ _ = _
    rcases hlook id b' h with ⟨rfl, rfl⟩ | ⟨-, h⟩
    · simp
    · have hold := hi.tuple id b' h
      rw [Function.update_of_ne (by rintro he; rw [he, ht] at hold; cases hold)]
      exact hold
  case publicKey =>
    intro id b' h
    show Function.update db.otkPublic _ _ _ = _
    rcases hlook id b' h with ⟨rfl, rfl⟩ | ⟨-, h⟩
    · simp
    · have hold := hi.publicKey id b' h
      rw [Function.update_of_ne (by rintro he; rw [he, hp] at hold; cases hold)]
      exact hold
  case claims =>
    intro c r h
    obtain ⟨b', hb', hc⟩ := hi.claims c r h
    have hid : r.bundleId ≠ b.bundleId := by
      intro he; rw [he, hnew] at hb'; cases hb'
    exact ⟨b', (hother _ hid).trans hb', hc⟩
  case once => exact hi.once

theorem claim (hi : PreKeyInv hash readOrdered db) {key id c i : Text} {b : SignalPreKeyBundleV2}
    {d : Option Text} {now : ℤ} (hk : (key, id) ∈ db.available.entries)
    (hb : db.bundle id = some b) (hc : db.claim c = none) :
    PreKeyInv hash readOrdered (afterClaim db key b c i d now) := by
  obtain ⟨rfl, hu, hkey⟩ := hi.entry hk hb
  have hlook : ∀ id b', (afterClaim db key b c i d now).bundle id = some b' →
      id = b.bundleId ∧ b' = { b with claimed := true } ∨
        id ≠ b.bundleId ∧ db.bundle id = some b' := by
    intro id b' h
    simp only [afterClaim, Function.update_apply] at h
    split_ifs at h with hid
    · cases h; exact Or.inl ⟨hid, rfl⟩
    · exact Or.inr ⟨hid, h⟩
  have hself : (afterClaim db key b c i d now).bundle b.bundleId =
      some { b with claimed := true } := by simp [afterClaim]
  have hother : ∀ id, id ≠ b.bundleId →
      (afterClaim db key b c i d now).bundle id = db.bundle id :=
    fun id hid => by simp [afterClaim, hid]
  have hclaim : ∀ c' r, (afterClaim db key b c i d now).claim c' = some r →
      c' = c ∧ r = ⟨i, d, b.raw, b.bundleId, now⟩ ∨ c' ≠ c ∧ db.claim c' = some r := by
    intro c' r h
    simp only [afterClaim, Function.update_apply] at h
    split_ifs at h with he
    · cases h; exact Or.inl ⟨he, rfl⟩
    · exact Or.inr ⟨he, h⟩
  -- no claim made before took this bundle, which was available
  have hfresh : ∀ c' r, db.claim c' = some r → r.bundleId ≠ b.bundleId := by
    intro c' r h he
    obtain ⟨b', hb', hcl, -⟩ := hi.claims c' r h
    rw [he, hb] at hb'
    cases hb'
    rw [hu] at hcl; cases hcl
  constructor
  case stored =>
    intro id b' h
    rcases hlook id b' h with ⟨rfl, rfl⟩ | ⟨-, h⟩
    · exact ⟨rfl, (hi.stored _ b hb).2⟩
    · exact hi.stored id b' h
  case available =>
    intro k id
    show (db.available.erase key).get k = some id ↔ _
    rw [SortedMap.get_erase]
    by_cases hid : id = b.bundleId
    · subst hid
      rw [hself]
      constructor
      · intro h
        split_ifs at h with he
        obtain ⟨b', hb', -, hk'⟩ := (hi.available k _).1 h
        rw [hb] at hb'
        cases hb'
        exact absurd (hk'.trans hkey.symm) he
      · rintro ⟨b', hb', hcl, -⟩
        cases hb'; cases hcl
    · rw [hother id hid]
      split_ifs with he
      · constructor
        · intro h; cases h
        · rintro ⟨b', hb', -, hk'⟩
          have hinj := availableKey_inj (hi.wellFormed hb').id (hi.wellFormed hb).id
            (hk'.symm.trans (he.trans hkey))
          exact absurd ((hi.stored id b' hb').1.symm.trans hinj) hid
      · exact hi.available k id
  case tuple =>
    intro id b' h
    rcases hlook id b' h with ⟨rfl, rfl⟩ | ⟨-, h⟩
    · exact hi.tuple _ b hb
    · exact hi.tuple id b' h
  case publicKey =>
    intro id b' h
    rcases hlook id b' h with ⟨rfl, rfl⟩ | ⟨-, h⟩
    · exact hi.publicKey _ b hb
    · exact hi.publicKey id b' h
  case claims =>
    intro c' r h
    rcases hclaim c' r h with ⟨-, rfl⟩ | ⟨-, h⟩
    · exact ⟨_, hself, rfl, rfl⟩
    · obtain ⟨b', hb', hcl⟩ := hi.claims c' r h
      exact ⟨b', (hother _ (hfresh c' r h)).trans hb', hcl⟩
  case once =>
    intro c₁ c₂ r₁ r₂ h₁ h₂ he
    rcases hclaim c₁ r₁ h₁ with ⟨rfl, rfl⟩ | ⟨-, old₁⟩
    · rcases hclaim c₂ r₂ h₂ with ⟨rfl, -⟩ | ⟨-, old₂⟩
      · rfl
      · exact absurd he.symm (hfresh c₂ r₂ old₂)
    · rcases hclaim c₂ r₂ h₂ with ⟨rfl, rfl⟩ | ⟨-, old₂⟩
      · exact absurd he (hfresh c₁ r₁ old₁)
      · exact hi.once c₁ c₂ r₁ r₂ old₁ old₂ he

end PreKeyInv

/-! ## Steps and runs -/

section
variable {db db' : PreKeyDb H} {c i : Text} {d : Option Text} {now : ℤ} {bytes : List UInt8}

theorem PreKeyInv.after_claim (hi : PreKeyInv hash readOrdered db)
    (h : claimSignalV2 db c i d now = .ok (bytes, db')) : PreKeyInv hash readOrdered db' := by
  rcases claim_cases h with ⟨r, -, -, -, -, rfl⟩ | ⟨key, b, hc, -, hf, rfl⟩
  · exact hi
  · obtain ⟨before, id, rest, he, hb, -, -⟩ := findAvailable_ok hf
    have hm : (key, id) ∈ identityEntries db i := by rw [he]; simp
    exact hi.claim (List.mem_of_mem_filter hm) hb hc

/-- A claim leaves its record. -/
theorem claim_recorded (h : claimSignalV2 db c i d now = .ok (bytes, db')) :
    ∃ r, db'.claim c = some r ∧ r.identityId = i ∧ r.deviceId = d ∧ r.bundle = bytes := by
  rcases claim_cases h with ⟨r, hr, hri, hrd, hrb, rfl⟩ | ⟨key, b, hc, rfl, hf, rfl⟩
  · exact ⟨r, hr, hri, hrd, hrb⟩
  · exact ⟨⟨i, d, b.raw, b.bundleId, now⟩, by simp [afterClaim], rfl, rfl, rfl⟩

/-- The records of other claims stay. -/
theorem claim_keeps {c' : Text} {r : SignalClaimV2} (hr : db.claim c' = some r)
    (h : claimSignalV2 db c i d now = .ok (bytes, db')) : db'.claim c' = some r := by
  rcases claim_cases h with ⟨_, -, -, -, -, rfl⟩ | ⟨key, b, hc, -, -, rfl⟩
  · exact hr
  · have hne : c' ≠ c := by rintro rfl; rw [hc] at hr; cases hr
    simp [afterClaim, hne, hr]

/-- A recorded claim answers its selector with the recorded bytes and refuses any other. -/
theorem claim_replay {r : SignalClaimV2} (hr : db.claim c = some r) :
    claimSignalV2 db c i d now =
      if r.identityId ≠ i ∨ r.deviceId ≠ d then .error .claimConflict else .ok (r.bundle, db) := by
  unfold claimSignalV2
  rw [hr]

variable [DecidableEq H]

/-- A step is refused and changes nothing, or it is one of the three transactions. -/
theorem preKey_step_cases {a : PreKeyAct}
    (h : PreKeyDb.step hash deriveMailboxID readOrdered signed db a = some db') :
    db' = db ∨ SameKeys db db' ∨
    (∃ b, parsedBundle readOrdered b.raw = some b ∧ db.bundle b.bundleId = none ∧
      db.otkTuple (tupleDigest hash b) = none ∧ db.otkPublic (publicDigest hash b) = none ∧
      SameKeys (afterPublish hash db b) db') ∨
    ∃ c i d now bytes, claimSignalV2 db c i d now = .ok (bytes, db') := by
  cases a with
  | publish raw now =>
    simp only [PreKeyDb.step, Option.some.injEq] at h
    split at h
    next claimable db₁ hp =>
      subst h
      obtain ⟨b, hv, hs⟩ := except_bind_ok hp
      have hb := validate_parsed hv
      have hraw := (parsedBundle_wellFormed hb).2
      rw [← hraw] at hb
      rcases publish_cases hs with ⟨_, -, -, -, hk⟩ | ⟨hnew, ht, hpub, -, hk⟩
      · exact Or.inr (Or.inl hk)
      · exact Or.inr (Or.inr (Or.inl ⟨b, hb, hnew, ht, hpub, hk⟩))
    next => exact Or.inl h.symm
  | claim c i d now =>
    simp only [PreKeyDb.step, Option.some.injEq] at h
    split at h
    next bytes db₁ hp =>
      subst h
      obtain ⟨-, -, hc⟩ := except_bind_ok hp
      exact Or.inr (Or.inr (Or.inr ⟨c, i, d, now, bytes, hc⟩))
    next => exact Or.inl h.symm
  | saveDevice record =>
    simp only [PreKeyDb.step, Option.some.injEq] at h
    split at h
    next db₁ hs =>
      subst h
      exact Or.inr (Or.inl ⟨db₁, rfl⟩)
    next => exact Or.inl h.symm

theorem PreKeyInv.step {a : PreKeyAct} (hi : PreKeyInv hash readOrdered db)
    (h : PreKeyDb.step hash deriveMailboxID readOrdered signed db a = some db') :
    PreKeyInv hash readOrdered db' := by
  rcases preKey_step_cases h with rfl | hk | ⟨b, hb, hnew, ht, hp, hk⟩ | ⟨c, i, d, now, _, hc⟩
  · exact hi
  · exact hi.sameKeys hk
  · exact (hi.publish hb hnew ht hp).sameKeys hk
  · exact hi.after_claim hc

theorem step_claim {a : PreKeyAct} {c' : Text} {r : SignalClaimV2} (hr : db.claim c' = some r)
    (h : PreKeyDb.step hash deriveMailboxID readOrdered signed db a = some db') :
    db'.claim c' = some r := by
  rcases preKey_step_cases h with rfl | ⟨_, rfl⟩ | ⟨b, -, -, -, -, _, rfl⟩ |
    ⟨c, i, d, now, _, hc⟩
  · exact hr
  · exact hr
  · exact hr
  · exact claim_keeps hr hc

theorem PreKeyInv.run (hi : PreKeyInv hash readOrdered db)
    (h : Run (PreKeyDb.step hash deriveMailboxID readOrdered signed) Any db db') :
    PreKeyInv hash readOrdered db' :=
  h.invariant (fun _ _ _ hi _ hst => hi.step hst) hi

theorem run_claim {c' : Text} {r : SignalClaimV2} (hr : db.claim c' = some r)
    (h : Run (PreKeyDb.step hash deriveMailboxID readOrdered signed) Any db db') :
    db'.claim c' = some r :=
  h.invariant (I := fun db => db.claim c' = some r) (fun _ _ _ hr _ hst => step_claim hr hst) hr

end

/-! ## The oldest eligible bundle -/

/-- A stored bundle a claim with this selector may take at a time. -/
structure Eligible (db : PreKeyDb H) (identityID : Text) (deviceID : Option Text) (nowMS : ℤ)
    (b : SignalPreKeyBundleV2) : Prop where
  stored : db.bundle b.bundleId = some b
  unclaimed : b.claimed = false
  identity : b.identityId = identityID
  device : ∀ d, deviceID = some d → b.deviceId = d
  begun : (b.createdAtMs : ℤ) ≤ nowMS
  unexpired : nowMS < b.expiresAtMs

/-- Created earlier, or at the same time with a smaller id. -/
def Older (b b' : SignalPreKeyBundleV2) : Prop :=
  b.createdAtMs < b'.createdAtMs ∨ b.createdAtMs = b'.createdAtMs ∧ b.bundleId < b'.bundleId

theorem skipped_eq_false {b : SignalPreKeyBundleV2} {d : Option Text} {now : ℤ} :
    skipped b d now = false ↔ b.claimed = false ∧ (b.createdAtMs : ℤ) ≤ now ∧ now < b.expiresAtMs ∧
      ∀ x, d = some x → b.deviceId = x := by
  cases d <;> simp [skipped]

theorem availableKey_eq (b : SignalPreKeyBundleV2) : availableKey b =
    (b.identityId ++ [':']) ++ (padded createdDigits b.createdAtMs ++ ':' :: b.bundleId) := by
  simp [availableKey]

/-- Within an identity key order is age. -/
theorem older_of_key_lt {b b' : SignalPreKeyBundleV2} (hb : b.createdAtMs ≤ maxSafeInteger)
    (hb' : b'.createdAtMs ≤ maxSafeInteger) (hi : b.identityId = b'.identityId)
    (h : availableKey b < availableKey b') : Older b b' := by
  have hlt : b.createdAtMs < 10 ^ createdDigits := lt_of_le_of_lt hb (by decide)
  have hlt' : b'.createdAtMs < 10 ^ createdDigits := lt_of_le_of_lt hb' (by decide)
  have hlen : (padded createdDigits b.createdAtMs).length =
      (padded createdDigits b'.createdAtMs).length := by
    rw [padded_length (by decide) hlt, padded_length (by decide) hlt']
  rw [availableKey_eq, availableKey_eq, hi, append_lt_append_left_iff,
    append_lt_append_iff hlen, padded_lt_iff (by decide) hlt hlt'] at h
  rcases h with h | ⟨he, h⟩
  · exact Or.inl h
  · refine Or.inr ⟨?_, ?_⟩
    · rw [← value_padded createdDigits b.createdAtMs, he, value_padded]
    · rw [List.cons_lt_cons_iff] at h
      simpa using h

namespace PreKeyInv
variable {db : PreKeyDb H} {c i : Text} {d : Option Text} {now : ℤ}

/-- The entries of a scan stand for the unclaimed bundles of the identity. -/
theorem mem_identityEntries (hi : PreKeyInv hash readOrdered db) (hsel : ':' ∉ i)
    {key id : Text} : (key, id) ∈ identityEntries db i ↔ ∃ b, db.bundle id = some b ∧
      b.claimed = false ∧ b.identityId = i ∧ key = availableKey b := by
  rw [identityEntries, List.mem_filter, SortedMap.mem_entries, hi.available]
  have hkey : ∀ b, db.bundle id = some b →
      (hasIdentityPrefix i (availableKey b) = true ↔ b.identityId = i) := by
    intro b hb
    rw [hasIdentityPrefix, isPrefixOf_join]
    constructor
    · rintro ⟨x, hx⟩
      rw [availableKey, List.append_assoc, List.cons_append] at hx
      exact (join_inj_left (hi.wellFormed hb).identity hsel hx).1
    · rintro rfl
      exact ⟨padded createdDigits b.createdAtMs ++ ':' :: b.bundleId, by simp [availableKey]⟩
  constructor
  · rintro ⟨⟨b, hb, hc, rfl⟩, hp⟩
    exact ⟨b, hb, hc, (hkey b hb).1 hp, rfl⟩
  · rintro ⟨b, hb, hc, he, rfl⟩
    exact ⟨⟨b, hb, hc, rfl⟩, (hkey b hb).2 he⟩

theorem eligible_entry (hi : PreKeyInv hash readOrdered db) (hsel : ':' ∉ i)
    {b : SignalPreKeyBundleV2} (h : Eligible db i d now b) :
    (availableKey b, b.bundleId) ∈ identityEntries db i ∧ skipped b d now = false :=
  ⟨(hi.mem_identityEntries hsel).2 ⟨b, h.stored, h.unclaimed, h.identity, rfl⟩,
    skipped_eq_false.2 ⟨h.unclaimed, h.begun, h.unexpired, h.device⟩⟩

/-- **A fresh claim** takes the oldest eligible bundle, or there is none. -/
theorem fresh_claim (hi : PreKeyInv hash readOrdered db) (hsel : ':' ∉ i)
    (hc : db.claim c = none) :
    (claimSignalV2 db c i d now = .error .unavailable ∧ ∀ b, ¬ Eligible db i d now b) ∨
    ∃ b db', claimSignalV2 db c i d now = .ok (b.raw, db') ∧ Eligible db i d now b ∧
      ∀ b', Eligible db i d now b' → b' = b ∨ Older b b' := by
  have hst : ∀ e ∈ identityEntries db i, ∃ b, db.bundle e.2 = some b := by
    rintro ⟨key, id⟩ he
    obtain ⟨b, hb, -⟩ := (hi.mem_identityEntries hsel).1 he
    exact ⟨b, hb⟩
  cases hf : findAvailable db d now (identityEntries db i) with
  | error err =>
    left
    obtain ⟨rfl, hall⟩ := findAvailable_error hst hf
    refine ⟨?_, fun b hb => ?_⟩
    · unfold claimSignalV2
      rw [hc]
      change (findAvailable db d now (identityEntries db i) >>= _) = _
      rw [hf]; rfl
    · obtain ⟨hm, hs⟩ := hi.eligible_entry hsel hb
      rw [hall _ hm b hb.stored] at hs
      cases hs
  | ok found =>
    right
    obtain ⟨key, b⟩ := found
    obtain ⟨before, id, rest, he, hb, hs, hbefore⟩ := findAvailable_ok hf
    have hm : (key, id) ∈ identityEntries db i := by rw [he]; simp
    obtain ⟨b₀, hb₀, hu, hid, rfl⟩ := (hi.mem_identityEntries hsel).1 hm
    rw [hb] at hb₀
    cases hb₀
    obtain ⟨rfl, -⟩ := hi.stored id b hb
    obtain ⟨-, hbeg, hend, hdev⟩ := skipped_eq_false.1 hs
    refine ⟨b, afterClaim db (availableKey b) b c i d now, ?_, ⟨hb, hu, hid, hdev, hbeg, hend⟩,
      fun b' hb' => ?_⟩
    · unfold claimSignalV2
      rw [hc]
      change (findAvailable db d now (identityEntries db i) >>= _) = _
      rw [hf]; rfl
    obtain ⟨hm', hs'⟩ := hi.eligible_entry hsel hb'
    have hsorted : (identityEntries db i).Pairwise fun a b => a.1 < b.1 :=
      db.available.sorted.sublist List.filter_sublist
    rw [he] at hm' hsorted
    rcases List.mem_append.1 hm' with hm' | hm'
    · rw [hbefore _ hm' b' hb'.stored] at hs'
      cases hs'
    rcases List.mem_cons.1 hm' with heq | hm'
    · left
      have hids : b'.bundleId = b.bundleId := congrArg Prod.snd heq
      have hst' := hb'.stored
      rw [hids, hb] at hst'
      exact (Option.some.inj hst').symm
    · right
      have hlt := (List.pairwise_cons.1 (List.pairwise_append.1 hsorted).2.1).1 _ hm'
      exact older_of_key_lt (hi.wellFormed hb).created (hi.wellFormed hb'.stored).created
        (hid.trans hb'.identity.symm) hlt

end PreKeyInv

/-! ## Claims over all runs -/

theorem colon_notMem_selector {c i : Text} {d : Option Text}
    (h : validateSignalSelector c i d = .ok ()) : ':' ∉ i := by
  unfold validateSignalSelector at h
  split_ifs at h with hn
  simp only [not_or, Bool.not_eq_false] at hn
  exact colon_notMem_b64 hn.2.1

/-- The one-time key of a bundle, by the names it is reserved under. -/
def oneTimeKeyTuple (b : SignalPreKeyBundleV2) : Text × Text × Text × ℕ :=
  (b.identityId, b.deviceId, b.signalIdentity, b.oneTimeKeyId)

theorem tupleDigest_congr (hash : Text → H) {b b' : SignalPreKeyBundleV2}
    (h : oneTimeKeyTuple b = oneTimeKeyTuple b') : tupleDigest hash b = tupleDigest hash b' := by
  simp only [oneTimeKeyTuple, Prod.mk.injEq] at h
  obtain ⟨h1, h2, h3, h4⟩ := h
  simp only [tupleDigest, h1, h2, h3, h4]

/-- No two bundles share a one-time key. -/
theorem PreKeyInv.distinct_keys {db : PreKeyDb H} (hi : PreKeyInv hash readOrdered db)
    {id id' : Text} {b b' : SignalPreKeyBundleV2} (h : db.bundle id = some b)
    (h' : db.bundle id' = some b') (hne : id ≠ id') :
    b.oneTimePublicKey ≠ b'.oneTimePublicKey ∧ oneTimeKeyTuple b ≠ oneTimeKeyTuple b' := by
  constructor
  · intro he
    have hp := hi.publicKey id b h
    have hp' := hi.publicKey id' b' h'
    rw [publicDigest, he] at hp
    rw [publicDigest, hp] at hp'
    exact hne (Option.some.inj hp')
  · intro he
    have ht := hi.tuple id b h
    rw [tupleDigest_congr hash he, hi.tuple id' b' h'] at ht
    exact hne (Option.some.inj ht).symm

/-- Two claims with different ids take different bundles. -/
theorem PreKeyInv.distinct_claims {db : PreKeyDb H} (hi : PreKeyInv hash readOrdered db)
    {c c' : Text} {r r' : SignalClaimV2} (h : db.claim c = some r) (h' : db.claim c' = some r')
    (hne : c' ≠ c) : r'.bundleId ≠ r.bundleId ∧ r'.bundle ≠ r.bundle := by
  have hid : r'.bundleId ≠ r.bundleId := fun he => hne (hi.once c' c r' r h' h he)
  refine ⟨hid, fun he => hid ?_⟩
  obtain ⟨b, hb, -, hraw⟩ := hi.claims c r h
  obtain ⟨b', hb', -, hraw'⟩ := hi.claims c' r' h'
  exact hi.raw_inj hb' hb (by rw [hraw, hraw', he])

variable [DecidableEq H]

/-- **Prekeys are claimed at most once.** In every store reached by any requests, the index
    lists the stored unclaimed bundles and no two stored bundles share a one-time key; a claim
    that was answered is answered with the same bytes for ever, conflicts under any other
    selector, and shares its bundle with no other claim id; and a fresh claim takes the oldest
    eligible bundle, or there is none. -/
theorem claims_at_most_once (db : PreKeyDb H)
    (hr : Run (PreKeyDb.step hash deriveMailboxID readOrdered signed) Any (PreKeyDb.init H) db) :
    (∀ key id, db.available.get key = some id ↔
      ∃ b, db.bundle id = some b ∧ b.claimed = false ∧ key = availableKey b) ∧
    (∀ id id' b b', db.bundle id = some b → db.bundle id' = some b' → id ≠ id' →
      b.oneTimePublicKey ≠ b'.oneTimePublicKey ∧ oneTimeKeyTuple b ≠ oneTimeKeyTuple b') ∧
    (∀ c i d now bytes db₁, claimSignalV2 db c i d now = .ok (bytes, db₁) → ∀ db₂,
      Run (PreKeyDb.step hash deriveMailboxID readOrdered signed) Any db₁ db₂ →
        (∀ now', claimSignalV2 db₂ c i d now' = .ok (bytes, db₂)) ∧
        (∀ i' d' now', ¬ (i' = i ∧ d' = d) →
          claimSignalV2 db₂ c i' d' now' = .error .claimConflict) ∧
        (∀ i' d' now', PreKeyDb.step hash deriveMailboxID readOrdered signed db₂
          (.claim c i' d' now') = some db₂) ∧
        ∀ c' i' d' now' bytes' db₃, c' ≠ c →
          claimSignalV2 db₂ c' i' d' now' = .ok (bytes', db₃) → bytes' ≠ bytes ∧
          ∃ r r', db₃.claim c = some r ∧ db₃.claim c' = some r' ∧ r.bundle = bytes ∧
            r'.bundle = bytes' ∧ r'.bundleId ≠ r.bundleId) ∧
    ∀ c i d now, db.claim c = none → validateSignalSelector c i d = .ok () →
      (claimSignalV2 db c i d now = .error .unavailable ∧ ∀ b, ¬ Eligible db i d now b) ∨
      ∃ b db', claimSignalV2 db c i d now = .ok (b.raw, db') ∧ Eligible db i d now b ∧
        ∀ b', Eligible db i d now b' → b' = b ∨ Older b b' := by
  have hi : PreKeyInv hash readOrdered db := PreKeyInv.init.run hr
  refine ⟨hi.available, fun id id' b b' h h' hne => hi.distinct_keys h h' hne,
    fun c i d now bytes db₁ h db₂ hrun => ?_,
    fun c i d now hc hsel => hi.fresh_claim (colon_notMem_selector hsel) hc⟩
  obtain ⟨r, hr₁, hri, hrd, hrb⟩ := claim_recorded h
  have hr₂ := run_claim hr₁ hrun
  have hi₂ := (hi.after_claim h).run hrun
  have hsame : ∀ now', claimSignalV2 db₂ c i d now' = .ok (bytes, db₂) := by
    intro now'
    rw [claim_replay hr₂, if_neg (by simp [hri, hrd]), hrb]
  have hother : ∀ i' d' now', ¬ (i' = i ∧ d' = d) →
      claimSignalV2 db₂ c i' d' now' = .error .claimConflict := by
    intro i' d' now' hne
    rw [claim_replay hr₂, if_pos]
    rw [hri, hrd, ← not_and_or]
    exact fun he => hne ⟨he.1.symm, he.2.symm⟩
  refine ⟨hsame, hother, fun i' d' now' => ?_, fun c' i' d' now' bytes' db₃ hne h' => ?_⟩
  · simp only [PreKeyDb.step, claimSignalPreKeyBundleV2]
    cases validateSignalSelector c i' d' with
    | error e => rfl
    | ok u =>
      by_cases hs : i' = i ∧ d' = d
      · obtain ⟨rfl, rfl⟩ := hs
        simp only [hsame now', bind, Except.bind]
      · simp only [hother i' d' now' hs, bind, Except.bind]
  · obtain ⟨r', hr₃', -, -, hrb'⟩ := claim_recorded h'
    have hr₃ := claim_keeps hr₂ h'
    obtain ⟨hids, hraws⟩ := (hi₂.after_claim h').distinct_claims hr₃ hr₃' hne
    rw [hrb, hrb'] at hraws
    exact ⟨hraws, r, r', hr₃, hr₃', hrb, hrb', hids⟩

/-- `n` characters that encode zero bits, after the given ones. -/
def zeros (lead : String) (n : ℕ) : Value := .str (lead.toList ++ List.replicate n 'A')

/-- A published document: created at 5, expires at 10. -/
def document : Value :=
  .obj [("type", .str "signal_prekey_bundle".toList), ("version", .number 2),
    ("suite", .str "libsignal-pq-v1".toList), ("bundle_id", .str nilUUID),
    ("created_at_ms", .number 5), ("expires_at_ms", .number 10),
    ("device_record", .obj [("type", .str "device_record".toList), ("version", .number 1),
      ("identity_id", zeros "" 43), ("device_id", .str nilUUID), ("device_pubkey", zeros "" 43),
      ("capabilities", .obj []), ("created_at_ms", .number 1), ("signature", zeros "" 86)]),
    ("registration_id", .number 1), ("signal_identity_key", zeros "BQ" 42),
    ("signed_prekey", .obj [("key_id", .number 1), ("public_key", zeros "BQ" 42),
      ("signature", zeros "" 86)]),
    ("kyber_prekey", .obj [("key_id", .number 1), ("public_key", zeros "C" 2091),
      ("signature", zeros "" 86)]),
    ("one_time_prekey", .obj [("key_id", .number 7), ("public_key", zeros "BQ" 42)]),
    ("signature", zeros "" 86)]

/-- The service where the bytes `[1]` hold that document and a digest is the text itself. -/
def documentStep : PreKeyDb Text → PreKeyAct → Option (PreKeyDb Text) :=
  PreKeyDb.step id id (fun raw => if raw = [1] then some document else none) fun _ => true

def documentPublished : PreKeyDb Text :=
  (replay documentStep Any [.publish [1] 6] (PreKeyDb.init Text)).get (by decide +kernel)

theorem document_claimed_once : ∃ db₁,
    claimSignalV2 documentPublished nilUUID (List.replicate 43 'A') none 6 = .ok ([1], db₁) ∧
    ∀ db₂, Run documentStep Any db₁ db₂ → ∀ c' i' d' now' bytes' db₃, c' ≠ nilUUID →
      claimSignalV2 db₂ c' i' d' now' = .ok (bytes', db₃) → bytes' ≠ [1] := by
  have hbytes : (claimSignalV2 documentPublished nilUUID (List.replicate 43 'A') none
      6).toOption.map (·.1) = some [1] := by decide +kernel
  cases hc : claimSignalV2 documentPublished nilUUID (List.replicate 43 'A') none 6 with
  | error e => rw [hc] at hbytes; cases hbytes
  | ok answer =>
    obtain ⟨bytes, db₁⟩ := answer
    rw [hc] at hbytes
    cases hbytes
    refine ⟨db₁, rfl, fun db₂ hrun c' i' d' now' bytes' db₃ hne h' => ?_⟩
    have hr : Run documentStep Any (PreKeyDb.init Text) documentPublished :=
      Run.of_replay (Option.some_get _).symm
    have hall := (claims_at_most_once documentPublished hr).2.2.1 _ _ _ _ _ _ hc db₂ hrun
    exact (hall.2.2.2 c' i' d' now' bytes' db₃ hne h').1

end Echolet
