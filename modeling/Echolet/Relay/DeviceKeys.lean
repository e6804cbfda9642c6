/-
  The public key of a published device.

  The version 2 route refuses a device record whose key differs from the stored one; the
  version 1 route writes whatever the identity signed, an older record included.

  * `KeepsKey` is the condition on version 1 publications under which both agree;
  * `KeyKept` relates two stores between which no key changed (`KeyKept.step`);
  * `device_key_immutable`: in every run of such requests a stored key never changes, and a
    device that was authorized stays authorized with the same key;
  * `device_key_replaced` is a version 1 publication that replaces a key.
-/
import Echolet.Relay.Publications

namespace Echolet

/-- The key stored for a device. -/
def storedKey (db : DeviceDb) (identityID deviceID : Text) : Option Text :=
  match db.deviceRecord.get (deviceRecordKey identityID deviceID) with
  | some (.decoded stored) => some stored.devicePubKey
  | _ => none

theorem storedKey_eq_some {db : DeviceDb} {i d key : Text} : storedKey db i d = some key ↔
    ∃ r, db.deviceRecord.get (deviceRecordKey i d) = some (.decoded r) ∧ r.devicePubKey = key := by
  unfold storedKey
  split
  next stored hs => simp [hs]
  next hn =>
    constructor
    · intro h; cases h
    · rintro ⟨r, hr, -⟩; exact absurd hr (hn r)

/-- A version 1 publication that validates carries the key stored for its device, if any. -/
def KeepsKey {H : Type} (verify : DeviceRecord → List ℕ → List ℕ → Bool) (s : Publications H) :
    PublicationAct → Prop
  | .publishDeviceRecord record => validateDeviceRecord verify record = .ok () →
      ∀ key ∈ storedKey s.db.toDeviceDb record.identityId record.deviceId, record.devicePubKey = key
  | _ => True

instance {H : Type} (verify : DeviceRecord → List ℕ → List ℕ → Bool) (s : Publications H)
    (a : PublicationAct) : Decidable (KeepsKey verify s a) := by
  cases a <;> simp only [KeepsKey] <;> infer_instance

/-- Decoded records keep their keys and bindings stay as they are. -/
structure KeyKept (db db' : DeviceDb) : Prop where
  record : ∀ {k r}, db.deviceRecord.get k = some (.decoded r) →
    ∃ r', db'.deviceRecord.get k = some (.decoded r') ∧ r'.devicePubKey = r.devicePubKey
  binding : ∀ {k i}, db.deviceMailbox k = some i → db'.deviceMailbox k = some i

namespace KeyKept
variable {deriveMailboxID : Text → Text} {db db' db'' : DeviceDb} {record : DeviceRecord}

theorem refl (db : DeviceDb) : KeyKept db db := ⟨fun {_ r} h => ⟨r, h, rfl⟩, id⟩

theorem trans (h : KeyKept db db') (h' : KeyKept db' db'') : KeyKept db db'' := by
  refine ⟨fun hk => ?_, fun hk => h'.binding (h.binding hk)⟩
  obtain ⟨r₁, h₁, he₁⟩ := h.record hk
  obtain ⟨r₂, h₂, he₂⟩ := h'.record h₁
  exact ⟨r₂, h₂, he₂.trans he₁⟩

theorem bind : KeyKept db (saveDeviceMailboxBinding deriveMailboxID db record) :=
  ⟨fun {_ r} h => ⟨r, by rwa [saveDeviceMailboxBinding_deviceRecord], rfl⟩,
    saveDeviceMailboxBinding_keeps⟩

theorem set (h : ∀ key ∈ storedKey db record.identityId record.deviceId,
    record.devicePubKey = key) : KeyKept db (setDeviceRecord deriveMailboxID db record) := by
  refine ⟨fun {k r} hk => ?_, fun {k i} hk => saveDeviceMailboxBinding_keeps hk⟩
  rw [setDeviceRecord, saveDeviceMailboxBinding_deviceRecord, SortedMap.get_insert]
  split_ifs with hke
  · subst hke
    exact ⟨record, rfl, h _ (storedKey_eq_some.2 ⟨r, hk, rfl⟩)⟩
  · exact ⟨r, hk, rfl⟩

end KeyKept

section
variable {H : Type} [DecidableEq H] {hash : Text → H} {deriveMailboxID : Text → Text}
  {readOrdered : List UInt8 → Option Value} {signed : Value → Bool}
  {verify : DeviceRecord → List ℕ → List ℕ → Bool} {s s' : Publications H}

/-- **No step that meets the condition changes a key.** -/
theorem KeyKept.step {a : PublicationAct} (hc : KeepsKey verify s a)
    (h : Publications.step hash deriveMailboxID readOrdered signed verify s a = some s') :
    KeyKept s.db.toDeviceDb s'.db.toDeviceDb := by
  have hd := step_devices h
  change KeyKept s.devices.db s'.devices.db
  cases he : Publications.emits hash deriveMailboxID readOrdered signed verify s a with
  | none =>
    rw [he] at hd
    rw [← Option.some.inj hd]
    exact .refl _
  | some act =>
    rw [he] at hd
    obtain ⟨d, -, hact, hd⟩ := replay_cons hd
    cases Option.some.inj hd
    rcases device_step_cases hact with hs | ⟨r, hr, hs⟩ | ⟨r, stored, -, -, -, hs⟩ | ⟨-, hs⟩ |
      ⟨r, rest, -, -, hs⟩ | ⟨-, hs⟩ <;> rw [hs]
    · exact .refl _
    · rcases hr with rfl | ⟨-, hn⟩
      · -- only a version 1 publication emits this
        refine KeyKept.set ?_
        cases a with
        | publishDeviceRecord record =>
          simp only [Publications.emits] at he
          split at he
          next hv => cases he; exact hc hv
          next => cases he
        | publishSignal raw now =>
          simp only [Publications.emits] at he
          split at he
          next => cases he
          next => split at he <;> cases he
        | claimSignal => cases he
        | backfillScan => cases he
        | backfillBind record => cases he
        | backfillStop => cases he
      · refine KeyKept.set fun key hkey => ?_
        obtain ⟨stored, hst, -⟩ := storedKey_eq_some.1 hkey
        rw [hn] at hst; cases hst
    · exact .bind
    · exact .refl _
    · exact .bind
    · exact .refl _

theorem Filed.publication {a : PublicationAct} (hf : Filed deriveMailboxID s.devices)
    (h : Publications.step hash deriveMailboxID readOrdered signed verify s a = some s') :
    Filed deriveMailboxID s'.devices := by
  have hd := step_devices h
  cases he : Publications.emits hash deriveMailboxID readOrdered signed verify s a with
  | none =>
    rw [he] at hd
    rwa [← Option.some.inj hd]
  | some act =>
    rw [he] at hd
    obtain ⟨d, ha, hact, hd⟩ := replay_cons hd
    cases Option.some.inj hd
    exact hf.step ha hact

/-- What a lookup that accepts went through. -/
theorem authorizeMailboxDevice_ok {db : DeviceDb} {m d : Text} {r : DeviceRecord} :
    authorizeMailboxDevice deriveMailboxID db m d = .ok r ↔ m ≠ [] ∧ d ≠ [] ∧
      (∃ i, db.deviceMailbox (deviceMailboxBindingKey m d) = some i ∧
        db.deviceRecord.get (deviceRecordKey i d) = some (.decoded r)) ∧
      deriveMailboxID r.identityId = m := by
  unfold authorizeMailboxDevice getByMailboxAndDevice
  constructor
  · intro h
    obtain ⟨r', hg, h⟩ := except_bind_ok h
    split_ifs at hg h with hn hm
    cases h
    rw [not_or] at hn
    split at hg
    next => cases hg
    next i hi =>
      split at hg
      next => cases hg
      next => cases hg
      next => cases hg
      next hr => cases hg; exact ⟨hn.1, hn.2, ⟨i, hi, hr⟩, not_not.1 hm⟩
  · rintro ⟨hm, hd, ⟨i, hi, hr⟩, hmr⟩
    rw [if_neg (by rw [not_or]; exact ⟨hm, hd⟩), hi]
    simp only [hr]
    exact if_neg (not_not.2 hmr)

/-- **An authorized device stays authorized, with the same key.** -/
theorem KeyKept.authorized {d : DeviceState} {db : DeviceDb} (h : KeyKept db d.db)
    (hf : ∀ {k r}, db.deviceRecord.get k = some (.decoded r) →
      k = deviceRecordKey r.identityId r.deviceId ∧ Admissible r)
    (hb : ∀ {k i}, db.deviceMailbox k = some i → ':' ∉ i) (hd : Filed deriveMailboxID d)
    {m id : Text} {r : DeviceRecord} (ha : authorizeMailboxDevice deriveMailboxID db m id = .ok r) :
    ∃ r', authorizeMailboxDevice deriveMailboxID d.db m id = .ok r' ∧
      r'.devicePubKey = r.devicePubKey := by
  obtain ⟨hm, hid, ⟨i, hi, hr⟩, hmr⟩ := authorizeMailboxDevice_ok.1 ha
  obtain ⟨r', hr', hk⟩ := h.record hr
  -- both records stand under the key of one identity
  have hsame : ∀ {x : DeviceRecord}, deviceRecordKey i id = deviceRecordKey x.identityId x.deviceId →
      Admissible x → i = x.identityId := fun hk hx =>
    (join_inj_left (hb hi) hx.colon_notMem hk).1
  have h₁ := hsame (hf hr).1 (hf hr).2
  have h₂ := hsame (hd.record hr').1 (hd.record hr').2
  refine ⟨r', authorizeMailboxDevice_ok.2 ⟨hm, hid, ⟨i, h.binding hi, hr'⟩, ?_⟩, hk⟩
  rw [← h₂, h₁, hmr]

/-- **Device keys are immutable** in every run, from any filed store, in which each version 1
    publication carries the key stored for its device: a stored key never changes, and a device
    authorized for a mailbox stays authorized for it with the same key. -/
theorem device_key_immutable (hf : Filed deriveMailboxID s.devices)
    (hr : Run (Publications.step hash deriveMailboxID readOrdered signed verify)
      (KeepsKey verify) s s') :
    (∀ identityID deviceID key, storedKey s.db.toDeviceDb identityID deviceID = some key →
      storedKey s'.db.toDeviceDb identityID deviceID = some key) ∧
    ∀ m d r, authorizeMailboxDevice deriveMailboxID s.db.toDeviceDb m d = .ok r →
      ∃ r', authorizeMailboxDevice deriveMailboxID s'.db.toDeviceDb m d = .ok r' ∧
        r'.devicePubKey = r.devicePubKey := by
  have hinv := hr.invariant (I := fun t : Publications H => Filed deriveMailboxID t.devices ∧
      KeyKept s.db.toDeviceDb t.db.toDeviceDb)
    (fun t a t' hi hc hst => ⟨hi.1.publication hst, hi.2.trans (.step hc hst)⟩) ⟨hf, .refl _⟩
  obtain ⟨hf', hk⟩ := hinv
  refine ⟨fun i d key h => ?_, fun m d r h => ?_⟩
  · obtain ⟨r, hr, rfl⟩ := storedKey_eq_some.1 h
    exact storedKey_eq_some.2 (hk.record hr)
  · exact hk.authorized (d := s'.devices) hf.record (fun h => (hf.binding h).1) hf' h

end

/-- A record of a device of one identity, with a given key. -/
def deviceWithKey (key : Char) : DeviceRecord :=
  ⟨"device_record".toList, 1, List.replicate 43 'A', ['d'], [key], none, [], 0,
    List.replicate 86 'A'⟩

/-- An empty store, where every signature of a record is good and no bundle is published. -/
def noPublications : Publications Text := ⟨PreKeyDb.init Text, none⟩

def publicationStep : Publications Text → PublicationAct → Option (Publications Text) :=
  Publications.step id id (fun _ => none) (fun _ => true) fun _ _ _ => true

theorem noPublications_filed {deriveMailboxID : Text → Text} :
    Filed deriveMailboxID noPublications.devices where
  record h := by cases h
  binding h := by cases h
  pending h := by cases h

/-- A device published twice with one key, the second time in a later record. -/
def publishedAgain : List PublicationAct :=
  [.publishDeviceRecord (deviceWithKey 'k'),
    .publishDeviceRecord { deviceWithKey 'k' with createdAtMs := 1 }]

theorem device_key_immutable_again : ∃ s s', Run publicationStep (KeepsKey fun _ _ _ => true) s s' ∧
    storedKey s.db.toDeviceDb (List.replicate 43 'A') ['d'] = some ['k'] ∧
    storedKey s'.db.toDeviceDb (List.replicate 43 'A') ['d'] = some ['k'] := by
  let one := (replay publicationStep (KeepsKey fun _ _ _ => true) (publishedAgain.take 1)
    noPublications).get (by decide)
  let two := (replay publicationStep (KeepsKey fun _ _ _ => true) (publishedAgain.drop 1)
    one).get (by decide +kernel)
  have h₁ : Run publicationStep (KeepsKey fun _ _ _ => true) noPublications one :=
    Run.of_replay (Option.some_get _).symm
  have h₂ : Run publicationStep (KeepsKey fun _ _ _ => true) one two :=
    Run.of_replay (Option.some_get _).symm
  have hf : Filed id one.devices := h₁.invariant (I := fun s => Filed id s.devices)
    (fun _ _ _ hf _ hst => hf.publication hst) noPublications_filed
  have hk : storedKey one.db.toDeviceDb (List.replicate 43 'A') ['d'] = some ['k'] := by
    decide +kernel
  exact ⟨one, two, h₂, hk, (device_key_immutable hf h₂).1 _ _ _ hk⟩

/-- A record with another key replaces the stored one, and the old record replaces it again. -/
theorem device_key_replaced : ¬ ∀ s s' : Publications Text, Run publicationStep Any noPublications s →
    Run publicationStep Any s s' → ∀ i d key, storedKey s.db.toDeviceDb i d = some key →
      storedKey s'.db.toDeviceDb i d = some key := by
  intro h
  let one := (replay publicationStep Any [.publishDeviceRecord (deviceWithKey 'k')]
    noPublications).get (by decide)
  let two := (replay publicationStep Any [.publishDeviceRecord (deviceWithKey 'l')]
    one).get (by decide)
  have hk := h one two (Run.of_replay (Option.some_get _).symm) (Run.of_replay (Option.some_get _).symm)
    (List.replicate 43 'A') ['d'] ['k'] (by decide +kernel)
  exact absurd hk (by decide +kernel)

end Echolet
