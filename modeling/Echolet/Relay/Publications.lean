/-
  The two publication routes and the backfill of bindings over one store.

  `Publications.step` takes whole requests: a device record or a signal bundle as it is
  published, a claim, and the three steps of the backfill.  `emits` names the transaction on
  device records that a request comes to, if any; `step_devices` says that the device part
  of the store does exactly that transaction.

  * `Admissible` is what validation promises of a record on either route;
  * `Filed` is the invariant of the device part: records stand under their own keys and
    bindings under keys of the mailbox their identity derives (`Filed.step`);
  * `Trace` is a run with the transactions it emitted (`Trace.replay`).
-/
import Echolet.Relay.Claims

namespace Echolet

/-! ## Requests -/

structure Publications (H : Type) where
  db : PreKeyDb H
  pending : Option (List DeviceRecord)

inductive PublicationAct where
  | publishDeviceRecord (record : DeviceRecord)
  | publishSignal (raw : List UInt8) (nowMS : ℤ)
  | claimSignal (claimID identityID : Text) (deviceID : Option Text) (nowMS : ℤ)
  | backfillScan
  | backfillBind (record : DeviceRecord)
  | backfillStop

/-- The device part of the store. -/
def Publications.devices {H : Type} (s : Publications H) : DeviceState :=
  ⟨s.db.toDeviceDb, s.pending⟩

section
variable {H : Type} [DecidableEq H] (hash : Text → H) (deriveMailboxID : Text → Text)
  (readOrdered : List UInt8 → Option Value) (signed : Value → Bool)
  (verify : DeviceRecord → List ℕ → List ℕ → Bool)

/-- `PublishDeviceRecord`, from the decoded record on. -/
def publishDeviceRecord (db : DeviceDb) (record : DeviceRecord) :
    Except (ValidationError ⊕ PreKeyError) DeviceDb :=
  match validateDeviceRecord verify record with
  | .error e => .error (.inl e)
  | .ok () =>
    match saveDeviceRecord deriveMailboxID db record with
    | .error e => .error (.inr e)
    | .ok db => .ok db

def Publications.step (s : Publications H) : PublicationAct → Option (Publications H)
  | .publishDeviceRecord record => some <|
    match publishDeviceRecord deriveMailboxID verify s.db.toDeviceDb record with
    | .ok devices => { s with db := { s.db with toDeviceDb := devices } }
    | .error _ => s
  | .publishSignal raw nowMS => some <|
    match publishSignalPreKeyBundleV2Claimable hash deriveMailboxID readOrdered signed s.db raw
      nowMS with
    | .ok (_, db) => { s with db := db }
    | .error _ => s
  | .claimSignal claimID identityID deviceID nowMS => some <|
    match claimSignalPreKeyBundleV2 s.db claimID identityID deviceID nowMS with
    | .ok (_, db) => { s with db := db }
    | .error _ => s
  | .backfillScan => some { s with pending := some (pendingBindings s.db.toDeviceDb) }
  | .backfillBind record =>
    match s.pending with
    | some (first :: rest) =>
      if first = record then
        some ⟨{ s.db with toDeviceDb :=
          saveDeviceMailboxBinding deriveMailboxID s.db.toDeviceDb record }, some rest⟩
      else none
    | _ => none
  | .backfillStop => some { s with pending := none }

/-- The transaction on device records a request comes to: a version 1 publication that
    validated, the record of a version 2 publication that was accepted. -/
def Publications.emits (s : Publications H) : PublicationAct → Option DeviceAct
  | .publishDeviceRecord record =>
    match validateDeviceRecord verify record with
    | .ok () => some (.save record)
    | .error _ => none
  | .publishSignal raw nowMS =>
    match validateSignalPreKeyBundleV2 readOrdered signed raw nowMS with
    | .error _ => none
    | .ok b =>
      match saveSignalV2 hash deriveMailboxID s.db b with
      | .ok _ => some (.authorize b.deviceRecord)
      | .error _ => none
  | .claimSignal .. => none
  | .backfillScan => some .backfillScan
  | .backfillBind record => some (.backfillBind record)
  | .backfillStop => some .backfillStop

/-- A run, with the transactions on device records it made. -/
inductive Publications.Trace (s : Publications H) : List DeviceAct → Publications H → Prop
  | refl : Trace s [] s
  | tail {acts : List DeviceAct} {s' s'' : Publications H} {a : PublicationAct} :
    Trace s acts s' →
    Publications.step hash deriveMailboxID readOrdered signed verify s' a = some s'' →
    Trace s (acts ++ (Publications.emits hash deriveMailboxID readOrdered signed verify s' a).toList)
      s''

end

/-! ## What validation promises -/

/-- What the store relies on in a record that was published. -/
structure Admissible (record : DeviceRecord) : Prop where
  colon_notMem : ':' ∉ record.identityId
  identity : record.identityId ≠ []
  device : record.deviceId ≠ []

instance (record : DeviceRecord) : Decidable (Admissible record) :=
  decidable_of_iff (':' ∉ record.identityId ∧ record.identityId ≠ [] ∧ record.deviceId ≠ [])
    ⟨fun h => ⟨h.1, h.2.1, h.2.2⟩, fun h => ⟨h.1, h.2, h.3⟩⟩

/-- The transaction is about an admissible record. -/
def DeviceAct.Admits : DeviceState → DeviceAct → Prop
  | _, .save record => Admissible record
  | _, .authorize record => Admissible record
  | _, _ => True

instance (s : DeviceState) (act : DeviceAct) : Decidable (act.Admits s) := by
  cases act <;> simp only [DeviceAct.Admits] <;> infer_instance

theorem isSome_base64Value_raw : ∀ {t : Text} {bytes : List ℕ}, decodeRawChars t = some bytes →
    ∀ c ∈ t, (base64Value c).isSome := by
  intro t
  induction t using decodeRawChars.induct with
  | case1 => intro _ _ c hc; cases hc
  | case2 => intro _ h; cases h
  | case3 a b =>
    intro bytes h
    simp only [decodeRawChars, Option.bind_eq_bind, Option.bind_eq_some_iff] at h
    obtain ⟨x, hx, y, hy, -⟩ := h
    simp [hx, hy]
  | case4 a b c =>
    intro bytes h
    simp only [decodeRawChars, Option.bind_eq_bind, Option.bind_eq_some_iff] at h
    obtain ⟨x, hx, y, hy, z, hz, -⟩ := h
    simp [hx, hy, hz]
  | case5 a b c d t ih =>
    intro bytes h
    simp only [decodeRawChars, Option.bind_eq_bind, Option.bind_eq_some_iff] at h
    obtain ⟨x, hx, y, hy, z, hz, w, hw, rest, hr, -⟩ := h
    simpa [hx, hy, hz, hw] using ih hr

theorem colon_notMem_rawURL {t : Text} {bytes : List ℕ} (h : decodeRawURL t = some bytes) :
    ':' ∉ t := by
  intro hc
  have hmem : ':' ∈ t.filter fun c => c ≠ '\r' ∧ c ≠ '\n' := List.mem_filter.2 ⟨hc, by decide⟩
  exact absurd (isSome_base64Value_raw h ':' hmem) (by decide)

theorem validateDeviceRecord_admissible {verify : DeviceRecord → List ℕ → List ℕ → Bool}
    {record : DeviceRecord} (h : validateDeviceRecord verify record = .ok ()) :
    Admissible record := by
  unfold validateDeviceRecord at h
  split_ifs at h with _ _ hi hd _ _ _ _ hv
  refine ⟨?_, hi, hd⟩
  unfold verifyCanonicalJSONSignature at hv
  split at hv
  next signature publicKey _ hk => exact colon_notMem_rawURL hk
  next => cases hv

theorem ne_nil_of_b64Text {t : Text} {n : ℕ} {lead : Option ℕ} (hn : 0 < n)
    (h : b64Text t n lead = true) : t ≠ [] := by
  rintro rfl
  simp only [b64Text, decodeBase64, List.length_nil, decide_eq_true_eq] at h
  omega

theorem ne_nil_of_uuidV2 {t : Text} (h : uuidV2 t = true) : t ≠ [] := by
  rintro rfl
  exact absurd h (by decide)

theorem readDeviceRecord_device {v : Value} {dr : DeviceRecord} (h : readDeviceRecord v = some dr) :
    uuidV2 dr.deviceId = true := by
  simp only [readDeviceRecord, Option.bind_eq_bind, Option.bind_eq_some_iff] at h
  obtain ⟨_, -, _, -, _, -, _, -, _, -, _, -, deviceId, hid, _, -, _, -, _, -, _, -, h⟩ := h
  cases h
  exact validUUID_eq_some hid

theorem readBundle_admissible {raw : List UInt8} {v : Value} {b : SignalPreKeyBundleV2}
    (h : readBundle raw v = some b) : Admissible b.deviceRecord := by
  simp only [readBundle, Option.bind_eq_bind, Option.bind_eq_some_iff] at h
  obtain ⟨_, -, _, -, _, -, _, -, _, -, _, -, _, -, dr, hdr, _, -, _, -,
    _, -, _, -, _, -, _, -, _, -, _, -, h⟩ := h
  cases h
  have hid := readDeviceRecord_identity hdr
  exact ⟨colon_notMem_b64 hid, ne_nil_of_b64Text (by decide) hid,
    ne_nil_of_uuidV2 (readDeviceRecord_device hdr)⟩

section
variable {H : Type} [DecidableEq H] {hash : Text → H} {deriveMailboxID : Text → Text}
  {readOrdered : List UInt8 → Option Value} {signed : Value → Bool}
  {verify : DeviceRecord → List ℕ → List ℕ → Bool}

theorem validateSignal_admissible {raw : List UInt8} {now : ℤ} {b : SignalPreKeyBundleV2}
    (h : validateSignalPreKeyBundleV2 readOrdered signed raw now = .ok b) :
    Admissible b.deviceRecord := by
  obtain ⟨value, -, hb⟩ := Option.bind_eq_some_iff.1 (validate_parsed h)
  exact readBundle_admissible hb

/-! ## Requests and transactions -/

/-- **A version 2 publication authorizes its device record** and does nothing else to the
    device part. -/
theorem saveSignalV2_devices {db db' : PreKeyDb H} {b : SignalPreKeyBundleV2} {claimable : Bool}
    (h : saveSignalV2 hash deriveMailboxID db b = .ok (claimable, db')) :
    saveSignalV2Authorization deriveMailboxID db.toDeviceDb b.deviceRecord = .ok db'.toDeviceDb := by
  unfold saveSignalV2 at h
  split_ifs at h
  split at h
  next stored hs =>
    split_ifs at h
    obtain ⟨devices, ha, h⟩ := except_bind_ok h
    cases h
    exact ha
  next hs =>
    obtain ⟨db₁, hres, h⟩ := except_bind_ok h
    obtain ⟨devices, ha, h⟩ := except_bind_ok h
    obtain ⟨-, -, rfl⟩ := reserve_ok hres
    cases h
    exact ha

omit [DecidableEq H] in
theorem claimSignal_devices {db db' : PreKeyDb H} {c i : Text} {d : Option Text} {now : ℤ}
    {bytes : List UInt8} (h : claimSignalPreKeyBundleV2 db c i d now = .ok (bytes, db')) :
    db'.toDeviceDb = db.toDeviceDb := by
  obtain ⟨-, -, h⟩ := except_bind_ok h
  rcases claim_cases h with ⟨_, -, -, -, -, rfl⟩ | ⟨key, b, -, -, -, rfl⟩
  · rfl
  · rfl

/-- **The device part does what the request emits**, and nothing where it emits nothing. -/
theorem step_devices {s s' : Publications H} {a : PublicationAct}
    (h : Publications.step hash deriveMailboxID readOrdered signed verify s a = some s') :
    replay (DeviceState.step deriveMailboxID) DeviceAct.Admits
      (Publications.emits hash deriveMailboxID readOrdered signed verify s a).toList s.devices =
        some s'.devices := by
  cases a with
  | publishDeviceRecord record =>
    simp only [Publications.step, publishDeviceRecord, Option.some.injEq] at h
    simp only [Publications.emits]
    cases hv : validateDeviceRecord verify record with
    | error e => rw [hv] at h; cases h; rfl
    | ok u =>
      rw [hv] at h
      simp only at h
      refine replay_single (validateDeviceRecord_admissible hv) ?_
      simp only [DeviceState.step, Publications.devices]
      cases hs : saveDeviceRecord deriveMailboxID s.db.toDeviceDb record with
      | error e => rw [hs] at h; cases h; rfl
      | ok devices => rw [hs] at h; cases h; rfl
  | publishSignal raw now =>
    simp only [Publications.step, publishSignalPreKeyBundleV2Claimable, Option.some.injEq] at h
    simp only [Publications.emits]
    cases hv : validateSignalPreKeyBundleV2 readOrdered signed raw now with
    | error e => rw [hv] at h; cases h; rfl
    | ok b =>
      rw [hv] at h
      simp only [bind, Except.bind] at h
      simp only
      cases hs : saveSignalV2 hash deriveMailboxID s.db b with
      | error e => rw [hs] at h; cases h; rfl
      | ok answer =>
        obtain ⟨claimable, db'⟩ := answer
        rw [hs] at h
        cases h
        refine replay_single (validateSignal_admissible hv) ?_
        simp only [DeviceState.step, Publications.devices, saveSignalV2_devices hs]
  | claimSignal c i d now =>
    simp only [Publications.step, Option.some.injEq] at h
    split at h
    next bytes db' hc =>
      subst h
      simp only [Publications.emits, Publications.devices, claimSignal_devices hc]
      rfl
    next => subst h; rfl
  | backfillScan => cases h; exact replay_single trivial rfl
  | backfillBind record =>
    refine replay_single trivial ?_
    simp only [Publications.step] at h
    simp only [DeviceState.step, Publications.devices]
    cases hp : s.pending with
    | none => rw [hp] at h; cases h
    | some pending =>
      cases pending with
      | nil => rw [hp] at h; cases h
      | cons first rest =>
        rw [hp] at h
        simp only at h ⊢
        split_ifs at h ⊢
        cases h; rfl
  | backfillStop => cases h; exact replay_single trivial rfl

/-- The device part of a run is the run of the transactions it emitted. -/
theorem Publications.Trace.replay {s s' : Publications H} {acts : List DeviceAct}
    (h : Trace hash deriveMailboxID readOrdered signed verify s acts s') :
    replay (DeviceState.step deriveMailboxID) DeviceAct.Admits acts s.devices = some s'.devices := by
  induction h with
  | refl => rfl
  | tail _ hst ih => exact replay_append ih (step_devices hst)

end

/-! ## The invariant of the device part -/

section
variable {deriveMailboxID : Text → Text} {s s' : DeviceState} {record : DeviceRecord}

/-- Decoded records stand under their own keys, bindings under a key of the mailbox their
    identity derives, and a running backfill has published records to bind. -/
structure Filed (deriveMailboxID : Text → Text) (s : DeviceState) : Prop where
  record : ∀ {k r}, s.db.deviceRecord.get k = some (.decoded r) →
    k = deviceRecordKey r.identityId r.deviceId ∧ Admissible r
  binding : ∀ {k i}, s.db.deviceMailbox k = some i →
    ':' ∉ i ∧ ∃ d, k = deviceMailboxBindingKey (deriveMailboxID i) d
  pending : ∀ {l}, s.pending = some l → ∀ r ∈ l, Admissible r

theorem Filed.bind (h : Filed deriveMailboxID s) (hr : Admissible record)
    {pending : Option (List DeviceRecord)} (hp : ∀ {l}, pending = some l → ∀ r ∈ l, Admissible r) :
    Filed deriveMailboxID ⟨saveDeviceMailboxBinding deriveMailboxID s.db record, pending⟩ := by
  refine ⟨fun {k r} hk => ?_, fun {k i} hk => ?_, hp⟩
  · rw [saveDeviceMailboxBinding_deviceRecord] at hk
    exact h.record hk
  · rw [deviceMailbox_bound] at hk
    split_ifs at hk with hb
    · cases hk; exact ⟨hr.colon_notMem, _, hb.2.2.2⟩
    · exact h.binding hk

theorem Filed.set (h : Filed deriveMailboxID s) (hr : Admissible record) :
    Filed deriveMailboxID { s with db := setDeviceRecord deriveMailboxID s.db record } := by
  have hw : Filed deriveMailboxID ⟨⟨s.db.deviceRecord.insert
      (deviceRecordKey record.identityId record.deviceId) (.decoded record), s.db.deviceMailbox⟩,
      s.pending⟩ := by
    refine ⟨fun {k r} hk => ?_, h.binding, h.pending⟩
    rw [SortedMap.get_insert] at hk
    split_ifs at hk with hke
    · cases hk; exact ⟨hke, hr⟩
    · exact h.record hk
  exact hw.bind hr h.pending

theorem mem_pendingBindings {db : DeviceDb} : record ∈ pendingBindings db ↔
    (∃ k, db.deviceRecord.get k = some (.decoded record)) ∧ record.identityId ≠ [] ∧
      record.deviceId ≠ [] := by
  rw [pendingBindings, List.mem_filterMap]
  constructor
  · rintro ⟨⟨k, v⟩, he, hv⟩
    cases v with
    | decoded r =>
      simp only at hv
      split_ifs at hv with hn
      cases hv
      rw [not_or] at hn
      exact ⟨⟨k, SortedMap.mem_entries.1 he⟩, hn⟩
    | null => cases hv
    | undecodable => cases hv
  · rintro ⟨⟨k, hk⟩, hi, hd⟩
    refine ⟨(k, .decoded record), SortedMap.mem_entries.2 hk, ?_⟩
    simp [hi, hd]

/-- **What each transaction does**: nothing where it is refused, else it writes a record and
    its binding, or a binding alone, or starts, advances or ends a backfill. -/
theorem device_step_cases {act : DeviceAct} (h : s.step deriveMailboxID act = some s') :
    s' = s ∨
    (∃ record, (act = .save record ∨ act = .authorize record ∧
        s.db.deviceRecord.get (deviceRecordKey record.identityId record.deviceId) = none) ∧
      s' = { s with db := setDeviceRecord deriveMailboxID s.db record }) ∨
    (∃ record stored, act = .authorize record ∧
      s.db.deviceRecord.get (deviceRecordKey record.identityId record.deviceId) =
        some (.decoded stored) ∧ stored.devicePubKey = record.devicePubKey ∧
      s' = { s with db := saveDeviceMailboxBinding deriveMailboxID s.db record }) ∨
    (act = .backfillScan ∧ s' = { s with pending := some (pendingBindings s.db) }) ∨
    (∃ record rest, act = .backfillBind record ∧ s.pending = some (record :: rest) ∧
      s' = ⟨saveDeviceMailboxBinding deriveMailboxID s.db record, some rest⟩) ∨
    act = .backfillStop ∧ s' = { s with pending := none } := by
  cases act with
  | save record =>
    simp only [DeviceState.step, Option.some.injEq] at h
    rcases save_device_cases deriveMailboxID s.db record with he | he <;> rw [he] at h <;> subst h
    · exact Or.inl rfl
    · exact Or.inr (Or.inl ⟨record, Or.inl rfl, rfl⟩)
  | authorize record =>
    simp only [DeviceState.step, Option.some.injEq] at h
    cases ha : saveSignalV2Authorization deriveMailboxID s.db record with
    | error e => rw [ha] at h; exact Or.inl h.symm
    | ok db =>
      rw [ha] at h
      subst h
      rcases authorize_cases ha with ⟨stored, hs, hk, rfl⟩ | ⟨hn, rfl⟩
      · exact Or.inr (Or.inr (Or.inl ⟨record, stored, rfl, hs, hk, rfl⟩))
      · exact Or.inr (Or.inl ⟨record, Or.inr ⟨rfl, hn⟩, rfl⟩)
  | backfillScan => cases h; exact Or.inr (Or.inr (Or.inr (Or.inl ⟨rfl, rfl⟩)))
  | backfillBind record =>
    simp only [DeviceState.step] at h
    split at h
    next first rest hp =>
      split_ifs at h with hf
      subst hf; cases h
      exact Or.inr (Or.inr (Or.inr (Or.inr (Or.inl ⟨first, rest, rfl, hp, rfl⟩))))
    next => cases h
  | backfillStop => cases h; exact Or.inr (Or.inr (Or.inr (Or.inr (Or.inr ⟨rfl, rfl⟩))))

theorem Filed.step {act : DeviceAct} (h : Filed deriveMailboxID s) (ha : act.Admits s)
    (hst : s.step deriveMailboxID act = some s') : Filed deriveMailboxID s' := by
  rcases device_step_cases hst with rfl | ⟨r, hr, rfl⟩ | ⟨r, stored, rfl, -, -, rfl⟩ | ⟨-, rfl⟩ |
    ⟨r, rest, -, hp, rfl⟩ | ⟨-, rfl⟩
  · exact h
  · rcases hr with rfl | ⟨rfl, -⟩
    · exact h.set ha
    · exact h.set ha
  · exact h.bind ha h.pending
  · refine ⟨h.record, h.binding, fun {l} hl r hr => ?_⟩
    cases hl
    obtain ⟨⟨k, hk⟩, -⟩ := mem_pendingBindings.1 hr
    exact (h.record hk).2
  · have hpend := h.pending hp
    exact h.bind (hpend r (by simp)) fun hl r' hr' => by cases hl; exact hpend r' (by simp [hr'])
  · exact ⟨h.record, h.binding, fun hl => by cases hl⟩

end

end Echolet
