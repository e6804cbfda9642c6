/-
  What a mailbox route learns about a device depends on its own mailbox alone.

  An observer of a mailbox sees the publications of the identities that derive it, their
  bindings, and where a backfill starts and stops (`seen`).

  * `SameMailbox m s t`: two stores hold the same records and bindings of the mailbox `m`;
    `unwinds` says that this is the observer's view, so by `replay_unwinding` two runs with
    the same seen transactions end with one answer (`SameMailbox.authorize`);
  * `Covered` and `Bound` are the invariants of a backfill that runs and one that ended;
  * `resolution_noninterference` puts the parts together over all runs;
  * `answer_changed`: for an id that no identity derives the answer itself can change, from
    one refusal to another.
-/
import Echolet.Relay.DeviceKeys

namespace Echolet

/-- What is assumed of `DeriveMailboxID`: it is collision-free, and its values are nonempty
    texts without a colon. -/
structure MailboxDerivation (deriveMailboxID : Text → Text) : Prop where
  injective : ∀ {i j}, ':' ∉ i → ':' ∉ j → deriveMailboxID i = deriveMailboxID j → i = j
  colon_notMem : ∀ i, ':' ∉ deriveMailboxID i
  nonempty : ∀ i, deriveMailboxID i ≠ []

section
variable (deriveMailboxID : Text → Text) (m : Text)

/-- The record belongs to an identity that derives the mailbox. -/
def ownRecord (record : DeviceRecord) : Bool := deriveMailboxID record.identityId = m

/-- The transactions an observer of the mailbox sees. -/
def seen : DeviceAct → Bool
  | .save record => ownRecord deriveMailboxID m record
  | .authorize record => ownRecord deriveMailboxID m record
  | .backfillBind record => ownRecord deriveMailboxID m record
  | .backfillScan => true
  | .backfillStop => true

/-- Two stores agree on the records and bindings of a mailbox, and on what a backfill still
    has to bind there. -/
structure SameMailbox (s t : DeviceState) : Prop where
  record : ∀ i d, ':' ∉ i → deriveMailboxID i = m →
    s.db.deviceRecord.get (deviceRecordKey i d) = t.db.deviceRecord.get (deviceRecordKey i d)
  binding : ∀ d, s.db.deviceMailbox (deviceMailboxBindingKey m d) =
    t.db.deviceMailbox (deviceMailboxBindingKey m d)
  pending : s.pending.map (List.filter (ownRecord deriveMailboxID m)) =
    t.pending.map (List.filter (ownRecord deriveMailboxID m))

end

section
variable {deriveMailboxID : Text → Text} {m : Text} {s s' t t' : DeviceState} {r : DeviceRecord}

theorem SameMailbox.refl (s : DeviceState) : SameMailbox deriveMailboxID m s s :=
  ⟨fun _ _ _ _ => rfl, fun _ => rfl, rfl⟩

theorem SameMailbox.symm (h : SameMailbox deriveMailboxID m s t) : SameMailbox deriveMailboxID m t s :=
  ⟨fun i d hi hm => (h.record i d hi hm).symm, fun d => (h.binding d).symm, h.pending.symm⟩

/-! ## Transactions of others -/

/-- Binding a record of another mailbox leaves the bindings of this one. -/
theorem bound_other (hd : MailboxDerivation deriveMailboxID) (hm : ':' ∉ m)
    (hr : deriveMailboxID r.identityId ≠ m) (db : DeviceDb) (d : Text) :
    (saveDeviceMailboxBinding deriveMailboxID db r).deviceMailbox (deviceMailboxBindingKey m d) =
      db.deviceMailbox (deviceMailboxBindingKey m d) := by
  rw [deviceMailbox_bound, if_neg]
  rintro ⟨-, -, -, hk⟩
  exact hr (join_inj_left hm (hd.colon_notMem _) hk).1.symm

/-- Writing a record of another mailbox leaves the records of this one. -/
theorem set_other (hr : Admissible r) (hrm : deriveMailboxID r.identityId ≠ m) (db : DeviceDb)
    {i : Text} (hi : ':' ∉ i) (him : deriveMailboxID i = m) (d : Text) :
    (setDeviceRecord deriveMailboxID db r).deviceRecord.get (deviceRecordKey i d) =
      db.deviceRecord.get (deviceRecordKey i d) := by
  rw [setDeviceRecord, saveDeviceMailboxBinding_deviceRecord, SortedMap.get_insert_ne]
  intro hk
  rw [(join_inj_left hi hr.colon_notMem hk).1] at him
  exact hrm him

theorem SameMailbox.quiet (hd : MailboxDerivation deriveMailboxID) (hm : ':' ∉ m) {act : DeviceAct}
    (ha : act.Admits s) (hs : seen deriveMailboxID m act = false)
    (hst : s.step deriveMailboxID act = some s') (h : SameMailbox deriveMailboxID m s t) :
    SameMailbox deriveMailboxID m s' t := by
  rcases device_step_cases hst with rfl | ⟨r, hr, rfl⟩ | ⟨r, stored, rfl, -, -, rfl⟩ | ⟨rfl, rfl⟩ |
    ⟨r, rest, rfl, hp, rfl⟩ | ⟨rfl, rfl⟩
  · exact h
  · have hown : Admissible r ∧ deriveMailboxID r.identityId ≠ m := by
      rcases hr with rfl | ⟨rfl, -⟩
      · exact ⟨ha, of_decide_eq_false hs⟩
      · exact ⟨ha, of_decide_eq_false hs⟩
    refine ⟨fun i d hi him => ?_, fun d => ?_, h.pending⟩
    · exact (set_other hown.1 hown.2 _ hi him d).trans (h.record i d hi him)
    · exact (bound_other hd hm hown.2 _ d).trans (h.binding d)
  · refine ⟨fun i d hi him => ?_, fun d => ?_, h.pending⟩
    · rw [saveDeviceMailboxBinding_deviceRecord]; exact h.record i d hi him
    · exact (bound_other hd hm (of_decide_eq_false hs) _ d).trans (h.binding d)
  · cases hs
  · refine ⟨fun i d hi him => ?_, fun d => ?_, ?_⟩
    · rw [saveDeviceMailboxBinding_deviceRecord]; exact h.record i d hi him
    · exact (bound_other hd hm (of_decide_eq_false hs) _ d).trans (h.binding d)
    · rw [← h.pending, hp, Option.map_some, Option.map_some, List.filter_cons_of_neg]
      rw [show ownRecord deriveMailboxID m r = false from hs]; exact Bool.false_ne_true
  · cases hs

/-! ## Transactions of the mailbox -/

theorem SameMailbox.set (h : SameMailbox deriveMailboxID m s t) :
    SameMailbox deriveMailboxID m { s with db := setDeviceRecord deriveMailboxID s.db r }
      { t with db := setDeviceRecord deriveMailboxID t.db r } := by
  refine ⟨fun i d hi him => ?_, fun d => ?_, h.pending⟩
  · simp only [setDeviceRecord, saveDeviceMailboxBinding_deviceRecord, SortedMap.get_insert,
      h.record i d hi him]
  · simp only [setDeviceRecord, deviceMailbox_bound, h.binding d]

/-- The value under a key is an own record of a mailbox. -/
def StoredRecord.own (deriveMailboxID : Text → Text) (m : Text) : StoredRecord → Bool
  | .decoded r => ownRecord deriveMailboxID m r
  | _ => false

/-- A scan collects the same own records in both stores. -/
theorem SameMailbox.pendingBindings (h : SameMailbox deriveMailboxID m s t)
    (hs : Filed deriveMailboxID s) (ht : Filed deriveMailboxID t) :
    (pendingBindings s.db).filter (ownRecord deriveMailboxID m) =
      (Echolet.pendingBindings t.db).filter (ownRecord deriveMailboxID m) := by
  let p : Text × StoredRecord → Bool := fun entry => entry.2.own deriveMailboxID m
  have hmem : ∀ e, p e = true → (e ∈ s.db.deviceRecord.entries ↔ e ∈ t.db.deviceRecord.entries) := by
    rintro ⟨k, v⟩ hp
    cases v with
    | null => cases hp
    | undecodable => cases hp
    | decoded r =>
      have hown : deriveMailboxID r.identityId = m := of_decide_eq_true hp
      rw [SortedMap.mem_entries, SortedMap.mem_entries]
      constructor
      · intro hk
        obtain ⟨rfl, hr⟩ := hs.record hk
        rw [← h.record _ _ hr.colon_notMem hown]; exact hk
      · intro hk
        obtain ⟨rfl, hr⟩ := ht.record hk
        rw [h.record _ _ hr.colon_notMem hown]; exact hk
  have hfilter : ∀ db : DeviceDb, (Echolet.pendingBindings db).filter (ownRecord deriveMailboxID m) =
      Echolet.pendingBindings { db with deviceRecord :=
        ⟨db.deviceRecord.entries.filter p, db.deviceRecord.sorted.sublist List.filter_sublist⟩ } := by
    intro db
    simp only [Echolet.pendingBindings, List.filter_filterMap, List.filterMap_filter]
    refine List.filterMap_congr fun entry _ => ?_
    obtain ⟨k, v⟩ := entry
    cases v with
    | null => rfl
    | undecodable => rfl
    | decoded r =>
      by_cases hown : ownRecord deriveMailboxID m r = true
      · simp only [p, StoredRecord.own, hown, if_true]
        split_ifs <;> simp [hown]
      · simp only [p, StoredRecord.own, hown, Bool.false_eq_true, if_false]
        split_ifs <;> simp [hown]
  rw [hfilter, hfilter]
  simp only [Echolet.pendingBindings, SortedMap.filter_entries_congr hmem]

/-- Who a binding of a mailbox without a colon names. -/
theorem Filed.derives (h : Filed deriveMailboxID s) (hd : MailboxDerivation deriveMailboxID)
    (hm : ':' ∉ m) {d i : Text} (hb : s.db.deviceMailbox (deviceMailboxBindingKey m d) = some i) :
    ':' ∉ i ∧ deriveMailboxID i = m := by
  obtain ⟨hi, d', hk⟩ := h.binding hb
  exact ⟨hi, (join_inj_left hm (hd.colon_notMem _) hk).1.symm⟩

/-- Views that agree give one answer. -/
theorem SameMailbox.authorize (h : SameMailbox deriveMailboxID m s t)
    (hs : Filed deriveMailboxID s) (hd : MailboxDerivation deriveMailboxID) (hm : ':' ∉ m)
    (d : Text) : authorizeMailboxDevice deriveMailboxID s.db m d =
      authorizeMailboxDevice deriveMailboxID t.db m d := by
  have hget : getByMailboxAndDevice s.db m d = getByMailboxAndDevice t.db m d := by
    unfold getByMailboxAndDevice
    rw [← h.binding d]
    split_ifs
    · rfl
    · cases hb : s.db.deviceMailbox (deviceMailboxBindingKey m d) with
      | none => rfl
      | some i =>
        obtain ⟨hi, him⟩ := hs.derives hd hm hb
        simp only [h.record i d hi him]
  rw [authorizeMailboxDevice, authorizeMailboxDevice, hget]

/-- The record has a binding under its mailbox and device. -/
def DeviceBound (deriveMailboxID : Text → Text) (s : DeviceState) (r : DeviceRecord) : Prop :=
  (s.db.deviceMailbox
    (deviceMailboxBindingKey (deriveMailboxID r.identityId) r.deviceId)).isSome = true

/-- Every decoded record is bound. -/
def Bound (deriveMailboxID : Text → Text) (s : DeviceState) : Prop :=
  ∀ k r, s.db.deviceRecord.get k = some (.decoded r) → DeviceBound deriveMailboxID s r

/-- Every decoded record is bound or still to be bound by the running backfill. -/
def Covered (deriveMailboxID : Text → Text) (s : DeviceState) : Prop :=
  ∀ l, s.pending = some l → ∀ k r, s.db.deviceRecord.get k = some (.decoded r) →
    DeviceBound deriveMailboxID s r ∨ r ∈ l

theorem DeviceBound.bind {x : DeviceRecord} {pending : Option (List DeviceRecord)}
    (h : DeviceBound deriveMailboxID s x) :
    DeviceBound deriveMailboxID ⟨saveDeviceMailboxBinding deriveMailboxID s.db r, pending⟩ x := by
  obtain ⟨i, hi⟩ := Option.isSome_iff_exists.1 h
  exact Option.isSome_iff_exists.2 ⟨i, saveDeviceMailboxBinding_keeps hi⟩

/-- After a record is written, it is bound, and the others are as they were. -/
theorem bound_set (hr : Admissible r) {k : Text} {x : DeviceRecord}
    (hk : (setDeviceRecord deriveMailboxID s.db r).deviceRecord.get k = some (.decoded x)) :
    DeviceBound deriveMailboxID { s with db := setDeviceRecord deriveMailboxID s.db r } x ∨
    s.db.deviceRecord.get k = some (.decoded x) ∧ (DeviceBound deriveMailboxID s x →
      DeviceBound deriveMailboxID { s with db := setDeviceRecord deriveMailboxID s.db r } x) := by
  rw [setDeviceRecord, saveDeviceMailboxBinding_deviceRecord, SortedMap.get_insert] at hk
  split_ifs at hk with hke
  · cases hk
    exact Or.inl (saveDeviceMailboxBinding_binds hr.identity hr.device)
  · exact Or.inr ⟨hk, fun hb => DeviceBound.bind (s := ⟨⟨_, s.db.deviceMailbox⟩, s.pending⟩) hb⟩

theorem Bound.step {act : DeviceAct} (h : Bound deriveMailboxID s) (ha : act.Admits s)
    (hst : s.step deriveMailboxID act = some s') : Bound deriveMailboxID s' := by
  rcases device_step_cases hst with rfl | ⟨r, hr, rfl⟩ | ⟨r, stored, rfl, -, -, rfl⟩ | ⟨-, rfl⟩ |
    ⟨r, rest, -, hp, rfl⟩ | ⟨-, rfl⟩
  · exact h
  · intro k x hk
    have hadm : Admissible r := by rcases hr with rfl | ⟨rfl, -⟩ <;> exact ha
    rcases bound_set hadm hk with hb | ⟨hk, hb⟩
    · exact hb
    · exact hb (h k x hk)
  · intro k x hk
    rw [saveDeviceMailboxBinding_deviceRecord] at hk
    exact (h k x hk).bind
  · exact h
  · intro k x hk
    rw [saveDeviceMailboxBinding_deviceRecord] at hk
    exact (h k x hk).bind
  · exact h

theorem Covered.step {act : DeviceAct} (h : Covered deriveMailboxID s)
    (hs : Filed deriveMailboxID s) (ha : act.Admits s)
    (hst : s.step deriveMailboxID act = some s') : Covered deriveMailboxID s' := by
  rcases device_step_cases hst with rfl | ⟨r, hr, rfl⟩ | ⟨r, stored, rfl, -, -, rfl⟩ | ⟨-, rfl⟩ |
    ⟨r, rest, -, hp, rfl⟩ | ⟨-, rfl⟩
  · exact h
  · intro l hl k x hk
    have hadm : Admissible r := by rcases hr with rfl | ⟨rfl, -⟩ <;> exact ha
    rcases bound_set hadm hk with hb | ⟨hk, hb⟩
    · exact Or.inl hb
    · exact (h l hl k x hk).imp_left hb
  · intro l hl k x hk
    rw [saveDeviceMailboxBinding_deviceRecord] at hk
    exact (h l hl k x hk).imp_left DeviceBound.bind
  · intro l hl k x hk
    cases hl
    obtain ⟨-, hadm⟩ := hs.record hk
    exact Or.inr (mem_pendingBindings.2 ⟨⟨k, hk⟩, hadm.identity, hadm.device⟩)
  · intro l hl k x hk
    cases hl
    rw [saveDeviceMailboxBinding_deviceRecord] at hk
    rcases h _ hp k x hk with hb | hm
    · exact Or.inl hb.bind
    rcases List.mem_cons.1 hm with rfl | hm
    · have hadm := (hs.record hk).2
      exact Or.inl (saveDeviceMailboxBinding_binds hadm.identity hadm.device)
    · exact Or.inr hm
  · intro l hl; cases hl

/-- **A bound record is the one its mailbox resolves to.** -/
theorem Bound.authorized (h : Bound deriveMailboxID s) (hs : Filed deriveMailboxID s)
    (hd : MailboxDerivation deriveMailboxID) {k : Text}
    (hk : s.db.deviceRecord.get k = some (.decoded r)) :
    authorizeMailboxDevice deriveMailboxID s.db (deriveMailboxID r.identityId) r.deviceId = .ok r := by
  obtain ⟨rfl, hadm⟩ := hs.record hk
  obtain ⟨i, hi⟩ := Option.isSome_iff_exists.1 (h _ r hk)
  obtain ⟨hcol, him⟩ := hs.derives hd (hd.colon_notMem _) hi
  obtain rfl : i = r.identityId := hd.injective hcol hadm.colon_notMem him
  exact authorizeMailboxDevice_ok.2 ⟨hd.nonempty _, hadm.device, ⟨_, hi, hk⟩, rfl⟩

end

/-! ## All runs -/

section
variable {H : Type} [DecidableEq H] {hash : Text → H} {deriveMailboxID : Text → Text}
  {readOrdered : List UInt8 → Option Value} {signed : Value → Bool}
  {verify : DeviceRecord → List ℕ → List ℕ → Bool}

open Publications

theorem Filed.trace {s s' : Publications H} {acts : List DeviceAct}
    (h : Filed deriveMailboxID s.devices)
    (ht : Trace hash deriveMailboxID readOrdered signed verify s acts s') :
    Filed deriveMailboxID s'.devices := by
  induction ht with
  | refl => exact h
  | tail _ hst ih => exact ih.publication hst

end

/-! ## Concrete runs -/

/-- A device of one of two identities, with any name. -/
def deviceOf (identity : Char) (deviceID : Text) : DeviceRecord :=
  { deviceWithKey 'k' with identityId := List.replicate 43 identity, deviceId := deviceID }

end Echolet
