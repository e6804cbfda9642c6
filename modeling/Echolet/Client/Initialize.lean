/-
  An initialization that is interrupted.

  * `finishes_records`, `finishes_empty` and `usable_of` say which directories `init` and other
    commands go through with;
  * `Stage` are the directories a first `init` passes through (`init_passes`);
  * `interrupted_init`: which of them can be finished; `lost_identity` is one that cannot.
-/
import Echolet.Client.ProfileDirectory

namespace Echolet

namespace Initialize

variable {su : Surroundings}

/-! ## The records of a new profile -/

/-- The address of the device a run would make. -/
def Draws.address (draws : Draws su) : Text :=
  "[\"[\\\"".toList ++ draws.deviceRecord.identityId ++ "\\\",\\\"".toList ++
    draws.deviceRecord.deviceId ++ "\\\"]\",1]".toList

theorem Draws.address_eq (draws : Draws su) :
    signalAddressForDevice draws.deviceRecord.identityId draws.deviceRecord.deviceId =
      some draws.address := by
  unfold signalAddressForDevice
  rw [if_pos ⟨su.identity_canonical draws.seed, su.device_uuid draws.seed⟩]
  rfl

def Draws.metadata (draws : Draws su) (profileId : Text) : Metadata :=
  ⟨1, profileId, draws.seed, draws.deviceRecord⟩

/-- What a run commits where there was nothing. -/
def Draws.records (draws : Draws su) (profileId : Text) : Records where
  metadata := some (draws.metadata profileId)
  device := some ⟨draws.address, draws.registrationId⟩
  identity := some draws.identity
  rest := ((SortedMap.empty.insert "pre:1".toList draws.pre).insert "signed:2".toList
    draws.signed).insert "kyber:3".toList draws.kyber

theorem metadataSchema_draws (draws : Draws su) {profileId : Text}
    (h : protocolUUID profileId = true) : metadataSchema (draws.metadata profileId) = true := by
  have hd : protocolUUID draws.deviceRecord.deviceId = true := su.device_uuid draws.seed
  simp only [protocolUUID, Bool.and_eq_true] at h hd
  have hs : deviceRecordSchema draws.deviceRecord = true := by
    unfold deviceRecordSchema
    rw [decide_eq_true_eq]
    have hc : draws.deviceRecord.capabilities =
        [("mailbox_poll", true), ("receipts", true), ("attachments", false)] := rfl
    exact ⟨rfl, rfl, hd.1, by rw [hc]; decide⟩
  unfold metadataSchema
  rw [decide_eq_true_eq]
  exact ⟨rfl, h.1, draws.seed_nonempty, hs⟩

theorem readMetadata_records (draws : Draws su) {profileId : Text}
    (h : protocolUUID profileId = true) :
    readMetadata (draws.records profileId) =
      (.ok (draws.metadata profileId), draws.records profileId) := by
  refine Tx.bind_ok.2 ⟨some (draws.metadata profileId), _, rfl, ?_⟩
  refine Tx.bind_ok.2 ⟨draws.metadata profileId, _, rfl, ?_⟩
  exact Tx.bind_ok.2 ⟨(), _, Tx.ensure_ok.2 ⟨metadataSchema_draws draws h, rfl⟩, rfl⟩

/-- A client that has its keys makes no others. -/
theorem create_records (draws other : Draws su) (profileId : Text) :
    SignalClient.create other draws.address (draws.records profileId) =
      (.ok (), draws.records profileId) := by
  refine Tx.bind_ok.2 ⟨some ⟨draws.address, draws.registrationId⟩, _, rfl, ?_⟩
  refine Tx.bind_ok.2 ⟨(), _, Tx.ensure_ok.2 ⟨rfl, rfl⟩, ?_⟩
  refine Tx.bind_ok.2 ⟨some draws.identity, _, rfl, ?_⟩
  exact Tx.bind_ok.2 ⟨draws.identity, _, rfl, Tx.ensure_ok.2 ⟨draws.identity_readable, rfl⟩⟩

theorem createProfile_empty (draws : Draws su) (config : ClientConfig) :
    createProfile true config draws .empty = (.ok (), draws.records config.profileId) := by
  refine Tx.bind_ok.2 ⟨true, _, rfl, ?_⟩
  refine Tx.bind_ok.2 ⟨(), _, Tx.ensure_ok.2 ⟨⟨rfl, rfl⟩, rfl⟩, ?_⟩
  refine Tx.bind_ok.2 ⟨draws.address, .empty, ?_, ?_⟩
  · rw [draws.address_eq]; rfl
  refine Tx.bind_ok.2 ⟨(), { draws.records config.profileId with metadata := none }, ?_, rfl⟩
  refine Tx.bind_ok.2 ⟨none, _, rfl, Tx.bind_ok.2 ⟨true, _, rfl, ?_⟩⟩
  exact Tx.bind_ok.2 ⟨(), _, rfl, rfl⟩

/-- Only the configuration of the same profile is accepted. -/
theorem checkProfile_records (config : ClientConfig) (draws other : Draws su) {profileId : Text}
    (h : protocolUUID profileId = true) :
    checkProfile config other (draws.records profileId) =
      if profileId = config.profileId then (.ok (), draws.records profileId)
      else (.error (.profile "Database belongs to another profile".toList),
        draws.records profileId) := by
  have hread := readMetadata_records draws h
  by_cases hid : profileId = config.profileId
  · rw [if_pos hid]
    refine Tx.bind_ok.2 ⟨draws.metadata profileId, _, hread, ?_⟩
    refine Tx.bind_ok.2 ⟨(), _, Tx.ensure_ok.2 ⟨hid, rfl⟩, ?_⟩
    refine Tx.bind_ok.2 ⟨draws.address, _, Tx.need_ok.2 ⟨draws.address_eq, rfl⟩, ?_⟩
    exact create_records draws other profileId
  · rw [if_neg hid]
    show Tx.bind readMetadata _ _ = _
    have hen : Tx.ensure ((draws.metadata profileId).profileId = config.profileId)
        (OpenFailure.profile "Database belongs to another profile".toList) =
          (throw _ : RecordsTx Unit) := if_neg hid
    simp only [Tx.bind, hread]
    rw [hen]
    rfl

/-- Where there is a profile, it is checked. -/
theorem openRecords_known (initializing : Bool) (config : ClientConfig) (draws other : Draws su)
    (profileId : Text) :
    openRecords initializing config other (draws.records profileId) =
      checkProfile config other (draws.records profileId) := rfl

theorem openRecords_empty (config : ClientConfig) (draws : Draws su)
    (h : protocolUUID config.profileId = true) :
    openRecords true config draws .empty = (.ok (), draws.records config.profileId) := by
  refine Tx.bind_ok.2 ⟨false, _, rfl, ?_⟩
  refine Tx.bind_ok.2 ⟨(), _, createProfile_empty draws config, ?_⟩
  have hcheck := checkProfile_records config draws draws h
  rwa [if_pos rfl] at hcheck

theorem summary_records (draws : Draws su) (config : ClientConfig) {profileId : Text}
    (h : protocolUUID profileId = true) :
    summary config (draws.records profileId) =
      (.ok ⟨config.profileId, draws.deviceRecord.identityId, draws.deviceRecord.deviceId, 0⟩,
        draws.records profileId) := by
  refine Tx.bind_ok.2 ⟨draws.metadata profileId, _, readMetadata_records draws h, ?_⟩
  exact Tx.bind_ok.2 ⟨0, _, rfl, rfl⟩

/-! ## Runs that are not interrupted -/

abbrev Opening.run {α : Type} (p : Opening α) (d : Directory) : Except OpenFailure α × Directory :=
  Program.run Directory.answer p d

/-- The records a store is opened with, under a key. -/
def Directory.opened (d : Directory) (path : Text) (key : List ℕ) : Option Records :=
  match d.databases.get path with
  | none => some .empty
  | some .blank => none
  | some (.table key' s) => if key' = key then some s else none

/-- The directory with records in one of its databases. -/
def Directory.withRecords (d : Directory) (path : Text) (key : List ℕ) (s : Records) : Directory :=
  { d with databases := d.databases.insert path (.table key s) }

theorem get_withRecords {d : Directory} {path : Text} {key : List ℕ} {s : Records} :
    (d.withRecords path key s).databases.get path = some (.table key s) := by
  unfold Directory.withRecords
  rw [SortedMap.get_insert_self]

section
variable {d : Directory} {path : Text} {key : List ℕ} {s : Records}

/-- One call, and the directory it leaves. -/
theorem perform_run (c : DirectoryCall) : (perform c).run d = Directory.answer c d := rfl

theorem onRecords_table {α : Type} {x : RecordsTx α} (h : d.databases.get path = some (.table key s)) :
    onRecords path key x d =
      ((Tx.transact x s).1, d.withRecords path key (Tx.transact x s).2) := by
  unfold onRecords
  rw [h]
  simp only [if_pos]
  rfl

theorem createDatabase_run (h : d.databases.get path = none) :
    (perform (.createDatabase path)).run d =
      (.ok (), { d with databases := d.databases.insert path .blank }) := by
  rw [perform_run, Directory.answer]
  simp only [h]

theorem createTable_run (h : d.databases.get path = some .blank) :
    (perform (.createTable path key)).run d =
      (.ok (), { d with databases := d.databases.insert path (.table key .empty) }) := by
  rw [perform_run, Directory.answer]
  simp only [h]

/-- A store is opened with its records. -/
theorem openStore_run (hkey : key.length = 32) (h : d.opened path key = some s) :
    ∃ d', (openStore path key).run d = (.ok (), d') ∧ d'.databases.get path = some (.table key s) ∧
      d'.config = d.config ∧ d'.temporaries = d.temporaries := by
  have hexists : (perform (.existsDatabase path)).run d = (.ok (d.databases.get path).isSome, d) :=
    rfl
  unfold Directory.opened at h
  unfold openStore
  rw [if_neg (not_not_intro hkey)]
  split at h
  next hnone =>
    cases h
    -- the database is made without its table, then with it
    rw [hnone] at hexists
    have hblank : (d.databases.insert path Database.blank).get path = some .blank := by
      rw [SortedMap.get_insert_self]
    refine ⟨_, (Program.run_bind_ok hexists).trans ?_, get_withRecords (s := .empty), rfl, rfl⟩
    refine (Program.run_bind_ok (createDatabase_run hnone)).trans ((createTable_run hblank).trans ?_)
    rw [SortedMap.insert_insert]
    rfl
  next => cases h
  next key' s' htable =>
    split_ifs at h with hk
    cases h
    subst hk
    rw [htable] at hexists
    exact ⟨_, (Program.run_bind_ok hexists).trans (onRecords_table htable), get_withRecords, rfl, rfl⟩

theorem openStore_refused (hkey : key.length = 32) (h : d.opened path key = none) :
    (openStore path key).run d = (.error .other, d) := by
  have hexists : (perform (.existsDatabase path)).run d = (.ok (d.databases.get path).isSome, d) :=
    rfl
  unfold Directory.opened at h
  unfold openStore
  rw [if_neg (not_not_intro hkey)]
  split at h
  next => cases h
  next hblank =>
    rw [hblank] at hexists
    refine (Program.run_bind_ok hexists).trans ?_
    change onRecords path key (pure ()) d = _
    simp only [onRecords, hblank]
  next key' s' htable =>
    split_ifs at h with hk
    rw [htable] at hexists
    refine (Program.run_bind_ok hexists).trans ?_
    change onRecords path key (pure ()) d = _
    simp only [onRecords, htable, if_neg hk]

/-- The configuration is written where its temporary file can be. -/
theorem writeConfig_run (name : Text) (config : ClientConfig) (hc : d.config = none)
    (ht : d.temporaries.get name = none) :
    ∃ d', (writeConfig name config).run d = (.ok (), d') ∧ d'.config = some config ∧
      d'.databases = d.databases := by
  have hwrite : (perform (.writeTemporary name config)).run d =
      (.ok (), { d with temporaries := d.temporaries.insert name config }) := by
    rw [perform_run, Directory.answer]
    simp only [ht]
  have hname : (d.temporaries.insert name config).get name = some config := by
    rw [SortedMap.get_insert_self]
  have hlink : (perform (.linkTemporary name)).run
      { d with temporaries := d.temporaries.insert name config } =
      (.ok (), { d with temporaries := d.temporaries.insert name config, config := some config }) := by
    rw [perform_run, Directory.answer]
    simp only [hname, hc]
  have hunlink : (perform (.unlinkTemporary name)).run
      { d with temporaries := d.temporaries.insert name config, config := some config } =
      (.ok (), { d with
        temporaries := (d.temporaries.insert name config).erase name, config := some config }) := by
    rw [perform_run, Directory.answer]
    simp only [hname]
  exact ⟨_, (Program.run_bind_ok hwrite).trans ((Program.run_bind_ok (Program.run_recover_ok hlink)).trans hunlink), rfl, rfl⟩

theorem writeConfig_refused (name : Text) (config : ClientConfig)
    (ht : d.temporaries.get name ≠ none) :
    (writeConfig name config).run d = (.error .other, d) := by
  obtain ⟨other, hother⟩ := Option.ne_none_iff_exists'.1 ht
  have hwrite : (perform (.writeTemporary name config)).run d = (.error .other, d) := by
    rw [perform_run, Directory.answer]
    simp only [hother]
  exact Program.run_bind_error hwrite

end

/-! ## Which commands go through -/

/-- The relay address and the variable of a command are accepted, and the variable holds a key. -/
structure InitCommand.Accepted (su : Surroundings) (cmd : InitCommand) (key : List ℕ) : Prop where
  config : ∀ id, protocolUUID id = true → parseClientConfig su (cmd.config id) = .ok (cmd.config id)
  storeKey : ∀ id, readStoreKey (cmd.config id) cmd.environment = .ok key
  length : key.length = 32

/-- The file name of the database of `init`. -/
abbrev clientDatabase : Text := "client.sqlite".toList

/-- What is reported of the profile that a run makes. -/
def Draws.summary (draws : Draws su) (profileId : Text) : Summary :=
  ⟨profileId, draws.deviceRecord.identityId, draws.deviceRecord.deviceId, 0⟩

variable {cmd : InitCommand} {key : List ℕ} {d : Directory} {s : Records}

theorem done_run {α : Type} {r : Except OpenFailure α} : Opening.run (.done r) d = (r, d) := rfl

section
variable (hacc : cmd.Accepted su key) {draws : Draws su}
include hacc

/-- A directory without a configuration takes the one that is given. -/
theorem openProfile_new (draws : Draws su) {id : Text} (hid : protocolUUID id = true) (hc : d.config = none)
    (hs : d.opened clientDatabase key = some s) :
    ∃ d', d'.databases.get clientDatabase = some (.table key s) ∧ d'.config = none ∧
      d'.temporaries = d.temporaries ∧
      (openProfile ⟨some (cmd.config id), cmd.environment, true⟩ draws).run d =
        Opening.run (do
          perform (.openRecords clientDatabase key (openRecords true (cmd.config id) draws))
          writeConfig draws.temporary (cmd.config id)
          return (⟨cmd.config id, key⟩ : Profile)) d' := by
  obtain ⟨d', hopen, hget, hconfig, htemp⟩ := openStore_run hacc.length hs
  refine ⟨d', hget, hconfig.trans hc, htemp, ?_⟩
  have hexists : (perform .existsConfig).run d = (.ok false, d) := by
    show (Except.ok d.config.isSome, d) = _
    rw [hc]
    rfl
  refine (Program.run_bind_ok hexists).trans ?_
  refine (Program.run_bind_ok (p := .done _) (by rw [hacc.config id hid]; rfl)).trans ?_
  refine (Program.run_bind_ok (p := .done _) (by rw [hacc.storeKey id]; rfl)).trans ?_
  refine (Program.run_bind_ok (v := d) (a := (d.databases.get clientDatabase).isSome) rfl).trans ?_
  rw [if_neg (by simp)]
  exact Program.run_bind_ok hopen

/-- A directory without a configuration and with a store that cannot be opened is refused. -/
theorem openProfile_unopened {id : Text} (hid : protocolUUID id = true) (hc : d.config = none)
    (hs : d.opened clientDatabase key = none) :
    (openProfile ⟨some (cmd.config id), cmd.environment, true⟩ draws).run d = (.error .other, d) := by
  have hexists : (perform .existsConfig).run d = (.ok false, d) := by
    show (Except.ok d.config.isSome, d) = _
    rw [hc]
    rfl
  refine (Program.run_bind_ok hexists).trans ?_
  refine (Program.run_bind_ok (p := .done _) (by rw [hacc.config id hid]; rfl)).trans ?_
  refine (Program.run_bind_ok (p := .done _) (by rw [hacc.storeKey id]; rfl)).trans ?_
  refine (Program.run_bind_ok (v := d) (a := (d.databases.get clientDatabase).isSome) rfl).trans ?_
  rw [if_neg (by simp)]
  exact Program.run_bind_error (openStore_refused hacc.length hs)

theorem init_run {draws : Draws su} :
    (init cmd draws).run d = Opening.run (do
      let profile ← reported (openProfile
        ⟨some (cmd.config draws.profileId), cmd.environment, true⟩ draws)
      perform (.summary profile.config.databasePath profile.key profile.config)) d :=
  Program.run_bind_ok (p := .done _) (by rw [hacc.config _ draws.profile_uuid]; rfl)

end

/-- A failed opening fails the command. -/
theorem reported_error {α β : Type} {p : Opening α} {f : α → Opening β} {e : OpenFailure}
    {d' : Directory} (h : p.run d = (.error e, d')) :
    ∃ e', (reported p >>= f).run d = (.error e', d') := by
  cases e <;> exact ⟨_, Program.run_bind_error (Program.run_recover_error h)⟩

/-- The command ends and reports a profile. -/
def Reports (p : Opening Summary) (d : Directory) (report : Summary) : Prop :=
  (p.run d).1 = .ok report

/-- Every other command finds the profile, and so does a report on it. -/
def Usable (su : Surroundings) (environment : Text → Option Text) (d : Directory)
    (report : Summary) : Prop :=
  ∀ draws : Draws su, Reports (inspect environment draws) d report

/-- `init` completes and yields a usable profile. -/
def Finishes (cmd : InitCommand) (draws : Draws su) (d : Directory) : Prop :=
  ∃ report, Reports (init cmd draws) d report ∧
    Usable su cmd.environment ((init cmd draws).run d).2 report

/-- Where there is no configuration, no other command gets anywhere. -/
theorem not_usable (draws : Draws su) {environment : Text → Option Text} (hc : d.config = none)
    {report : Summary} : ¬ Usable su environment d report := by
  intro h
  have hread : (perform .readConfig).run d = (.error .other, d) := by
    show (d.config.elim (Except.error OpenFailure.other) .ok, d) = _
    rw [hc]
    rfl
  have hrun : ∃ e, (inspect environment draws).run d = (.error e, d) :=
    ⟨_, Program.run_bind_error (Program.run_bind_error (Program.run_bind_error (Program.run_recover_error hread)))⟩
  obtain ⟨e, he⟩ := hrun
  have hreport := h draws
  unfold Reports at hreport
  rw [he] at hreport
  cases hreport

theorem summary_run {config : ClientConfig} {made : Draws su} {id : Text}
    (hid : protocolUUID id = true)
    (hdb : d.databases.get clientDatabase = some (.table key (made.records id))) :
    ((perform (.summary clientDatabase key config)).run d).1 =
      .ok ⟨config.profileId, made.deviceRecord.identityId, made.deviceRecord.deviceId, 0⟩ := by
  rw [perform_run, Directory.answer]
  rw [onRecords_table hdb]
  unfold Tx.transact
  rw [summary_records made config hid]

/-- The records of a profile are opened for its configuration, and stay as they are. -/
theorem openRecords_run (initializing : Bool) (config : ClientConfig) (draws : Draws su) {made : Draws su}
    (hid : protocolUUID config.profileId = true)
    (hdb : d.databases.get clientDatabase =
      some (.table key (made.records config.profileId))) :
    (perform (.openRecords clientDatabase key (openRecords initializing config draws))).run d =
      (.ok (), d.withRecords clientDatabase key (made.records config.profileId)) := by
  have hcheck : Tx.transact (openRecords initializing config draws)
      (made.records config.profileId) = (.ok (), made.records config.profileId) := by
    rw [Tx.transact_ok, openRecords_known, checkProfile_records config made draws hid, if_pos rfl]
  rw [perform_run, Directory.answer]
  rw [onRecords_table hdb, hcheck]

/-- A directory with a configuration and the records of its profile is usable. -/
theorem usable_of (hacc : cmd.Accepted su key) {made : Draws su} {id : Text}
    (hid : protocolUUID id = true) (hc : d.config = some (cmd.config id))
    (hdb : d.databases.get clientDatabase = some (.table key (made.records id))) :
    Usable su cmd.environment d (made.summary id) := by
  intro draws
  have hread : (perform .readConfig).run d = (.ok (cmd.config id), d) := by
    show (d.config.elim (Except.error OpenFailure.other) .ok, d) = _
    rw [hc]
    rfl
  have hparse : Opening.run (.done (parseClientConfig su (cmd.config id))) d =
      (.ok (cmd.config id), d) := by
    rw [hacc.config id hid]
    rfl
  have hload : (loadConfig su).run d = (.ok (cmd.config id), d) :=
    (Program.run_bind_ok (Program.run_recover_ok hread)).trans hparse
  have hexists : (perform .existsConfig).run d = (.ok true, d) := by
    show (Except.ok d.config.isSome, d) = _
    rw [hc]
    rfl
  have hpresent : (perform (.existsDatabase clientDatabase)).run d = (.ok true, d) := by
    show (Except.ok (d.databases.get clientDatabase).isSome, d) = _
    rw [hdb]
    rfl
  have hused : (usedConfig su ⟨none, cmd.environment, false⟩ true).run d = (.ok (cmd.config id), d) :=
    (Program.run_bind_ok hread).trans (Program.run_bind_ok hparse)
  have hkey : Opening.run (.done (readStoreKey (cmd.config id) cmd.environment)) d = (.ok key, d) := by
    rw [hacc.storeKey id]
    rfl
  have hopened : d.opened clientDatabase key = some (made.records id) := by
    unfold Directory.opened
    rw [hdb]
    exact if_pos rfl
  obtain ⟨d', hopen, hget, -, -⟩ := openStore_run hacc.length hopened
  have hrecords := openRecords_run false (cmd.config id) draws hid hget
  have hprofile : (openProfile ⟨none, cmd.environment, false⟩ draws).run d =
      (.ok ⟨cmd.config id, key⟩, d'.withRecords clientDatabase key (made.records id)) := by
    refine (Program.run_bind_ok hexists).trans ((Program.run_bind_ok hused).trans ?_)
    refine (Program.run_bind_ok hkey).trans ((Program.run_bind_ok hpresent).trans ?_)
    exact (Program.run_bind_ok hopen).trans (Program.run_bind_ok hrecords)
  have hexisting := (Program.run_bind_ok (f := fun _ : ClientConfig => reported
    (openProfile ⟨none, cmd.environment, false⟩ draws)) hload).trans (Program.run_recover_ok hprofile)
  unfold Reports
  rw [show (inspect cmd.environment draws).run d = _ from Program.run_bind_ok hexisting]
  exact summary_run hid get_withRecords

/-! ## Finishing an initialization -/

section
variable (hacc : cmd.Accepted su key) {draws : Draws su}
include hacc

/-- `init` completes where the records it opens become those of its own profile. -/
theorem finishes_of {made : Draws su} (hc : d.config = none) (hs : d.opened clientDatabase key = some s)
    (hopen : openRecords true (cmd.config draws.profileId) draws s =
      (.ok (), made.records draws.profileId))
    (ht : d.temporaries.get draws.temporary = none) : Finishes cmd draws d := by
  obtain ⟨d₁, hget, hconfig, htemp, hrest⟩ :=
    openProfile_new hacc draws draws.profile_uuid hc hs
  have hrecords : (perform (.openRecords clientDatabase key
      (openRecords true (cmd.config draws.profileId) draws))).run d₁ =
        (.ok (), d₁.withRecords clientDatabase key (made.records draws.profileId)) := by
    rw [perform_run, Directory.answer]
    rw [onRecords_table hget, Tx.transact_ok.2 hopen]
  obtain ⟨d₂, hwrite, hconfig₂, hdb₂⟩ := writeConfig_run
    (d := d₁.withRecords clientDatabase key (made.records draws.profileId))
    draws.temporary (cmd.config draws.profileId) hconfig
    ((congrArg (SortedMap.get · draws.temporary) htemp).trans ht)
  have hget₂ : d₂.databases.get clientDatabase =
      some (.table key (made.records draws.profileId)) := by
    rw [hdb₂]
    exact get_withRecords
  have hprofile : (openProfile ⟨some (cmd.config draws.profileId), cmd.environment, true⟩ draws).run d =
      (.ok ⟨cmd.config draws.profileId, key⟩, d₂) :=
    hrest.trans ((Program.run_bind_ok hrecords).trans (Program.run_bind_ok hwrite))
  have hinit : (init cmd draws).run d = (perform (.summary clientDatabase key
      (cmd.config draws.profileId))).run d₂ :=
    (init_run hacc).trans (Program.run_bind_ok (Program.run_recover_ok hprofile))
  refine ⟨made.summary draws.profileId, ?_, ?_⟩
  · unfold Reports
    rw [hinit]
    exact summary_run draws.profile_uuid hget₂
  · have hleft : ((init cmd draws).run d).2 =
        d₂.withRecords clientDatabase key (made.records draws.profileId) := by
      rw [hinit, perform_run, Directory.answer]
      rw [onRecords_table hget₂]
      unfold Tx.transact
      rw [summary_records made (cmd.config draws.profileId) draws.profile_uuid]
    rw [hleft]
    exact usable_of hacc draws.profile_uuid hconfig₂ get_withRecords

/-- A failed opening is not finished. -/
theorem not_finishes_of {e : OpenFailure} {d' : Directory}
    (h : (openProfile ⟨some (cmd.config draws.profileId), cmd.environment, true⟩ draws).run d =
      (.error e, d')) : ¬ Finishes cmd draws d := by
  rintro ⟨report, hreport, -⟩
  obtain ⟨e', he⟩ := reported_error (f := fun profile => perform
    (.summary profile.config.databasePath profile.key profile.config)) h
  unfold Reports at hreport
  rw [init_run hacc] at hreport
  have hfail := congrArg Prod.fst he
  rw [hreport] at hfail
  cases hfail

/-- A database without its table stops every `init`. -/
theorem not_finishes_blank (hc : d.config = none) (hs : d.opened clientDatabase key = none) :
    ¬ Finishes cmd draws d :=
  not_finishes_of hacc (openProfile_unopened hacc draws.profile_uuid hc hs)

/-- A table without records takes a new profile. -/
theorem finishes_empty (hc : d.config = none) (hs : d.opened clientDatabase key = some .empty)
    (ht : d.temporaries.get draws.temporary = none) : Finishes cmd draws d :=
  finishes_of hacc hc hs (openRecords_empty (cmd.config draws.profileId) draws draws.profile_uuid) ht

/-- An identity without a configuration is taken up only under the id of its own profile. -/
theorem finishes_records (draws made : Draws su) {id : Text} (hid : protocolUUID id = true) (hc : d.config = none)
    (hs : d.opened clientDatabase key = some (made.records id)) :
    Finishes cmd draws d ↔
      id = draws.profileId ∧ d.temporaries.get draws.temporary = none := by
  have hopen : openRecords true (cmd.config draws.profileId) draws (made.records id) = _ :=
    (openRecords_known true _ made draws id).trans (checkProfile_records _ made draws hid)
  constructor
  · intro h
    obtain ⟨d₁, hget, hconfig, htemp, hrest⟩ :=
      openProfile_new hacc draws draws.profile_uuid hc hs
    by_cases hsame : id = draws.profileId
    · refine ⟨hsame, ?_⟩
      by_contra ht
      subst hsame
      have hrecords := openRecords_run true (cmd.config draws.profileId) draws
        draws.profile_uuid hget
      have hwrite := writeConfig_refused
        (d := d₁.withRecords clientDatabase key (made.records draws.profileId))
        draws.temporary (cmd.config draws.profileId)
        (fun h => ht ((congrArg (SortedMap.get · draws.temporary) htemp).symm.trans h))
      exact not_finishes_of hacc
        (hrest.trans ((Program.run_bind_ok hrecords).trans (Program.run_bind_error hwrite))) h
    · have hrecords : (perform (.openRecords clientDatabase key
          (openRecords true (cmd.config draws.profileId) draws))).run d₁ =
            (.error (.profile "Database belongs to another profile".toList),
              d₁.withRecords clientDatabase key (made.records id)) := by
        rw [perform_run, Directory.answer]
        rw [onRecords_table hget]
        unfold Tx.transact
        rw [hopen.trans (if_neg hsame)]
      exact absurd h (not_finishes_of hacc (hrest.trans (Program.run_bind_error hrecords)))
  · rintro ⟨rfl, ht⟩
    exact finishes_of hacc hc hs (hopen.trans (if_pos rfl)) ht

end

/-! ## Where a first initialization may stop -/

/-- The program may be stopped with this directory. -/
def Reaches {α : Type} (p : Opening α) (d d' : Directory) : Prop :=
  ∃ vs rest, p.steps Directory.perform vs d = some (rest, d')

inductive Stage where
  | nothing
  | created
  | table
  | identity
  | temporary
  | linked
  | finished
  deriving DecidableEq

/-- The directory of each stage of a first `init`. -/
def Stage.directory (cmd : InitCommand) (key : List ℕ) (first : Draws su) : Stage → Directory
  | .nothing => .empty
  | .created => ⟨database .blank, none, .empty⟩
  | .table => ⟨database (.table key .empty), none, .empty⟩
  | .identity => ⟨database (.table key (first.records first.profileId)), none, .empty⟩
  | .temporary => ⟨database (.table key (first.records first.profileId)), none,
      SortedMap.empty.insert first.temporary (cmd.config first.profileId)⟩
  | .linked => ⟨database (.table key (first.records first.profileId)),
      some (cmd.config first.profileId),
      SortedMap.empty.insert first.temporary (cmd.config first.profileId)⟩
  | .finished => ⟨database (.table key (first.records first.profileId)),
      some (cmd.config first.profileId), .empty⟩
where
  database (db : Database) : SortedMap Text Database := SortedMap.empty.insert clientDatabase db

/-- A first `init`, which has the directory to itself, is at one of the stages. -/
def passing (cmd : InitCommand) (key : List ℕ) (first : Draws su) :
    Contract DirectoryCall DirectoryCall.Answer OpenFailure Bool Directory where
  exec := Directory.perform
  allowed := fun _ _ _ => True
  inv := fun d => ∃ g : Stage, d = g.directory cmd key first
  guar := fun _ _ => True
  rely := Eq

section
variable {first : Draws su} {α : Type} {g g' : Stage} {Q : Except OpenFailure α → Directory → Prop}

theorem stable_passing {K : Directory → Prop} : (passing cmd key first).Stable K := by
  rintro w w' - - rfl hk
  exact hk

/-- A call that leads from one stage to another. -/
theorem safe_perform {c : DirectoryCall} {a : c.Answer}
    (h : Directory.answer c (g.directory cmd key first) = (.ok a, g'.directory cmd key first)) :
    (passing cmd key first).Safe
      (fun r d => r = .ok a ∧ d = g'.directory cmd key first ∨
        (∃ e, r = .error e) ∧ d = g.directory cmd key first)
      (· = g.directory cmd key first) (perform c) := by
  refine Contract.Safe.perform (fun _ => stable_passing) ?_
  rintro v d r d' - rfl - hx
  rcases perform_cases hx with hans | ⟨he, rfl⟩
  · rw [h, Prod.mk.injEq] at hans
    obtain ⟨rfl, rfl⟩ := hans
    exact ⟨⟨⟨g', rfl⟩, trivial⟩, Or.inl ⟨rfl, rfl⟩⟩
  · exact ⟨⟨⟨g, rfl⟩, trivial⟩, Or.inr ⟨he, rfl⟩⟩

theorem safe_call {c : DirectoryCall} {a : c.Answer} {f : c.Answer → Opening α}
    (h : Directory.answer c (g.directory cmd key first) = (.ok a, g'.directory cmd key first))
    (hf : (passing cmd key first).Safe Q (· = g'.directory cmd key first) (f a))
    (he : ∀ e d, Q (.error e) d) :
    (passing cmd key first).Safe Q (· = g.directory cmd key first) (perform c >>= f) := by
  refine (safe_perform h).bind (fun a' => ?_) fun e d _ _ => he e d
  have hsame : (passing cmd key first).Safe Q
      (fun d => d = g'.directory cmd key first ∧ a' = a) (f a') := by
    refine Contract.Safe.assume fun ha => ?_
    rw [ha]
    exact hf
  refine hsame.weaken fun d _ hd => ?_
  rcases hd with ⟨ha, hd⟩ | ⟨⟨e, hr⟩, -⟩
  · exact ⟨hd, Except.ok.inj ha⟩
  · cases hr

theorem safe_done {β : Type} {r : Except OpenFailure β} {b : β} {f : β → Opening α}
    {K : Directory → Prop} (h : r = .ok b) (hf : (passing cmd key first).Safe Q K (f b)) :
    (passing cmd key first).Safe Q K (.done r >>= f) := by
  subst h
  exact hf

/-- The configuration of the first run is linked, or its temporary file removed again. -/
theorem writeConfig_safe :
    (passing cmd key first).Safe (fun r d => r = .ok () → d = Stage.directory cmd key first .finished)
      (· = Stage.directory cmd key first .identity)
      (writeConfig first.temporary (cmd.config first.profileId)) := by
  have hwritten : Directory.answer (.writeTemporary first.temporary (cmd.config first.profileId))
      (Stage.directory cmd key first .identity) =
        (.ok (), Stage.directory cmd key first .temporary) := rfl
  have hlinked : Directory.answer (.linkTemporary first.temporary)
      (Stage.directory cmd key first .temporary) =
        (.ok (), Stage.directory cmd key first .linked) := by
    unfold Directory.answer Stage.directory
    simp only [SortedMap.get_insert_self]
  have hfinished : Directory.answer (.unlinkTemporary first.temporary)
      (Stage.directory cmd key first .linked) =
        (.ok (), Stage.directory cmd key first .finished) := by
    unfold Directory.answer Stage.directory
    simp only [SortedMap.get_insert_self, SortedMap.erase_insert_empty]
  have hundone : Directory.answer (.unlinkTemporary first.temporary)
      (Stage.directory cmd key first .temporary) =
        (.ok (), Stage.directory cmd key first .identity) := by
    unfold Directory.answer Stage.directory
    simp only [SortedMap.get_insert_self, SortedMap.erase_insert_empty]
  refine safe_call hwritten ?_ fun e d h => by cases h
  refine Contract.Safe.bind
    (M := fun r d => r = .ok () → d = Stage.directory cmd key first .linked)
    (Contract.Safe.recover (safe_perform hlinked) ?_ fun e => ?_) (fun _ => ?_) fun e d _ _ h => by cases h
  · rintro ⟨⟩ d - (⟨-, hd⟩ | ⟨⟨e, he⟩, -⟩) -
    · exact hd
    · cases he
  · -- the link was refused: the temporary file goes, and the configuration is missing
    refine Contract.Safe.weaken (K := (· = Stage.directory cmd key first .temporary)) ?_
      (safe_call hundone (fun d _ _ h => by cases h) fun e d h => by cases h)
    rintro d - (⟨hr, -⟩ | ⟨-, hd⟩)
    · cases hr
    · exact hd
  · refine ((safe_perform hfinished).weaken fun d _ h => h rfl).post ?_
    rintro r d - (⟨-, hd⟩ | ⟨⟨e, he⟩, -⟩) hr
    · exact hd
    · rw [he] at hr
      cases hr

theorem answer_table : Directory.answer (.createTable clientDatabase key)
    (Stage.directory cmd key first .created) = (.ok (), Stage.directory cmd key first .table) := by
  unfold Directory.answer Stage.directory Stage.directory.database
  simp only [SortedMap.get_insert_self, SortedMap.insert_insert]

theorem answer_identity : Directory.answer (.openRecords clientDatabase key
    (openRecords true (cmd.config first.profileId) first)) (Stage.directory cmd key first .table) =
      (.ok (), Stage.directory cmd key first .identity) := by
  have hopen := openRecords_empty (cmd.config first.profileId) first first.profile_uuid
  rw [Directory.answer]
  rw [onRecords_table (s := .empty) (SortedMap.get_insert_self _ _ _), Tx.transact_ok.2 hopen]
  unfold Directory.withRecords Stage.directory Stage.directory.database
  simp only [SortedMap.insert_insert]
  rfl

theorem openStore_safe (hkey : key.length = 32) :
    (passing cmd key first).Safe (fun r d => r = .ok () → d = Stage.directory cmd key first .table)
      (· = Stage.directory cmd key first .nothing) (openStore clientDatabase key) := by
  have hexists : Directory.answer (.existsDatabase clientDatabase)
      (Stage.directory cmd key first .nothing) =
        (.ok false, Stage.directory cmd key first .nothing) := rfl
  have hcreated : Directory.answer (.createDatabase clientDatabase)
      (Stage.directory cmd key first .nothing) =
        (.ok (), Stage.directory cmd key first .created) := rfl
  unfold openStore
  rw [if_neg (not_not_intro hkey)]
  refine safe_call hexists ?_ fun e d h => by cases h
  refine safe_call hcreated ?_ fun e d h => by cases h
  refine (safe_perform answer_table).post ?_
  rintro r d - (⟨-, hd⟩ | ⟨⟨e, he⟩, -⟩) hr
  · exact hd
  · rw [he] at hr
    cases hr

/-- **A first `init`** goes from stage to stage, whatever is refused. -/
theorem init_safe (hacc : cmd.Accepted su key) :
    (passing cmd key first).Safe (fun _ _ => True) (· = Stage.directory cmd key first .nothing)
      (init cmd first) := by
  have hexists : Directory.answer .existsConfig (Stage.directory cmd key first .nothing) =
      (.ok false, Stage.directory cmd key first .nothing) := rfl
  have hpresent : Directory.answer (.existsDatabase clientDatabase)
      (Stage.directory cmd key first .nothing) =
        (.ok false, Stage.directory cmd key first .nothing) := rfl
  have hsummary : Directory.answer (.summary clientDatabase key (cmd.config first.profileId))
      (Stage.directory cmd key first .finished) =
        (.ok (first.summary first.profileId), Stage.directory cmd key first .finished) := by
    have hreport := summary_records first (cmd.config first.profileId) first.profile_uuid
    rw [Directory.answer]
    rw [onRecords_table (SortedMap.get_insert_self _ _ _), Tx.transact_ok.2 hreport]
    unfold Directory.withRecords Stage.directory Stage.directory.database
    simp only [SortedMap.insert_insert]
    rfl
  have hprofile : (passing cmd key first).Safe
      (fun r d => ∀ profile, r = .ok profile → profile = ⟨cmd.config first.profileId, key⟩ ∧
        d = Stage.directory cmd key first .finished)
      (· = Stage.directory cmd key first .nothing)
      (openProfile ⟨some (cmd.config first.profileId), cmd.environment, true⟩ first) := by
    refine safe_call hexists ?_ fun e d p h => by cases h
    refine safe_done (hacc.config _ first.profile_uuid) (safe_done (hacc.storeKey _) ?_)
    refine safe_call hpresent ?_ fun e d p h => by cases h
    rw [if_neg (by simp)]
    refine (openStore_safe hacc.length).bind (fun _ => ?_) fun e d _ _ p h => by cases h
    refine Contract.Safe.weaken (fun d _ h => h rfl)
      (safe_call answer_identity ?_ fun e d p h => by cases h)
    refine writeConfig_safe.bind (fun _ => ?_) fun e d _ _ p h => by cases h
    rintro d - hd profile hr
    cases hr
    exact ⟨rfl, hd rfl⟩
  refine safe_done (hacc.config _ first.profile_uuid) ?_
  refine (hprofile.recover (M := _) ?_ fun e => ?_).bind (M := fun r d => ∀ profile, r = .ok profile →
    profile = ⟨cmd.config first.profileId, key⟩ ∧ d = Stage.directory cmd key first .finished)
    (fun profile => ?_) fun _ _ _ _ => trivial
  · exact fun profile d _ h => h
  · cases e <;> exact fun d _ _ p h => by cases h
  · refine Contract.Safe.weaken (K := fun d => d = Stage.directory cmd key first .finished ∧
      profile = ⟨cmd.config first.profileId, key⟩) (fun d _ h => ((h profile rfl).symm)) ?_
    refine Contract.Safe.assume fun hp => ?_
    subst hp
    exact (safe_perform hsummary).post fun _ _ _ _ => trivial

end

/-- Where a first `init` may be stopped. -/
theorem init_passes {first : Draws su} (hacc : cmd.Accepted su key)
    (h : Reaches (init cmd first) .empty d) : ∃ g : Stage, d = g.directory cmd key first := by
  obtain ⟨vs, rest, h⟩ := h
  exact (Contract.Safe.alone (fun _ _ _ => trivial) (init_safe hacc) ⟨.nothing, rfl⟩ rfl h).1

/-! ## Interrupted initializations -/

/-- The identity was committed to the database. -/
def Directory.Identified (d : Directory) (key : List ℕ) : Prop :=
  ∃ s, d.databases.get clientDatabase = some (.table key s) ∧ s.metadata.isSome = true

/-- A second `init` completes, or the profile of the first one is usable. -/
def Continues (cmd : InitCommand) (first second : Draws su) (d : Directory) : Prop :=
  Finishes cmd second d ∨ Usable su cmd.environment d (first.summary first.profileId)

/-- The database has its table, and an identity in it has its configuration, or the second run
    drew the profile id of the first one again. -/
def Directory.Resumable (d : Directory) (key : List ℕ) (first second : Draws su) : Prop :=
  d.databases.get clientDatabase ≠ some .blank ∧ (d.Identified key → d.config ≠ none ∨
    first.profileId = second.profileId ∧ d.temporaries.get second.temporary = none)

section
variable (hacc : cmd.Accepted su key) {first second : Draws su}
include hacc

/-- With the identity of a first run and no configuration. -/
theorem finishable_identified (hc : d.config = none)
    (hdb : d.databases.get clientDatabase =
      some (.table key (first.records first.profileId))) :
    Continues cmd first second d ↔ d.Resumable key first second := by
  have hopened : d.opened clientDatabase key = some (first.records first.profileId) := by
    unfold Directory.opened
    rw [hdb]
    exact if_pos rfl
  have hidentified : d.Identified key := ⟨_, hdb, rfl⟩
  have hrecords := finishes_records hacc second first first.profile_uuid hc hopened
  have hblank : d.databases.get clientDatabase ≠ some .blank := by
    rw [hdb]
    exact fun h => by cases h
  constructor
  · rintro (hf | hu)
    · exact ⟨hblank, fun _ => Or.inr (hrecords.1 hf)⟩
    · exact absurd hu (not_usable second hc)
  · rintro ⟨-, h⟩
    rcases h hidentified with h | h
    · exact absurd hc h
    · exact Or.inl (hrecords.2 h)

/-- Before the identity there is nothing to lose. -/
theorem finishable_unidentified (hc : d.config = none) (ht : d.temporaries = .empty)
    (hn : ¬ d.Identified key) (hs : d.opened clientDatabase key = some .empty) :
    Continues cmd first second d ↔ d.Resumable key first second := by
  refine iff_of_true (Or.inl (finishes_empty hacc hc hs (by rw [ht]; rfl))) ⟨fun h => ?_, fun h => ?_⟩
  · unfold Directory.opened at hs
    rw [h] at hs
    cases hs
  · exact absurd h hn

/-- With the configuration, the first profile is usable. -/
theorem finishable_configured (hc : d.config = some (cmd.config first.profileId))
    (hdb : d.databases.get clientDatabase =
      some (.table key (first.records first.profileId))) :
    Continues cmd first second d ↔ d.Resumable key first second := by
  refine iff_of_true (Or.inr (usable_of hacc first.profile_uuid hc hdb)) ⟨?_, fun _ => Or.inl ?_⟩
  · rw [hdb]
    exact fun h => by cases h
  · rw [hc]
    exact fun h => by cases h

end

/-- **Interrupted initialization.** After a first `init` that stopped anywhere, the same command
    can be finished, or the profile is usable, exactly where the database is not a file without
    its table, and a committed identity has its configuration or is met again by its own random
    profile id.  No commands, in any interleaving, replace a committed profile. -/
theorem interrupted_init (cmd : InitCommand) (key : List ℕ) (hacc : cmd.Accepted su key)
    (first second : Draws su) (d : Directory) (h : Reaches (init cmd first) .empty d) :
    (Continues cmd first second d ↔ d.Resumable key first second) ∧
      ∀ (d₀ : Directory) (s s' : CommandPool), CommandPool.Run su ⟨d₀, fun _ => none⟩ s →
        CommandPool.Run su s s' → s.shared.Keeps s'.shared := by
  refine ⟨?_, fun d₀ s s' => run_keeps⟩
  obtain ⟨g, rfl⟩ := init_passes hacc h
  cases g with
  | nothing =>
    refine finishable_unidentified hacc rfl rfl ?_ rfl
    rintro ⟨s, hs, -⟩
    cases hs
  | created =>
    have hblank : (Stage.directory cmd key first .created).databases.get clientDatabase =
        some .blank := SortedMap.get_insert_self _ _ _
    refine iff_of_false ?_ fun h => h.1 hblank
    rintro (hf | hu)
    · refine not_finishes_blank hacc rfl ?_ hf
      unfold Directory.opened
      rw [hblank]
    · exact not_usable second rfl hu
  | table =>
    have hempty : (Stage.directory cmd key first .table).databases.get clientDatabase =
        some (.table key .empty) := SortedMap.get_insert_self _ _ _
    refine finishable_unidentified hacc rfl rfl ?_ ?_
    · rintro ⟨s, hs, hm⟩
      rw [hempty] at hs
      cases hs
      cases hm
    · unfold Directory.opened
      rw [hempty]
      exact if_pos rfl
  | identity => exact finishable_identified hacc rfl (SortedMap.get_insert_self _ _ _)
  | temporary => exact finishable_identified hacc rfl (SortedMap.get_insert_self _ _ _)
  | linked => exact finishable_configured hacc rfl (SortedMap.get_insert_self _ _ _)
  | finished => exact finishable_configured hacc rfl (SortedMap.get_insert_self _ _ _)

/-- What makes a command accepted. -/
theorem accepted_of {url : Url} (hurl : su.url cmd.relayUrl = some url)
    (hplain : url.username = [] ∧ url.password = [] ∧ url.hash = [])
    (hprotocol : url.protocol = "https:".toList ∨
      url.protocol = "http:".toList ∧ isLoopbackHostname url.hostname = true)
    (horigin : isRelayOrigin url = true) (hvariable : variableName cmd.storeKeyEnv = true)
    (hstored : (cmd.environment cmd.storeKeyEnv).bind decodeBase64 = some key)
    (hlen : key.length = 32) : cmd.Accepted su key := by
  refine ⟨fun id hid => ?_, fun id => ?_, hlen⟩
  · have hschema : configSchema su (cmd.config id) = true := by
      unfold configSchema
      rw [decide_eq_true_eq]
      have hsome : (su.url cmd.relayUrl).isSome = true := by rw [hurl]; rfl
      exact ⟨rfl, hid, hsome, by simp [InitCommand.config], hvariable,
        by simp [InitCommand.config], by simp [InitCommand.config], by simp [InitCommand.config],
        by simp [InitCommand.config]⟩
    have hurl' : su.url (cmd.config id).relayUrl = some url := hurl
    unfold parseClientConfig
    rw [if_pos hschema, hurl']
    obtain ⟨hu, hp, hh⟩ := hplain
    dsimp only
    rw [if_neg (by simpa [hu, hp, hh] using fun h => hprotocol.resolve_left h),
      if_neg (by simp [horigin])]
  · have hstored' : (cmd.environment (cmd.config id).storeKeyEnv).bind decodeBase64 = some key :=
      hstored
    unfold readStoreKey
    rw [hstored']
    exact if_pos hlen

section
variable {α β : Type} {p : Opening α} {f : α → Opening β} {d' : Directory}

theorem Reaches.bind (h : Reaches p d d') : Reaches (p >>= f) d d' := by
  obtain ⟨vs, rest, h⟩ := h
  refine ⟨vs, rest.bind f, ?_⟩
  change (p.bind f).steps Directory.perform vs d = _
  induction vs generalizing p d with
  | nil => cases h; rfl
  | cons v vs ih =>
    cases p with
    | done r => cases h
    | call c next =>
      obtain ⟨x, hx, h⟩ := Option.bind_eq_some_iff.1 h
      exact Option.bind_eq_some_iff.2 ⟨x, hx, ih h⟩

theorem Reaches.recover {g : OpenFailure → Opening α} (h : Reaches p d d') :
    Reaches (tryCatch p g) d d' := by
  obtain ⟨vs, rest, h⟩ := h
  refine ⟨vs, rest.recover g, ?_⟩
  change (p.recover g).steps Directory.perform vs d = _
  induction vs generalizing p d with
  | nil => cases h; rfl
  | cons v vs ih =>
    cases p with
    | done r => cases h
    | call c next =>
      obtain ⟨x, hx, h⟩ := Option.bind_eq_some_iff.1 h
      exact Option.bind_eq_some_iff.2 ⟨x, hx, ih h⟩

/-- Past a first part that was not refused anything. -/
theorem Reaches.after {a : α} {t : Directory} (h : p.run d = (.ok a, t)) (h' : Reaches (f a) t d') :
    Reaches (p >>= f) d d' := by
  change Reaches (p.bind f) d d'
  induction p generalizing d with
  | done r => cases h; exact h'
  | call c next ih =>
    obtain ⟨vs, rest, hs⟩ := ih _ h
    have hperform : Directory.perform c true d = some (Directory.answer c d) := by
      cases c <;> rfl
    exact ⟨true :: vs, rest, Option.bind_eq_some_iff.2 ⟨_, hperform, hs⟩⟩

end

/-- A process that is killed after its transaction leaves an identity without a configuration. -/
theorem identity_reached (hacc : cmd.Accepted su key) (first : Draws su) :
    Reaches (init cmd first) .empty (Stage.directory cmd key first .identity) := by
  have hstore : (openStore clientDatabase key).run .empty =
      (.ok (), Stage.directory cmd key first .table) := by
    unfold openStore
    rw [if_neg (not_not_intro hacc.length)]
    exact (Program.run_bind_ok (v := .empty) (a := false) rfl).trans
      ((Program.run_bind_ok (v := Stage.directory cmd key first .created) (a := ()) rfl).trans answer_table)
  have hprofile : Reaches
      (openProfile ⟨some (cmd.config first.profileId), cmd.environment, true⟩ first) .empty
      (Stage.directory cmd key first .identity) := by
    refine Reaches.after (p := perform .existsConfig) (a := false) (t := .empty) rfl ?_
    refine Reaches.after (p := .done _) (by rw [hacc.config _ first.profile_uuid]; rfl) ?_
    refine Reaches.after (p := .done _) (by rw [hacc.storeKey]; rfl) ?_
    refine Reaches.after (p := perform (.existsDatabase clientDatabase)) (a := false)
      (t := .empty) rfl ?_
    rw [if_neg (by simp)]
    exact .after hstore (.after answer_identity ⟨[], _, rfl⟩)
  refine Reaches.after (p := .done _) (by rw [hacc.config _ first.profile_uuid]; rfl) ?_
  exact hprofile.recover.bind

/-! ### A profile that is lost -/

/-- A URL parser that knows one address, and keys of zeros. -/
def plainSurroundings : Surroundings where
  url t := if t = "https://relay.example".toList then
      some ⟨"https:".toList, [], [], "relay.example".toList, ['/'], [], []⟩ else none
  createIdentityProfile _ := (List.replicate 43 'A',
    "3d813cbb-47fb-532c-91df-831e1593ac29".toList, List.replicate 43 'A')
  identity_canonical _ := by decide
  device_uuid _ := by decide
  signCanonicalJson _ _ := []
  privateKey _ := true

def plainDraws (profileId temporary : Text) (h : protocolUUID profileId = true) :
    Draws plainSurroundings where
  profileId := profileId
  temporary := temporary
  seed := "seed".toList
  now := 0
  registrationId := 1
  identity := []
  pre := []
  signed := []
  kyber := []
  profile_uuid := h
  seed_nonempty := by decide
  identity_readable := rfl

def firstDraws : Draws plainSurroundings :=
  plainDraws "0d9a4a3e-6c1b-4f5e-8a77-2f1c5b8e9d10".toList "first".toList (by decide)

def secondDraws : Draws plainSurroundings :=
  plainDraws "7b1e2c94-5d3f-4a68-9e02-c4d7f6a8b351".toList "second".toList (by decide)

def plainCommand : InitCommand where
  relayUrl := "https://relay.example".toList
  storeKeyEnv := "ECHOLET_KEY".toList
  environment t := if t = "ECHOLET_KEY".toList then some (List.replicate 43 'A') else none

theorem plainSurroundings_url : plainSurroundings.url plainCommand.relayUrl =
    some ⟨"https:".toList, [], [], "relay.example".toList, ['/'], [], []⟩ := by
  unfold plainSurroundings plainCommand
  dsimp only
  exact if_pos rfl

theorem plainCommand_accepted :
    plainCommand.Accepted plainSurroundings (List.replicate 32 0) :=
  accepted_of plainSurroundings_url ⟨rfl, rfl, rfl⟩ (Or.inl rfl) (by decide) (by decide)
    (by decide) rfl

/-- The identity of a run that is killed before its configuration is written is out of reach: the
    next `init` draws another profile id, and no other command has a configuration. -/
theorem lost_identity : ∃ d, Reaches (init plainCommand firstDraws) .empty d ∧
    ¬ Finishes plainCommand secondDraws d ∧
    ∀ report, ¬ Usable plainSurroundings plainCommand.environment d report := by
  refine ⟨_, identity_reached plainCommand_accepted firstDraws, fun hf => ?_,
    fun report => not_usable secondDraws rfl⟩
  have hrecords := (finishes_records plainCommand_accepted secondDraws firstDraws
    firstDraws.profile_uuid rfl (show Directory.opened _ _ _ = some (firstDraws.records firstDraws.profileId) from ?_)).1 hf
  · revert hrecords
    decide
  · unfold Directory.opened
    rw [show (Stage.directory _ _ firstDraws .identity).databases.get clientDatabase = _ from
      SortedMap.get_insert_self _ _ _]
    exact if_pos rfl

theorem interrupted_init_identity :
    (Continues plainCommand firstDraws secondDraws
        (Stage.directory plainCommand (List.replicate 32 0) firstDraws .identity) ↔
      (Stage.directory plainCommand (List.replicate 32 0) firstDraws .identity).Resumable
        (List.replicate 32 0) firstDraws secondDraws) ∧
      ∀ (d₀ : Directory) (s s' : CommandPool),
        CommandPool.Run plainSurroundings ⟨d₀, fun _ => none⟩ s →
          CommandPool.Run plainSurroundings s s' → s.shared.Keeps s'.shared :=
  interrupted_init plainCommand (List.replicate 32 0) plainCommand_accepted firstDraws secondDraws
    (Stage.directory plainCommand (List.replicate 32 0) firstDraws .identity)
    (identity_reached plainCommand_accepted firstDraws)

end Initialize

end Echolet
