/-
  A profile directory, and how a command opens it (`openProfile`, `EncryptedSqliteStore`).

  A directory holds three things that are written one after the other: the database with its
  table, the identity in its records, and the configuration, which a temporary file is linked to.
  `openProfile` is a program of `DirectoryCall`s, each of which is performed or refused by the
  system; a process may stop between any two of them.

  `run_keeps`: no commands, in any interleaving, replace a profile that was committed.
-/
import Echolet.Client.Profile

namespace Echolet

namespace Initialize

/-! ## Configurations -/

/-- `ConfigurationError`, `ProfileError`, the failure the command line reports, and others. -/
inductive OpenFailure where
  | configuration (message : Text)
  | profile (message : Text)
  | persistence
  | other
  deriving DecidableEq

/-- `ClientConfig`. -/
structure ClientConfig where
  profileVersion : ℤ
  profileId : Text
  relayUrl : Text
  databasePath : Text
  storeKeyEnv : Text
  requestTimeoutMs : ℤ
  pollBatchSize : ℤ
  deriving DecidableEq

/-- The parts of a URL that are looked at. -/
structure Url where
  protocol : Text
  username : Text
  password : Text
  hostname : Text
  pathname : Text
  search : Text
  hash : Text

/-- `isLoopbackHostname`: `localhost`, `[::1]` or `127.` and three groups of up to three digits. -/
def isLoopbackHostname (hostname : Text) : Bool :=
  hostname = "localhost".toList || hostname = "[::1]".toList ||
    match hostname.splitOn '.' with
    | first :: groups => first = "127".toList ∧ groups.length = 3 ∧
        ∀ group ∈ groups, 1 ≤ group.length ∧ group.length ≤ 3 ∧ group.all Char.isDigit = true
    | [] => false

/-- `store_key_env`: a capital, then capitals, digits and underscores. -/
def variableName (t : Text) : Bool :=
  t.head?.any Char.isUpper && t.all fun c => c.isUpper || c.isDigit || c = '_'

/-- What comes from outside: the URL parser, and the keys. -/
structure Surroundings where
  url : Text → Option Url
  /-- What a seed gives: `identityId`, `deviceId` and `devicePubKey`. -/
  createIdentityProfile : Text → Text × Text × Text
  identity_canonical : ∀ seed, b64Text (createIdentityProfile seed).1 32 none = true
  device_uuid : ∀ seed, protocolUUID (createIdentityProfile seed).2.1 = true
  /-- The root signature of a device record that has none yet. -/
  signCanonicalJson : Text → DeviceRecord → Text
  /-- `L.PrivateKey.deserialize` can read it. -/
  privateKey : Bytes → Bool

variable (su : Surroundings)

/-- `configSchema` -/
def configSchema (config : ClientConfig) : Bool :=
  config.profileVersion = 1 ∧ protocolUUID config.profileId = true ∧
    (su.url config.relayUrl).isSome = true ∧ 1 ≤ config.databasePath.length ∧
    variableName config.storeKeyEnv = true ∧
    100 ≤ config.requestTimeoutMs ∧ config.requestTimeoutMs ≤ 60000 ∧
    1 ≤ config.pollBatchSize ∧ config.pollBatchSize ≤ 100

def isRelayOrigin (url : Url) : Bool := url.search = [] ∧ url.pathname = ['/']

def parseClientConfig (config : ClientConfig) : Except OpenFailure ClientConfig :=
  if configSchema su config = true then
    match su.url config.relayUrl with
    | none => .error .other
    | some url =>
      if url.username ≠ [] ∨ url.password ≠ [] ∨ url.hash ≠ [] ∨
          (url.protocol ≠ "https:".toList ∧
            ¬ (url.protocol = "http:".toList ∧ isLoopbackHostname url.hostname = true)) then
        .error (.configuration
          "Relay URL requires HTTPS or loopback HTTP without credentials".toList)
      else if isRelayOrigin url = false then
        .error (.configuration "Relay URL must be an origin, without a path or a query".toList)
      else .ok config
  else .error (.configuration "Invalid client configuration".toList)

/-- The 32 bytes the environment variable holds in base64url. -/
def readStoreKey (config : ClientConfig) (environment : Text → Option Text) :
    Except OpenFailure (List ℕ) :=
  match (environment config.storeKeyEnv).bind decodeBase64 with
  | some key => if key.length = 32 then .ok key else .error (.configuration badStoreKey)
  | none => .error (.configuration badStoreKey)
where
  badStoreKey := "Store key must be canonical base64url encoding of 32 bytes".toList

/-! ## Records -/

/-- `cli:profile`. -/
structure Metadata where
  version : ℤ
  profileId : Text
  seed : Text
  deviceRecord : DeviceRecord
  deriving DecidableEq

/-- `DeviceRecordSchema` -/
def deviceRecordSchema (r : DeviceRecord) : Bool :=
  r.type = "device_record".toList ∧ r.version = 1 ∧ clientMailboxUUID r.deviceId = true ∧
    ∀ c ∈ r.capabilities, c.1 ∈ ["mailbox_poll", "receipts", "attachments"]

def metadataSchema (m : Metadata) : Bool :=
  m.version = 1 ∧ clientMailboxUUID m.profileId = true ∧ 1 ≤ m.seed.length ∧
    deviceRecordSchema m.deviceRecord = true

/-- `device`: the local address, and its registration id. -/
structure DeviceMetadata where
  address : Text
  registrationId : ℕ
  deriving DecidableEq

/-- The records of a database, with what `openProfile` looks for apart. -/
structure Records where
  /-- `cli:profile`. -/
  metadata : Option Metadata
  /-- `device`. -/
  device : Option DeviceMetadata
  /-- `identity`. -/
  identity : Option Bytes
  /-- The records under all other keys. -/
  rest : SortedMap Text Bytes

def Records.empty : Records := ⟨none, none, none, .empty⟩

/-- `tx.keys().length` is zero. -/
def Records.isEmpty (s : Records) : Bool :=
  s.metadata.isNone && s.device.isNone && s.identity.isNone && s.rest.entries.isEmpty

/-- What one run draws at random, and the time it reads. -/
structure Draws where
  /-- The `randomUUID()` of `init`, and of the temporary file. -/
  profileId : Text
  temporary : Text
  /-- `generateSeed()`. -/
  seed : Text
  now : ℤ
  registrationId : ℕ
  /-- The serialized keys of a new Signal client. -/
  identity : Bytes
  pre : Bytes
  signed : Bytes
  kyber : Bytes
  profile_uuid : protocolUUID profileId = true
  seed_nonempty : 1 ≤ seed.length
  identity_readable : su.privateKey identity = true

variable {su}

def createSignedDeviceRecord (su : Surroundings)
    (identityId deviceId devicePubKey deviceLabel : Text) (now : ℤ) : DeviceRecord :=
  let record : DeviceRecord := {
    type := "device_record".toList
    version := 1
    identityId
    deviceId
    devicePubKey
    deviceLabel := some deviceLabel
    capabilities := [("mailbox_poll", true), ("receipts", true), ("attachments", false)]
    createdAtMs := now
    signature := [] }
  { record with signature := su.signCanonicalJson identityId record }

/-- The record of the device a run would make. -/
def Draws.deviceRecord (draws : Draws su) : DeviceRecord :=
  createSignedDeviceRecord su (su.createIdentityProfile draws.seed).1
    (su.createIdentityProfile draws.seed).2.1 (su.createIdentityProfile draws.seed).2.2
    "cli-device".toList draws.now

abbrev RecordsTx (α : Type) := Tx Records OpenFailure α

/-- `SignalClient.create` -/
def SignalClient.create (draws : Draws su) (address : Text) : RecordsTx Unit := do
  match ← Tx.read fun s => s.device with
  | some stored =>
    Tx.ensure (stored.address = address) .other
    let identity ← Tx.need (← Tx.read fun s => s.identity) .other
    Tx.ensure (su.privateKey identity = true) .other
  | none =>
    let unused ← Tx.read fun s => s.isEmpty
    Tx.ensure (unused = true) .other
    Tx.modify fun s => { s with
      device := some ⟨address, draws.registrationId⟩
      identity := some draws.identity
      rest := ((s.rest.insert "pre:1".toList draws.pre).insert "signed:2".toList
        draws.signed).insert "kyber:3".toList draws.kyber }

def readMetadata : RecordsTx Metadata := do
  let m ← Tx.need (← Tx.read fun s => s.metadata)
    (.profile "Missing profile identity; refusing replacement".toList)
  Tx.ensure (metadataSchema m = true) .other
  return m

/-- What `openProfile` makes where there is no profile yet. -/
def createProfile (initializing : Bool) (config : ClientConfig) (draws : Draws su) :
    RecordsTx Unit := do
  let unused ← Tx.read fun s => s.isEmpty
  Tx.ensure (initializing = true ∧ unused = true)
    (.profile "Incomplete profile; refusing replacement".toList)
  let record := draws.deviceRecord
  let address ← Tx.need (signalAddressForDevice record.identityId record.deviceId) .other
  SignalClient.create draws address
  Tx.modify fun s => { s with metadata := some ⟨1, config.profileId, draws.seed, record⟩ }

/-- The profile in the records is the one of the configuration. -/
def checkProfile (config : ClientConfig) (draws : Draws su) : RecordsTx Unit := do
  let m ← readMetadata
  Tx.ensure (m.profileId = config.profileId) (.profile "Database belongs to another profile".toList)
  let address ← Tx.need
    (signalAddressForDevice m.deviceRecord.identityId m.deviceRecord.deviceId) .other
  SignalClient.create draws address

/-- The transaction of `openProfile`. -/
def openRecords (initializing : Bool) (config : ClientConfig) (draws : Draws su) :
    RecordsTx Unit := do
  let known ← Tx.read fun s => s.metadata.isSome
  if known = false then createProfile initializing config draws
  checkProfile config draws

/-- What `summary` reports. -/
structure Summary where
  profileId : Text
  identityId : Text
  deviceId : Text
  contactCount : ℕ
  deriving DecidableEq

def summary (config : ClientConfig) : RecordsTx Summary := do
  let m ← readMetadata
  let contacts ← Tx.read fun s =>
    s.rest.entries.countP fun e => "cli:contact:".toList.isPrefixOf e.1
  return ⟨config.profileId, m.deviceRecord.identityId, m.deviceRecord.deviceId, contacts⟩

/-! ## Directories -/

/-- A database file: without its table, or with the records encrypted under a key. -/
inductive Database where
  | blank
  | table (key : List ℕ) (records : Records)

structure Directory where
  /-- By `database_path`. -/
  databases : SortedMap Text Database
  config : Option ClientConfig
  /-- The temporary configurations, by the UUID of their names. -/
  temporaries : SortedMap Text ClientConfig

def Directory.empty : Directory := ⟨.empty, none, .empty⟩

inductive DirectoryCall where
  | existsConfig
  | readConfig
  | existsDatabase (path : Text)
  | createDatabase (path : Text)
  | createTable (path : Text) (key : List ℕ)
  | readTable (path : Text) (key : List ℕ)
  | openRecords (path : Text) (key : List ℕ) (x : RecordsTx Unit)
  | summary (path : Text) (key : List ℕ) (config : ClientConfig)
  | writeTemporary (name : Text) (config : ClientConfig)
  | linkTemporary (name : Text)
  | unlinkTemporary (name : Text)

abbrev DirectoryCall.Answer : DirectoryCall → Type
  | .existsConfig | .existsDatabase _ => Bool
  | .readConfig => ClientConfig
  | .summary _ _ _ => Summary
  | _ => Unit

abbrev DirectoryTx (α : Type) := Tx Directory OpenFailure α

/-- A transaction on the records of a database. -/
def onRecords {α : Type} (path : Text) (key : List ℕ) (x : RecordsTx α) : DirectoryTx α := fun d =>
  match d.databases.get path with
  | some (.table key' records) =>
    if key' = key then
      ((Tx.transact x records).1, { d with
        databases := d.databases.insert path (.table key (Tx.transact x records).2) })
    else (.error .other, d)
  | _ => (.error .other, d)

/-- What the system does for a call that it performs. -/
def Directory.answer : (c : DirectoryCall) → DirectoryTx c.Answer
  | .existsConfig => fun d => (.ok d.config.isSome, d)
  | .readConfig => fun d => (d.config.elim (.error .other) .ok, d)
  | .existsDatabase path => fun d => (.ok (d.databases.get path).isSome, d)
  | .createDatabase path => fun d =>
    match d.databases.get path with
    | none => (.ok (), { d with databases := d.databases.insert path .blank })
    | some _ => (.error .other, d)
  | .createTable path key => fun d =>
    match d.databases.get path with
    | some .blank => (.ok (), { d with databases := d.databases.insert path (.table key .empty) })
    | _ => (.error .other, d)
  | .readTable path key => onRecords path key (pure ())
  | .openRecords path key x => onRecords path key x
  | .summary path key config => onRecords path key (Initialize.summary config)
  | .writeTemporary name config => fun d =>
    match d.temporaries.get name with
    | none => (.ok (), { d with temporaries := d.temporaries.insert name config })
    | some _ => (.error .other, d)
  | .linkTemporary name => fun d =>
    match d.temporaries.get name, d.config with
    | some config, none => (.ok (), { d with config := some config })
    | _, _ => (.error .other, d)
  | .unlinkTemporary name => fun d =>
    match d.temporaries.get name with
    | some _ => (.ok (), { d with temporaries := d.temporaries.erase name })
    | none => (.error .other, d)

/-- A call is performed, or refused for a reason outside the directory; asking whether a file
    exists is never refused. -/
def Directory.perform (c : DirectoryCall) (performed : Bool) (d : Directory) :
    Option (Except OpenFailure c.Answer × Directory) :=
  match c, performed with
  | .existsConfig, _ => some (answer .existsConfig d)
  | .existsDatabase path, _ => some (answer (.existsDatabase path) d)
  | c, true => some (answer c d)
  | _, false => some (.error .other, d)

/-! ## Opening -/

abbrev Opening (α : Type) := Program DirectoryCall DirectoryCall.Answer OpenFailure α

abbrev perform (c : DirectoryCall) : Opening c.Answer := Program.perform c

/-- The constructor of `EncryptedSqliteStore`. -/
def openStore (path : Text) (key : List ℕ) : Opening Unit := do
  if key.length ≠ 32 then throw .other
  let present ← perform (.existsDatabase path)
  if present = true then perform (.readTable path key)
  else
    perform (.createDatabase path)
    perform (.createTable path key)

structure OpenProfileOptions where
  config : Option ClientConfig
  environment : Text → Option Text
  initializing : Bool

/-- An open profile. -/
structure Profile where
  config : ClientConfig
  key : List ℕ

/-- The configuration an opening uses: the one of the directory, or one that is given. -/
def usedConfig (su : Surroundings) (o : OpenProfileOptions) (hasConfig : Bool) :
    Opening ClientConfig := do
  if hasConfig = true then
    let config ← .done (parseClientConfig su (← perform .readConfig))
    match o.config with
    | none => return config
    | some given =>
      let given ← .done (parseClientConfig su given)
      if given ≠ config then
        throw (.configuration "Existing profile configuration cannot be replaced".toList)
      return config
  else
    match o.config, o.initializing with
    | some given, true => .done (parseClientConfig su given)
    | _, _ => throw (.configuration "Profile initialization requires configuration".toList)

/-- Write the configuration of a new profile, through a temporary file. -/
def writeConfig (name : Text) (config : ClientConfig) : Opening Unit := do
  perform (.writeTemporary name config)
  try perform (.linkTemporary name)
  catch e =>
    perform (.unlinkTemporary name)
    throw e
  perform (.unlinkTemporary name)

def openProfile (o : OpenProfileOptions) (draws : Draws su) : Opening Profile := do
  let hasConfig ← perform .existsConfig
  let config ← usedConfig su o hasConfig
  let key ← .done (readStoreKey config o.environment)
  let present ← perform (.existsDatabase config.databasePath)
  if present = false ∧ (hasConfig = true ∨ o.initializing = false) then
    throw (.profile "Profile database is missing; refusing replacement".toList)
  openStore config.databasePath key
  perform (.openRecords config.databasePath key (openRecords o.initializing config draws))
  if hasConfig = false then writeConfig draws.temporary config
  return ⟨config, key⟩

/-- A failure other than of the configuration is reported as one of persistence. -/
def reported {α : Type} (p : Opening α) : Opening α :=
  try p
  catch e => match e with
    | .configuration message => throw (.configuration message)
    | _ => throw .persistence

/-- The arguments of `init`. -/
structure InitCommand where
  relayUrl : Text
  storeKeyEnv : Text
  environment : Text → Option Text

def InitCommand.config (cmd : InitCommand) (profileId : Text) : ClientConfig where
  profileVersion := 1
  profileId := profileId
  relayUrl := cmd.relayUrl
  databasePath := "client.sqlite".toList
  storeKeyEnv := cmd.storeKeyEnv
  requestTimeoutMs := 5000
  pollBatchSize := 50

/-- `init`: open a new profile and report it. -/
def init (cmd : InitCommand) (draws : Draws su) : Opening Summary := do
  let config ← .done (parseClientConfig su (cmd.config draws.profileId))
  let profile ← reported (openProfile ⟨some config, cmd.environment, true⟩ draws)
  perform (.summary profile.config.databasePath profile.key profile.config)

/-- `loadConfig` -/
def loadConfig (su : Surroundings) : Opening ClientConfig := do
  let config ← try perform .readConfig
    catch _ => throw (.configuration "INVALID_CONFIGURATION".toList)
  .done (parseClientConfig su config)

/-- `openExistingProfile`, how every other command begins. -/
def openExistingProfile (environment : Text → Option Text) (draws : Draws su) :
    Opening Profile := do
  let _ ← loadConfig su
  reported (openProfile ⟨none, environment, false⟩ draws)

/-- A command that reports the profile of the directory. -/
def inspect (environment : Text → Option Text) (draws : Draws su) : Opening Summary := do
  let profile ← openExistingProfile environment draws
  perform (.summary profile.config.databasePath profile.key profile.config)

variable {key : List ℕ} {d : Directory}

/-! ## Identities are kept -/

/-- A profile in the records stays, with its keys. -/
def Records.Keeps (s s' : Records) : Prop :=
  s.metadata.isSome = true →
    s'.metadata = s.metadata ∧ s'.device = s.device ∧ s'.identity = s.identity

/-- A profile in a directory stays, and so does its configuration. -/
structure Directory.Keeps (d d' : Directory) : Prop where
  records : ∀ path key s, d.databases.get path = some (.table key s) →
    ∃ s', d'.databases.get path = some (.table key s') ∧ s.Keeps s'
  config : ∀ config, d.config = some config → d'.config = some config

theorem Records.Keeps.refl (s : Records) : s.Keeps s := fun _ => ⟨rfl, rfl, rfl⟩

theorem Records.Keeps.trans {s s' s'' : Records} (h : s.Keeps s') (h' : s'.Keeps s'') :
    s.Keeps s'' := by
  intro hm
  obtain ⟨h₁, h₂, h₃⟩ := h hm
  obtain ⟨h₁', h₂', h₃'⟩ := h' (by rwa [h₁])
  exact ⟨h₁'.trans h₁, h₂'.trans h₂, h₃'.trans h₃⟩

theorem Directory.Keeps.refl (d : Directory) : d.Keeps d :=
  ⟨fun _ _ s h => ⟨s, h, .refl s⟩, fun _ h => h⟩

theorem Directory.Keeps.trans {d d' d'' : Directory} (h : d.Keeps d') (h' : d'.Keeps d'') :
    d.Keeps d'' := by
  refine ⟨fun path key s hs => ?_, fun config hc => h'.config config (h.config config hc)⟩
  obtain ⟨s', hs', hk⟩ := h.records path key s hs
  obtain ⟨s'', hs'', hk'⟩ := h'.records path key s' hs'
  exact ⟨s'', hs'', hk.trans hk'⟩

theorem readMetadata_ok {s s' : Records} {m : Metadata} (h : readMetadata s = (.ok m, s')) :
    s' = s ∧ s.metadata = some m := by
  obtain ⟨o, t, ho, h₁⟩ := Tx.bind_ok.1 h
  obtain ⟨rfl, rfl⟩ := Tx.read_ok.1 ho
  obtain ⟨m', t, hm, h₂⟩ := Tx.bind_ok.1 h₁
  obtain ⟨hsome, rfl⟩ := Tx.need_ok.1 hm
  obtain ⟨_, t, he, h₃⟩ := Tx.bind_ok.1 h₂
  obtain ⟨-, rfl⟩ := Tx.ensure_ok.1 he
  obtain ⟨rfl, rfl⟩ := Tx.pure_ok.1 h₃
  exact ⟨rfl, hsome⟩

/-- A client is created only where there is nothing. -/
theorem create_ok {draws : Draws su} {address : Text} {s s' : Records}
    (h : SignalClient.create draws address s = (.ok (), s')) : s' = s ∨ s.isEmpty = true := by
  obtain ⟨o, t, ho, h₁⟩ := Tx.bind_ok.1 h
  obtain ⟨rfl, rfl⟩ := Tx.read_ok.1 ho
  cases hdevice : s.device with
  | some stored =>
    rw [hdevice] at h₁
    obtain ⟨_, t, he, h₂⟩ := Tx.bind_ok.1 h₁
    obtain ⟨-, rfl⟩ := Tx.ensure_ok.1 he
    obtain ⟨o, t, ho', h₃⟩ := Tx.bind_ok.1 h₂
    obtain ⟨rfl, rfl⟩ := Tx.read_ok.1 ho'
    obtain ⟨k, t, hk, h₄⟩ := Tx.bind_ok.1 h₃
    obtain ⟨-, rfl⟩ := Tx.need_ok.1 hk
    exact Or.inl (Tx.ensure_ok.1 h₄).2.symm
  | none =>
    rw [hdevice] at h₁
    obtain ⟨u, t, hu, h₂⟩ := Tx.bind_ok.1 h₁
    obtain ⟨rfl, rfl⟩ := Tx.read_ok.1 hu
    obtain ⟨_, t, he, -⟩ := Tx.bind_ok.1 h₂
    exact Or.inr (Tx.ensure_ok.1 he).1

/-- The transaction of an opening never touches a profile that is there. -/
theorem openRecords_keeps (initializing : Bool) (config : ClientConfig) (draws : Draws su)
    (s : Records) : s.Keeps (Tx.transact (openRecords initializing config draws) s).2 := by
  intro hm
  rcases hr : Tx.transact (openRecords initializing config draws) s with ⟨e | _, s'⟩
  · rw [Tx.transact_error hr]
    exact ⟨rfl, rfl, rfl⟩
  · have hopen := Tx.transact_ok.1 hr
    obtain ⟨known, t, hk, h⟩ := Tx.bind_ok.1 hopen
    obtain ⟨rfl, rfl⟩ := Tx.read_ok.1 hk
    rw [if_neg (by rw [hm]; exact Bool.noConfusion)] at h
    replace h : checkProfile config draws s = (.ok (), s') := h
    unfold checkProfile at h
    obtain ⟨m, t₁, hread, h₁⟩ := Tx.bind_ok.1 h
    obtain ⟨_, t₂, he, h₂⟩ := Tx.bind_ok.1 h₁
    obtain ⟨address, t₃, ha, h₃⟩ := Tx.bind_ok.1 h₂
    have ht : t₃ = s := by
      rw [← (Tx.need_ok.1 ha).2, ← (Tx.ensure_ok.1 he).2, (readMetadata_ok hread).1]
    rw [ht] at h₃
    rcases create_ok h₃ with rfl | hempty
    · exact ⟨rfl, rfl, rfl⟩
    · unfold Records.isEmpty at hempty
      simp only [Bool.and_eq_true, Option.isNone_iff_eq_none] at hempty
      rw [hempty.1.1.1] at hm
      cases hm

/-- A transaction of an opening. -/
def DirectoryCall.Opens : DirectoryCall → Prop
  | .openRecords _ _ x => ∀ s : Records, s.Keeps (Tx.transact x s).2
  | _ => True

theorem onRecords_keeps {α : Type} {path : Text} {x : RecordsTx α}
    (hx : ∀ s : Records, s.Keeps (Tx.transact x s).2) :
    d.Keeps (onRecords path key x d).2 := by
  unfold onRecords
  split
  next key' s hget =>
    split_ifs with hk
    · subst hk
      refine ⟨fun path' key₁ s₁ h => ?_, fun _ h => h⟩
      by_cases hp : path' = path
      · subst hp
        rw [hget] at h
        cases h
        exact ⟨_, by rw [SortedMap.get_insert_self], hx s⟩
      · exact ⟨s₁, by rw [SortedMap.get_insert_ne _ _ hp]; exact h, .refl s₁⟩
    · exact .refl d
  next => exact .refl d

/-- A database that is made, or gets its table, has no profile yet. -/
theorem insert_keeps {path : Text} {db : Database}
    (h : ∀ key s, d.databases.get path ≠ some (.table key s)) :
    d.Keeps { d with databases := d.databases.insert path db } := by
  refine ⟨fun path' key s hs => ?_, fun _ hc => hc⟩
  have hp : path' ≠ path := by
    rintro rfl
    exact h key s hs
  exact ⟨s, by rw [SortedMap.get_insert_ne _ _ hp]; exact hs, .refl s⟩

theorem answer_keeps {c : DirectoryCall} (hc : c.Opens) : d.Keeps (Directory.answer c d).2 := by
  cases c with
  | existsConfig => exact .refl d
  | readConfig => exact .refl d
  | existsDatabase path => exact .refl d
  | createDatabase path =>
    unfold Directory.answer
    dsimp only
    split
    next hnone => exact insert_keeps fun key s h => by rw [hnone] at h; cases h
    next => exact .refl d
  | createTable path key =>
    unfold Directory.answer
    dsimp only
    split
    next hblank => exact insert_keeps fun key s h => by rw [hblank] at h; cases h
    next => exact .refl d
  | readTable path key => exact onRecords_keeps fun s => .refl s
  | openRecords path key x => exact onRecords_keeps hc
  | summary path key config =>
    refine onRecords_keeps fun s => ?_
    rcases hr : Tx.transact (summary config) s with ⟨e | report, s'⟩
    · rw [Tx.transact_error hr]
      exact .refl s
    · obtain ⟨m, t, hread, h₁⟩ := Tx.bind_ok.1 (Tx.transact_ok.1 hr)
      obtain ⟨n, t', hn, h₂⟩ := Tx.bind_ok.1 h₁
      have hs : s' = s := by
        rw [← (Tx.pure_ok.1 h₂).2, ← (Tx.read_ok.1 hn).2, (readMetadata_ok hread).1]
      rw [hs]
      exact .refl s
  | writeTemporary name config =>
    unfold Directory.answer
    dsimp only
    split
    next => exact ⟨fun _ _ s h => ⟨s, h, .refl s⟩, fun _ h => h⟩
    next => exact .refl d
  | linkTemporary name =>
    unfold Directory.answer
    dsimp only
    split
    next config _ hnone =>
      exact ⟨fun _ _ s h => ⟨s, h, .refl s⟩, fun config' h => by rw [hnone] at h; cases h⟩
    next => exact .refl d
  | unlinkTemporary name =>
    unfold Directory.answer
    dsimp only
    split
    next => exact ⟨fun _ _ s h => ⟨s, h, .refl s⟩, fun _ h => h⟩
    next => exact .refl d

/-! ## The calls of a command -/

open Program (Only)

theorem openStore_opens {path : Text} : (openStore path key).Only DirectoryCall.Opens := by
  unfold openStore
  split_ifs
  · trivial
  · refine (Only.perform trivial).bind fun present => ?_
    split_ifs
    · exact .perform trivial
    · exact (Only.perform trivial).bind fun _ => .perform trivial

theorem usedConfig_opens {o : OpenProfileOptions} {hasConfig : Bool} :
    (usedConfig su o hasConfig).Only DirectoryCall.Opens := by
  unfold usedConfig
  split_ifs
  · refine (Only.perform trivial).bind fun config => Only.bind trivial fun config => ?_
    split
    · trivial
    · refine Only.bind trivial fun given => ?_
      split_ifs <;> trivial
  · split <;> trivial

theorem writeConfig_opens {name : Text} {config : ClientConfig} :
    (writeConfig name config).Only DirectoryCall.Opens := by
  refine (Only.perform trivial).bind fun _ => Only.bind ?_ fun _ => .perform trivial
  exact (Only.perform trivial).recover fun _ => (Only.perform trivial).bind fun _ => trivial

theorem openProfile_opens {o : OpenProfileOptions} {draws : Draws su} :
    (openProfile o draws).Only DirectoryCall.Opens := by
  refine (Only.perform trivial).bind fun hasConfig => usedConfig_opens.bind fun config => ?_
  refine Only.bind trivial fun key => (Only.perform trivial).bind fun present => ?_
  have hrest : Only DirectoryCall.Opens (do
      openStore config.databasePath key
      perform (.openRecords config.databasePath key (openRecords o.initializing config draws))
      if hasConfig = false then writeConfig draws.temporary config
      return (⟨config, key⟩ : Profile)) := by
    refine openStore_opens.bind fun _ => ?_
    refine (Only.perform (openRecords_keeps o.initializing config draws)).bind fun _ => ?_
    split_ifs
    · exact writeConfig_opens.bind fun _ => trivial
    · trivial
  by_cases hmissing : present = false ∧ (hasConfig = true ∨ o.initializing = false)
  · rw [if_pos hmissing]
    trivial
  · rw [if_neg hmissing]
    exact hrest

theorem reported_opens {α : Type} {p : Opening α} (h : p.Only DirectoryCall.Opens) :
    (reported p).Only DirectoryCall.Opens :=
  h.recover fun e => by cases e <;> trivial

/-- A command that opens the profile, and what it draws. -/
inductive Command (su : Surroundings) where
  | init (cmd : InitCommand) (draws : Draws su)
  | inspect (environment : Text → Option Text) (draws : Draws su)

def Command.program : Command su → Opening Summary
  | .init cmd draws => Initialize.init cmd draws
  | .inspect environment draws => Initialize.inspect environment draws

theorem Command.opens (j : Command su) : j.program.Only DirectoryCall.Opens := by
  cases j with
  | init cmd draws =>
    exact Only.bind trivial fun _ => (reported_opens openProfile_opens).bind fun _ => .perform trivial
  | inspect environment draws =>
    refine Only.bind (Only.bind ?_ fun _ => reported_opens openProfile_opens) fun _ => .perform trivial
    exact Only.bind ((Only.perform trivial).recover fun _ => trivial) fun _ => trivial

/-- What a call does, performed or refused. -/
theorem perform_cases {c : DirectoryCall} {v : Bool} {r : Except OpenFailure c.Answer}
    {d' : Directory} (h : Directory.perform c v d = some (r, d')) :
    (r, d') = Directory.answer c d ∨ (∃ e, r = .error e) ∧ d' = d := by
  cases v with
  | true => cases c <;> exact Or.inl (Option.some.inj h).symm
  | false =>
    cases c
    case existsConfig => exact Or.inl (Option.some.inj h).symm
    case existsDatabase => exact Or.inl (Option.some.inj h).symm
    all_goals
      cases h
      exact Or.inr ⟨⟨_, rfl⟩, rfl⟩

/-- Commands that share a directory, each of which keeps what the others rely on. -/
def keeping : Contract DirectoryCall DirectoryCall.Answer OpenFailure Bool Directory where
  exec := Directory.perform
  allowed := fun _ _ _ => True
  inv := fun _ => True
  guar := Directory.Keeps
  rely := fun _ _ => True

/-- Commands that run in one directory, each of them stopped at any point. -/
abbrev CommandPool := Pool DirectoryCall DirectoryCall.Answer OpenFailure Summary Directory

abbrev CommandPool.Run (su : Surroundings) : CommandPool → CommandPool → Prop :=
  Echolet.Run (Pool.step Directory.perform fun j : Command su => j.program) Any

/-- **No interleaving of commands** replaces a profile that was committed. -/
theorem run_keeps {s s' : CommandPool} (h : CommandPool.Run su ⟨d, fun _ => none⟩ s)
    (h' : CommandPool.Run su s s') : s.shared.Keeps s'.shared := by
  have hcall : ∀ (c : DirectoryCall) v w r w', c.Opens → keeping.inv w → keeping.allowed c v w →
      keeping.exec c v w = some (r, w') → keeping.inv w' ∧ keeping.guar w w' := by
    rintro c v w r w' hc - - hx
    refine ⟨trivial, ?_⟩
    rcases perform_cases hx with hans | ⟨-, rfl⟩
    · have hw : w' = (Directory.answer c w).2 := congrArg Prod.snd hans
      rw [hw]
      exact answer_keeps hc
    · exact .refl w'
  have hmeets : ∀ t t' : CommandPool, CommandPool.Run su t t' →
      Echolet.Run (Pool.step keeping.exec fun j : Command su => j.program)
        (Pool.Meets keeping.allowed) t t' := by
    intro t t' ht
    refine ht.mono fun s a _ => ?_
    cases a with
    | step i v =>
      unfold Pool.Meets
      dsimp only
      split <;> trivial
    | start i j => trivial
    | kill i => trivial
  have hrun : ∀ t t' : CommandPool, CommandPool.Run su t t' →
      Contract.Ok keeping (fun _ _ => True) t →
        Contract.Ok keeping (fun _ _ => True) t' ∧ t.shared.Keeps t'.shared := fun t t' ht hok =>
    Contract.Ok.run (fun _ _ _ => trivial) (fun j => Contract.Safe.only hcall j.opens)
      Directory.Keeps.refl (fun _ _ _ _ _ h h' => h.trans h') (hmeets t t' ht) hok
  exact (hrun s s' h' (hrun _ s h (Contract.Ok.idle trivial)).1).2

end Initialize

end Echolet
