/-
  The state of the operator console (`state.ts`, `text.ts`, `cli-bridge.ts`, `intents.ts`).

  A string is its UTF-16 units.  What a child prints is a document, and every text that enters
  the state from one goes through `paintable`.
-/
import Echolet.Lib.Document

namespace Echolet.Tui

/-- A string of the language. -/
abbrev JsString := List ℕ

def js (s : String) : JsString := utf16Units s.toList

/-! ## Texts -/

/-- Code points that make a frame say something other than what the state holds. -/
def steersTheDisplay (code : ℕ) : Bool :=
  decide (code ≤ 0x1f) || code == 0x7f || decide (0x80 ≤ code ∧ code ≤ 0x9f) ||
    code == 0x200e || code == 0x200f || decide (0x202a ≤ code ∧ code ≤ 0x202e) ||
    decide (0x2066 ≤ code ∧ code ≤ 0x2069) || code == 0x2028 || code == 0x2029 || code == 0xfeff

def paintable (text : JsString) : JsString :=
  ((codePoints text).filter fun point => !steersTheDisplay point).flatMap unitsOf

/-- The UTF-8 length of a string; a lone surrogate takes the three bytes of U+FFFD. -/
def utf8BytesOf (text : JsString) : ℕ :=
  ((codePoints text).map fun n =>
    if n < 0x80 then 1 else if n < 0x800 then 2 else if n < 0x10000 then 3 else 4).sum

/-! ## The eight commands -/

inductive CliCommand
  | init
  | contactExport
  | contactImport
  | relayPublish
  | send
  | poll
  | history
  | doctor
  deriving DecidableEq

def CliCommand.text : CliCommand → JsString
  | init => js "init"
  | contactExport => js "contact export"
  | contactImport => js "contact import"
  | relayPublish => js "relay publish"
  | send => js "send"
  | poll => js "poll"
  | history => js "history"
  | doctor => js "doctor"

inductive CliRequest
  | init (profileDir relayUrl storeKeyEnv : JsString)
  | contactExport (profileDir out : JsString)
  | contactImport (profileDir source : JsString)
  | relayPublish (profileDir : JsString)
  | send (profileDir recipient text : JsString) (messageId : Option JsString)
  | poll (profileDir : JsString)
  | history (profileDir contactIdentityId : JsString)
  | doctor (profileDir : JsString)
  deriving DecidableEq

namespace CliRequest

def command : CliRequest → CliCommand
  | init .. => .init
  | contactExport .. => .contactExport
  | contactImport .. => .contactImport
  | relayPublish .. => .relayPublish
  | send .. => .send
  | poll .. => .poll
  | history .. => .history
  | doctor .. => .doctor

def profileDir : CliRequest → JsString
  | init dir _ _ | contactExport dir _ | contactImport dir _ | relayPublish dir | send dir _ _ _
  | poll dir | history dir _ | doctor dir => dir

end CliRequest

structure CliOutcome where
  ok : Bool
  code : JsString
  exitCode : ℕ
  data : Document (List ℕ)

/-! ## The state -/

inductive PaneId
  | profiles
  | mailbox
  | history
  | rejections
  | health
  deriving DecidableEq

/-- `PANE_IDS`, in the order of the keys. -/
def paneIds : List PaneId := [.profiles, .mailbox, .history, .rejections, .health]

inductive ProfileState
  | unknown
  | absent
  | ready
  deriving DecidableEq

inductive StepOutcome
  | pending
  | ok
  | failed (code : JsString) (exitCode : ℕ)
  deriving DecidableEq

/-- `SETUP_STEPS`: the store key and the five steps that start a child. -/
def setupSteps : ℕ := 6

structure ProfileView where
  label : JsString
  profileDir : JsString
  relayUrl : JsString
  storeKeyEnv : JsString
  identityId : JsString
  deviceId : JsString
  contactCount : Number
  published : Bool
  state : Option ProfileState
  storeKeyPresent : Option Bool
  setup : Option (List StepOutcome)
  contactCardPath : Option JsString
  deriving DecidableEq

structure ContactView where
  identityId : JsString
  deviceId : JsString
  devicePubkey : JsString
  signalIdentityKey : JsString

/-- The mailbox figures; `outboxPending` is null because no command reports one. -/
structure MailboxView where
  outboxPending : Option Number
  inboxReceived : Option Number
  more : Bool
  lastPolledAtMs : Option ℕ

structure RejectionView where
  envelopeId : JsString
  code : JsString

inductive Direction
  | inbound
  | outbound

structure HistoryEntryView where
  sequence : Number
  contactIdentityId : JsString
  messageId : JsString
  direction : Direction
  plaintext : JsString
  createdAtMs : Number

inductive HealthStatus
  | healthy
  | unreachable
  | unknown

structure RelayHealthView where
  relayUrl : JsString
  status : HealthStatus
  uptimeMs : Option ℕ
  checkedAtMs : Option ℕ

structure TrustIdentifiers where
  identityId : Option JsString
  deviceId : Option JsString
  devicePubkey : Option JsString
  signalIdentityKey : Option JsString

/-- The one modal: the question of `contact import`. -/
structure TrustModal where
  cardPath : JsString
  profileLabel : JsString
  identifiers : TrustIdentifiers
  renderedAt : Option ℕ

inductive InputField
  | relayUrl
  | profileDir
  | storeKeyEnv
  | exportPath
  | cardPath
  | message
  | contactName
  deriving DecidableEq

structure InputState where
  field : InputField
  buffer : JsString
  renderedAt : Option ℕ
  maxBytes : ℕ

/-- `MAX_PLAINTEXT_BYTES` -/
def maxPlaintextBytes : ℕ := 65536

def inputMaxBytes : InputField → ℕ
  | .message => maxPlaintextBytes
  | .contactName | .storeKeyEnv => 128
  | .relayUrl | .profileDir | .exportPath | .cardPath => 1024

structure ActivityLine where
  at_ : ℕ
  text : JsString

structure OperatorState where
  profiles : List ProfileView
  activeProfile : ℕ
  contacts : List ContactView
  selectedContactId : Option JsString
  mailbox : MailboxView
  rejections : List RejectionView
  history : List HistoryEntryView
  health : RelayHealthView
  pane : PaneId
  modal : Option TrustModal
  activity : List ActivityLine
  busy : Bool
  help : Bool
  input : Option InputState
  observedAtMs : Option ℕ

def createInitialState (profiles : List ProfileView) : OperatorState where
  profiles := profiles
  activeProfile := 0
  contacts := []
  selectedContactId := none
  mailbox := ⟨none, none, false, none⟩
  rejections := []
  history := []
  health := ⟨(profiles.head?.map (·.relayUrl)).getD [], .unknown, none, none⟩
  pane := .profiles
  modal := none
  activity := []
  busy := false
  help := false
  input := none
  observedAtMs := none

/-- The profile the keys act on. -/
def OperatorState.active (state : OperatorState) : Option ProfileView :=
  state.profiles[state.activeProfile]?

/-- The next step `Enter` would start; the store key gates the first one. -/
def nextSetupStep (profile : ProfileView) : Option ℕ := do
  let setup ← profile.setup
  if profile.storeKeyPresent ≠ some true then none
  else ((List.range setupSteps).drop 1).find? fun step => setup[step]? != some .ok

/-! ## Intents and effects -/

inductive Intent
  | selectPane (pane : PaneId)
  | selectProfile (index : ℕ)
  | selectContact (identityId : JsString)
  | run (request : CliRequest)
  | toggleHelp
  | trustConfirm
  | trustCancel
  | inputOpen (field : InputField)
  | inputInsert (text : JsString)
  | inputBackspace
  | inputCancel
  | inputSubmit
  | quit

inductive Effect
  | runCli (request : CliRequest)
  | answerTrustPrompt (answer : Bool)
  | quit

structure Step where
  state : OperatorState
  effects : List Effect

end Echolet.Tui
