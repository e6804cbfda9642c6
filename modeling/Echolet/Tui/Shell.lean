/-
  The shell and its driver (`runTuiShell`, and `main.ts` around it), as a transition system.

  An event of the loop runs to its end before the next one: a chunk of the terminal is handled
  key by key (`key`), then the effects that were waited for are resumed (`resume`), and only then
  comes another chunk, some output of a child, its end, another size of the terminal, or later
  time.  A child is in flight until its promise is settled.
-/
import Echolet.Lib.Utf8
import Echolet.Lib.Runs
import Echolet.Tui.Outcome

namespace Echolet.Tui

/-! ## What a child prints -/

/-- White space and line ends, as `String.prototype.trim` takes them. -/
def isBlank (c : Char) : Bool :=
  decide (c.toNat ∈ [0x09, 0x0a, 0x0b, 0x0c, 0x0d, 0x20, 0xa0, 0x1680, 0x2028, 0x2029, 0x202f, 0x205f,
    0x3000, 0xfeff]) || decide (0x2000 ≤ c.toNat ∧ c.toNat ≤ 0x200a)

def trim (t : Text) : Text := ((t.dropWhile isBlank).reverse.dropWhile isBlank).reverse

/-- The identifiers on one line of what a child prints. -/
def identifiersOf (line : Text) : Option TrustIdentifiers := do
  let trimmed := trim line
  if trimmed.head? ≠ some '{' then none
  else
    let ms ← (Document.parse trimmed).bind recordOf
    let identityId ← stringOf (property ms "identity_id")
    some ⟨some identityId, stringOf (property ms "device_id"),
      stringOf (property ms "device_pubkey"), stringOf (property ms "signal_identity_key")⟩

/-- `readIdentifiers`: the first line with identifiers. -/
def readIdentifiers (text : Text) : Option TrustIdentifiers :=
  (text.splitOn '\n').findSome? identifiersOf

/-- The identifiers as they enter the state. -/
def paintableIdentifiers (ids : TrustIdentifiers) : TrustIdentifiers :=
  ⟨ids.identityId.map paintable, ids.deviceId.map paintable, ids.devicePubkey.map paintable,
    ids.signalIdentityKey.map paintable⟩

/-- The code of an error that a child reports, when it has one. -/
def errorCode (envelope : List (List ℕ × Document (List ℕ))) : Option JsString := do
  let error ← (property envelope "error").bind recordOf
  let code ← stringOf (property error "code")
  if code = [] then none else some code

/-- `parseCliOutcome`: what a child printed, as a result. -/
def parseCliOutcome (stdout : Text) (exitCode : ℕ) : CliOutcome :=
  match (Document.parse stdout).bind recordOf with
  | none => ⟨false, js "UNREADABLE_CLI_OUTPUT", exitCode, .null⟩
  | some envelope =>
    let data := (property envelope "data").getD .null
    match property envelope "ok" with
    | some (.bool true) => ⟨true, js "ok", exitCode, data⟩
    | _ => ⟨false, (errorCode envelope).getD (js "UNREADABLE_CLI_OUTPUT"), exitCode, data⟩

/-! ## The shell -/

/-- A child process and the promise of its result. -/
structure Child where
  pid : ℕ
  request : CliRequest
  /-- It is the `doctor` the shell runs unasked at its start. -/
  unasked : Bool
  stdout : Text
  stderr : Text
  announced : Bool
  settled : Bool

/-- What the shell and its driver do that is seen outside, or told to the shell by the driver. -/
inductive Act
  /-- The identifiers that a child printed are announced, after this much standard error. -/
  | announced (pid : ℕ) (stderr : Text)
  /-- A frame was written at this size, from a state with this modal and this input row. -/
  | painted (columns rows : ℕ) (modal : Option TrustModal) (input : Option InputState)
  /-- An answer was written to the prompt of a child. -/
  | answered (pid : ℕ) (answer : Bool)

structure Shell where
  state : OperatorState
  running : Bool
  finished : Bool
  /-- The modal the operator confirmed, until its child ends. -/
  confirmed : Option TrustModal
  inFlightCommand : Option CliCommand
  /-- The profiles as the driver was started with them. -/
  options : List ProfileView
  children : List Child
  /-- How many children were started. -/
  spawned : ℕ
  /-- The child that waits at its prompt. -/
  awaitingTrust : Option ℕ
  trace : List Act
  columns : Option ℕ
  rows : Option ℕ
  now : ℕ
  /-- The keys of the present chunk that are still to be handled. -/
  keys : List JsString
  /-- Effects that are done and whose waiting is still to be resumed. -/
  waiting : ℕ

namespace Shell

/-- The children whose promise is open. -/
def inFlight (s : Shell) : List Child := s.children.filter fun child => !child.settled

/-- The size of the terminal is below `MIN_VIEWPORT`; one that reports none counts as 72 × 16. -/
def belowMinViewport (s : Shell) : Bool :=
  decide (max 1 (s.columns.getD 72) < 72) || decide (max 1 (s.rows.getD 16) < 16)

/-- The frame that is written, by its size, its modal and its input row. -/
def frame (s : Shell) : Act :=
  .painted (max 1 (s.columns.getD 72)) (max 1 (s.rows.getD 16)) s.state.modal s.state.input

/-- Write a frame.  Only a frame that carries them makes the modal and the input row seen. -/
def paint (s : Shell) : Shell :=
  let s := { s with trace := s.trace ++ [s.frame] }
  if s.belowMinViewport then s
  else
    let seen (renderedAt : Option ℕ) : Option ℕ := renderedAt.or (some s.now)
    { s with state := { s.state with
        modal := s.state.modal.map fun modal => { modal with renderedAt := seen modal.renderedAt }
        input := s.state.input.map fun input => { input with renderedAt := seen input.renderedAt } } }

/-- The activity line, and the boundary for the texts that enter it. -/
def note (s : Shell) (text : JsString) : Shell :=
  let activity := s.state.activity ++ [⟨s.now, paintable text⟩]
  { s with state := { s.state with activity := activity.drop (activity.length - 64) } }

def outcomeLine (p : Platform) (command : CliCommand) (outcome : CliOutcome) : JsString :=
  let head := command.text ++ js " → " ++ outcome.code ++ js " (exit " ++
    utf16Units (decimal outcome.exitCode) ++ js ")"
  if outcome.ok then head
  else
    let text := p.explain command outcome.code outcome.exitCode
    head ++ js "  " ++ text.1 ++ js " " ++ text.2

/-- The contact of a confirmed modal joins the roster. -/
def observeContact (s : Shell) (modal : TrustModal) : Shell :=
  match modal.identifiers with
  | ⟨some identityId, some deviceId, some devicePubkey, some signalIdentityKey⟩ =>
    if s.state.contacts.any (·.identityId == identityId) then s
    else
      let contact : ContactView := ⟨identityId, deviceId, devicePubkey, signalIdentityKey⟩
      { s with state := { s.state with contacts := s.state.contacts ++ [contact] } }
  | _ => s

def finish (s : Shell) : Shell := { s with finished := true }

/-- What follows when the effects of a key are done. -/
def resume (s : Shell) : Shell := if s.running then s.paint else s.finish

/-- `apply` of a `run-cli`, up to its waiting: a child is started. -/
def runCli (s : Shell) (unasked : Bool) (request : CliRequest) : Shell :=
  { s with
    inFlightCommand := some request.command
    children := s.children ++ [⟨s.spawned, request, unasked, [], [], false, false⟩]
    spawned := s.spawned + 1 }

/-- `apply` of one effect of a key. -/
def apply (s : Shell) : Effect → Shell
  | .runCli request => s.runCli false request
  | .answerTrustPrompt answer =>
    let written := s.awaitingTrust.map fun pid => Act.answered pid answer
    let s := { s with trace := s.trace ++ written.toList }
    let s := s.note (if answer then js "contact import → confirmed by operator"
      else js "contact import → declined by operator")
    { s with waiting := s.waiting + 1 }
  | .quit => { s with running := false, waiting := s.waiting + 1 }

/-- The answer of the reducer to a key; a modal that it confirms is kept. -/
def take (s : Shell) (step : Step) : Shell :=
  let confirms := step.effects.any fun effect => effect matches .answerTrustPrompt true
  { s with
    confirmed := if s.state.modal.isSome && confirms then s.state.modal else s.confirmed
    state := step.state }

/-- `handleKey` -/
def handleKey (p : Platform) (s : Shell) (sequence : JsString) : Shell :=
  match mapKey p (decodeKey p sequence) s.state with
  | none => s
  | some intent =>
    let step := reduce s.state intent
    let s := (s.take step).paint
    -- with no effect there is nothing to wait for
    match step.effects with
    | [] => s.resume
    | effects => effects.foldl apply s

/-- At the end of an import its modal is let go; the contact is known if the import succeeded. -/
def closeImport (s : Shell) (outcome : CliOutcome) : Shell :=
  let s' := match s.confirmed with
    | some modal => if outcome.ok then s.observeContact modal else s
    | none => s
  { s' with confirmed := none }

/-- What `apply` of a `run-cli` does with the result it waited for. -/
def settle (p : Platform) (s : Shell) (child : Child) (outcome : CliOutcome) : Shell :=
  let s := { s with inFlightCommand := none }
  let s := s.note (outcomeLine p child.request.command outcome)
  let s := { s with state := { applyOutcome s.state child.request outcome s.now with
    busy := false, observedAtMs := some s.now } }
  let s := if child.request.command = .contactImport then s.closeImport outcome else s
  if child.unasked then if s.running then s.paint else s else s.resume

/-- The listener of the shell for the identifiers of a contact card. -/
def trustListener (s : Shell) (cardPath profileLabel : JsString) (ids : TrustIdentifiers) : Shell :=
  let modal : TrustModal := ⟨cardPath, profileLabel, paintableIdentifiers ids, none⟩
  { s with state := { s.state with modal := some modal } }.paint

def child? (s : Shell) (pid : ℕ) : Option Child := s.children.find? (·.pid == pid)

def modifyChild (s : Shell) (pid : ℕ) (f : Child → Child) : Shell :=
  { s with children := s.children.map fun child => if child.pid = pid then f child else child }

/-- The driver reads standard error, and announces the identifiers of an import once. -/
def readStderr (s : Shell) (child : Child) (bytes : List ℕ) : Shell :=
  let stderr := child.stderr ++ decodeUtf8 bytes
  let s := s.modifyChild child.pid ({ · with stderr })
  match child.request, readIdentifiers stderr with
  | .contactImport dir source, some ids =>
    if child.announced then s
    else
      let s := { s.modifyChild child.pid ({ · with announced := true }) with
        awaitingTrust := some child.pid
        trace := s.trace ++ [Act.announced child.pid stderr] }
      let label := ((s.options.find? (·.profileDir == dir)).map (·.label)).getD dir
      s.trustListener source label ids
  | _, _ => s

/-- `done` of the driver: the child's promise is settled, if it was not. -/
def done (p : Platform) (s : Shell) (child : Child) (exitCode : ℕ) : Shell :=
  let s := { s with awaitingTrust := none }
  if child.settled then s
  else (s.modifyChild child.pid ({ · with settled := true })).settle p child
    (parseCliOutcome child.stdout exitCode)

/-- A child whose process and streams are closed. -/
def letGo (s : Shell) (pid : ℕ) : Shell :=
  { s with children := s.children.filter fun child => child.pid != pid }

inductive Event
  | data (chunk : List ℕ)
  | key
  | resume
  | stdout (pid : ℕ) (chunk : List ℕ)
  | stderr (pid : ℕ) (chunk : List ℕ)
  | error (pid : ℕ)
  | close (pid : ℕ) (code : Option ℕ)
  | resize (columns rows : Option ℕ)
  | tick (now : ℕ)

/-- A child that prints. -/
def printing (s : Shell) (pid : ℕ) : Option Child :=
  (s.child? pid).filter fun child => !child.settled

/-- The listener of the terminal: a chunk is split into keys, unless a row takes it as text. -/
def readChunk (s : Shell) (chunk : List ℕ) : Shell :=
  let text := utf16Units (decodeUtf8 chunk)
  if s.running then { s with keys := if s.state.input.isNone then splitKeystrokes text else [text] }
  else s

/-- One step of the event loop. -/
def step (p : Platform) (s : Shell) : Event → Option Shell
  | .key => match s.keys with
    | [] => none
    | sequence :: keys =>
      if s.running then some (handleKey p { s with keys } sequence) else some { s with keys := [] }
  | .resume =>
    if s.keys ≠ [] ∨ s.waiting = 0 then none else some { s with waiting := s.waiting - 1 }.resume
  | event =>
    -- the loop takes the next event when the last one is over
    if s.keys ≠ [] ∨ s.waiting ≠ 0 then none
    else match event with
      | .data chunk => some (s.readChunk chunk)
      | .stdout pid chunk => (s.printing pid).map fun child =>
        s.modifyChild pid ({ · with stdout := child.stdout ++ decodeUtf8 chunk })
      | .stderr pid chunk => (s.printing pid).map fun child => s.readStderr child chunk
      | .error pid => (s.child? pid).map fun child => s.done p child 5
      | .close pid code => (s.child? pid).map fun child => (s.done p child (code.getD 1)).letGo pid
      | .resize columns rows => some { s with columns, rows }
      | .tick now => some { s with now }
      | _ => none

/-- What an event does that the loop takes. -/
inductive Occurs (p : Platform) (s : Shell) : Event → Shell → Prop
  | handled {sequence : JsString} {keys : List JsString} (hkeys : s.keys = sequence :: keys)
      (hrunning : s.running = true) : Occurs p s .key (handleKey p { s with keys } sequence)
  | dropped (hrunning : s.running = false) : Occurs p s .key { s with keys := [] }
  | resumed : Occurs p s .resume { s with waiting := s.waiting - 1 }.resume
  | chunk (bytes : List ℕ) : Occurs p s (.data bytes) (s.readChunk bytes)
  | stdout {pid : ℕ} {child : Child} (bytes : List ℕ) (hchild : s.child? pid = some child)
      (hopen : child.settled = false) :
      Occurs p s (.stdout pid bytes) (s.modifyChild pid
        ({ · with stdout := child.stdout ++ decodeUtf8 bytes }))
  | stderr {pid : ℕ} {child : Child} (bytes : List ℕ) (hchild : s.child? pid = some child)
      (hopen : child.settled = false) : Occurs p s (.stderr pid bytes) (s.readStderr child bytes)
  | error {pid : ℕ} {child : Child} (hchild : s.child? pid = some child) :
      Occurs p s (.error pid) (s.done p child 5)
  | close {pid : ℕ} {child : Child} (code : Option ℕ) (hchild : s.child? pid = some child) :
      Occurs p s (.close pid code) ((s.done p child (code.getD 1)).letGo pid)
  | resize (columns rows : Option ℕ) : Occurs p s (.resize columns rows) { s with columns, rows }
  | tick (now : ℕ) : Occurs p s (.tick now) { s with now }

theorem printing_open {s : Shell} {pid : ℕ} {child : Child} (h : s.printing pid = some child) :
    s.child? pid = some child ∧ child.settled = false := by
  obtain ⟨hchild, hopen⟩ := Option.filter_eq_some_iff.1 h
  exact ⟨hchild, by simpa using hopen⟩

/-- **Every step is an event that occurs.** -/
theorem step_occurs {p : Platform} {s s' : Shell} {e : Event} (h : s.step p e = some s') :
    Occurs p s e s' := by
  cases e with
  | key =>
    simp only [step] at h
    split at h
    · cases h
    · next sequence keys hkeys =>
      split_ifs at h with hrunning
      · cases h
        exact .handled hkeys hrunning
      · cases h
        exact .dropped (by simpa using hrunning)
  | resume =>
    simp only [step] at h
    split_ifs at h
    cases h
    exact .resumed
  | data bytes =>
    simp only [step] at h
    split_ifs at h
    cases h
    exact .chunk bytes
  | stdout pid bytes =>
    simp only [step] at h
    split_ifs at h
    obtain ⟨child, hchild, rfl⟩ := Option.map_eq_some_iff.1 h
    exact .stdout bytes (printing_open hchild).1 (printing_open hchild).2
  | stderr pid bytes =>
    simp only [step] at h
    split_ifs at h
    obtain ⟨child, hchild, rfl⟩ := Option.map_eq_some_iff.1 h
    exact .stderr bytes (printing_open hchild).1 (printing_open hchild).2
  | error pid =>
    simp only [step] at h
    split_ifs at h
    obtain ⟨child, hchild, rfl⟩ := Option.map_eq_some_iff.1 h
    exact .error hchild
  | close pid code =>
    simp only [step] at h
    split_ifs at h
    obtain ⟨child, hchild, rfl⟩ := Option.map_eq_some_iff.1 h
    exact .close code hchild
  | resize columns rows =>
    simp only [step] at h
    split_ifs at h
    cases h
    exact .resize columns rows
  | tick now =>
    simp only [step] at h
    split_ifs at h
    cases h
    exact .tick now

/-- The command the shell runs unasked: `doctor`, for a profile it knows nothing of. -/
def askWhatIsThere (s : Shell) : Shell :=
  match s.state.active with
  | none => s
  | some profile =>
    if profile.state ≠ some .unknown then s
    else
      let request := CliRequest.doctor profile.profileDir
      let step := reduce s.state (.run request)
      let s := { s with state := step.state }.paint
      match step.effects with
      | [] => s.resume
      | _ => s.runCli true request

/-- The shell before its first frame. -/
def blank (profiles : List ProfileView) (columns rows : Option ℕ) (now : ℕ) : Shell where
  state := { createInitialState profiles with observedAtMs := some now }
  running := true
  finished := false
  confirmed := none
  inFlightCommand := none
  options := profiles
  children := []
  spawned := 0
  awaitingTrust := none
  trace := []
  columns := columns
  rows := rows
  now := now
  keys := []
  waiting := 0

/-- The shell as `main` starts it. -/
def start (profiles : List ProfileView) (columns rows : Option ℕ) (now : ℕ) : Shell :=
  (blank profiles columns rows now).paint.askWhatIsThere

end Shell

end Echolet.Tui
