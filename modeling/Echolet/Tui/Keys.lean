/-
  Keys, intents and the reducer (`mapKey`, `reduce` and what they call in `tui-shell.ts`).

  * `mapKey_run`: only a free keyboard asks for a command;
  * `reduce_spec`: what one intent can do to the busy flag, the input row and the modal, and
    when it starts a command.
-/
import Echolet.Tui.State

namespace Echolet.Tui

/-- What the shell takes from elsewhere: lower case, and the words for a failure. -/
structure Platform where
  toLowerCase : JsString → JsString
  explain : CliCommand → JsString → ℕ → JsString × JsString

structure KeyEvent where
  name : JsString
  ctrl : Bool
  sequence : JsString
  deriving DecidableEq

def esc : ℕ := 27

/-- `decodeKey`: one raw chunk as a key. -/
def decodeKey (p : Platform) (sequence : JsString) : KeyEvent :=
  if sequence = [3] then ⟨js "c", true, sequence⟩
  else if sequence = [esc] then ⟨js "escape", false, sequence⟩
  else if sequence = [13] ∨ sequence = [10] then ⟨js "return", false, sequence⟩
  else
    let first := ((codePoints sequence).head?.map unitsOf).getD []
    match first.head? with
    | some code =>
      if 0 < code ∧ code < 27 then ⟨[code + 96], true, sequence⟩
      else ⟨p.toLowerCase first, false, sequence⟩
    | none => ⟨p.toLowerCase first, false, sequence⟩

/-- `splitKeystrokes`, on code points: from an escape on, a chunk is one key. -/
def splitPoints : List ℕ → List JsString
  | [] => []
  | point :: points =>
    if point = esc then [(point :: points).flatMap unitsOf] else unitsOf point :: splitPoints points

def splitKeystrokes (chunk : JsString) : List JsString := splitPoints (codePoints chunk)

/-- `modalIntent`: a modified key answers nothing. -/
def modalIntent (key : KeyEvent) : Option Intent :=
  if key.ctrl then none
  else if key.name = js "y" then some .trustConfirm
  else if key.name = js "n" then some .trustCancel
  else if key.name = js "escape" then some .trustCancel
  else none

def ctrlIntent (p : Platform) (key : KeyEvent) : Option Intent :=
  if p.toLowerCase key.name = js "c" then some .quit else none

/-- A key while the input row is open. -/
def inputKey (p : Platform) (key : KeyEvent) : Option Intent :=
  if key.ctrl then ctrlIntent p key
  else if key.sequence.head? = some esc then
    if key.sequence = [esc] then some .inputCancel else none
  else if key.sequence = [13] ∨ key.sequence = [10] then some .inputSubmit
  else if key.sequence = [127] then some .inputBackspace
  else if key.sequence = [] then none
  else some (.inputInsert key.sequence)

/-- What `Enter` starts on the profiles pane. -/
def setupStepIntent (profile : ProfileView) : Option Intent :=
  match nextSetupStep profile with
  | some 1 =>
    if profile.relayUrl = [] then some (.inputOpen .relayUrl)
    else some (.run (.init profile.profileDir profile.relayUrl profile.storeKeyEnv))
  | some 2 => some (.run (.relayPublish profile.profileDir))
  | some 3 => some (.inputOpen .exportPath)
  | some 4 => some (.inputOpen .cardPath)
  | some 5 => some (.run (.doctor profile.profileDir))
  | _ => none

/-- The contact after the selected one, round the list. -/
def nextContact (state : OperatorState) : Option ContactView :=
  let found := state.contacts.findIdx? fun contact => some contact.identityId = state.selectedContactId
  state.contacts[(found.elim 0 (· + 1)) % max 1 state.contacts.length]?

/-- The bindings that depend on the active profile. -/
def paneKeyIntent (key : KeyEvent) (state : OperatorState) : Option Intent := do
  let profile ← state.active
  let dir := profile.profileDir
  if key.name = js "p" then some (.run (.poll dir))
  else if key.name = js "d" then some (.run (.doctor dir))
  else if key.name = js "r" then some (.run (.relayPublish dir))
  else if key.name = js "h" then
    state.selectedContactId.map fun contact => .run (.history dir contact)
  else if key.name = js "i" then
    profile.contactCardPath.map fun path => .run (.contactImport dir path)
  else if key.name = js "w" then
    if state.pane ≠ .history ∨ state.selectedContactId = none ∨ state.busy = true ∨
      profile.published = false then none
    else some (.inputOpen .message)
  else if key.name = js "return" then
    if state.pane ≠ .profiles ∨ state.busy = true then none else setupStepIntent profile
  else if key.name = js "c" then
    (nextContact state).map fun contact => .selectContact contact.identityId
  else if key.name = js "t" then
    if state.profiles.length < 2 then none
    else some (.selectProfile ((state.activeProfile + 1) % state.profiles.length))
  else none

/-- The pane of a digit key. -/
def ordinalPane : JsString → Option PaneId
  | [u] => if 49 ≤ u ∧ u ≤ 57 then paneIds[u - 49]? else none
  | _ => none

def Intent.isRun : Intent → Bool
  | run _ => true
  | _ => false

/-- What a key means in the current state. -/
def mapKey (p : Platform) (key : KeyEvent) (state : OperatorState) : Option Intent :=
  if state.modal.isSome then if key.ctrl then ctrlIntent p key else modalIntent key
  else if state.input.isSome then inputKey p key
  else if key.ctrl then ctrlIntent p key
  else if key.name = js "q" then some .quit
  else if key.name = js "?" then some .toggleHelp
  else match ordinalPane key.name with
    | some pane => some (.selectPane pane)
    | none =>
      let intent := paneKeyIntent key state
      -- no command while one is in flight, whatever key asked for it
      if state.busy && intent.any Intent.isRun then none else intent

/-! ## The reducer -/

/-- `Date.prototype.toISOString`, from the milliseconds of a clock reading. -/
def toISOString (ms : ℕ) : Text :=
  let day := ms / 86400000 + 719468
  let ofEra := day % 146097
  let yearOfEra := (ofEra - ofEra / 1460 + ofEra / 36524 - ofEra / 146096) / 365
  let ofYear := ofEra - (365 * yearOfEra + yearOfEra / 4 - yearOfEra / 100)
  let fromMarch := (5 * ofYear + 2) / 153
  let month := if fromMarch < 10 then fromMarch + 3 else fromMarch - 9
  let year := yearOfEra + day / 146097 * 400 + if month ≤ 2 then 1 else 0
  let time := ms % 86400000
  (if year ≤ 9999 then padded 4 year else '+' :: padded 6 year) ++ '-' :: padded 2 month ++
    '-' :: padded 2 (ofYear - (153 * fromMarch + 2) / 5 + 1) ++ 'T' :: padded 2 (time / 3600000) ++
    ':' :: padded 2 (time / 60000 % 60) ++ ':' :: padded 2 (time / 1000 % 60) ++
    '.' :: padded 3 (time % 1000) ++ ['Z']

example : toISOString 1709211906078 = "2024-02-29T13:05:06.078Z".toList := by decide +kernel

/-- An instant with nothing in it a path separator could be mistaken for. -/
def cardInstant (atMs : ℕ) : JsString :=
  utf16Units ((toISOString atMs).filter fun c => !(c == '-' || c == ':' || c == '.'))

/-- What the input row opens with. -/
def initialBuffer (state : OperatorState) (field : InputField) : JsString :=
  match state.active with
  | none => []
  | some profile =>
    match field with
    | .exportPath =>
      profile.profileDir ++ js "/card-" ++ cardInstant (state.observedAtMs.getD 0) ++ js ".json"
    | .cardPath => profile.contactCardPath.getD []
    | _ => []

/-- The request a submitted buffer makes, if it is complete. -/
def submitRequest (state : OperatorState) (input : InputState) : Option CliRequest := do
  let profile ← state.active
  let value := input.buffer
  match input.field with
  | .message =>
    let recipient ← state.selectedContactId
    if value = [] ∨ profile.published = false then none
    else some (.send profile.profileDir recipient value none)
  | .relayUrl =>
    if value = [] ∨ profile.storeKeyPresent ≠ some true then none
    else some (.init profile.profileDir value profile.storeKeyEnv)
  | .exportPath => if value = [] then none else some (.contactExport profile.profileDir value)
  | .cardPath => if value = [] then none else some (.contactImport profile.profileDir value)
  | _ => none

/-- A relay URL the operator typed becomes the profile's own. -/
def adoptRelayUrl (state : OperatorState) : CliRequest → List ProfileView
  | .init _ relayUrl _ => state.profiles.modify state.activeProfile ({ · with relayUrl })
  | _ => state.profiles

/-- `trustModalIsComplete`: all four identifiers are there and none is empty. -/
def trustModalIsComplete (modal : TrustModal) : Bool :=
  [modal.identifiers.identityId, modal.identifiers.deviceId, modal.identifiers.devicePubkey,
    modal.identifiers.signalIdentityKey].all fun value => value.any fun text => !text.isEmpty

def reduce (state : OperatorState) : Intent → Step
  | .selectPane pane => ⟨{ state with pane }, []⟩
  | .selectProfile index =>
    ⟨{ state with
      activeProfile := if index < state.profiles.length then index else state.activeProfile }, []⟩
  | .selectContact identityId => ⟨{ state with selectedContactId := some identityId }, []⟩
  | .toggleHelp => ⟨{ state with help := !state.help }, []⟩
  | .run request =>
    if state.busy then ⟨state, []⟩ else ⟨{ state with busy := true }, [.runCli request]⟩
  | .trustConfirm =>
    match state.modal with
    | none => ⟨state, []⟩
    | some modal =>
      if modal.renderedAt = none ∨ trustModalIsComplete modal = false then ⟨state, []⟩
      else ⟨{ state with modal := none }, [.answerTrustPrompt true]⟩
  | .trustCancel =>
    match state.modal with
    | none => ⟨state, []⟩
    | some _ => ⟨{ state with modal := none }, [.answerTrustPrompt false]⟩
  | .inputOpen field =>
    if state.modal.isSome ∨ state.busy = true then ⟨state, []⟩
    else ⟨{ state with input := some ⟨field, initialBuffer state field, none, inputMaxBytes field⟩ }, []⟩
  | .inputInsert raw =>
    match state.input with
    | none => ⟨state, []⟩
    | some input =>
      let text := paintable raw
      if state.modal.isSome ∨ text = [] ∨ utf8BytesOf (input.buffer ++ text) > input.maxBytes then
        ⟨state, []⟩
      else ⟨{ state with input := some { input with buffer := input.buffer ++ text } }, []⟩
  | .inputBackspace =>
    match state.input with
    | none => ⟨state, []⟩
    | some input =>
      if state.modal.isSome then ⟨state, []⟩
      else
        let buffer := (codePoints input.buffer).dropLast.flatMap unitsOf
        ⟨{ state with input := some { input with buffer } }, []⟩
  | .inputCancel => ⟨{ state with input := none }, []⟩
  | .inputSubmit =>
    match state.input with
    | none => ⟨state, []⟩
    | some input =>
      if state.modal.isSome ∨ state.busy = true ∨ input.renderedAt = none then ⟨state, []⟩
      else match submitRequest state input with
        | none => ⟨state, []⟩
        | some request =>
          ⟨{ state with profiles := adoptRelayUrl state request, input := none, busy := true },
            [.runCli request]⟩
  | .quit => ⟨state, [.quit]⟩

/-! ## What a key can do -/

/-- Only a free keyboard and an idle shell make a key a command. -/
theorem mapKey_run {p : Platform} {key : KeyEvent} {state : OperatorState} {request : CliRequest}
    (h : mapKey p key state = some (.run request)) :
    state.modal = none ∧ state.input = none ∧ state.busy = false ∧
      paneKeyIntent key state = some (.run request) := by
  have hctrl : ctrlIntent p key ≠ some (.run request) := by
    unfold ctrlIntent
    split_ifs <;> simp
  unfold mapKey at h
  split_ifs at h with hm hc hi hc' hq hh
  · exact absurd h hctrl
  · unfold modalIntent at h
    split_ifs at h <;> simp at h
  · unfold inputKey at h
    split_ifs at h <;> simp_all
  · exact absurd h hctrl
  · simp at h
  · simp at h
  · cases hp : ordinalPane key.name with
    | some pane => simp [hp] at h
    | none =>
      simp only [hp] at h
      split_ifs at h with hb
      rw [h] at hb
      refine ⟨by simpa using hm, by simpa using hi, ?_, h⟩
      simpa [Intent.isRun] using hb

/-- A command of a key is for the active profile. -/
theorem paneKeyIntent_run {key : KeyEvent} {state : OperatorState} {request : CliRequest}
    (h : paneKeyIntent key state = some (.run request)) :
    state.active.map ProfileView.profileDir = some request.profileDir := by
  unfold paneKeyIntent at h
  cases hp : state.active with
  | none => simp [hp] at h
  | some profile =>
    rw [Option.map_some]
    simp only [hp, Option.bind_eq_bind, Option.bind_some] at h
    split_ifs at h
    · cases h; rfl
    · cases h; rfl
    · cases h; rfl
    · cases hs : state.selectedContactId with
      | none => simp [hs] at h
      | some contact => simp only [hs, Option.map_some, Option.some.injEq, Intent.run.injEq] at h; cases h; rfl
    · cases hc : profile.contactCardPath with
      | none => simp [hc] at h
      | some path => simp only [hc, Option.map_some, Option.some.injEq, Intent.run.injEq] at h; cases h; rfl
    · simp at h
    · unfold setupStepIntent at h
      split at h
      · split_ifs at h
        · simp at h
        · cases h; rfl
      · cases h; rfl
      · simp at h
      · simp at h
      · cases h; rfl
      · simp at h
    · cases hn : nextContact state with
      | none => simp [hn] at h
      | some contact => simp [hn] at h
    · simp at h

theorem submitRequest_profileDir {state : OperatorState} {input : InputState} {request : CliRequest}
    (h : submitRequest state input = some request) :
    state.active.map ProfileView.profileDir = some request.profileDir := by
  unfold submitRequest at h
  cases hp : state.active with
  | none => simp [hp] at h
  | some profile =>
    rw [Option.map_some]
    simp only [hp, Option.bind_eq_bind, Option.bind_some] at h
    split at h
    · cases hs : state.selectedContactId with
      | none => simp [hs] at h
      | some contact =>
        simp only [hs, Option.bind_some] at h
        split_ifs at h
        cases h; rfl
    all_goals
      first
        | simp at h; done
        | split_ifs at h
          cases h; rfl

/-- What an intent that starts no command can do. -/
structure Idle (state state' : OperatorState) : Prop where
  busy : state'.busy = state.busy
  profiles : state'.profiles = state.profiles
  modal : state'.modal = state.modal ∨ state'.modal = none
  input : state'.input.isSome → state.input.isSome ∨ state.busy = false ∧ state'.modal = none

theorem Idle.refl (state : OperatorState) : Idle state state :=
  ⟨rfl, rfl, Or.inl rfl, Or.inl⟩

/-- How an intent starts a command. -/
inductive Starts (state : OperatorState) (request : CliRequest) : Intent → OperatorState → Prop
  | run : Starts state request (.run request) { state with busy := true }
  | submit {input : InputState} (hinput : state.input = some input) (hmodal : state.modal = none)
      (hrequest : submitRequest state input = some request) :
      Starts state request .inputSubmit
        { state with profiles := adoptRelayUrl state request, input := none, busy := true }

/-- A typed relay URL goes to the profile that the command is for. -/
theorem Starts.profiles {state state' : OperatorState} {request : CliRequest} {intent : Intent}
    (h : Starts state request intent state') : state'.profiles = state.profiles ∨
      ∃ relayUrl, state'.profiles = state.profiles.modify state.activeProfile ({ · with relayUrl }) ∧
        state.active.map ProfileView.profileDir = some request.profileDir := by
  cases h with
  | run => exact Or.inl rfl
  | submit _ _ hrequest =>
    cases request with
    | init dir url env => exact Or.inr ⟨url, rfl, submitRequest_profileDir hrequest⟩
    | _ => exact Or.inl rfl

/-- A command is started for the active profile, which stays active. -/
theorem Starts.active {p : Platform} {key : KeyEvent} {state state' : OperatorState}
    {request : CliRequest} {intent : Intent} (h : Starts state request intent state')
    (hkey : mapKey p key state = some intent) :
    state'.active.map ProfileView.profileDir = some request.profileDir := by
  cases h with
  | run =>
    have hactive := paneKeyIntent_run (mapKey_run hkey).2.2.2
    exact hactive
  | submit _ _ hrequest =>
    have hactive := submitRequest_profileDir hrequest
    cases request with
    | init dir url env =>
      rw [← hactive]
      simp only [OperatorState.active, adoptRelayUrl, List.getElem?_modify_eq]
      cases state.profiles[state.activeProfile]? <;> rfl
    | _ => exact hactive

/-- Only a switch of the profile makes another one active. -/
theorem reduce_activeProfile {state : OperatorState} {intent : Intent}
    (h : ∀ index, intent ≠ .selectProfile index) :
    (reduce state intent).state.activeProfile = state.activeProfile := by
  cases intent with
  | selectProfile index => exact absurd rfl (h index)
  | _ => simp only [reduce] <;> (repeat' split) <;> rfl

/-- **What an intent does.** It starts one command, from an idle shell, or none. -/
theorem reduce_cases (state : OperatorState) (intent : Intent) :
    (∃ request, (reduce state intent).effects = [.runCli request] ∧ state.busy = false ∧
      Starts state request intent (reduce state intent).state) ∨
    ((∀ request, .runCli request ∉ (reduce state intent).effects) ∧
      Idle state (reduce state intent).state) := by
  have hstay : ∀ step : Step, step = ⟨state, []⟩ →
      (∀ request, .runCli request ∉ step.effects) ∧ Idle state step.state := by
    rintro step rfl
    exact ⟨fun _ => List.not_mem_nil, .refl state⟩
  cases intent with
  | selectPane pane => exact Or.inr ⟨fun _ => List.not_mem_nil, rfl, rfl, Or.inl rfl, Or.inl⟩
  | selectProfile index => exact Or.inr ⟨fun _ => List.not_mem_nil, rfl, rfl, Or.inl rfl, Or.inl⟩
  | selectContact id => exact Or.inr ⟨fun _ => List.not_mem_nil, rfl, rfl, Or.inl rfl, Or.inl⟩
  | toggleHelp => exact Or.inr ⟨fun _ => List.not_mem_nil, rfl, rfl, Or.inl rfl, Or.inl⟩
  | run request =>
    simp only [reduce]
    split_ifs with hb
    · exact Or.inr (hstay _ rfl)
    · exact Or.inl ⟨request, rfl, by simpa using hb, .run⟩
  | trustConfirm =>
    refine Or.inr ?_
    simp only [reduce]
    split
    · exact hstay _ rfl
    · split_ifs
      · exact hstay _ rfl
      · exact ⟨by simp, rfl, rfl, Or.inr rfl, Or.inl⟩
  | trustCancel =>
    refine Or.inr ?_
    simp only [reduce]
    split
    · exact hstay _ rfl
    · exact ⟨by simp, rfl, rfl, Or.inr rfl, Or.inl⟩
  | inputOpen field =>
    refine Or.inr ?_
    simp only [reduce]
    split_ifs with hopen
    · exact hstay _ rfl
    · simp only [not_or, Bool.not_eq_true, Option.isSome_eq_false_iff, Option.isNone_iff_eq_none]
        at hopen
      exact ⟨fun _ => List.not_mem_nil, rfl, rfl, Or.inl rfl, fun _ => Or.inr ⟨hopen.2, hopen.1⟩⟩
  | inputInsert text =>
    refine Or.inr ?_
    simp only [reduce]
    split
    · exact hstay _ rfl
    · next input hinput =>
      split_ifs
      · exact hstay _ rfl
      · exact ⟨fun _ => List.not_mem_nil, rfl, rfl, Or.inl rfl, fun _ => Or.inl (by simp [hinput])⟩
  | inputBackspace =>
    refine Or.inr ?_
    simp only [reduce]
    split
    · exact hstay _ rfl
    · next input hinput =>
      split_ifs
      · exact hstay _ rfl
      · exact ⟨fun _ => List.not_mem_nil, rfl, rfl, Or.inl rfl, fun _ => Or.inl (by simp [hinput])⟩
  | inputCancel =>
    exact Or.inr ⟨fun _ => List.not_mem_nil, rfl, rfl, Or.inl rfl, fun h => by simp [reduce] at h⟩
  | inputSubmit =>
    simp only [reduce]
    split
    · exact Or.inr (hstay _ rfl)
    · next input hinput =>
      split_ifs with hgate
      · exact Or.inr (hstay _ rfl)
      · simp only [not_or, Bool.not_eq_true, Option.isSome_eq_false_iff,
          Option.isNone_iff_eq_none] at hgate
        split
        · exact Or.inr (hstay _ rfl)
        · next request hrequest =>
          exact Or.inl ⟨request, rfl, hgate.2.1, .submit hinput hgate.1 hrequest⟩
  | quit => exact Or.inr ⟨by simp [reduce], .refl state⟩

end Echolet.Tui
