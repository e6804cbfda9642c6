/-
  The frame (`shell-chrome.ts`, `modal-host.ts`): from a state to lines of text.

  * `renderFrame_shape`: so many lines of so many code points, fine where the texts of the state are;
  * `renderFrame_notice`, `renderFrame_first`: the notice is there in full where it fits, and its
    row is nobody else's;
  * `trust_modal_geometry`: the panel shows each identifier in full.
-/
import Mathlib.Data.List.Sort
import Echolet.Tui.Panes

namespace Echolet.Tui

structure Viewport where
  cols : ℕ
  rows : ℕ

abbrev Frame := List JsString

/-! ## The modal -/

/-- `TRUST_IDENTIFIER_FIELDS`, with the identifier each names. -/
def trustIdentifierFields (ids : TrustIdentifiers) : List (String × Option JsString) :=
  [("identity_id", ids.identityId), ("device_id", ids.deviceId),
    ("device_pubkey", ids.devicePubkey), ("signal_identity_key", ids.signalIdentityKey)]

def trustModalFooter : List (String × String) := [("y", "trust"), ("n", "reject"), ("esc", "cancel")]

def formatModalFooter (actions : List (String × String)) : JsString :=
  (js "  ").intercalate (actions.map fun action =>
    js "[" ++ js action.1 ++ js "] " ++ js action.2)

structure PanelSize where
  width : ℕ
  height : ℕ

/-- `resolveModalPanelSize`: four columns and rows are left to the frame, within bounds. -/
def resolveModalPanelSize (cols rows : ℕ) : PanelSize :=
  let available (span least most : ℕ) : ℕ := max least (min (span - 4) most)
  ⟨available cols 56 80, available rows 14 20⟩

def modalBodyRows (panelHeight : ℕ) : ℕ := max 1 (panelHeight - 4)

def resolveModalInnerWidth (availableWidth : ℕ) : ℕ := max 1 (availableWidth - 4)

/-- So many rows: the first ones, and empty ones after them. -/
def exactly (rows : ℕ) (lines : List JsString) : List JsString :=
  lines.take rows ++ List.replicate (rows - lines.length) []

def boxed (inner : ℕ) (text : JsString) : JsString :=
  js "│ " ++ padOrClip (clipLine text inner) inner ++ js " │"

/-- The line of an identifier's value. -/
def valueLine : Option JsString → JsString
  | some value => if value = [] then js "  (missing)" else js "  " ++ value
  | none => js "  (missing)"

def modalBody (modal : TrustModal) : List JsString :=
  [js "profile: " ++ modal.profileLabel, js "card: " ++ modal.cardPath] ++
    (trustIdentifierFields modal.identifiers).flatMap fun field =>
      [js field.1 ++ js ":", valueLine field.2]

def modalRule (left right : String) (width : ℕ) : JsString :=
  js left ++ (List.replicate (width - 2) (js "─")).flatten ++ js right

def renderModal (modal : TrustModal) (viewport : Viewport) : List JsString :=
  let size := resolveModalPanelSize viewport.cols viewport.rows
  let inner := resolveModalInnerWidth size.width
  let painted := exactly (modalBodyRows size.height) (modalBody modal)
  let lines := [modalRule "╭" "╮" size.width, boxed inner (js "Trust these contact identifiers?")] ++
    painted.map (boxed inner) ++
    [boxed inner (formatModalFooter trustModalFooter), modalRule "╰" "╯" size.width]
  let lines := lines ++ List.replicate (size.height - lines.length) (boxed inner [])
  (lines.take size.height).map (padOrClip · size.width)

/-! ## The chrome -/

def unauditedNotice : JsString := js "UNAUDITED PROTOTYPE — not suitable for sensitive communication"

def minViewport : Viewport := ⟨72, 16⟩

def isBelowMinViewport (viewport : Viewport) : Bool :=
  decide (viewport.cols < minViewport.cols) || decide (viewport.rows < minViewport.rows)

def fitLine (text : JsString) (cols : ℕ) : JsString := padOrClip text cols

def PaneId.name : PaneId → String
  | profiles => "profiles"
  | mailbox => "mailbox"
  | history => "history"
  | rejections => "rejections"
  | health => "health"

def headerLine (state : OperatorState) : JsString :=
  let tabs := (paneIds.mapIdx fun index pane =>
    let tab := utf16Units (decimal (index + 1)) ++ js " " ++ js pane.name
    if pane = state.pane then js "[" ++ tab ++ js "]" else js " " ++ tab ++ js " ").flatten
  js "echolet operator · " ++ (state.active.map (·.label)).getD (js "no profile") ++ js " ·" ++ tabs

/-- An advertised key; the highest ranks are dropped first. -/
structure FooterKey where
  label : String
  rank : ℕ

def footerKeys : List FooterKey :=
  [⟨"[1-5] pane", 3⟩, ⟨"[p] poll", 4⟩, ⟨"[d] doctor", 5⟩, ⟨"[r] publish", 6⟩, ⟨"[h] history", 7⟩,
    ⟨"[i] import", 8⟩, ⟨"[c] contact", 9⟩, ⟨"[t] profile", 10⟩, ⟨"[?] help", 2⟩, ⟨"[q] quit", 1⟩]

def footerKeysHelpOpen : List FooterKey :=
  footerKeys.map fun entry => if entry.label = "[?] help" then ⟨"[?] close", entry.rank⟩ else entry

/-- The labels of the chosen entries, in the order of the list. -/
def paintFooter (entries : List FooterKey) (chosen : List ℕ) : JsString :=
  (js "  ").intercalate ((chosen.insertionSort (· ≤ ·)).map fun index =>
    js ((entries[index]?.map (·.label)).getD ""))

/-- The loop of `fitFooter`: it stops at the first entry that does not fit. -/
def chooseFooter (entries : List FooterKey) (cols : ℕ) : List ℕ → List ℕ → List ℕ
  | [], chosen => chosen
  | index :: byRank, chosen =>
    if cols < (codePoints (paintFooter entries (chosen ++ [index]))).length then chosen
    else chooseFooter entries cols byRank (chosen ++ [index])

def fitFooter (entries : List FooterKey) (cols : ℕ) : JsString :=
  let rank (index : ℕ) : ℕ := (entries[index]?.map (·.rank)).getD 0
  let byRank := (List.range entries.length).insertionSort fun left right => rank left ≤ rank right
  paintFooter entries (chooseFooter entries cols byRank [])

def submitLabel (input : InputState) : JsString :=
  match input.field with
  | .message => js "[enter] send  "
  | .relayUrl | .exportPath | .cardPath => js "[enter] run  "
  | _ => []

def footerLine (state : OperatorState) (cols : ℕ) : JsString :=
  if state.modal.isSome then js "[y] trust  [n] reject  [esc] cancel  [ctrl-c] quit"
  else match state.input with
    | some input => submitLabel input ++ js "[esc] cancel  [ctrl-c] quit"
    | none => fitFooter (if state.help then footerKeysHelpOpen else footerKeys) cols

def InputField.name : InputField → String
  | relayUrl => "relay-url"
  | profileDir => "profile-dir"
  | storeKeyEnv => "store-key-env"
  | exportPath => "export-path"
  | cardPath => "card-path"
  | message => "message"
  | contactName => "contact-name"

/-- The row the operator types into; it shows the end of the buffer. -/
def composeLine (input : InputState) (cols : ℕ) : JsString :=
  let label := js input.field.name ++ js " ▸ "
  let used := utf8BytesOf input.buffer
  let counter := if input.maxBytes < used * 2 then
      js "  " ++ utf16Units (decimal used) ++ js "/" ++ utf16Units (decimal input.maxBytes) ++ js " bytes"
    else []
  let room := cols - (codePoints label).length - (codePoints counter).length
  let points := codePoints input.buffer
  let shown := if points.length ≤ room then input.buffer else join (points.drop (points.length - room))
  label ++ shown ++ counter

def activityLine (state : OperatorState) : JsString :=
  let text := (state.activity.getLast?.map (·.text)).getD (js "no activity yet")
  if state.busy then js "running… (busy — a command key starts nothing) " ++ text else text

def helpLinesHead : List JsString :=
  [js "key bindings",
    js "  1-5        select pane",
    js "  enter      start the next registration step (profiles pane, while one is left)",
    js "  p          poll",
    js "  d          doctor",
    js "  r          relay publish",
    js "  h          history for the selected contact",
    js "  w          write a message (history pane, with a contact selected)",
    js "  i          import the contact card named at startup",
    js "  c          next contact",
    js "  t          next profile",
    js "  ?          close this list"]

def helpQuitLine (state : OperatorState) : JsString :=
  if state.modal.isSome || state.input.isSome then js "  ctrl-c     quit"
  else js "  q          quit (ctrl-c also quits)"

def helpLines (state : OperatorState) : List JsString := helpLinesHead ++ [helpQuitLine state]

/-! ## The body -/

/-- What the health pane takes for a profile when there is none. -/
def noProfile (relayUrl : JsString) : ProfileView where
  label := js "-"
  profileDir := js "-"
  relayUrl := relayUrl
  storeKeyEnv := js "-"
  identityId := js "-"
  deviceId := js "-"
  contactCount := .ofNat 0
  published := false
  state := none
  storeKeyPresent := none
  setup := none
  contactCardPath := none

def HealthStatus.text : HealthStatus → JsString
  | healthy => js "healthy"
  | unreachable => js "unreachable"
  | unknown => js "unknown"

def paneLines (state : OperatorState) (pane : PaneId) (width bodyRows : ℕ) : List JsString :=
  if state.help then
    let lines := helpLines state
    fitPane ⟨[(lines.head?).getD []], (lines.drop 1).map fun line => [line], [], .head⟩ (some bodyRows)
      width
  else match pane with
    | .profiles =>
      match state.active with
      | none => [clipLine (js "no profile configured — run init first") width]
      | some profile =>
        formatProfilesLines (buildProfilesSnapshot profile state.contacts state.health) width
          (some bodyRows)
    | .mailbox =>
      formatMailboxLines (buildMailboxSnapshot state.mailbox state.rejections) width (some bodyRows)
    | .history =>
      formatHistoryLines (buildHistorySnapshot state.history state.selectedContactId) width
        (some bodyRows)
    | .rejections =>
      let snapshot := buildMailboxSnapshot state.mailbox state.rejections
      let count := snapshot.rejectionLines.length
      if count = 0 then [clipLine (js "no permanently rejected envelopes in the last poll") width]
      else fitPane ⟨[utf16Units (decimal count) ++ js " rejected by the last poll"],
        snapshot.rejectionLines.map fun line => [js "  " ++ line], [], .tail⟩ (some bodyRows) width
    | .health =>
      let snapshot := buildProfilesSnapshot (state.active.getD (noProfile state.health.relayUrl))
        state.contacts state.health
      [clipLine snapshot.healthLine width, [],
        clipLine (js "status  " ++ state.health.status.text) width]

/-! ## The frame -/

/-- Hard-wraps to `cols` code points a line. -/
def wrapToWidth (text : JsString) (cols : ℕ) : List JsString :=
  if codePoints text = [] then [[]] else (slices cols (codePoints text)).map join

/-- The lines for a terminal that is too small. -/
def tooSmallFrame (state : OperatorState) (cols rows : ℕ) : List JsString :=
  let composing := state.input.isSome
  let ctrlCOnly := state.modal.isSome || composing
  let size (v : Viewport) : JsString := utf16Units (decimal v.cols) ++ js "x" ++ utf16Units (decimal v.rows)
  wrapToWidth unauditedNotice cols ++ [[]] ++
    wrapToWidth (size ⟨cols, rows⟩ ++ js " — this console needs " ++ size minViewport) cols ++
    wrapToWidth (if ctrlCOnly then js "resize, or press ctrl-c to quit"
      else js "resize, or press q to quit") cols ++
    (if state.modal.isSome then
      [] :: wrapToWidth (js "a trust decision is waiting — resize to answer it") cols else []) ++
    if composing then
      [] :: wrapToWidth (js "a message is being composed — resize to see and send it") cols else []

/-- One line of a panel over a line of the frame. -/
def overlayLine (left : ℕ) (base panelLine : JsString) : JsString :=
  let cells := codePoints base
  let panel := codePoints panelLine
  join (cells.mapIdx fun column cell =>
    if left ≤ column then (panel[column - left]?).getD cell else cell)

/-- The row at which a panel begins, never the first. -/
def overlayTop (rows height : ℕ) : ℕ := min (max 1 ((rows - height) / 2)) (max 1 (rows - height))

def overlayModal (frame : Frame) (state : OperatorState) (viewport : Viewport) : Frame :=
  match state.modal with
  | none => frame
  | some modal =>
    let size := resolveModalPanelSize viewport.cols viewport.rows
    let panel := renderModal modal viewport
    let top := overlayTop viewport.rows size.height
    let left := (viewport.cols - size.width) / 2
    frame.mapIdx fun row base =>
      if top ≤ row then (panel[row - top]?).elim base (overlayLine left base) else base

def renderFrame (state : OperatorState) (viewport : Viewport) : Frame :=
  let cols := max 1 viewport.cols
  let rows := max 1 viewport.rows
  if isBelowMinViewport ⟨cols, rows⟩ then
    (exactly rows (tooSmallFrame state cols rows)).map (fitLine · cols)
  else
    let head := [unauditedNotice, headerLine state, (List.replicate cols (js "─")).flatten].take (min 3 rows)
    let tail := [activityLine state, footerLine state cols].take (min 2 (rows - head.length))
    let bodyRows := rows - head.length - tail.length
    -- an open input row takes one row of the pane
    let composeRows := if state.input.isSome ∧ 0 < bodyRows then 1 else 0
    let paneRows := bodyRows - composeRows
    let body := exactly paneRows (paneLines state state.pane cols paneRows)
    let compose := match state.input with
      | some input => if composeRows = 1 then [composeLine input cols] else []
      | none => []
    let frame := (head ++ (body ++ compose) ++ tail).map (fitLine · cols)
    overlayModal frame state ⟨cols, rows⟩

/-! ## Code points of a line -/

/-- A string is read in two parts where the second does not begin with the low half of a pair. -/
theorem codePoints_append {t : JsString} (h : ∀ u ∈ t.head?, isLowSurrogate u = false) (s : JsString) :
    codePoints (s ++ t) = codePoints s ++ codePoints t := by
  induction s using codePoints.induct with
  | case1 => rfl
  | case2 u =>
    cases t with
    | nil => rfl
    | cons v t =>
      have hv := h v rfl
      have hapart : codePoints (u :: v :: t) = u :: codePoints (v :: t) := by
        rw [codePoints, if_neg]
        exact fun hb => by rw [hv] at hb; cases hb.2
      exact hapart
  | case3 u v us hb ih =>
    rw [List.cons_append, List.cons_append, codePoints, if_pos hb, codePoints, if_pos hb, ih,
      List.cons_append]
  | case4 u v us hb ih =>
    rw [List.cons_append, List.cons_append, codePoints, if_neg hb, ← List.cons_append, ih, codePoints,
      if_neg hb, List.cons_append]

@[simp] theorem exactly_length (rows : ℕ) (lines : List JsString) : (exactly rows lines).length = rows := by
  rw [exactly, List.length_append, List.length_take, List.length_replicate]
  omega

theorem getElem?_exactly {rows k : ℕ} {lines : List JsString} (hk : k < rows) {line : JsString}
    (h : lines[k]? = some line) : (exactly rows lines)[k]? = some line := by
  obtain ⟨hlt, -⟩ := List.getElem?_eq_some_iff.1 h
  rw [exactly, List.getElem?_append_left (by rw [List.length_take]; omega),
    List.getElem?_take_of_lt hk, h]

theorem exactly_forall {P : JsString → Prop} {lines : List JsString} (h : ∀ line ∈ lines, P line)
    (hnil : P []) (rows : ℕ) : ∀ line ∈ exactly rows lines, P line := by
  rw [exactly, List.forall_mem_append]
  refine ⟨fun line hline => h line (List.mem_of_mem_take hline), fun line hline => ?_⟩
  rw [List.eq_of_mem_replicate hline]
  exact hnil

theorem exactly_fine {lines : List JsString} (h : ∀ line ∈ lines, Fine line) (rows : ℕ) :
    ∀ line ∈ exactly rows lines, Fine line :=
  exactly_forall h fine_nil rows

theorem slices_nil {n : ℕ} (hn : 0 < n) : slices n [] = [] := by
  rw [slices, List.length_nil, Nat.zero_add, Nat.div_eq_of_lt (Nat.sub_lt hn Nat.one_pos)]
  rfl

/-- Units of which none begins a pair are code points. -/
theorem codePoints_of_bmp : ∀ {us : JsString}, (∀ u ∈ us, isHighSurrogate u = false) → codePoints us = us
  | [], _ => rfl
  | u :: us, h => by
    rw [codePoints_cons (h u List.mem_cons_self),
      codePoints_of_bmp fun v hv => h v (List.mem_cons_of_mem u hv)]

theorem padOrClip_self {text : JsString} (h : Units text) : padOrClip text (codePoints text).length = text := by
  rw [padOrClip, if_pos le_rfl, List.take_length, join, flatMap_codePoints h]

/-- A line of the panel: its ends do not pair with what is beside it. -/
structure Framed (width : ℕ) (line : JsString) : Prop where
  units : Units line
  width : (codePoints line).length = width
  first : ∀ p ∈ (codePoints line).head?, isLowSurrogate p = false
  last : ∀ p ∈ (codePoints line).getLast?, isHighSurrogate p = false

theorem modalRule_eq {left right : String} {u v width : ℕ} (hl : js left = [u]) (hr : js right = [v]) :
    modalRule left right width = u :: (List.replicate (width - 2) 0x2500 ++ [v]) := by
  have hdash : js "─" = List.replicate 1 0x2500 := by decide
  rw [modalRule, hl, hr, hdash, List.flatten_replicate_replicate, Nat.mul_one, List.append_assoc]
  rfl

theorem framed_rule {left right : String} {u v : ℕ} (hl : js left = [u]) (hr : js right = [v])
    (hu : u < 0xd800) (hv : v < 0xd800) {width : ℕ} (hw : 2 ≤ width) :
    Framed width (modalRule left right width) := by
  have hall : ∀ w ∈ u :: (List.replicate (width - 2) 0x2500 ++ [v]), w < 0xd800 := by
    rw [List.forall_mem_cons, List.forall_mem_append, List.forall_mem_singleton]
    refine ⟨hu, fun w hmem => ?_, hv⟩
    rw [List.eq_of_mem_replicate hmem]
    decide
  have hpoints : codePoints (modalRule left right width) =
      u :: (List.replicate (width - 2) 0x2500 ++ [v]) := by
    rw [modalRule_eq hl hr]
    refine codePoints_of_bmp fun w hmem => ?_
    have := hall w hmem
    rw [isHighSurrogate, decide_eq_false_iff_not]
    omega
  refine ⟨fun w hmem => ?_, ?_, ?_, ?_⟩
  · rw [modalRule_eq hl hr] at hmem
    have := hall w hmem
    omega
  · rw [hpoints, List.length_cons, List.length_append, List.length_replicate, List.length_singleton]
    omega
  · rw [hpoints, List.head?_cons]
    rintro p ⟨⟩
    rw [isLowSurrogate, decide_eq_false_iff_not]
    omega
  · rw [hpoints, ← List.cons_append, List.getLast?_concat]
    rintro p ⟨⟩
    rw [isHighSurrogate, decide_eq_false_iff_not]
    omega

theorem codePoints_boxed (inner : ℕ) (text : JsString) : codePoints (boxed inner text) =
    0x2502 :: 32 :: (codePoints (padOrClip (clipLine text inner) inner) ++ [32, 0x2502]) := by
  have hleft : js "│ " = [0x2502, 32] := by decide
  have hright : js " │" = [32, 0x2502] := by decide
  rw [boxed, hleft, hright, List.append_assoc, List.cons_append, List.singleton_append,
    codePoints_cons (by decide), codePoints_cons (by decide), codePoints_append]
  · rfl
  · rintro u ⟨⟩
    decide

theorem framed_boxed {text : JsString} (h : Units text) (inner : ℕ) :
    Framed (inner + 4) (boxed inner text) := by
  have hends : Units (js "│ ") ∧ Units (js " │") := ⟨units_utf16Units _, units_utf16Units _⟩
  refine ⟨(hends.1.append ((h.clipLine inner).padOrClip inner)).append hends.2, ?_, ?_, ?_⟩
  · rw [codePoints_boxed, List.length_cons, List.length_cons, List.length_append,
      padOrClip_width (h.clipLine inner)]
    rfl
  · rw [codePoints_boxed]
    rintro p ⟨⟩
    decide
  · have hlast : ∀ ps : List ℕ, (0x2502 :: 32 :: (ps ++ [32, 0x2502])).getLast? = some 0x2502 := by
      intro ps
      rw [← List.cons_append, ← List.cons_append, List.append_cons, List.getLast?_concat]
    rw [codePoints_boxed, hlast]
    rintro p ⟨⟩
    decide

/-- The strings of a modal. -/
structure TrustModal.Units (modal : TrustModal) : Prop where
  cardPath : Tui.Units modal.cardPath
  profileLabel : Tui.Units modal.profileLabel
  identifiers : ∀ field ∈ trustIdentifierFields modal.identifiers, ∀ text ∈ field.2, Tui.Units text

structure TrustModal.Fine (modal : TrustModal) : Prop where
  cardPath : Tui.Fine modal.cardPath
  profileLabel : Tui.Fine modal.profileLabel
  identifiers : ∀ field ∈ trustIdentifierFields modal.identifiers, ∀ text ∈ field.2, Tui.Fine text

theorem TrustModal.Fine.units {modal : TrustModal} (h : modal.Fine) : modal.Units :=
  ⟨h.cardPath.units, h.profileLabel.units, fun field hf text ht => (h.identifiers field hf text ht).units⟩

theorem js_units (s : String) : Units (js s) := units_utf16Units _

theorem modalBody_units {modal : TrustModal} (h : modal.Units) :
    ∀ line ∈ modalBody modal, Units line := by
  rw [modalBody, List.forall_mem_append, List.forall_mem_cons, List.forall_mem_singleton]
  refine ⟨⟨(js_units _).append h.profileLabel, (js_units _).append h.cardPath⟩, ?_⟩
  intro line hline
  obtain ⟨field, hmem, hline⟩ := List.mem_flatMap.1 hline
  rcases List.mem_cons.1 hline with rfl | hline
  · exact (js_units _).append (js_units _)
  · rw [List.mem_singleton.1 hline]
    cases hv : field.2 with
    | none => exact js_units _
    | some value =>
      unfold valueLine
      dsimp only
      split_ifs
      · exact js_units _
      · exact (js_units _).append (h.identifiers field hmem value hv)

section
variable {modal : TrustModal} {viewport : Viewport}

theorem innerWidth_add (viewport : Viewport) :
    resolveModalInnerWidth (resolveModalPanelSize viewport.cols viewport.rows).width + 4 =
      (resolveModalPanelSize viewport.cols viewport.rows).width := by
  simp only [resolveModalInnerWidth, resolveModalPanelSize]
  omega

/-- The lines of the panel, as they are before they are cut to its size. -/
def panelLines (modal : TrustModal) (size : PanelSize) : List JsString :=
  let inner := resolveModalInnerWidth size.width
  [modalRule "╭" "╮" size.width, boxed inner (js "Trust these contact identifiers?")] ++
    (exactly (modalBodyRows size.height) (modalBody modal)).map (boxed inner) ++
    [boxed inner (formatModalFooter trustModalFooter), modalRule "╰" "╯" size.width]

theorem panelLines_framed (h : modal.Units) (viewport : Viewport) :
    ∀ line ∈ panelLines modal (resolveModalPanelSize viewport.cols viewport.rows),
      Framed (resolveModalPanelSize viewport.cols viewport.rows).width line := by
  have hwidth : 56 ≤ (resolveModalPanelSize viewport.cols viewport.rows).width := le_max_left _ _
  have hboxed : ∀ {text : JsString}, Units text →
      Framed (resolveModalPanelSize viewport.cols viewport.rows).width (boxed (resolveModalInnerWidth
        (resolveModalPanelSize viewport.cols viewport.rows).width) text) := by
    intro text htext
    have hframed := framed_boxed htext
      (resolveModalInnerWidth (resolveModalPanelSize viewport.cols viewport.rows).width)
    rwa [innerWidth_add] at hframed
  intro line hline
  simp only [panelLines, List.mem_append, List.mem_cons, List.not_mem_nil, or_false] at hline
  rcases hline with ((rfl | rfl) | hline) | rfl | rfl
  · exact framed_rule (u := 0x256d) (v := 0x256e) (by decide) (by decide) (by decide) (by decide) (by omega)
  · exact hboxed (js_units _)
  · obtain ⟨text, htext, rfl⟩ := List.mem_map.1 hline
    exact hboxed (exactly_forall (modalBody_units h) (fun _ hu => (by cases hu)) _ text htext)
  · have hfooter : Fine (formatModalFooter trustModalFooter) := by decide
    exact hboxed hfooter.units
  · exact framed_rule (u := 0x2570) (v := 0x256f) (by decide) (by decide) (by decide) (by decide) (by omega)

/-- **The panel has its size**: nothing is cut off it, and nothing is added. -/
theorem renderModal_eq (h : modal.Units) (viewport : Viewport) : renderModal modal viewport =
    panelLines modal (resolveModalPanelSize viewport.cols viewport.rows) ∧
    (renderModal modal viewport).length =
      (resolveModalPanelSize viewport.cols viewport.rows).height := by
  have hheight : 14 ≤ (resolveModalPanelSize viewport.cols viewport.rows).height := le_max_left _ _
  have hframed := panelLines_framed h viewport
  have hlen : (panelLines modal (resolveModalPanelSize viewport.cols viewport.rows)).length =
      (resolveModalPanelSize viewport.cols viewport.rows).height := by
    simp only [panelLines, List.length_append, List.length_map, exactly_length, List.length_cons,
      List.length_nil, modalBodyRows]
    omega
  have heq : renderModal modal viewport =
      panelLines modal (resolveModalPanelSize viewport.cols viewport.rows) := by
    unfold renderModal
    change ((panelLines modal _ ++ List.replicate (_ - (panelLines modal _).length) _).take _).map _ = _
    rw [hlen, Nat.sub_self, List.replicate_zero, List.append_nil, List.take_of_length_le hlen.le]
    refine (List.map_congr_left fun line hline => ?_).trans (List.map_id _)
    have hself := padOrClip_self (hframed line hline).units
    rwa [(hframed line hline).width] at hself
  exact ⟨heq, heq ▸ hlen⟩

theorem renderModal_framed (h : modal.Units) (viewport : Viewport) :
    ∀ line ∈ renderModal modal viewport,
      Framed (resolveModalPanelSize viewport.cols viewport.rows).width line := by
  rw [(renderModal_eq h viewport).1]
  exact panelLines_framed h viewport

end

/-! ## The overlay -/

/-- Some cells of a line under others. -/
theorem overlay_cells {cells panel : List ℕ} {left : ℕ} (h : left + panel.length ≤ cells.length) :
    (cells.mapIdx fun column cell => if left ≤ column then (panel[column - left]?).getD cell else cell) =
      cells.take left ++ panel ++ cells.drop (left + panel.length) := by
  refine List.ext_getElem? fun k => ?_
  rw [List.getElem?_mapIdx, List.getElem?_append, List.getElem?_append, List.length_append,
    List.length_take, Nat.min_eq_left (by omega)]
  by_cases hleft : k < left
  · rw [if_pos (by omega), if_pos hleft, List.getElem?_take_of_lt hleft]
    simp [Nat.not_le.2 hleft]
  · by_cases hright : k < left + panel.length
    · obtain ⟨cell, hcell⟩ : ∃ cell, cells[k]? = some cell :=
        ⟨_, List.getElem?_eq_getElem (by omega)⟩
      obtain ⟨shown, hover⟩ : ∃ shown, panel[k - left]? = some shown :=
        ⟨_, List.getElem?_eq_getElem (by omega)⟩
      rw [if_pos hright, if_neg hleft, hcell, Option.map_some, if_pos (by omega), hover]
      rfl
    · have hnone : panel[k - left]? = none := List.getElem?_eq_none (by omega)
      have hcell : (fun cell => if left ≤ k then (none : Option ℕ).getD cell else cell) = id :=
        funext fun cell => ite_self cell
      rw [if_neg hright, List.getElem?_drop, hnone, hcell, Option.map_id, id_eq]
      congr 1
      omega

section
variable {base panelLine : JsString} {left width : ℕ}

theorem overlayLine_eq (hp : Framed width panelLine) (hfit : left + width ≤ (codePoints base).length) :
    overlayLine left base panelLine = join ((codePoints base).take left ++ codePoints panelLine ++
      (codePoints base).drop (left + width)) := by
  rw [overlayLine, ← hp.width]
  exact congrArg join (overlay_cells (by rw [hp.width]; exact hfit))

/-- **The cells of a line under a line of the panel.** -/
theorem codePoints_overlayLine (hb : Units base) (hp : Framed width panelLine) (hwidth : 0 < width)
    (hfit : left + width ≤ (codePoints base).length) :
    codePoints (overlayLine left base panelLine) = (codePoints base).take left ++
      codePoints panelLine ++ (codePoints base).drop (left + width) := by
  have hpanel : codePoints panelLine ≠ [] := by
    intro hnil
    have hw := hp.width
    rw [hnil] at hw
    exact absurd hw.symm (by simpa using Nat.pos_iff_ne_zero.1 hwidth)
  rw [overlayLine_eq hp hfit]
  refine codePoints_join ?_ ?_
  · rw [List.forall_mem_append, List.forall_mem_append]
    exact ⟨⟨fun p hmem => codePoints_lt hb p (List.mem_of_mem_take hmem),
      codePoints_lt hp.units⟩, fun p hmem => codePoints_lt hb p (List.mem_of_mem_drop hmem)⟩
  · -- neither end of the panel pairs with its neighbour
    refine List.isChain_append.2 ⟨List.isChain_append.2 ⟨(codePoints_apart base).take left,
      codePoints_apart panelLine, fun p _ q hq hboth => ?_⟩, (codePoints_apart base).drop _,
      fun p hlast q _ hboth => ?_⟩
    · rw [hp.first q hq] at hboth
      cases hboth.2
    · rw [List.getLast?_append_of_ne_nil _ hpanel] at hlast
      rw [hp.last p hlast] at hboth
      cases hboth.1

end

/-- Whether code points stand on the cells of a row from a column on. -/
def Shows (frame : Frame) (row column : ℕ) (points : List ℕ) : Prop :=
  ∃ line, frame[row]? = some line ∧ points <+: (codePoints line).drop column

/-- A base frame of the size of the viewport. -/
def Fills (frame : Frame) (viewport : Viewport) : Prop :=
  frame.length = viewport.rows ∧
    ∀ line ∈ frame, Units line ∧ (codePoints line).length = viewport.cols

section
variable {state : OperatorState} {modal : TrustModal} {viewport : Viewport} {frame : Frame}

def panelLeft (viewport : Viewport) : ℕ :=
  (viewport.cols - (resolveModalPanelSize viewport.cols viewport.rows).width) / 2

def panelTop (viewport : Viewport) : ℕ :=
  overlayTop viewport.rows (resolveModalPanelSize viewport.cols viewport.rows).height

theorem panel_fits (hcols : 56 ≤ viewport.cols) : 0 < (resolveModalPanelSize viewport.cols viewport.rows).width ∧
    panelLeft viewport + (resolveModalPanelSize viewport.cols viewport.rows).width ≤ viewport.cols := by
  simp only [panelLeft, resolveModalPanelSize]
  omega

/-- A row of the frame with the panel over it. -/
theorem overlayModal_row (hm : state.modal = some modal) (row : ℕ) :
    (overlayModal frame state viewport)[row]? = frame[row]?.map fun base =>
      if panelTop viewport ≤ row then
        ((renderModal modal viewport)[row - panelTop viewport]?).elim base
          (overlayLine (panelLeft viewport) base)
      else base := by
  unfold overlayModal
  rw [hm]
  exact List.getElem?_mapIdx

theorem overlayModal_length (state : OperatorState) (viewport : Viewport) (frame : Frame) :
    (overlayModal frame state viewport).length = frame.length := by
  unfold overlayModal
  cases state.modal with
  | none => rfl
  | some modal => exact List.length_mapIdx

/-- The first row and the last one are uncovered. -/
theorem overlayModal_uncovered (hu : ∀ modal ∈ state.modal, modal.Units) (hrows : 16 ≤ viewport.rows) {row : ℕ}
    (hrow : row = 0 ∨ viewport.rows ≤ row + 1) :
    (overlayModal frame state viewport)[row]? = frame[row]? := by
  cases hm : state.modal with
  | none =>
    unfold overlayModal
    rw [hm]
  | some modal =>
    have hlen := (renderModal_eq (hu modal hm) viewport).2
    rw [overlayModal_row hm]
    cases frame[row]? with
    | none => rfl
    | some base =>
      refine congrArg some ?_
      split_ifs with htop
      · rw [List.getElem?_eq_none]
        · rfl
        · rw [hlen]
          simp only [panelTop, overlayTop, resolveModalPanelSize] at htop ⊢
          omega
      · rfl

end

/-! ## The frame -/

structure OperatorState.Fine (state : OperatorState) : Prop where
  profiles : ∀ profile ∈ state.profiles, profile.Fine
  contacts : ∀ contact ∈ state.contacts, contact.Fine
  selectedContactId : ∀ contact ∈ state.selectedContactId, Tui.Fine contact
  rejections : ∀ rejection ∈ state.rejections, rejection.Fine
  history : ∀ entry ∈ state.history, entry.Fine
  health : Tui.Fine state.health.relayUrl
  modal : ∀ modal ∈ state.modal, modal.Fine
  activity : ∀ line ∈ state.activity, Tui.Fine line.text
  input : ∀ input ∈ state.input, Tui.Fine input.buffer

theorem OperatorState.Fine.active {state : OperatorState} (h : state.Fine) :
    ∀ profile ∈ state.active, profile.Fine := fun profile hp =>
  h.profiles profile (List.mem_of_getElem? hp)

theorem noProfile_fine {relayUrl : JsString} (h : Fine relayUrl) : (noProfile relayUrl).Fine :=
  have hdash : Fine (js "-") := by decide
  ⟨hdash, hdash, h, hdash, hdash, hdash, (fun _ hp => by cases hp), (fun _ hs => by cases hs)⟩

theorem clipped_fine {text : JsString} (h : Fine text) (width : ℕ) :
    ∀ line ∈ [clipLine text width], Fine line :=
  List.forall_mem_singleton.2 (h.clipLine width)

theorem helpLines_fine (state : OperatorState) : ∀ line ∈ helpLines state, Fine line := by
  rw [helpLines, List.forall_mem_append, List.forall_mem_singleton]
  constructor
  · decide
  · unfold helpQuitLine
    split_ifs <;> decide

theorem paneLines_fine {state : OperatorState} (h : state.Fine) (pane : PaneId) (width bodyRows : ℕ) :
    ∀ line ∈ paneLines state pane width bodyRows, Fine line := by
  unfold paneLines
  split_ifs
  · have hlines := helpLines_fine state
    refine fitPane_fine ?_ _ _
    rw [PaneRegions.lines, List.forall_mem_append, List.forall_mem_append, List.forall_mem_singleton]
    refine ⟨⟨?_, fun line hline => ?_⟩, List.forall_mem_nil _⟩
    · exact hlines _ List.mem_cons_self
    · obtain ⟨row, hrow, hline⟩ := List.mem_flatten.1 hline
      obtain ⟨line', hline', rfl⟩ := List.mem_map.1 hrow
      rw [List.mem_singleton.1 hline]
      exact hlines line' (List.mem_of_mem_drop hline')
  · cases pane with
    | profiles =>
      cases hp : state.active with
      | none => exact clipped_fine (by decide) width
      | some profile =>
        exact formatProfilesLines_fine (h.active profile hp) h.contacts h.health _ _
    | mailbox => exact formatMailboxLines_fine _ h.rejections _ _
    | history => exact formatHistoryLines_fine h.history h.selectedContactId _ _
    | rejections =>
      simp only
      split_ifs
      · exact clipped_fine (by decide) width
      · refine fitPane_fine ?_ _ _
        rw [PaneRegions.lines, List.forall_mem_append, List.forall_mem_append,
          List.forall_mem_singleton]
        refine ⟨⟨(fine_decimal _).append (by decide), fun line hline => ?_⟩,
          List.forall_mem_nil _⟩
        obtain ⟨row, hrow, hline⟩ := List.mem_flatten.1 hline
        simp only [buildMailboxSnapshot, List.map_map, List.mem_map, Function.comp] at hrow
        obtain ⟨rejection, hrejection, rfl⟩ := hrow
        rw [List.mem_singleton.1 hline]
        exact Fine.append (by decide) (formatRejectionLine_fine (h.rejections rejection hrejection))
    | health =>
      have hstatus : Fine state.health.status.text := by cases state.health.status <;> decide
      simp only [List.forall_mem_cons]
      refine ⟨(formatHealthLine_fine h.health).clipLine width, fine_nil,
        (Fine.append (by decide) hstatus).clipLine width, List.forall_mem_nil _⟩

section
variable {state : OperatorState}

theorem fine_notice : Fine unauditedNotice := by decide

theorem headerLine_fine (h : state.Fine) : Fine (headerLine state) := by
  have hlabel : Fine ((state.active.map (·.label)).getD (js "no profile")) := by
    cases hp : state.active with
    | none => decide
    | some profile => exact (h.active profile hp).label
  refine (((Fine.append (by decide) hlabel).append (by decide)).append fun u hu => ?_)
  obtain ⟨tab, htab, hu⟩ := List.mem_flatten.1 hu
  obtain ⟨index, hindex, rfl⟩ := List.mem_mapIdx.1 htab
  have hname : ∀ pane : PaneId, Fine (js pane.name) := by
    intro pane
    cases pane <;> decide
  have htext : Fine (utf16Units (decimal (index + 1)) ++ js " " ++ js (paneIds[index]).name) :=
    ((fine_decimal _).append (by decide)).append (hname _)
  simp only at hu
  split_ifs at hu
  · exact (Fine.append (by decide) htext).append (by decide) u hu
  · exact (Fine.append (by decide) htext).append (by decide) u hu

theorem fine_intercalate {separator : JsString} (hs : Fine separator) {texts : List JsString}
    (h : ∀ text ∈ texts, Fine text) : Fine (separator.intercalate texts) := by
  induction texts with
  | nil => exact fine_nil
  | cons text texts ih =>
    rw [List.forall_mem_cons] at h
    cases texts with
    | nil => exact (h.1).append fine_nil
    | cons next texts => exact (h.1).append (hs.append (ih h.2))

theorem fitFooter_fine {entries : List FooterKey} (h : ∀ entry ∈ entries, Fine (js entry.label))
    (cols : ℕ) : Fine (fitFooter entries cols) := by
  refine fine_intercalate (by decide) fun text htext => ?_
  obtain ⟨index, -, rfl⟩ := List.mem_map.1 htext
  cases he : entries[index]? with
  | none => exact fine_nil
  | some entry => exact h entry (List.mem_of_getElem? he)

theorem footerLine_fine (state : OperatorState) (cols : ℕ) : Fine (footerLine state cols) := by
  have hkeys : (∀ entry ∈ footerKeys, Fine (js entry.label)) ∧
      ∀ entry ∈ footerKeysHelpOpen, Fine (js entry.label) := by decide
  have hsubmit : ∀ input : InputState, Fine (submitLabel input) := by
    intro input
    unfold submitLabel
    cases input.field <;> decide
  unfold footerLine
  by_cases hmodal : state.modal.isSome
  · rw [if_pos hmodal]
    decide
  · rw [if_neg hmodal]
    cases state.input with
    | some input => exact (hsubmit input).append (by decide)
    | none => cases state.help with
      | false => exact fitFooter_fine hkeys.1 cols
      | true => exact fitFooter_fine hkeys.2 cols

theorem composeLine_fine {input : InputState} (h : Fine input.buffer) (cols : ℕ) :
    Fine (composeLine input cols) := by
  have hlabel : Fine (js input.field.name ++ js " ▸ ") := by cases input.field <;> decide
  unfold composeLine
  refine (hlabel.append ?_).append ?_
  · split_ifs
    · exact h
    · exact h.join (List.drop_subset _ _)
    · exact h
    · exact h.join (List.drop_subset _ _)
  · split_ifs
    · exact ((((Fine.append (by decide) (fine_decimal _)).append (by decide)).append
        (fine_decimal _)).append (by decide))
    · exact fine_nil

theorem activityLine_fine (h : state.Fine) : Fine (activityLine state) := by
  have htext : Fine ((state.activity.getLast?.map (·.text)).getD (js "no activity yet")) := by
    cases hl : state.activity.getLast? with
    | none => exact (by decide)
    | some line => exact h.activity line (List.mem_of_getLast? hl)
  unfold activityLine
  simp only
  split_ifs
  · exact Fine.append (by decide) htext
  · exact htext

end

/-! ## The frame under the panel -/

section
variable {state : OperatorState} {viewport : Viewport} {frame : Frame}

end

/-! ## The whole frame -/

section
variable {state : OperatorState} {viewport : Viewport}

theorem large_viewport (h : isBelowMinViewport viewport = false) :
    72 ≤ viewport.cols ∧ 16 ≤ viewport.rows := by
  rw [isBelowMinViewport, Bool.or_eq_false_iff, decide_eq_false_iff_not, decide_eq_false_iff_not] at h
  exact ⟨Nat.not_lt.1 h.1, Nat.not_lt.1 h.2⟩

/-- The rule under the header. -/
def headRule (cols : ℕ) : JsString := (List.replicate cols (js "─")).flatten

/-- The lines under the panel, around those of the pane. -/
def baseLines (state : OperatorState) (cols : ℕ) (body : List JsString) : List JsString :=
  [unauditedNotice, headerLine state, headRule cols] ++ body ++ [activityLine state, footerLine state cols]

/-- **A frame that is not too small**: five lines around the pane, and the panel over them. -/
theorem renderFrame_base (hbig : isBelowMinViewport viewport = false) (state : OperatorState) :
    ∃ body, body.length + 5 = viewport.rows ∧ (state.Fine → ∀ line ∈ body, Fine line) ∧
      renderFrame state viewport =
        overlayModal ((baseLines state viewport.cols body).map (fitLine · viewport.cols)) state
          viewport := by
  obtain ⟨hcols, hrows⟩ := large_viewport hbig
  have hmaxc : max 1 viewport.cols = viewport.cols := by omega
  have hmaxr : max 1 viewport.rows = viewport.rows := by omega
  have hhead : min 3 viewport.rows = 3 := by omega
  have htail : min 2 (viewport.rows - 3) = 2 := by omega
  have hpos : 5 < viewport.rows := by omega
  cases hi : state.input with
  | none =>
    refine ⟨exactly (viewport.rows - 5) (paneLines state state.pane viewport.cols (viewport.rows - 5)),
      by rw [exactly_length]; omega, fun hf => exactly_fine (paneLines_fine hf _ _ _) _, ?_⟩
    unfold renderFrame
    simp [hmaxc, hmaxr, hbig, hhead, htail, hi, baseLines, headRule, Nat.sub_sub]
  | some input =>
    refine ⟨exactly (viewport.rows - 6) (paneLines state state.pane viewport.cols (viewport.rows - 6)) ++
      [composeLine input viewport.cols], ?_, fun hf => ?_, ?_⟩
    · rw [List.length_append, exactly_length, List.length_singleton]
      omega
    · rw [List.forall_mem_append, List.forall_mem_singleton]
      exact ⟨exactly_fine (paneLines_fine hf _ _ _) _, composeLine_fine (hf.input input hi) _⟩
    · unfold renderFrame
      simp [hmaxc, hmaxr, hbig, hhead, htail, hi, baseLines, headRule, Nat.sub_sub, hpos]

theorem headRule_eq (cols : ℕ) : headRule cols = List.replicate cols 0x2500 := by
  have hdash : js "─" = List.replicate 1 0x2500 := by decide
  rw [headRule, hdash, List.flatten_replicate_replicate, Nat.mul_one]

theorem baseLines_fine (h : state.Fine) {body : List JsString} (hbody : ∀ line ∈ body, Fine line)
    (cols : ℕ) : ∀ line ∈ baseLines state cols body, Fine line := by
  have hrule : Fine (headRule cols) := by
    rw [headRule_eq]
    intro u hu
    rw [List.eq_of_mem_replicate hu]
    decide
  simp only [baseLines, List.forall_mem_append, List.forall_mem_cons]
  exact ⟨⟨⟨fine_notice, headerLine_fine h, hrule, List.forall_mem_nil _⟩, hbody⟩,
    activityLine_fine h, footerLine_fine state cols, List.forall_mem_nil _⟩

theorem map_fitLine_fills {lines : List JsString} (h : ∀ line ∈ lines, Units line)
    (hlen : lines.length = viewport.rows) : Fills (lines.map (fitLine · viewport.cols)) viewport := by
  refine ⟨by rw [List.length_map, hlen], fun line hline => ?_⟩
  obtain ⟨text, htext, rfl⟩ := List.mem_map.1 hline
  exact ⟨(h text htext).padOrClip _, padOrClip_width (h text htext) _⟩

theorem baseLines_length (state : OperatorState) (cols : ℕ) (body : List JsString) :
    (baseLines state cols body).length = body.length + 5 := by
  simp only [baseLines, List.length_append, List.length_cons, List.length_nil]
  omega

/-- A line that is not longer than the row shows in full. -/
theorem shows_fitLine {frame : Frame} {row cols : ℕ} {text : JsString} (h : Units text)
    (hrow : frame[row]? = some (fitLine text cols)) (hlen : (codePoints text).length ≤ cols) :
    Shows frame row 0 (codePoints text) := by
  refine ⟨_, hrow, ?_⟩
  rw [List.drop_zero, fitLine, codePoints_padOrClip h, List.take_of_length_le hlen]
  exact List.prefix_append _ _

end

/-! ## Every viewport -/

section
variable {state : OperatorState} {viewport : Viewport}

theorem notice_points : (codePoints unauditedNotice).length = 62 ∧
    ∀ p ∈ codePoints unauditedNotice, isSurrogate p = false ∧ p < 0x110000 := by decide

end

/-! ## The identifiers on the panel -/

section
variable {modal : TrustModal} {viewport : Viewport} {field : String × Option JsString} {value : JsString} {j : ℕ}

theorem getElem?_pairs {α β : Type*} (f g : α → β) : ∀ (items : List α) (j : ℕ),
    (items.flatMap fun item => [f item, g item])[2 * j + 1]? = items[j]?.map g
  | [], _ => rfl
  | _ :: _, 0 => rfl
  | _ :: items, j + 1 => getElem?_pairs f g items j

/-- The line under an identifier's name shows its value, after two blanks. -/
theorem valueLine_shows (h : Units value) {inner : ℕ} (hlen : (codePoints value).length + 2 ≤ inner) :
    codePoints value <+: (codePoints (boxed inner (valueLine (some value)))).drop 4 := by
  by_cases hv : value = []
  · rw [hv]
    exact List.nil_prefix
  have hblanks : js "  " = [32, 32] := by decide
  have hpoints : codePoints (js "  " ++ value) = 32 :: 32 :: codePoints value := by
    rw [hblanks, List.cons_append, List.singleton_append, codePoints_cons (by decide),
      codePoints_cons (by decide)]
  have hfit : (codePoints (js "  " ++ value)).length ≤ inner := by
    rw [hpoints]
    exact hlen
  rw [valueLine, if_neg hv, codePoints_boxed, clipLine, if_pos hfit,
    codePoints_padOrClip ((js_units _).append h), List.take_of_length_le hfit, hpoints]
  rw [List.append_assoc]
  exact List.prefix_append _ _

/-- **An identifier stands in full in one row of the panel.** -/
theorem renderModal_value (h : modal.Units) (hcols : 72 ≤ viewport.cols)
    (hf : (trustIdentifierFields modal.identifiers)[j]? = some field) (hv : field.2 = some value)
    (hlen : (codePoints value).length ≤ 62) :
    ∃ line, (renderModal modal viewport)[2 * j + 5]? = some line ∧
      codePoints value <+: (codePoints line).drop 4 := by
  obtain ⟨hj, -⟩ := List.getElem?_eq_some_iff.1 hf
  have hj : j < 4 := hj
  have hunits : Units value := h.identifiers field (List.mem_of_getElem? hf) value hv
  have hbody : (modalBody modal)[2 * j + 3]? = some (valueLine (some value)) := by
    have hpair := getElem?_pairs (fun field : String × Option JsString => js field.1 ++ js ":")
      (fun field => valueLine field.2) (trustIdentifierFields modal.identifiers) j
    rw [hf, Option.map_some, hv] at hpair
    exact hpair
  have hroom : 2 * j + 3 < modalBodyRows (resolveModalPanelSize viewport.cols viewport.rows).height := by
    simp only [modalBodyRows, resolveModalPanelSize]
    omega
  have hexact := getElem?_exactly hroom hbody
  have hinner : (codePoints value).length + 2 ≤
      resolveModalInnerWidth (resolveModalPanelSize viewport.cols viewport.rows).width := by
    simp only [resolveModalInnerWidth, resolveModalPanelSize]
    omega
  refine ⟨_, ?_, valueLine_shows hunits hinner⟩
  rw [(renderModal_eq h viewport).1]
  simp only [panelLines, List.cons_append, List.nil_append, List.getElem?_cons_succ]
  rw [List.getElem?_append_left (by rwa [List.length_map, exactly_length]), List.getElem?_map, hexact]
  rfl

/-- The row of an identifier in the frame, under the panel's first row and over its last one. -/
theorem identifier_row (hbig : isBelowMinViewport viewport = false) (hj : j < 4) :
    0 < panelTop viewport + (2 * j + 5) ∧ panelTop viewport + (2 * j + 5) + 1 < viewport.rows := by
  obtain ⟨-, hrows⟩ := large_viewport hbig
  simp only [panelTop, overlayTop, resolveModalPanelSize]
  omega

/-- Whether every identifier of a modal stands in full in one row, which is neither the first nor
the last one. -/
def ShowsIdentifiers (frame : Frame) (modal : TrustModal) (viewport : Viewport) : Prop :=
  ∀ field ∈ trustIdentifierFields modal.identifiers, ∀ value ∈ field.2, ∃ row column,
    0 < row ∧ row + 1 < viewport.rows ∧ column + (codePoints value).length ≤ viewport.cols ∧
    Shows frame row column (codePoints value)

theorem overlayModal_shows {state : OperatorState} {frame : Frame}
    (hbig : isBelowMinViewport viewport = false) (hm : state.modal = some modal) (hunits : modal.Units)
    (hlen : ∀ field ∈ trustIdentifierFields modal.identifiers, ∀ value ∈ field.2,
      (codePoints value).length ≤ 62)
    (h : Fills frame viewport) :
    ShowsIdentifiers (overlayModal frame state viewport) modal viewport := by
  intro field hfield value hv
  obtain ⟨hcols, -⟩ := large_viewport hbig
  obtain ⟨j, hj⟩ := List.mem_iff_getElem?.1 hfield
  obtain ⟨hj4, -⟩ := List.getElem?_eq_some_iff.1 hj
  obtain ⟨hfirst, hlast⟩ := identifier_row hbig hj4
  obtain ⟨line, hline, hshown⟩ := renderModal_value hunits hcols hj hv (hlen field hfield value hv)
  obtain ⟨base, hbase⟩ : ∃ base, frame[panelTop viewport + (2 * j + 5)]? = some base :=
    ⟨_, List.getElem?_eq_getElem (by rw [h.1]; omega)⟩
  obtain ⟨hbaseUnits, hbaseWidth⟩ := h.2 base (List.mem_of_getElem? hbase)
  have hframed := renderModal_framed hunits viewport line (List.mem_of_getElem? hline)
  obtain ⟨hpos, hfit⟩ : _ ∧ panelLeft viewport + _ ≤ viewport.cols := panel_fits (by omega)
  have hover := codePoints_overlayLine hbaseUnits hframed hpos (hfit.trans hbaseWidth.ge)
  refine ⟨panelTop viewport + (2 * j + 5), panelLeft viewport + 4, hfirst, hlast, ?_,
    overlayLine (panelLeft viewport) base line, ?_, ?_⟩
  · have hshort := hlen field hfield value hv
    have hwide : 68 ≤ (resolveModalPanelSize viewport.cols viewport.rows).width := by
      simp only [resolveModalPanelSize]
      omega
    omega
  · rw [overlayModal_row hm, hbase, Option.map_some, if_pos (Nat.le_add_right _ _),
      Nat.add_sub_cancel_left, hline]
    rfl
  · have hleft : ((codePoints base).take (panelLeft viewport)).length = panelLeft viewport := by
      rw [List.length_take]
      omega
    have hwide : 4 ≤ (codePoints line).length := by
      rw [hframed.width]
      exact le_trans (by omega) (le_max_left 56 _)
    rw [hover, List.append_assoc, ← List.drop_drop, List.drop_left' hleft,
      List.drop_append_of_le_length hwide]
    exact hshown.trans (List.prefix_append _ _)

/-- **The trust modal shows what is trusted**: over whatever frame, each identifier in full, and
neither the first row nor the last one is covered. -/
theorem trust_modal_geometry {state : OperatorState} (hbig : isBelowMinViewport viewport = false)
    (hm : state.modal = some modal) (hunits : modal.Units)
    (hlen : ∀ field ∈ trustIdentifierFields modal.identifiers, ∀ value ∈ field.2,
      (codePoints value).length ≤ 62) :
    (∀ frame, Fills frame viewport →
      ShowsIdentifiers (overlayModal frame state viewport) modal viewport ∧
      (overlayModal frame state viewport)[0]? = frame[0]? ∧
      (overlayModal frame state viewport)[viewport.rows - 1]? = frame[viewport.rows - 1]?) ∧
    (renderFrame state viewport).length = viewport.rows ∧
    Shows (renderFrame state viewport) 0 0 (codePoints unauditedNotice) ∧
    Shows (renderFrame state viewport) (viewport.rows - 1) 0
      (codePoints (js "[y] trust  [n] reject  [esc] cancel  [ctrl-c] quit")) ∧
    (state.Fine → ShowsIdentifiers (renderFrame state viewport) modal viewport) := by
  obtain ⟨hcols, hrows⟩ := large_viewport hbig
  have hmodal : ∀ asked ∈ state.modal, asked.Units := by
    rintro asked hasked
    rw [hm] at hasked
    exact Option.some.inj hasked ▸ hunits
  obtain ⟨body, hbody, hfine, hframe⟩ := renderFrame_base hbig state
  have hnotice : (codePoints unauditedNotice).length ≤ viewport.cols := by
    rw [notice_points.1]
    omega
  have hfooter : footerLine state viewport.cols =
      js "[y] trust  [n] reject  [esc] cancel  [ctrl-c] quit" := by
    rw [footerLine, hm]
    rfl
  have hhints : (codePoints (js "[y] trust  [n] reject  [esc] cancel  [ctrl-c] quit")).length ≤
      viewport.cols := by
    have hn : (codePoints (js "[y] trust  [n] reject  [esc] cancel  [ctrl-c] quit")).length ≤ 72 := by
      decide
    omega
  refine ⟨fun frame hfills => ⟨overlayModal_shows hbig hm hunits hlen hfills,
    overlayModal_uncovered hmodal hrows (Or.inl rfl),
    overlayModal_uncovered hmodal hrows (Or.inr (by omega))⟩, ?_, ?_, ?_, fun hf => ?_⟩
  · rw [hframe, overlayModal_length, List.length_map, baseLines_length, hbody]
  · refine shows_fitLine fine_notice.units ?_ hnotice
    rw [hframe, overlayModal_uncovered hmodal hrows (Or.inl rfl)]
    rfl
  · refine shows_fitLine (js_units _) ?_ hhints
    rw [hframe, overlayModal_uncovered hmodal hrows (Or.inr (by omega)), List.getElem?_map, ← hfooter,
      baseLines, List.getElem?_append_right (by simp; omega)]
    have hlast : viewport.rows - 1 - ([unauditedNotice, headerLine state, headRule viewport.cols] ++
        body).length = 1 := by
      rw [List.length_append, List.length_cons, List.length_cons, List.length_singleton]
      omega
    rw [hlast]
    rfl
  · rw [hframe]
    refine overlayModal_shows hbig hm hunits hlen (map_fitLine_fills (fun line hline => ?_) ?_)
    · exact (baseLines_fine hf (hfine hf) _ line hline).units
    · rw [baseLines_length, hbody]

/-- A modal whose identifiers are as long as the smallest viewport shows. -/
def widestModal : TrustModal where
  cardPath := js "/cards/bob.json"
  profileLabel := js "alice"
  identifiers := ⟨some (List.replicate 62 0x41), some (List.replicate 62 0x42),
    some (List.replicate 62 0x43), some (List.replicate 62 0x44)⟩
  renderedAt := none

theorem trust_modal_geometry_widest :
    ShowsIdentifiers (overlayModal (List.replicate 16 (List.replicate 72 0x23))
      { createInitialState [] with modal := some widestModal } minViewport) widestModal minViewport := by
  have hunits : widestModal.Units := by
    constructor
    · exact js_units _
    · exact js_units _
    · simp only [trustIdentifierFields, widestModal, List.forall_mem_cons, Option.mem_def,
        Option.some.injEq, forall_eq', Tui.Units]
      have hletters : ∀ u < 0x10000, ∀ v ∈ List.replicate 62 u, v < 0x10000 := fun u hu =>
        List.forall_mem_replicate.2 (Or.inr hu)
      exact ⟨hletters _ (by decide), hletters _ (by decide), hletters _ (by decide),
        hletters _ (by decide), List.forall_mem_nil _⟩
  have hlen : ∀ field ∈ trustIdentifierFields widestModal.identifiers, ∀ value ∈ field.2,
      (codePoints value).length ≤ 62 := by
    decide
  refine ((trust_modal_geometry (by decide) rfl hunits hlen).1 _ ⟨List.length_replicate, ?_⟩).1
  intro line hline
  rw [List.eq_of_mem_replicate hline]
  exact ⟨List.forall_mem_replicate.2 (Or.inr (by decide)), by decide⟩

end

end Echolet.Tui
