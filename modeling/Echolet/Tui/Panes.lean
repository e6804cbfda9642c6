/-
  The lines of the panes (`profiles-pane.ts`, `mailbox-pane.ts`, `history-pane.ts`).

  A pane is a snapshot of part of the state and the lines made of it, which `fitPane` fits into
  the rows there are.

  * `fitPane_fine`: a pane shows nothing but clipped lines of its own and the marker;
  * `formatHistoryLines_fine`, `formatMailboxLines_fine`, `formatProfilesLines_fine`: the lines
    made of fine texts are fine.
-/
import Echolet.Tui.PaneFit

namespace Echolet.Tui

/-! ## History -/

structure HistoryLine where
  /-- `sequence  direction  messageId` -/
  metaLine : JsString
  body : JsString

structure HistorySnapshot where
  contactIdentityId : Option JsString
  lines : List HistoryLine
  withheldCount : ℕ

def bodyIndent : JsString := js "    "

def maxBodyRows : ℕ := 4

/-- The rows of a message, hard-wrapped and indented; the last one says that there is more. -/
def bodyRows (body : JsString) (width : ℕ) : List JsString :=
  let room := max 1 (width - bodyIndent.length)
  let wrapped := slices room (codePoints body)
  if wrapped.length ≤ maxBodyRows then wrapped.map fun row => bodyIndent ++ join row
  else
    let last := join ((wrapped[maxBodyRows - 1]?.getD []).take (room - 1)) ++ js "…"
    ((wrapped.take (maxBodyRows - 1)).map join ++ [last]).map (bodyIndent ++ ·)

def Direction.text : Direction → JsString
  | inbound => js "inbound"
  | outbound => js "outbound"

def buildHistorySnapshot (entries : List HistoryEntryView) (selectedContactId : Option JsString) :
    HistorySnapshot :=
  match selectedContactId with
  | none => ⟨none, [], entries.length⟩
  | some contact =>
    let selected := entries.filter fun entry => entry.contactIdentityId = contact
    let lines := selected.map fun entry =>
      ⟨utf16Units entry.sequence.text ++ js "  " ++ entry.direction.text ++ js "  " ++ entry.messageId,
        entry.plaintext⟩
    ⟨some contact, lines, entries.length - selected.length⟩

def formatHistoryLines (snapshot : HistorySnapshot) (width : ℕ) (limit : Option ℕ) : List JsString :=
  let head := match snapshot.contactIdentityId with
    | none => [js "no contact selected — history is shown only on an explicit request"]
    | some contact => (js "history with " ++ contact) ::
        if snapshot.lines = [] then [js "  no entries for this contact"] else []
  let rows := match snapshot.contactIdentityId with
    | none => []
    | some _ => snapshot.lines.map fun entry =>
        (js "  " ++ entry.metaLine) :: bodyRows entry.body width
  let tail := if 0 < snapshot.withheldCount then
      [[], utf16Units (decimal snapshot.withheldCount) ++ js " entries withheld (other contacts)"]
    else []
  fitPane ⟨head, rows, tail, .tail⟩ limit width

/-! ## Mailbox -/

structure MailboxSnapshot where
  rows : List (String × JsString)
  rejectionLines : List JsString

def countedValue (count : Option Number) (unit absent : String) : JsString :=
  match count with
  | none => js absent
  | some count => utf16Units count.text ++ js " " ++ js unit

def formatRejectionLine (rejection : RejectionView) : JsString :=
  rejection.envelopeId ++ js "  " ++ rejection.code

def buildMailboxSnapshot (mailbox : MailboxView) (rejections : List RejectionView) :
    MailboxSnapshot where
  rows := [
    ("outbox", countedValue mailbox.outboxPending "pending" "no command reports an outbox count"),
    ("inbox", countedValue mailbox.inboxReceived "received by the last poll"
      "no poll has reported yet"),
    ("more", if mailbox.more then js "yes — poll again" else js "no"),
    ("last poll", formatInstant mailbox.lastPolledAtMs)]
  rejectionLines := rejections.map formatRejectionLine

def formatMailboxLines (snapshot : MailboxSnapshot) (width : ℕ) (limit : Option ℕ) : List JsString :=
  let count := snapshot.rejectionLines.length
  let head := snapshot.rows.map (fun row => labelled row.1 row.2) ++
    if 0 < count then
      [[], labelled "rejected" (utf16Units (decimal count) ++ js " permanently unacceptable")]
    else []
  fitPane ⟨head, snapshot.rejectionLines.map fun line => [js "  " ++ line], [], .tail⟩ limit width

/-! ## Profiles -/

structure ProfilesSnapshot where
  rows : List (String × JsString)
  contactLines : List JsString
  rosterDiscrepancy : Option JsString
  healthLine : JsString
  /-- The registration checklist, which takes the place of the rows. -/
  setupLines : Option (List JsString)

def setupTitles : List (String × String) :=
  [("store key", ""), ("create profile", "init"), ("publish", "relay publish"),
    ("export card", "contact export"), ("import card", "contact import"), ("confirm", "doctor")]

def stepGutter : JsString := js "        "

def storeKeyRecipe (storeKeyEnv : JsString) : JsString :=
  js "export " ++ storeKeyEnv ++
    js "=\"$(head -c 32 /dev/urandom | base64 | tr '+/' '-_' | tr -d '=')\""

def stepStatus : Option StepOutcome → JsString
  | none | some .pending => js "pending"
  | some .ok => js "ok"
  | some (.failed code exitCode) =>
    code ++ js " (exit " ++ utf16Units (decimal exitCode) ++ js ")"

/-- A failed export may have found a file in its way. -/
def stepHint (step : ℕ) : Option StepOutcome → Option JsString
  | some (.failed _ exitCode) =>
    if step = 3 ∧ exitCode = 5 then
      some (js "a file at that path already exists — `contact export` never overwrites one")
    else none
  | _ => none

/-- The lines of one step. -/
def setupStepLines (profile : ProfileView) (step : ℕ) : List JsString :=
  let (title, command) := setupTitles[step]?.getD ("", "")
  let start := js "step " ++ utf16Units (decimal step) ++ js "  " ++ padOrClip (js title) 16
  let indent := stepGutter ++ padOrClip [] 16
  if step = 0 then
    if profile.storeKeyPresent = some true then [start ++ padOrClip [] 16 ++ js "ok"]
    else [start ++ profile.storeKeyEnv ++ js " is not set in this console's environment",
      indent ++ js "run this in your shell, then restart the console:",
      indent ++ js "  " ++ storeKeyRecipe profile.storeKeyEnv]
  else
    let outcome := (profile.setup.getD [])[step]?
    (start ++ padOrClip (js command) 16 ++ stepStatus outcome) ::
      ((stepHint step outcome).map (indent ++ ·)).toList

def buildSetupLines (profile : ProfileView) : List JsString :=
  js "registration — [enter] starts the next step" ::
    (List.range setupSteps).flatMap (setupStepLines profile)

def setupIsComplete (profile : ProfileView) : Bool :=
  match profile.setup with
  | none => false
  | some setup => decide (profile.storeKeyPresent = some true) &&
      ((List.range setupSteps).drop 1).all fun step => setup[step]? == some .ok

def profileIsInSetup (profile : ProfileView) : Bool :=
  profile.setup.isSome && !setupIsComplete profile

def formatHealthLine (health : RelayHealthView) : JsString :=
  let relay := js "relay " ++ health.relayUrl
  match health.status with
  | .healthy =>
    let uptime := health.uptimeMs.elim [] fun uptime =>
      js "uptime " ++ utf16Units (decimal uptime) ++ js " ms, "
    relay ++ js " healthy (" ++ uptime ++ js "checked " ++ formatInstant health.checkedAtMs ++ js ")"
  | .unreachable => relay ++ js " unreachable (checked " ++ formatInstant health.checkedAtMs ++ js ")"
  | .unknown => relay ++ js " not yet checked"

/-- How many contacts `doctor` counts that this session has not seen. -/
def rosterDiscrepancy (profile : ProfileView) (contacts : List ContactView) : Option JsString :=
  -- the double that is left of the subtraction
  ((profile.contactCount.add ⟨true, contacts.length⟩).filter fun unseen => 0 < unseen.value).map
    fun unseen => js "+" ++ utf16Units unseen.text ++
      js " pinned by doctor but not seen by this session (no CLI command lists contacts)"

def buildProfilesSnapshot (profile : ProfileView) (contacts : List ContactView)
    (health : RelayHealthView) : ProfilesSnapshot where
  rows := [("profile", profile.label), ("relay", profile.relayUrl),
    ("store-key-env", profile.storeKeyEnv), ("identity", profile.identityId),
    ("device", profile.deviceId),
    ("published", if profile.published then js "yes, by this session"
      else js "not observed by this session"),
    ("directory", profile.profileDir)]
  contactLines := contacts.map fun contact => contact.identityId ++ js "  " ++ contact.deviceId
  rosterDiscrepancy := rosterDiscrepancy profile contacts
  healthLine := formatHealthLine health
  setupLines := if profileIsInSetup profile then some (buildSetupLines profile) else none

def formatProfilesLines (snapshot : ProfilesSnapshot) (width : ℕ) (limit : Option ℕ) :
    List JsString :=
  match snapshot.setupLines with
  | some lines => fitPane ⟨lines, [], [[], snapshot.healthLine], .head⟩ limit width
  | none =>
    let head := snapshot.rows.map (fun row => labelled row.1 row.2) ++
      [[], labelled "contacts" (utf16Units (decimal snapshot.contactLines.length) ++
        js " observed this session")] ++ snapshot.rosterDiscrepancy.toList
    fitPane ⟨head, snapshot.contactLines.map fun contact => [js "  " ++ contact],
      [[], snapshot.healthLine], .head⟩ limit width

/-! ## Fine lines -/

theorem keepItems_subset (rows : List (List JsString)) (keep : KeepEnd) (room : ℕ) (budget : ℤ) :
    (keepItems rows keep room budget).1 ⊆ rows := by
  have hloop : ∀ rows, (keepLoop budget rows [] 0).1 ⊆ rows := by
    intro rows
    obtain ⟨k, -, heq, -⟩ := keepLoop_spec budget rows [] 0
    rw [heq]
    exact List.take_subset k rows
  unfold keepItems
  split_ifs
  · exact List.nil_subset _
  · cases keep with
    | head => exact hloop rows
    | tail =>
      intro row hrow
      exact List.mem_reverse.1 (hloop _ (List.mem_reverse.1 hrow))

theorem fine_marker (hidden : ℕ) : Fine (truncationMarker hidden) :=
  (Fine.append (by decide) (fine_decimal hidden)).append (by decide)

/-- **A pane shows its own lines**, clipped, and the marker. -/
theorem fitPane_fine {regions : PaneRegions} (h : ∀ line ∈ regions.lines, Fine line)
    (limit : Option ℕ) (width : ℕ) : ∀ line ∈ fitPane regions limit width, Fine line := by
  have hclip : ∀ lines : List JsString, (∀ line ∈ lines, Fine line) →
      ∀ line ∈ lines.map (clipLine · width), Fine line := by
    intro lines hlines clipped hclipped
    obtain ⟨line, hline, rfl⟩ := List.mem_map.1 hclipped
    exact (hlines line hline).clipLine width
  obtain ⟨⟨hhead, hrows⟩, htail⟩ := (List.forall_mem_append.trans
    (and_congr_left fun _ => List.forall_mem_append)).1 h
  unfold fitPane
  cases limit with
  | none => exact hclip _ h
  | some cap =>
    simp only
    split_ifs
    · exact hclip _ h
    · exact hclip _ fun line hline => h line (List.mem_of_mem_take hline)
    · refine hclip _ fun line hline => ?_
      have hline := List.mem_of_mem_take hline
      simp only [List.mem_append, List.mem_cons] at hline
      rcases hline with (hline | hline) | rfl | hline
      · exact hhead line (List.mem_of_mem_take hline)
      · obtain ⟨row, hrow, hline⟩ := List.mem_flatten.1 hline
        exact hrows line (List.mem_flatten.2 ⟨row, keepItems_subset _ _ _ _ hrow, hline⟩)
      · exact fine_marker _
      · exact htail line (List.mem_of_mem_drop hline)

/-! ## Fine parts of the state -/

def StepOutcome.Fine : StepOutcome → Prop
  | failed code _ => Tui.Fine code
  | _ => True

structure ProfileView.Fine (profile : ProfileView) : Prop where
  label : Tui.Fine profile.label
  profileDir : Tui.Fine profile.profileDir
  relayUrl : Tui.Fine profile.relayUrl
  storeKeyEnv : Tui.Fine profile.storeKeyEnv
  identityId : Tui.Fine profile.identityId
  deviceId : Tui.Fine profile.deviceId
  contactCardPath : ∀ path ∈ profile.contactCardPath, Tui.Fine path
  setup : ∀ setup ∈ profile.setup, ∀ outcome ∈ setup, outcome.Fine

structure ContactView.Fine (contact : ContactView) : Prop where
  identityId : Tui.Fine contact.identityId
  deviceId : Tui.Fine contact.deviceId

structure RejectionView.Fine (rejection : RejectionView) : Prop where
  envelopeId : Tui.Fine rejection.envelopeId
  code : Tui.Fine rejection.code

structure HistoryEntryView.Fine (entry : HistoryEntryView) : Prop where
  contactIdentityId : Tui.Fine entry.contactIdentityId
  messageId : Tui.Fine entry.messageId
  plaintext : Tui.Fine entry.plaintext

/-! ## Fine panes -/

theorem slices_subset {n : ℕ} {points piece : List ℕ} (h : piece ∈ slices n points) :
    piece ⊆ points := by
  obtain ⟨k, -, rfl⟩ := List.mem_map.1 h
  exact fun p hp => List.mem_of_mem_drop (List.mem_of_mem_take hp)

theorem bodyRows_fine {body : JsString} (h : Fine body) (width : ℕ) :
    ∀ row ∈ bodyRows body width, Fine row := by
  have hindent : Fine bodyIndent := by decide
  have hpiece : ∀ {n : ℕ} {piece points : List ℕ}, piece ∈ slices n (codePoints body) →
      points ⊆ piece → Fine (join points) := fun hp hs => h.join (List.Subset.trans hs (slices_subset hp))
  unfold bodyRows
  simp only
  split_ifs
  · intro row hrow
    obtain ⟨piece, hp, rfl⟩ := List.mem_map.1 hrow
    exact hindent.append (hpiece hp (List.Subset.refl _))
  · intro row hrow
    obtain ⟨line, hline, rfl⟩ := List.mem_map.1 hrow
    refine hindent.append ?_
    rcases List.mem_append.1 hline with hline | hline
    · obtain ⟨piece, hp, rfl⟩ := List.mem_map.1 hline
      exact hpiece (List.mem_of_mem_take hp) (List.Subset.refl _)
    · rw [List.mem_singleton.1 hline]
      refine Fine.append ?_ (by decide)
      cases hlast : (slices (max 1 (width - bodyIndent.length)) (codePoints body))[maxBodyRows - 1]? with
      | none => simpa [join] using fine_nil
      | some piece =>
        exact hpiece (List.mem_of_getElem? hlast) (List.take_subset _ _)

theorem formatHistoryLines_fine {entries : List HistoryEntryView} {selected : Option JsString}
    (he : ∀ entry ∈ entries, entry.Fine) (hs : ∀ contact ∈ selected, Fine contact) (width : ℕ)
    (limit : Option ℕ) : ∀ line ∈ formatHistoryLines (buildHistorySnapshot entries selected) width limit,
      Fine line := by
  have htail : ∀ n : ℕ, ∀ line ∈ (if 0 < n then
      [[], utf16Units (decimal n) ++ js " entries withheld (other contacts)"] else []), Fine line := by
    intro n
    split_ifs
    · rw [List.forall_mem_cons, List.forall_mem_singleton]
      exact ⟨fine_nil, (fine_decimal n).append (by decide)⟩
    · exact List.forall_mem_nil _
  refine fitPane_fine ?_ limit width
  cases selected with
  | none =>
    rw [PaneRegions.lines, List.forall_mem_append, List.forall_mem_append]
    refine ⟨⟨List.forall_mem_singleton.2 ?_, List.forall_mem_nil _⟩, htail _⟩
    decide
  | some contact =>
    have hcontact := hs contact rfl
    rw [PaneRegions.lines, List.forall_mem_append, List.forall_mem_append]
    refine ⟨⟨?_, ?_⟩, htail _⟩
    · refine List.forall_mem_cons.2 ⟨Fine.append (by decide) hcontact, ?_⟩
      split_ifs
      · rw [List.forall_mem_singleton]
        decide
      · exact List.forall_mem_nil _
    · intro line hline
      obtain ⟨row, hrow, hline⟩ := List.mem_flatten.1 hline
      simp only [buildHistorySnapshot, List.map_map, List.mem_map, Function.comp] at hrow
      obtain ⟨entry, hentry, rfl⟩ := hrow
      have hfine := he entry (List.mem_of_mem_filter hentry)
      rcases List.mem_cons.1 hline with rfl | hline
      · have hdirection : Fine entry.direction.text := by cases entry.direction <;> decide
        exact Fine.append (by decide) ((((fine_number _).append (by decide)).append
          hdirection).append (by decide) |>.append hfine.messageId)
      · exact bodyRows_fine hfine.plaintext width line hline

theorem formatRejectionLine_fine {rejection : RejectionView} (h : rejection.Fine) :
    Fine (formatRejectionLine rejection) := (h.envelopeId.append (by decide)).append h.code

theorem formatMailboxLines_fine (mailbox : MailboxView) {rejections : List RejectionView}
    (h : ∀ rejection ∈ rejections, rejection.Fine) (width : ℕ) (limit : Option ℕ) :
    ∀ line ∈ formatMailboxLines (buildMailboxSnapshot mailbox rejections) width limit, Fine line := by
  have hcounted : ∀ (count : Option Number) {unit absent : String}, Fine (js unit) →
      Fine (js absent) → Fine (countedValue count unit absent) := by
    intro count unit absent hunit habsent
    cases count with
    | none => exact habsent
    | some count => exact ((fine_number count).append (by decide)).append hunit
  refine fitPane_fine ?_ limit width
  rw [PaneRegions.lines, List.forall_mem_append, List.forall_mem_append]
  refine ⟨⟨?_, ?_⟩, List.forall_mem_nil _⟩
  · rw [List.forall_mem_append]
    constructor
    · simp only [buildMailboxSnapshot, List.map_cons, List.map_nil, List.forall_mem_cons]
      refine ⟨.labelled (by decide) (hcounted _ (by decide) (by decide)),
        .labelled (by decide) (hcounted _ (by decide) (by decide)),
        .labelled (by decide) ?_, .labelled (by decide) (fine_instant _), List.forall_mem_nil _⟩
      split_ifs <;> decide
    · split_ifs
      · rw [List.forall_mem_cons, List.forall_mem_singleton]
        exact ⟨fine_nil, .labelled (by decide) ((fine_decimal _).append (by decide))⟩
      · exact List.forall_mem_nil _
  · intro line hline
    obtain ⟨row, hrow, hline⟩ := List.mem_flatten.1 hline
    simp only [buildMailboxSnapshot, List.map_map, List.mem_map, Function.comp] at hrow
    obtain ⟨rejection, hrejection, rfl⟩ := hrow
    rw [List.mem_singleton] at hline
    rw [hline]
    exact Fine.append (by decide) (formatRejectionLine_fine (h rejection hrejection))

theorem stepStatus_fine {outcome : Option StepOutcome} (h : ∀ o ∈ outcome, o.Fine) :
    Fine (stepStatus outcome) := by
  rcases outcome with - | (- | - | ⟨code, exitCode⟩)
  · decide
  · decide
  · decide
  · exact (((h _ rfl : Fine code).append (by decide)).append (fine_decimal exitCode)).append
      (by decide)

theorem stepHint_fine (step : ℕ) (outcome : Option StepOutcome) :
    ∀ hint ∈ stepHint step outcome, Fine hint := by
  rcases outcome with - | (- | - | ⟨code, exitCode⟩)
  · exact fun hint hh => by cases hh
  · exact fun hint hh => by cases hh
  · exact fun hint hh => by cases hh
  · simp only [stepHint]
    split_ifs
    · rintro hint ⟨⟩
      decide
    · exact fun hint hh => by cases hh

theorem setupStepLines_fine {profile : ProfileView} (h : profile.Fine) {step : ℕ}
    (hstep : step < setupSteps) : ∀ line ∈ setupStepLines profile step, Fine line := by
  have htitle : ∀ step < setupSteps, Fine (js (setupTitles[step]?.getD ("", "")).1) ∧
      Fine (js (setupTitles[step]?.getD ("", "")).2) := by decide
  have hblank : Fine (padOrClip [] 16) := fine_nil.padOrClip 16
  have hstart : Fine (js "step " ++ utf16Units (decimal step) ++ js "  " ++
      padOrClip (js (setupTitles[step]?.getD ("", "")).1) 16) :=
    ((Fine.append (by decide) (fine_decimal step)).append (by decide)).append
      ((htitle step hstep).1.padOrClip 16)
  have hindent : Fine (stepGutter ++ padOrClip [] 16) := Fine.append (by decide) hblank
  unfold setupStepLines
  simp only
  split_ifs
  · rw [List.forall_mem_singleton]
    exact (hstart.append hblank).append (by decide)
  · rw [List.forall_mem_cons, List.forall_mem_cons, List.forall_mem_singleton]
    exact ⟨(hstart.append h.storeKeyEnv).append (by decide),
      hindent.append (by decide), (hindent.append (by decide)).append
        ((Fine.append (by decide) h.storeKeyEnv).append (by decide))⟩
  · rw [List.forall_mem_cons]
    constructor
    · refine (hstart.append ((htitle step hstep).2.padOrClip 16)).append (stepStatus_fine ?_)
      intro o ho
      cases hsetup : profile.setup with
      | none => rw [hsetup] at ho; cases ho
      | some setup =>
        rw [hsetup] at ho
        exact h.setup setup hsetup o (List.mem_of_getElem? ho)
    · intro line hline
      obtain ⟨hint, hhint, rfl⟩ := Option.map_eq_some_iff.1 (Option.mem_toList.1 hline)
      exact hindent.append (stepHint_fine step _ hint hhint)

theorem buildSetupLines_fine {profile : ProfileView} (h : profile.Fine) :
    ∀ line ∈ buildSetupLines profile, Fine line := by
  rw [buildSetupLines, List.forall_mem_cons]
  refine ⟨by decide, fun line hline => ?_⟩
  obtain ⟨step, hstep, hline⟩ := List.mem_flatMap.1 hline
  exact setupStepLines_fine h (List.mem_range.1 hstep) line hline

theorem formatHealthLine_fine {health : RelayHealthView} (h : Fine health.relayUrl) :
    Fine (formatHealthLine health) := by
  have hrelay : Fine (js "relay " ++ health.relayUrl) := Fine.append (by decide) h
  unfold formatHealthLine
  cases health.status with
  | healthy =>
    have huptime : Fine (health.uptimeMs.elim [] fun uptime =>
        js "uptime " ++ utf16Units (decimal uptime) ++ js " ms, ") := by
      cases health.uptimeMs with
      | none => exact fine_nil
      | some uptime => exact (Fine.append (by decide) (fine_decimal uptime)).append (by decide)
    exact ((((hrelay.append (by decide)).append huptime).append (by decide)).append
      (fine_instant _)).append (by decide)
  | unreachable =>
    exact ((hrelay.append (by decide)).append (fine_instant _)).append (by decide)
  | unknown => exact hrelay.append (by decide)

theorem formatProfilesLines_fine {profile : ProfileView} {contacts : List ContactView}
    {health : RelayHealthView} (hp : profile.Fine) (hc : ∀ contact ∈ contacts, contact.Fine)
    (hh : Fine health.relayUrl) (width : ℕ) (limit : Option ℕ) :
    ∀ line ∈ formatProfilesLines (buildProfilesSnapshot profile contacts health) width limit,
      Fine line := by
  have htail : ∀ line ∈ [[], formatHealthLine health], Fine line := by
    rw [List.forall_mem_cons, List.forall_mem_singleton]
    exact ⟨fine_nil, formatHealthLine_fine hh⟩
  unfold formatProfilesLines
  cases hsetup : (buildProfilesSnapshot profile contacts health).setupLines with
  | some lines =>
    have hlines : lines = buildSetupLines profile := by
      simp only [buildProfilesSnapshot] at hsetup
      split_ifs at hsetup
      exact (Option.some.inj hsetup).symm
    refine fitPane_fine ?_ limit width
    rw [PaneRegions.lines, List.forall_mem_append, List.forall_mem_append, hlines]
    exact ⟨⟨buildSetupLines_fine hp, List.forall_mem_nil _⟩, htail⟩
  | none =>
    refine fitPane_fine ?_ limit width
    rw [PaneRegions.lines, List.forall_mem_append, List.forall_mem_append]
    refine ⟨⟨?_, ?_⟩, htail⟩
    · rw [List.forall_mem_append, List.forall_mem_append]
      refine ⟨⟨?_, ?_⟩, ?_⟩
      · simp only [buildProfilesSnapshot, List.map_cons, List.map_nil, List.forall_mem_cons]
        refine ⟨.labelled (by decide) hp.label, .labelled (by decide) hp.relayUrl,
          .labelled (by decide) hp.storeKeyEnv, .labelled (by decide) hp.identityId,
          .labelled (by decide) hp.deviceId, .labelled (by decide) ?_,
          .labelled (by decide) hp.profileDir, List.forall_mem_nil _⟩
        split_ifs <;> decide
      · rw [List.forall_mem_cons, List.forall_mem_singleton]
        exact ⟨fine_nil, .labelled (by decide) ((fine_decimal _).append (by decide))⟩
      · intro line hline
        obtain ⟨unseen, -, rfl⟩ := Option.map_eq_some_iff.1 (Option.mem_toList.1 hline)
        exact (Fine.append (by decide) (fine_number unseen)).append (by decide)
    · intro line hline
      obtain ⟨row, hrow, hline⟩ := List.mem_flatten.1 hline
      simp only [buildProfilesSnapshot, List.map_map, List.mem_map, Function.comp] at hrow
      obtain ⟨contact, hcontact, rfl⟩ := hrow
      have hfine := hc contact hcontact
      rw [List.mem_singleton] at hline
      rw [hline]
      exact Fine.append (by decide) ((hfine.identityId.append (by decide)).append hfine.deviceId)

end Echolet.Tui
