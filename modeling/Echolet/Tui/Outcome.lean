/-
  What the result of a command does to the state (`foldSetup`, `applyOutcome`).

  * `outcomeView`: what a result makes of the view of the active profile;
  * `applyOutcome_profiles`: it is the view of the active profile, and no other, that a result
    changes.
-/
import Echolet.Tui.Keys

namespace Echolet.Tui

/-! ## Reading what a child printed -/

/-- The members of a record, and nothing of another value. -/
def recordOf : Document (List ℕ) → Option (List (List ℕ × Document (List ℕ)))
  | .obj ms => some ms
  | _ => none

/-- A property of a record: of members with one name the last. -/
def property (ms : List (List ℕ × Document (List ℕ))) (name : String) : Option (Document (List ℕ)) :=
  (ms.reverse.find? fun m => m.1 == js name).map (·.2)

def stringOf : Option (Document (List ℕ)) → Option JsString
  | some (.str s) => some s
  | _ => none

/-- A finite number. -/
def numberOf : Option (Document (List ℕ)) → Option Number
  | some (.number x) => some x
  | _ => none

def asNumber (value : Option (Document (List ℕ))) (fallback : Number) : Number :=
  (numberOf value).getD fallback

def readRejections : Option (Document (List ℕ)) → List RejectionView
  | some (.arr entries) => entries.filterMap fun entry => do
    let ms ← recordOf entry
    let envelopeId ← stringOf (property ms "envelopeId")
    let code ← stringOf (property ms "code")
    some ⟨paintable envelopeId, paintable code⟩
  | _ => []

def readDirection : Option (Document (List ℕ)) → Option Direction
  | some (.str s) =>
    if s = js "inbound" then some .inbound else if s = js "outbound" then some .outbound else none
  | _ => none

def readHistoryEntries (value : Document (List ℕ)) : List HistoryEntryView :=
  match (recordOf value).bind (property · "entries") with
  | some (.arr entries) => entries.filterMap fun entry => do
    let ms ← recordOf entry
    let contactIdentityId ← stringOf (property ms "contactIdentityId")
    let messageId ← stringOf (property ms "messageId")
    let plaintext ← stringOf (property ms "plaintext")
    let direction ← readDirection (property ms "direction")
    some ⟨asNumber (property ms "sequence") (.ofNat 0), paintable contactIdentityId,
      paintable messageId, direction, paintable plaintext,
      asNumber (property ms "createdAtMs") (.ofNat 0)⟩
  | _ => []

/-! ## The registration checklist -/

/-- The registration step a command completes. -/
def setupStepOf : CliCommand → Option ℕ
  | .init => some 1
  | .relayPublish => some 2
  | .contactExport => some 3
  | .contactImport => some 4
  | .doctor => some 5
  | .send | .poll | .history => none

/-- `doctor` completes its step only with a contact. -/
def stepSucceeded (request : CliRequest) (outcome : CliOutcome) : Bool :=
  if request.command = .doctor then
    match recordOf outcome.data with
    | some ms => decide (0 < (asNumber (property ms "contact_count") (.ofNat 0)).value)
    | none => false
  else true

/-- The identity an `init` or a `doctor` reported. -/
def reportedIdentity (request : CliRequest) (outcome : CliOutcome) : Option JsString :=
  if request.command ≠ .init ∧ request.command ≠ .doctor ∨ outcome.ok = false then none
  else (recordOf outcome.data).bind fun ms => stringOf (property ms "identity_id")

/-- The one result that proves a profile is not there. -/
def CliOutcome.absent (outcome : CliOutcome) : Bool :=
  !outcome.ok && outcome.code == js "INVALID_CONFIGURATION" && outcome.exitCode == 2

/-- The checklist of a profile after a result. -/
def foldSetupView (request : CliRequest) (outcome : CliOutcome) (profile : ProfileView) :
    ProfileView :=
  match profile.setup with
  | none => profile
  | some setup =>
    let state := if outcome.absent then some ProfileState.absent
      else if (reportedIdentity request outcome).isSome then some .ready else profile.state
    match setupStepOf request.command with
    | none => { profile with state }
    | some step =>
      let value := if outcome.ok then if stepSucceeded request outcome then StepOutcome.ok else .pending
        else .failed (paintable outcome.code) outcome.exitCode
      { profile with
        state
        setup := some (setup.mapIdx fun n previous =>
          if n = step then value else if step < n then .pending else previous) }

/-- `foldSetup`: the result goes to the active profile. -/
def foldSetup (state : OperatorState) (request : CliRequest) (outcome : CliOutcome) :
    List ProfileView :=
  state.profiles.modify state.activeProfile (foldSetupView request outcome)

/-! ## The rest of the state -/

/-- What `init` and `doctor` report of a profile. -/
def reportedView (ms : List (List ℕ × Document (List ℕ))) (profile : ProfileView) : ProfileView :=
  { profile with
    identityId := ((stringOf (property ms "identity_id")).map paintable).getD profile.identityId
    deviceId := ((stringOf (property ms "device_id")).map paintable).getD profile.deviceId
    contactCount := asNumber (property ms "contact_count") profile.contactCount }

def touchedRelay (request : CliRequest) : Bool :=
  request.command = .poll || request.command = .relayPublish || request.command = .send

def observedHealth (health : RelayHealthView) (outcome : CliOutcome) (atMs : ℕ) : RelayHealthView :=
  if outcome.ok then { health with status := .healthy, checkedAtMs := some atMs }
  else if outcome.exitCode = 4 then { health with status := .unreachable, checkedAtMs := some atMs }
  else health

/-- `applyOutcome`: one result folded into the state. -/
def applyOutcome (state : OperatorState) (request : CliRequest) (outcome : CliOutcome) (atMs : ℕ) :
    OperatorState :=
  let next := { state with
    health := if touchedRelay request then observedHealth state.health outcome atMs else state.health
    profiles := foldSetup state request outcome
    mailbox := { state.mailbox with outboxPending := none } }
  if outcome.ok = false then next
  else match request with
    | .init .. | .doctor _ =>
      match recordOf outcome.data with
      | none => next
      | some ms => { next with profiles := next.profiles.modify next.activeProfile (reportedView ms) }
    | .poll _ =>
      match recordOf outcome.data with
      | none => next
      | some ms =>
        { next with
          mailbox :=
            { outboxPending := next.mailbox.outboxPending
              inboxReceived := (numberOf (property ms "received")).or next.mailbox.inboxReceived
              more := match property ms "more" with | some (.bool true) => true | _ => false
              lastPolledAtMs := some atMs }
          rejections := readRejections (property ms "rejected") }
    | .relayPublish _ =>
      { next with profiles := next.profiles.modify next.activeProfile ({ · with published := true }) }
    | .history .. => { next with history := readHistoryEntries outcome.data }
    | .send .. | .contactExport .. | .contactImport .. => next

/-! ## What a result changes -/

/-- What a successful result reports of the active profile. -/
def reportedOf (request : CliRequest) (outcome : CliOutcome) : ProfileView → ProfileView :=
  match request with
  | .init .. | .doctor _ => (recordOf outcome.data).elim id reportedView
  | .relayPublish _ => ({ · with published := true })
  | _ => id

/-- The view of the active profile after a result. -/
def outcomeView (request : CliRequest) (outcome : CliOutcome) (profile : ProfileView) : ProfileView :=
  let folded := foldSetupView request outcome profile
  if outcome.ok then reportedOf request outcome folded else folded

/-- **Only the view of the active profile changes.** -/
theorem applyOutcome_profiles (state : OperatorState) (request : CliRequest) (outcome : CliOutcome)
    (atMs : ℕ) : (applyOutcome state request outcome atMs).profiles =
      state.profiles.modify state.activeProfile (outcomeView request outcome) := by
  have hfold : ∀ f : ProfileView → ProfileView,
      (foldSetup state request outcome).modify state.activeProfile f =
        state.profiles.modify state.activeProfile (f ∘ foldSetupView request outcome) :=
    fun f => List.modify_modify_eq ..
  cases hok : outcome.ok with
  | false =>
    have hview : outcomeView request outcome = foldSetupView request outcome := by
      ext1 profile
      simp [outcomeView, hok]
    simp [applyOutcome, hview, hok, foldSetup]
  | true =>
    have hview : outcomeView request outcome =
        reportedOf request outcome ∘ foldSetupView request outcome := by
      ext1 profile
      simp [outcomeView, hok]
    rw [hview, ← hfold]
    simp only [applyOutcome, hok, Bool.true_eq_false, if_false]
    cases request with
    | init | doctor =>
      cases hms : recordOf outcome.data with
      | none => simp [reportedOf, hms]
      | some ms => simp [reportedOf, hms]
    | poll => cases recordOf outcome.data <;> simp [reportedOf]
    | _ => simp [reportedOf]

/-- A result leaves the keyboard and the modal as they are. -/
theorem applyOutcome_frame (state : OperatorState) (request : CliRequest) (outcome : CliOutcome)
    (atMs : ℕ) : (applyOutcome state request outcome atMs).modal = state.modal ∧
      (applyOutcome state request outcome atMs).input = state.input ∧
      (applyOutcome state request outcome atMs).activeProfile = state.activeProfile := by
  cases hok : outcome.ok with
  | false => simp [applyOutcome, hok]
  | true =>
    simp only [applyOutcome, hok, Bool.true_eq_false, if_false]
    cases request with
    | init | doctor | poll => cases recordOf outcome.data <;> exact ⟨rfl, rfl, rfl⟩
    | _ => exact ⟨rfl, rfl, rfl⟩

theorem applyOutcome_contacts (state : OperatorState) (request : CliRequest) (outcome : CliOutcome)
    (atMs : ℕ) : (applyOutcome state request outcome atMs).contacts = state.contacts := by
  cases hok : outcome.ok with
  | false => simp [applyOutcome, hok]
  | true =>
    simp only [applyOutcome, hok, Bool.true_eq_false, if_false]
    cases request with
    | init | doctor | poll => cases recordOf outcome.data <;> rfl
    | _ => rfl

theorem applyOutcome_selected (state : OperatorState) (request : CliRequest) (outcome : CliOutcome)
    (atMs : ℕ) :
    (applyOutcome state request outcome atMs).selectedContactId = state.selectedContactId := by
  cases hok : outcome.ok with
  | false => simp [applyOutcome, hok]
  | true =>
    simp only [applyOutcome, hok, Bool.true_eq_false, if_false]
    cases request with
    | init | doctor | poll => cases recordOf outcome.data <;> rfl
    | _ => rfl

/-- A result says nothing of a profile unless it completes or fails a step of its checklist,
    reports its identity, or shows that it is not there. -/
def CliOutcome.concerns (outcome : CliOutcome) (request : CliRequest) (profile : ProfileView) : Bool :=
  profile.setup.isSome && ((setupStepOf request.command).isSome || outcome.absent) ||
    outcome.ok && (request.command = .init || request.command = .doctor ||
      request.command = .relayPublish)

/-- What says nothing of a profile leaves its view as it is. -/
theorem outcomeView_of_not_concerns {request : CliRequest} {outcome : CliOutcome}
    {profile : ProfileView} (h : outcome.concerns request profile = false) :
    outcomeView request outcome profile = profile := by
  simp only [CliOutcome.concerns, Bool.or_eq_false_iff, Bool.and_eq_false_iff] at h
  obtain ⟨hsetup, hreports⟩ := h
  have hfold : foldSetupView request outcome profile = profile := by
    unfold foldSetupView
    cases hs : profile.setup with
    | none => rfl
    | some setup =>
      simp only [hs, Option.isSome_some, Bool.true_eq_false, false_or,
        Option.isSome_eq_false_iff, Option.isNone_iff_eq_none] at hsetup
      have hidentity : reportedIdentity request outcome = none := by
        unfold reportedIdentity
        refine if_pos (Or.inl ?_)
        constructor <;> intro hc <;> simp [hc, setupStepOf] at hsetup
      simp only [hsetup.1, hsetup.2, hidentity, Bool.false_eq_true, if_false, Option.isSome_none]
      rw [← hs]
  unfold outcomeView
  simp only [hfold]
  split_ifs with hok
  · have hcommand : request.command ≠ .init ∧ request.command ≠ .doctor ∧
        request.command ≠ .relayPublish := by
      rcases hreports with hreports | hreports
      · exact absurd hok (by simp [hreports])
      · simpa [not_or, and_assoc] using hreports
    cases request with
    | init => exact absurd rfl hcommand.1
    | doctor => exact absurd rfl hcommand.2.1
    | relayPublish => exact absurd rfl hcommand.2.2
    | _ => rfl
  · rfl

/-- The directory of a profile is not a field that a result reports. -/
theorem outcomeView_profileDir (request : CliRequest) (outcome : CliOutcome) (profile : ProfileView) :
    (outcomeView request outcome profile).profileDir = profile.profileDir := by
  have hfold : (foldSetupView request outcome profile).profileDir = profile.profileDir := by
    unfold foldSetupView
    cases profile.setup with
    | none => rfl
    | some setup => cases setupStepOf request.command <;> rfl
  unfold outcomeView
  simp only
  split_ifs
  · cases request with
    | init | doctor => cases hms : recordOf outcome.data <;> simp [reportedOf, reportedView, hms, hfold]
    | _ => exact hfold
  · exact hfold

end Echolet.Tui
