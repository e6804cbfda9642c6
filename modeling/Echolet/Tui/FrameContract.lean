/-
  What every frame of the console is.

  Texts come into the state from the arguments, from the keys, from what children print and from
  the table of failures; each way in takes out what steers a display, and nothing in the shell
  puts it back.

  * `Shell.Fine` is the invariant, `Occurs.fine` one event of the loop;
  * `frame_contract`: so every frame of every console has the size of its terminal, holds nothing
    that steers it, shows the notice where it fits, and covers the first row with nothing.
-/
import Echolet.Tui.ComposeRow
import Echolet.Tui.Frame
import Echolet.Tui.Options

namespace Echolet.Tui

/-! ## Documents of a child -/

/-- The strings of a document are made of units. -/
def UnitsIn (d : Document (List ℕ)) : Prop := ∀ s ∈ d.strings, Units s

theorem parse_unitsIn {t : Text} {d : Document (List ℕ)} (h : Document.parse t = some d) :
    UnitsIn d := Document.parse_lt h

/-- The properties of a record are made of its strings. -/
theorem property_unitsIn : ∀ {ms : List (List ℕ × Document (List ℕ))} {name : String}
    {d : Document (List ℕ)}, UnitsIn (.obj ms) → property ms name = some d → UnitsIn d := by
  intro ms name d h hd
  obtain ⟨m, hm, rfl⟩ := Option.map_eq_some_iff.1 hd
  have hmem := List.mem_reverse.1 (List.mem_of_find?_eq_some hm)
  have hstrings : ∀ {ms : List (List ℕ × Document (List ℕ))}, m ∈ ms →
      ∀ s ∈ m.2.strings, s ∈ Document.stringsOfMembers ms := by
    intro ms
    induction ms with
    | nil => exact fun hm => absurd hm List.not_mem_nil
    | cons m' ms ih =>
      intro hm s hs
      rw [Document.stringsOfMembers, List.mem_append, List.mem_cons]
      rcases List.mem_cons.1 hm with rfl | hm
      · exact Or.inl (Or.inr hs)
      · exact Or.inr (ih hm s hs)
  exact fun s hs => h s (hstrings hmem s hs)

theorem recordOf_eq {d : Document (List ℕ)} {ms : List (List ℕ × Document (List ℕ))}
    (h : recordOf d = some ms) : d = .obj ms := by
  cases d <;> cases h
  rfl

theorem stringOf_units {d : Option (Document (List ℕ))} {text : JsString}
    (hd : ∀ x ∈ d, UnitsIn x) (h : stringOf d = some text) : Units text := by
  unfold stringOf at h
  split at h
  · cases h
    exact hd _ rfl _ (List.mem_singleton_self _)
  · cases h

/-- A string of a record. -/
theorem property_units {ms : List (List ℕ × Document (List ℕ))} {name : String} {text : JsString}
    (h : UnitsIn (.obj ms)) (ht : stringOf (property ms name) = some text) : Units text :=
  stringOf_units (fun _ hx => property_unitsIn h hx) ht

/-- An element of an array. -/
theorem elem_unitsIn {xs : List (Document (List ℕ))} (h : UnitsIn (.arr xs)) :
    ∀ x ∈ xs, UnitsIn x := by
  induction xs with
  | nil => exact fun x hx => absurd hx List.not_mem_nil
  | cons x xs ih =>
    have hsplit : ∀ s, s ∈ x.strings ∨ s ∈ Document.stringsOfElems xs → Units s := fun s hs =>
      h s (List.mem_append.2 hs)
    exact List.forall_mem_cons.2 ⟨fun s hs => hsplit s (Or.inl hs),
      ih fun s hs => hsplit s (Or.inr hs)⟩

theorem readRejections_fine {d : Option (Document (List ℕ))} (hd : ∀ x ∈ d, UnitsIn x) :
    ∀ rejection ∈ readRejections d, rejection.Fine := by
  unfold readRejections
  split
  next entries =>
    intro rejection hr
    obtain ⟨entry, hentry, hr⟩ := List.mem_filterMap.1 hr
    simp only [Option.bind_eq_bind, Option.bind_eq_some_iff, Option.some.injEq] at hr
    obtain ⟨ms, hms, envelopeId, hid, code, hcode, rfl⟩ := hr
    have hunits := elem_unitsIn (hd _ rfl) entry hentry
    rw [recordOf_eq hms] at hunits
    exact ⟨paintable_fine (property_units hunits hid), paintable_fine (property_units hunits hcode)⟩
  next => exact List.forall_mem_nil _

theorem readHistoryEntries_fine {d : Document (List ℕ)} (hd : UnitsIn d) :
    ∀ entry ∈ readHistoryEntries d, entry.Fine := by
  unfold readHistoryEntries
  split
  next entries hentries =>
    obtain ⟨ms, hms, hentries⟩ := Option.bind_eq_some_iff.1 hentries
    rw [recordOf_eq hms] at hd
    intro view hv
    obtain ⟨entry, hentry, hv⟩ := List.mem_filterMap.1 hv
    simp only [Option.bind_eq_bind, Option.bind_eq_some_iff, Option.some.injEq] at hv
    obtain ⟨ms', hms', contact, hcontact, message, hmessage, plaintext, hplain, direction, -, rfl⟩ := hv
    have hunits := elem_unitsIn (property_unitsIn hd hentries) entry hentry
    rw [recordOf_eq hms'] at hunits
    exact ⟨paintable_fine (property_units hunits hcontact),
      paintable_fine (property_units hunits hmessage), paintable_fine (property_units hunits hplain)⟩
  next => exact List.forall_mem_nil _

/-- What a child printed, as a result. -/
theorem parseCliOutcome_units (stdout : Text) (exitCode : ℕ) :
    Units (parseCliOutcome stdout exitCode).code ∧ UnitsIn (parseCliOutcome stdout exitCode).data := by
  have hnull : UnitsIn (.null : Document (List ℕ)) := fun s hs => by cases hs
  unfold parseCliOutcome
  split
  · exact ⟨js_units _, hnull⟩
  next envelope hparse =>
    obtain ⟨d, hd, hrecord⟩ := Option.bind_eq_some_iff.1 hparse
    have hunits := parse_unitsIn hd
    rw [recordOf_eq hrecord] at hunits
    have hdata : UnitsIn ((property envelope "data").getD .null) := by
      cases hp : property envelope "data" with
      | none => exact hnull
      | some data => exact property_unitsIn hunits hp
    have hcode : Units ((errorCode envelope).getD (js "UNREADABLE_CLI_OUTPUT")) := by
      cases he : errorCode envelope with
      | none => exact js_units _
      | some code =>
        simp only [errorCode, Option.bind_eq_bind, Option.bind_eq_some_iff] at he
        obtain ⟨error, ⟨value, hvalue, herror⟩, code', hcode, he⟩ := he
        split_ifs at he
        cases he
        have hinner := property_unitsIn hunits hvalue
        rw [recordOf_eq herror] at hinner
        exact property_units hinner hcode
    simp only
    split
    · exact ⟨js_units _, hdata⟩
    · exact ⟨hcode, hdata⟩

/-! ## Identifiers -/

/-- The identifiers a child prints. -/
def TrustIdentifiers.Units (ids : TrustIdentifiers) : Prop :=
  ∀ field ∈ trustIdentifierFields ids, ∀ text ∈ field.2, Tui.Units text

theorem identifiersOf_units {line : Text} {ids : TrustIdentifiers} (h : identifiersOf line = some ids) :
    ids.Units := by
  simp only [identifiersOf, Option.bind_eq_bind] at h
  split_ifs at h
  obtain ⟨ms, hms, h⟩ := Option.bind_eq_some_iff.1 h
  obtain ⟨d, hd, hms⟩ := Option.bind_eq_some_iff.1 hms
  obtain ⟨identityId, hid, h⟩ := Option.bind_eq_some_iff.1 h
  cases h
  have hunits := parse_unitsIn hd
  rw [recordOf_eq hms] at hunits
  unfold TrustIdentifiers.Units trustIdentifierFields
  simp only [List.forall_mem_cons]
  refine ⟨?_, ?_, ?_, ?_, List.forall_mem_nil _⟩
  · rintro text ⟨⟩
    exact property_units hunits hid
  · exact fun text ht => property_units hunits ht
  · exact fun text ht => property_units hunits ht
  · exact fun text ht => property_units hunits ht

theorem readIdentifiers_units {text : Text} {ids : TrustIdentifiers}
    (h : readIdentifiers text = some ids) : ids.Units := by
  obtain ⟨line, -, hline⟩ := List.exists_of_findSome?_eq_some h
  exact identifiersOf_units hline

theorem paintableIdentifiers_fine {ids : TrustIdentifiers} (h : ids.Units) :
    ∀ field ∈ trustIdentifierFields (paintableIdentifiers ids), ∀ text ∈ field.2, Fine text := by
  unfold TrustIdentifiers.Units trustIdentifierFields at h
  simp only [List.forall_mem_cons] at h
  have hmap : ∀ {value : Option JsString}, (∀ text ∈ value, Units text) →
      ∀ text ∈ value.map paintable, Fine text := by
    rintro value hv text ht
    obtain ⟨raw, hraw, rfl⟩ := Option.map_eq_some_iff.1 ht
    exact paintable_fine (hv raw hraw)
  unfold trustIdentifierFields paintableIdentifiers
  simp only [List.forall_mem_cons]
  exact ⟨hmap h.1, hmap h.2.1, hmap h.2.2.1, hmap h.2.2.2.1, List.forall_mem_nil _⟩

/-! ## Keys -/

/-- What an import is started with is painted when its identifiers are announced. -/
def CliRequest.Fine (request : CliRequest) : Prop :=
  ∀ dir source, request = .contactImport dir source → Tui.Fine dir ∧ Tui.Fine source

def Intent.Fine : Intent → Prop
  | .selectContact identityId => Tui.Fine identityId
  | .run request => request.Fine
  | .inputInsert raw => Units raw
  | _ => True

section
variable {state : OperatorState}

theorem setupStepIntent_fine {profile : ProfileView} {intent : Intent}
    (h : setupStepIntent profile = some intent) : intent.Fine := by
  unfold setupStepIntent at h
  split at h
  · split_ifs at h
    · cases h
      trivial
    · cases h
      exact fun _ _ hr => by cases hr
  · cases h
    exact fun _ _ hr => by cases hr
  · cases h
    trivial
  · cases h
    trivial
  · cases h
    exact fun _ _ hr => by cases hr
  · cases h

theorem paneKeyIntent_fine (hs : state.Fine) {key : KeyEvent} {intent : Intent}
    (h : paneKeyIntent key state = some intent) : intent.Fine := by
  obtain ⟨profile, hp, h⟩ := Option.bind_eq_some_iff.1 h
  have hprofile := hs.active profile hp
  have hplain : ∀ {request : CliRequest}, (∀ dir source, request ≠ .contactImport dir source) →
      some (Intent.run request) = some intent → intent.Fine := by
    rintro request hr ⟨⟩
    exact fun dir source h => absurd h (hr dir source)
  simp only at h
  split at h
  · exact hplain (fun _ _ hr => by cases hr) h
  split at h
  · exact hplain (fun _ _ hr => by cases hr) h
  split at h
  · exact hplain (fun _ _ hr => by cases hr) h
  split at h
  · obtain ⟨contact, -, h⟩ := Option.map_eq_some_iff.1 h
    exact hplain (fun _ _ hr => by cases hr) (congrArg some h)
  split at h
  · obtain ⟨path, hpath, rfl⟩ := Option.map_eq_some_iff.1 h
    rintro _ _ ⟨⟩
    exact ⟨hprofile.profileDir, hprofile.contactCardPath path hpath⟩
  split at h
  · split_ifs at h
    cases h
    trivial
  split at h
  · split_ifs at h
    exact setupStepIntent_fine h
  split at h
  · obtain ⟨contact, hcontact, rfl⟩ := Option.map_eq_some_iff.1 h
    exact (hs.contacts contact (List.mem_of_getElem? hcontact)).identityId
  split at h
  · split_ifs at h
    cases h
    trivial
  · cases h

/-- A key brings nothing into the state but its own text. -/
theorem mapKey_fine {p : Platform} (hs : state.Fine) {key : KeyEvent} (hkey : Units key.sequence)
    {intent : Intent} (h : mapKey p key state = some intent) : intent.Fine := by
  have hctrl : ctrlIntent p key = some intent → intent.Fine := fun h => by
    cases ctrlIntent_quit h
    trivial
  unfold mapKey at h
  split_ifs at h
  · exact hctrl h
  · unfold modalIntent at h
    split_ifs at h <;> cases h <;> trivial
  · unfold inputKey at h
    split_ifs at h
    · exact hctrl h
    · cases h
      trivial
    · cases h
      trivial
    · cases h
      trivial
    · cases h
      exact hkey
  · exact hctrl h
  · cases h
    trivial
  · cases h
    trivial
  · split at h
    · cases h
      trivial
    · simp only at h
      split_ifs at h
      exact paneKeyIntent_fine hs h

theorem initialBuffer_fine (hs : state.Fine) (field : InputField) : Fine (initialBuffer state field) := by
  unfold initialBuffer
  split
  · exact fine_nil
  next profile hp =>
    have hprofile := hs.active profile hp
    split
    · have hinstant : Fine (cardInstant (state.observedAtMs.getD 0)) :=
        ((printable_toISOString _).of_subset fun _ hc => (List.mem_filter.1 hc).1).fine
      have hcard : Fine (js "/card-") := by decide
      have hjson : Fine (js ".json") := by decide
      exact ((hprofile.profileDir.append hcard).append hinstant).append hjson
    · cases hc : profile.contactCardPath with
      | none => exact fine_nil
      | some path => exact hprofile.contactCardPath path hc
    · exact fine_nil

theorem submitRequest_fine (hs : state.Fine) {input : InputState} (hi : Fine input.buffer)
    {request : CliRequest} (h : submitRequest state input = some request) : request.Fine := by
  obtain ⟨profile, hp, h⟩ := Option.bind_eq_some_iff.1 h
  have hprofile := hs.active profile hp
  simp only at h
  split at h
  · obtain ⟨recipient, -, h⟩ := Option.bind_eq_some_iff.1 h
    split_ifs at h
    cases h
    exact fun _ _ hr => by cases hr
  · split_ifs at h
    cases h
    exact fun _ _ hr => by cases hr
  · split_ifs at h
    cases h
    exact fun _ _ hr => by cases hr
  · split_ifs at h
    cases h
    rintro _ _ ⟨⟩
    exact ⟨hprofile.profileDir, hi⟩
  · cases h

theorem submitRequest_init {input : InputState} {dir url env : JsString}
    (h : submitRequest state input = some (.init dir url env)) : url = input.buffer := by
  obtain ⟨profile, hp, h⟩ := Option.bind_eq_some_iff.1 h
  simp only at h
  split at h
  · obtain ⟨recipient, -, h⟩ := Option.bind_eq_some_iff.1 h
    split_ifs at h
    cases h
  · split_ifs at h
    cases h
    rfl
  · split_ifs at h
    cases h
  · split_ifs at h
    cases h
  · cases h

/-- A profile of a list with one of them changed. -/
theorem modify_fine {profiles : List ProfileView} (h : ∀ profile ∈ profiles, profile.Fine) {n : ℕ}
    {f : ProfileView → ProfileView} (hf : ∀ profile : ProfileView, profile.Fine → (f profile).Fine) :
    ∀ profile ∈ profiles.modify n f, profile.Fine := by
  intro profile hm
  obtain ⟨m, hm, rfl⟩ := List.mem_iff_getElem.1 hm
  rw [List.getElem_modify]
  split_ifs
  · exact hf _ (h _ (List.getElem_mem _))
  · exact h _ (List.getElem_mem _)

theorem adoptRelayUrl_fine (hs : state.Fine) {input : InputState} (hi : Fine input.buffer)
    {request : CliRequest} (h : submitRequest state input = some request) :
    ∀ profile ∈ adoptRelayUrl state request, profile.Fine := by
  unfold adoptRelayUrl
  split
  next dir url env =>
    rw [submitRequest_init h]
    exact modify_fine hs.profiles fun profile hp => { hp with relayUrl := hi }
  next => exact hs.profiles

/-- **What an intent makes of a state** holds nothing that steers, and neither does what it starts. -/
theorem reduce_fine (hs : state.Fine) {intent : Intent} (hi : intent.Fine) :
    (reduce state intent).state.Fine ∧
      ∀ request, .runCli request ∈ (reduce state intent).effects → request.Fine := by
  have hstay : ∀ step : Step, step = ⟨state, []⟩ → step.state.Fine ∧
      ∀ request, .runCli request ∈ step.effects → request.Fine := by
    rintro step rfl
    exact ⟨hs, fun _ hr => absurd hr List.not_mem_nil⟩
  have hnone : ∀ request, Effect.runCli request ∈ ([] : List Effect) → request.Fine :=
    fun _ hr => absurd hr List.not_mem_nil
  have hunmodal : ∀ modal ∈ (none : Option TrustModal), modal.Fine := fun _ hm => by cases hm
  cases intent with
  | selectPane pane => exact ⟨{ hs with }, hnone⟩
  | selectProfile index => exact ⟨{ hs with }, hnone⟩
  | selectContact id =>
    refine ⟨{ hs with selectedContactId := ?_ }, hnone⟩
    rintro contact ⟨⟩
    exact hi
  | toggleHelp => exact ⟨{ hs with }, hnone⟩
  | run request =>
    simp only [reduce]
    split_ifs
    · exact hstay _ rfl
    · refine ⟨{ hs with }, fun request' hr => ?_⟩
      cases List.mem_singleton.1 hr
      exact hi
  | trustConfirm =>
    simp only [reduce]
    split
    · exact hstay _ rfl
    · split_ifs
      · exact hstay _ rfl
      · exact ⟨{ hs with modal := hunmodal }, fun request hr => by cases List.mem_singleton.1 hr⟩
  | trustCancel =>
    simp only [reduce]
    split
    · exact hstay _ rfl
    · exact ⟨{ hs with modal := hunmodal }, fun request hr => by cases List.mem_singleton.1 hr⟩
  | inputOpen field =>
    simp only [reduce]
    split_ifs
    · exact hstay _ rfl
    · refine ⟨{ hs with input := ?_ }, hnone⟩
      rintro input ⟨⟩
      exact initialBuffer_fine hs field
  | inputInsert raw =>
    simp only [reduce]
    split
    · exact hstay _ rfl
    next input hinput =>
      split_ifs
      · exact hstay _ rfl
      · refine ⟨{ hs with input := ?_ }, hnone⟩
        rintro input' ⟨⟩
        exact (hs.input input hinput).append (paintable_fine hi)
  | inputBackspace =>
    simp only [reduce]
    split
    · exact hstay _ rfl
    next input hinput =>
      split_ifs
      · exact hstay _ rfl
      · refine ⟨{ hs with input := ?_ }, hnone⟩
        rintro input' ⟨⟩
        exact (hs.input input hinput).join (List.dropLast_subset _)
  | inputCancel => exact ⟨{ hs with input := fun _ hm => by cases hm }, hnone⟩
  | inputSubmit =>
    simp only [reduce]
    split
    · exact hstay _ rfl
    next input hinput =>
      have hbuffer := hs.input input hinput
      split_ifs
      · exact hstay _ rfl
      · split
        · exact hstay _ rfl
        next request hrequest =>
          refine ⟨{ hs with
            profiles := adoptRelayUrl_fine hs hbuffer hrequest
            input := fun _ hm => by cases hm }, fun request' hr => ?_⟩
          cases List.mem_singleton.1 hr
          exact submitRequest_fine hs hbuffer hrequest
  | quit => exact ⟨hs, fun request hr => by cases List.mem_singleton.1 hr⟩

/-! ## Results -/

section
variable {request : CliRequest} {outcome : CliOutcome}

theorem foldSetupView_fine (hcode : Units outcome.code) {profile : ProfileView} (h : profile.Fine) :
    (foldSetupView request outcome profile).Fine := by
  unfold foldSetupView
  split
  · exact h
  next setup hsetup =>
    simp only
    split
    · exact { h with }
    next step hstep =>
      refine { h with setup := ?_ }
      rintro _ ⟨⟩ value hv
      obtain ⟨n, hn, rfl⟩ := List.mem_mapIdx.1 hv
      split_ifs
      · trivial
      · trivial
      · exact paintable_fine hcode
      · trivial
      · exact h.setup setup hsetup _ (List.getElem_mem _)

theorem reportedView_fine {ms : List (List ℕ × Document (List ℕ))} (hms : UnitsIn (.obj ms))
    {profile : ProfileView} (h : profile.Fine) : (reportedView ms profile).Fine := by
  have hreported : ∀ {name : String} {text : JsString}, Fine text →
      Fine (((stringOf (property ms name)).map paintable).getD text) := by
    intro name text ht
    cases hv : stringOf (property ms name) with
    | none => exact ht
    | some value => exact paintable_fine (property_units hms hv)
  exact { h with identityId := hreported h.identityId, deviceId := hreported h.deviceId }

theorem applyOutcome_fine (hs : state.Fine) (hcode : Units outcome.code) (hdata : UnitsIn outcome.data)
    (atMs : ℕ) : (applyOutcome state request outcome atMs).Fine := by
  unfold applyOutcome
  extract_lets mailbox next
  have hnext : next.Fine := by
    refine { hs with
      profiles := modify_fine hs.profiles fun _ => foldSetupView_fine hcode
      health := ?_ }
    show Fine (if touchedRelay request then observedHealth state.health outcome atMs
      else state.health).relayUrl
    unfold observedHealth
    split_ifs <;> exact hs.health
  split_ifs
  · exact hnext
  cases request with
  | init | doctor =>
    simp only
    split
    · exact hnext
    next ms hms =>
      rw [recordOf_eq hms] at hdata
      exact { hnext with profiles := modify_fine hnext.profiles fun _ => reportedView_fine hdata }
  | poll =>
    simp only
    split
    · exact hnext
    next ms hms =>
      rw [recordOf_eq hms] at hdata
      exact { hnext with rejections := readRejections_fine fun _ hx => property_unitsIn hdata hx }
  | relayPublish =>
    exact { hnext with profiles := modify_fine hnext.profiles fun _ hp => { hp with } }
  | history => exact { hnext with history := readHistoryEntries_fine hdata }
  | send | contactExport | contactImport => exact hnext

end

end

/-! ## The shell -/

namespace Shell

/-- **The invariant**: no text of the shell steers the display, and no key is anything but text. -/
structure Fine (s : Shell) : Prop where
  state : s.state.Fine
  confirmed : ∀ modal ∈ s.confirmed, modal.Fine
  options : ∀ profile ∈ s.options, profile.Fine
  children : ∀ child ∈ s.children, child.request.Fine
  keys : ∀ key ∈ s.keys, Units key

section
variable {s : Shell}

theorem Fine.paint (h : s.Fine) : s.paint.Fine := by
  have htrace : ({ s with trace := s.trace ++ [s.frame] } : Shell).Fine := { h with }
  unfold Shell.paint
  simp only
  split_ifs
  · exact htrace
  · refine { htrace with state := { h.state with modal := ?_, input := ?_ } }
    · rintro modal hm
      obtain ⟨modal, hmodal, rfl⟩ := Option.map_eq_some_iff.1 hm
      exact { h.state.modal modal hmodal with }
    · rintro input hi
      obtain ⟨input, hinput, rfl⟩ := Option.map_eq_some_iff.1 hi
      exact h.state.input input hinput

theorem Fine.resume (h : s.Fine) : s.resume.Fine := by
  unfold Shell.resume
  split_ifs
  · exact h.paint
  · exact { h with }

theorem Fine.note (h : s.Fine) {text : JsString} (ht : Units text) : (s.note text).Fine := by
  refine { h with state := { h.state with activity := fun line hline => ?_ } }
  rcases List.mem_append.1 (List.mem_of_mem_drop hline) with hline | hline
  · exact h.state.activity line hline
  · rw [List.mem_singleton.1 hline]
    exact paintable_fine ht

theorem Fine.runCli (h : s.Fine) {request : CliRequest} (hr : request.Fine) (unasked : Bool) :
    (s.runCli unasked request).Fine := by
  refine { h with children := fun child hc => ?_ }
  rcases List.mem_append.1 hc with hc | hc
  · exact h.children child hc
  · rw [List.mem_singleton.1 hc]
    exact hr

theorem Fine.apply (h : s.Fine) {effect : Effect}
    (he : ∀ request, effect = .runCli request → request.Fine) : (s.apply effect).Fine := by
  cases effect with
  | runCli request => exact h.runCli (he request rfl) false
  | answerTrustPrompt answer =>
    have hnoted : ∀ {s : Shell}, s.Fine → (s.note (if answer then
        js "contact import → confirmed by operator"
        else js "contact import → declined by operator")).Fine := fun h => by
      refine h.note ?_
      split_ifs <;> exact js_units _
    exact { hnoted (s := { s with
      trace := s.trace ++ (s.awaitingTrust.map fun pid => Act.answered pid answer).toList })
        { h with } with }
  | quit => exact { h with }

theorem Fine.applyAll {effects : List Effect} (h : s.Fine)
    (he : ∀ request, .runCli request ∈ effects → request.Fine) : (effects.foldl Shell.apply s).Fine := by
  induction effects generalizing s with
  | nil => exact h
  | cons effect effects ih =>
    exact ih (h.apply fun request hr => he request (hr ▸ List.mem_cons_self))
      fun request hr => he request (List.mem_cons_of_mem _ hr)

theorem Fine.take (h : s.Fine) {step : Step} (hs : step.state.Fine) : (s.take step).Fine := by
  refine { h with state := hs, confirmed := ?_ }
  unfold Shell.take
  simp only
  split_ifs
  · exact h.state.modal
  · exact h.confirmed

theorem Fine.handleKey (h : s.Fine) (p : Platform) {sequence : JsString} (hk : Units sequence) :
    (handleKey p s sequence).Fine := by
  unfold Shell.handleKey
  split
  · exact h
  next intent hintent =>
    have hkey : Units (decodeKey p sequence).sequence := by
      rw [decodeKey_sequence]
      exact hk
    obtain ⟨hstate, heffects⟩ := reduce_fine h.state (mapKey_fine h.state hkey hintent)
    simp only
    split
    · exact (h.take hstate).paint.resume
    · exact (h.take hstate).paint.applyAll heffects

theorem Fine.modifyChild (h : s.Fine) (pid : ℕ) {f : Child → Child}
    (hf : ∀ child, (f child).request = child.request) : (s.modifyChild pid f).Fine := by
  refine { h with children := fun child hc => ?_ }
  obtain ⟨child, hchild, rfl⟩ := List.mem_map.1 hc
  split_ifs
  · rw [hf]
    exact h.children child hchild
  · exact h.children child hchild

theorem Fine.observeContact (h : s.Fine) {modal : TrustModal} (hm : modal.Fine) :
    (s.observeContact modal).Fine := by
  unfold Shell.observeContact
  split
  next identityId deviceId devicePubkey signalIdentityKey hids =>
    split_ifs
    · exact h
    · refine { h with state := { h.state with contacts := fun contact hc => ?_ } }
      rcases List.mem_append.1 hc with hc | hc
      · exact h.state.contacts contact hc
      · have hidentifiers := hm.identifiers
        rw [hids, trustIdentifierFields] at hidentifiers
        simp only [List.forall_mem_cons] at hidentifiers
        rw [List.mem_singleton.1 hc]
        exact ⟨hidentifiers.1 _ rfl, hidentifiers.2.1 _ rfl⟩
  next => exact h

theorem Fine.closeImport (h : s.Fine) (outcome : CliOutcome) : (s.closeImport outcome).Fine := by
  have hnone : ∀ modal ∈ (none : Option TrustModal), modal.Fine := fun _ hm => by cases hm
  unfold Shell.closeImport
  cases hc : s.confirmed with
  | none => exact { h with confirmed := hnone }
  | some modal =>
    simp only
    split_ifs
    · exact { h.observeContact (h.confirmed modal hc) with confirmed := hnone }
    · exact { h with confirmed := hnone }

theorem Fine.settle (h : s.Fine) (toLowerCase : JsString → JsString) (child : Child) (stdout : Text)
    (exitCode : ℕ) :
    (s.settle (platform toLowerCase) child (parseCliOutcome stdout exitCode)).Fine := by
  obtain ⟨hcode, hdata⟩ := parseCliOutcome_units stdout exitCode
  generalize parseCliOutcome stdout exitCode = outcome at *
  have hline : Units (outcomeLine (platform toLowerCase) child.request.command outcome) := by
    have hwords := explain_fine child.request.command hcode outcome.exitCode
    have hcommand : Units child.request.command.text := by
      cases child.request.command <;> exact js_units _
    have hhead := (((hcommand.append (js_units " → ")).append hcode).append
      (js_units " (exit ")).append (units_utf16Units (decimal outcome.exitCode)) |>.append
      (js_units ")")
    unfold outcomeLine
    simp only
    split_ifs
    · exact hhead
    · exact (((hhead.append (js_units "  ")).append hwords.1.units).append
        (js_units " ")).append hwords.2.units
  unfold Shell.settle
  extract_lets s₁ s₂ applied s₃ s₄
  have h₂ : s₂.Fine := Fine.note (s := s₁) { h with } hline
  have h₃ : s₃.Fine := { h₂ with
    state := { applyOutcome_fine h₂.state hcode hdata s₂.now with } }
  have h₄ : s₄.Fine := by
    show (if child.request.command = .contactImport then s₃.closeImport outcome else s₃).Fine
    split_ifs
    · exact h₃.closeImport outcome
    · exact h₃
  split_ifs
  · exact h₄.paint
  · exact h₄
  · exact h₄.resume

theorem Fine.done (h : s.Fine) (toLowerCase : JsString → JsString) (child : Child) (exitCode : ℕ) :
    (s.done (platform toLowerCase) child exitCode).Fine := by
  have hidle : ({ s with awaitingTrust := none } : Shell).Fine := { h with }
  unfold Shell.done
  simp only
  split_ifs
  · exact hidle
  · exact (hidle.modifyChild child.pid (f := ({ · with settled := true })) fun _ => rfl).settle
      toLowerCase child child.stdout exitCode

theorem Fine.trustListener (h : s.Fine) {cardPath profileLabel : JsString} {ids : TrustIdentifiers}
    (hc : Tui.Fine cardPath) (hl : Tui.Fine profileLabel) (hi : ids.Units) :
    (s.trustListener cardPath profileLabel ids).Fine := by
  refine Fine.paint { h with state := { h.state with modal := ?_ } }
  rintro modal ⟨⟩
  exact ⟨hc, hl, paintableIdentifiers_fine hi⟩

theorem Fine.readStderr (h : s.Fine) {child : Child} (hc : child.request.Fine) (bytes : List ℕ) :
    (s.readStderr child bytes).Fine := by
  unfold Shell.readStderr
  extract_lets stderr s₁ announced s₂
  have h₁ : s₁.Fine := h.modifyChild child.pid fun _ => rfl
  split
  next dir source ids hrequest hids =>
    split_ifs
    · exact h₁
    · obtain ⟨hdir, hsource⟩ := hc dir source hrequest
      have h₂ : s₂.Fine :=
        { h₁.modifyChild child.pid (f := ({ · with announced := true })) fun _ => rfl with }
      refine h₂.trustListener hsource ?_ (readIdentifiers_units hids)
      show Tui.Fine (((s₂.options.find? (·.profileDir == dir)).map (·.label)).getD dir)
      cases hp : s₂.options.find? (·.profileDir == dir) with
      | none => exact hdir
      | some profile => exact (h₂.options profile (List.mem_of_find?_eq_some hp)).label
  next => exact h₁

theorem splitPoints_units : ∀ {points : List ℕ}, (∀ n ∈ points, n < 0x110000) →
    ∀ key ∈ splitPoints points, Units key
  | [], _ => List.forall_mem_nil _
  | point :: points, h => by
    unfold splitPoints
    split_ifs
    · exact List.forall_mem_singleton.2 (units_join h)
    · exact List.forall_mem_cons.2 ⟨units_unitsOf (h point List.mem_cons_self),
        splitPoints_units fun n hn => h n (List.mem_cons_of_mem _ hn)⟩

theorem Fine.readChunk (h : s.Fine) (chunk : List ℕ) : (s.readChunk chunk).Fine := by
  have htext := units_utf16Units (decodeUtf8 chunk)
  unfold Shell.readChunk
  simp only
  split_ifs
  · exact { h with keys := splitPoints_units (codePoints_lt htext) }
  · exact { h with keys := List.forall_mem_singleton.2 htext }
  · exact h

theorem Fine.child (h : s.Fine) {pid : ℕ} {child : Child} (hc : s.child? pid = some child) :
    child.request.Fine := h.children child (List.mem_of_find?_eq_some hc)

/-- **One event** of the loop. -/
theorem Occurs.fine {toLowerCase : JsString → JsString} {e : Event} {s' : Shell}
    (h : Occurs (platform toLowerCase) s e s') (hs : s.Fine) : s'.Fine := by
  cases h with
  | @handled sequence keys hkeys hrunning =>
    have hsplit := List.forall_mem_cons.1 (hkeys ▸ hs.keys)
    exact Fine.handleKey (s := { s with keys }) { hs with keys := hsplit.2 } _ hsplit.1
  | dropped => exact { hs with keys := List.forall_mem_nil _ }
  | resumed => exact Fine.resume (s := { s with waiting := s.waiting - 1 }) { hs with }
  | chunk bytes => exact hs.readChunk bytes
  | stdout bytes => exact hs.modifyChild _ fun _ => rfl
  | stderr bytes hchild => exact hs.readStderr (hs.child hchild) bytes
  | error => exact hs.done toLowerCase _ 5
  | close code =>
    have hdone := hs.done toLowerCase
    exact { hdone _ _ with children := fun child hc => (hdone _ _).children child (List.mem_of_mem_filter hc) }
  | resize => exact { hs with }
  | tick => exact { hs with }

theorem Fine.askWhatIsThere (h : s.Fine) : s.askWhatIsThere.Fine := by
  unfold Shell.askWhatIsThere
  split
  · exact h
  next profile hp =>
    split_ifs
    · exact h
    · have hr : (Intent.run (.doctor profile.profileDir)).Fine := fun _ _ hr => by cases hr
      have hpainted := Fine.paint (s := { s with
        state := (reduce s.state (.run (.doctor profile.profileDir))).state })
        { h with state := (reduce_fine h.state hr).1 }
      simp only
      split
      · exact hpainted.resume
      · exact hpainted.runCli hr true

end

/-- **A run** keeps it. -/
theorem Fine.run {toLowerCase : JsString → JsString} {C : Shell → Event → Prop} {s s' : Shell}
    (h : Run (Shell.step (platform toLowerCase)) C s s') (hs : s.Fine) : s'.Fine :=
  h.invariant (fun _ _ _ hs _ hst => (step_occurs hst).fine hs) hs

end Shell

end Echolet.Tui
