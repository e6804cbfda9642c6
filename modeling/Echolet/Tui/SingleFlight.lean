/-
  One command at a time.

  * `Shell.Frame`: what painting, notes and the ends of effects leave as it is;
  * `Shell.handleKey_spec`, `Shell.settle_spec`: what a key and a result do to the rest;
  * `single_flight`: the busy flag stands exactly while the one child is in flight, no command
    is started under it, and the input row and the modal are never both open.
-/
import Mathlib.Data.List.Nodup
import Echolet.Tui.Shell

namespace Echolet.Tui

/-- A child without what it printed. -/
def Child.core (child : Child) : ℕ × CliRequest × Bool := (child.pid, child.request, child.settled)

namespace Shell

variable {p : Platform} {s s' : Shell}

/-- What a frame, a note, some output or the end of an effect does not touch. -/
structure Frame (s s' : Shell) : Prop where
  children : s'.children.map Child.core = s.children.map Child.core
  spawned : s'.spawned = s.spawned
  profiles : s'.state.profiles = s.state.profiles
  activeProfile : s'.state.activeProfile = s.state.activeProfile
  busy : s'.state.busy = s.state.busy
  input : s'.state.input.isSome = s.state.input.isSome
  modal : s'.state.modal.isSome = s.state.modal.isSome

theorem Frame.refl (s : Shell) : Frame s s := ⟨rfl, rfl, rfl, rfl, rfl, rfl, rfl⟩

theorem Frame.trans {s'' : Shell} (h : Frame s s') (h' : Frame s' s'') : Frame s s'' where
  children := h'.children.trans h.children
  spawned := h'.spawned.trans h.spawned
  profiles := h'.profiles.trans h.profiles
  activeProfile := h'.activeProfile.trans h.activeProfile
  busy := h'.busy.trans h.busy
  input := h'.input.trans h.input
  modal := h'.modal.trans h.modal

theorem paint_frame (s : Shell) : Frame s s.paint := by
  unfold paint
  simp only
  split_ifs
  · constructor <;> rfl
  · constructor <;> simp

theorem note_frame (s : Shell) (text : JsString) : Frame s (s.note text) := by
  constructor <;> rfl

theorem resume_frame (s : Shell) : Frame s s.resume := by
  unfold resume
  split_ifs
  · exact s.paint_frame
  · constructor <;> rfl

theorem observeContact_frame (s : Shell) (modal : TrustModal) : Frame s (s.observeContact modal) := by
  unfold observeContact
  split
  · split_ifs
    · exact .refl s
    · constructor <;> rfl
  · exact .refl s

theorem closeImport_frame (s : Shell) (outcome : CliOutcome) : Frame s (s.closeImport outcome) := by
  have hclear : ∀ t : Shell, Frame t { t with confirmed := none } := by
    intro t
    constructor <;> rfl
  unfold closeImport
  refine Frame.trans ?_ (hclear _)
  split
  · split_ifs
    · exact s.observeContact_frame _
    · exact .refl s
  · exact .refl s

/-- An effect that starts no command. -/
theorem apply_frame {effect : Effect} (h : ∀ request, effect ≠ .runCli request) :
    Frame s (s.apply effect) := by
  cases effect with
  | runCli request => exact absurd rfl (h request)
  | answerTrustPrompt answer => constructor <;> rfl
  | quit => constructor <;> rfl

theorem foldl_apply_frame : ∀ {effects : List Effect} {s : Shell},
    (∀ request, .runCli request ∉ effects) → Frame s (effects.foldl apply s)
  | [], s, _ => .refl s
  | effect :: effects, s, h => by
    rw [List.foldl_cons]
    refine (apply_frame fun request he => h request ?_).trans
      (foldl_apply_frame fun request he => h request (List.mem_cons_of_mem _ he))
    rw [he]
    exact List.mem_cons_self

/-! ## One key -/

/-- What a key does: it starts no command and leaves the profiles, or it starts one. -/
inductive Handled (p : Platform) (s : Shell) (sequence : JsString) (s' : Shell) : Prop
  | idle {t : Shell} (hchildren : t.children = s.children) (hspawned : t.spawned = s.spawned)
      (hreduced : t.state = s.state ∨ ∃ intent, mapKey p (decodeKey p sequence) s.state = some intent ∧
        t.state = (reduce s.state intent).state)
      (hidle : Idle s.state t.state) (hframe : Frame t s')
  | started {t t' : Shell} {intent : Intent} {request : CliRequest}
      (hkey : mapKey p (decodeKey p sequence) s.state = some intent)
      (heffects : (reduce s.state intent).effects = [.runCli request]) (hbusy : s.state.busy = false)
      (hchildren : t.children = s.children) (hspawned : t.spawned = s.spawned)
      (hstarts : Starts s.state request intent t.state) (hframe : Frame t t')
      (hs : s' = t'.runCli false request)

/-- **One key.** -/
theorem handleKey_spec (p : Platform) (s : Shell) (sequence : JsString) :
    Handled p s sequence (s.handleKey p sequence) := by
  unfold handleKey
  cases hkey : mapKey p (decodeKey p sequence) s.state with
  | none => exact .idle rfl rfl (Or.inl rfl) (.refl s.state) (.refl s)
  | some intent =>
    have htaken : Frame (s.take (reduce s.state intent)) (s.take (reduce s.state intent)).paint :=
      paint_frame _
    rcases reduce_cases s.state intent with ⟨request, heffects, hbusy, hstarts⟩ | ⟨hnone, hidle⟩
    · simp only [heffects]
      exact .started (t := s.take (reduce s.state intent)) hkey heffects hbusy rfl rfl hstarts htaken
        rfl
    · refine .idle (t := s.take (reduce s.state intent)) rfl rfl (Or.inr ⟨intent, hkey, rfl⟩) hidle
        (htaken.trans ?_)
      simp only
      generalize (reduce s.state intent).effects = effects at hnone
      cases effects with
      | nil => exact resume_frame _
      | cons effect effects => exact foldl_apply_frame hnone

/-! ## One result -/

/-- What a result does: the view of the active profile is its only view that changes. -/
structure Settled (s : Shell) (child : Child) (outcome : CliOutcome) (s' : Shell) : Prop where
  children : s'.children.map Child.core = s.children.map Child.core
  spawned : s'.spawned = s.spawned
  profiles : s'.state.profiles =
    s.state.profiles.modify s.state.activeProfile (outcomeView child.request outcome)
  activeProfile : s'.state.activeProfile = s.state.activeProfile
  busy : s'.state.busy = false
  input : s'.state.input.isSome = s.state.input.isSome
  modal : s'.state.modal.isSome = s.state.modal.isSome

theorem Settled.frame {s'' : Shell} {child : Child} {outcome : CliOutcome}
    (h : Settled s child outcome s') (h' : Frame s' s'') : Settled s child outcome s'' where
  children := h'.children.trans h.children
  spawned := h'.spawned.trans h.spawned
  profiles := h'.profiles.trans h.profiles
  activeProfile := h'.activeProfile.trans h.activeProfile
  busy := h'.busy.trans h.busy
  input := h'.input.trans h.input
  modal := h'.modal.trans h.modal

/-- **One result.** -/
theorem settle_spec (p : Platform) (s : Shell) (child : Child) (outcome : CliOutcome) :
    Settled s child outcome (s.settle p child outcome) := by
  let noted := ({ s with inFlightCommand := none }).note (outcomeLine p child.request.command outcome)
  let folded : Shell := { noted with state :=
    { applyOutcome noted.state child.request outcome noted.now with
      busy := false, observedAtMs := some noted.now } }
  have hfolded : Settled s child outcome folded := by
    obtain ⟨hmodal, hinput, hactive⟩ :=
      applyOutcome_frame noted.state child.request outcome noted.now
    refine ⟨rfl, rfl, applyOutcome_profiles _ _ _ _, hactive, rfl, ?_, ?_⟩
    · exact congrArg Option.isSome hinput
    · exact congrArg Option.isSome hmodal
  have hrest : Frame folded (s.settle p child outcome) := by
    have hend : ∀ t : Shell, Frame t (if child.unasked then if t.running then t.paint else t
        else t.resume) := by
      intro t
      split_ifs
      · exact t.paint_frame
      · exact .refl t
      · exact t.resume_frame
    refine Frame.trans ?_ (hend _)
    split_ifs
    · exact folded.closeImport_frame outcome
    · exact .refl folded
  exact hfolded.frame hrest

theorem modifyChild_frame (s : Shell) (pid : ℕ) {f : Child → Child}
    (hf : ∀ child, (f child).core = child.core) : Frame s (s.modifyChild pid f) := by
  refine ⟨?_, rfl, rfl, rfl, rfl, rfl, rfl⟩
  simp only [modifyChild, List.map_map]
  refine List.map_congr_left fun child _ => ?_
  simp only [Function.comp]
  split_ifs
  · exact hf child
  · rfl

/-! ## The children in flight -/

theorem child?_mem {pid : ℕ} {child : Child} (h : s.child? pid = some child) :
    child ∈ s.children ∧ child.pid = pid := by
  have hpid := List.find?_some h
  exact ⟨List.mem_of_find?_eq_some h, by simpa using hpid⟩

theorem inFlight_core (s : Shell) :
    s.inFlight.map Child.core = (s.children.map Child.core).filter fun core => !core.2.2 := by
  rw [List.filter_map]
  rfl

theorem Frame.inFlight (h : Frame s s') : s'.inFlight.map Child.core = s.inFlight.map Child.core := by
  rw [inFlight_core, inFlight_core, h.children]

/-- **Single flight.**  At most one child is in flight, exactly while the busy flag stands; the
    input row is open only with neither. -/
structure Inv (s : Shell) : Prop where
  flight : s.inFlight.length = if s.state.busy then 1 else 0
  row : s.state.input.isSome = true → s.state.busy = false ∧ s.state.modal.isSome = false
  pids : (s.children.map Child.pid).Nodup
  fresh : ∀ child ∈ s.children, child.pid < s.spawned

theorem pids_core (s : Shell) : s.children.map Child.pid = (s.children.map Child.core).map (·.1) := by
  rw [List.map_map]
  rfl

theorem Inv.frame (hi : Inv s) (h : Frame s s') : Inv s' where
  flight := by
    have hlength : s'.inFlight.length = s.inFlight.length := by
      simpa using congrArg List.length h.inFlight
    rw [hlength, hi.flight, h.busy]
  row := by
    rw [h.input, h.busy, h.modal]
    exact hi.row
  pids := by
    rw [pids_core, h.children, ← pids_core]
    exact hi.pids
  fresh := by
    have hmem : ∀ t : Shell, (∀ child ∈ t.children, child.pid < s.spawned) ↔
        ∀ core ∈ t.children.map Child.core, core.1 < s.spawned := fun t => by
      simp [Child.core]
    rw [h.spawned, hmem, h.children, ← hmem]
    exact hi.fresh

theorem Inv.busy_of_mem (hi : Inv s) {child : Child} (h : child ∈ s.inFlight) :
    s.state.busy = true := by
  have hlength := hi.flight
  cases hb : s.state.busy with
  | true => rfl
  | false =>
    rw [hb, if_neg Bool.false_ne_true, List.length_eq_zero_iff] at hlength
    rw [hlength] at h
    cases h

theorem Inv.idle (hi : Inv s) (hbusy : s.state.busy = false) : s.inFlight = [] := by
  have hflight := hi.flight
  rw [hbusy, if_neg Bool.false_ne_true] at hflight
  exact List.length_eq_zero_iff.1 hflight

theorem inFlight_of_core {t : Shell} (h : t.children.map Child.core = s.children.map Child.core)
    (hs : s.inFlight = []) : t.inFlight = [] := by
  have hcores := inFlight_core t
  rw [h, ← inFlight_core, hs] at hcores
  simpa using hcores

/-- A child started from an idle shell is the one in flight. -/
theorem Inv.started (hi : Inv s) {t : Shell} {unasked : Bool} {request : CliRequest}
    (hbusy : s.state.busy = false) (hchildren : t.children.map Child.core = s.children.map Child.core)
    (hspawned : t.spawned = s.spawned) (ht : t.state.busy = true) (hinput : t.state.input = none) :
    Inv (t.runCli unasked request) where
  flight := by
    have hnone : t.inFlight = [] := inFlight_of_core hchildren (hi.idle hbusy)
    show (List.filter _ (t.children ++ [_])).length = if t.state.busy then 1 else 0
    rw [List.filter_append, List.length_append, ht]
    show t.inFlight.length + 1 = 1
    rw [hnone]
    rfl
  row := by
    intro hrow
    rw [runCli, hinput] at hrow
    cases hrow
  pids := by
    have hpids : t.children.map Child.pid = s.children.map Child.pid := by
      rw [pids_core, hchildren, ← pids_core]
    show (List.map Child.pid (t.children ++ [_])).Nodup
    rw [List.map_append, hpids]
    refine List.nodup_append.2 ⟨hi.pids, by simp, ?_⟩
    intro pid hpid other hother
    obtain ⟨child, hchild, rfl⟩ := List.mem_map.1 hpid
    have hlt := hi.fresh child hchild
    simp only [List.map_cons, List.map_nil, List.mem_singleton] at hother
    omega
  fresh := by
    intro child hchild
    show child.pid < t.spawned + 1
    rw [runCli, List.mem_append, List.mem_singleton] at hchild
    rcases hchild with hchild | rfl
    · have hcore : child.core ∈ s.children.map Child.core := hchildren ▸ List.mem_map_of_mem hchild
      obtain ⟨c, hc, heq⟩ := List.mem_map.1 hcore
      have hpid : c.pid = child.pid := congrArg Prod.fst heq
      have hlt := hi.fresh c hc
      omega
    · exact Nat.lt_succ_self _

theorem Inv.handled {sequence : JsString} (hi : Inv s) (h : Handled p s sequence s') : Inv s' := by
  cases h with
  | @idle t hchildren hspawned _ hidle hframe =>
    refine Inv.frame (s := t) ⟨?_, ?_, by rw [hchildren]; exact hi.pids, ?_⟩ hframe
    · rw [inFlight, hchildren, hidle.busy]
      exact hi.flight
    · intro hrow
      rw [hidle.busy]
      rcases hidle.input hrow with hinput | ⟨hbusy, hmodal⟩
      · refine ⟨(hi.row hinput).1, ?_⟩
        rcases hidle.modal with hmodal | hmodal
        · rw [hmodal]
          exact (hi.row hinput).2
        · rw [hmodal]
          rfl
      · exact ⟨hbusy, by rw [hmodal]; rfl⟩
    · rw [hchildren, hspawned]
      exact hi.fresh
  | @started t t' intent request hkey _ hbusy hchildren hspawned hstarts hframe hs =>
    rw [hs]
    have hcore : t'.children.map Child.core = s.children.map Child.core := by
      rw [hframe.children, hchildren]
    have hstate : t.state.busy = true ∧ t.state.input = none := by
      cases hst : t.state
      rw [hst] at hstarts
      cases hstarts with
      | run => exact ⟨rfl, (mapKey_run hkey).2.1⟩
      | submit => exact ⟨rfl, rfl⟩
    refine hi.started hbusy hcore (hframe.spawned.trans hspawned) ?_ ?_
    · rw [hframe.busy, hstate.1]
    · have hinput := hframe.input
      rw [hstate.2] at hinput
      simpa using hinput

/-- Standard error of a child brings a modal at most. -/
theorem readStderr_spec (s : Shell) (child : Child) (bytes : List ℕ) :
    Frame s (s.readStderr child bytes) ∨ ∃ t modal, Frame s t ∧
      Frame { t with state := { t.state with modal := some modal } } (s.readStderr child bytes) := by
  unfold readStderr
  have hread : Frame s (s.modifyChild child.pid ({ · with stderr := child.stderr ++ decodeUtf8 bytes })) :=
    s.modifyChild_frame _ fun _ => rfl
  simp only
  split
  · split_ifs
    · exact Or.inl hread
    · have hannounced := hread.trans
        (modifyChild_frame _ child.pid (f := ({ · with announced := true })) fun _ => rfl)
      refine Or.inr ⟨{ (s.modifyChild child.pid _).modifyChild child.pid _ with
        awaitingTrust := some child.pid
        trace := s.trace ++ [Act.announced child.pid (child.stderr ++ decodeUtf8 bytes)] }, _, ?_,
        paint_frame _⟩
      exact hannounced.trans (by constructor <;> rfl)
  · exact Or.inl hread

theorem Inv.announced (hi : Inv s) (hbusy : s.state.busy = true) (modal : TrustModal) :
    Inv { s with state := { s.state with modal := some modal } } where
  flight := hi.flight
  row := by
    intro hrow
    rw [(hi.row hrow).1] at hbusy
    cases hbusy
  pids := hi.pids
  fresh := hi.fresh

/-- The shell when the promise of a child is settled, before it takes notice. -/
def ended (s : Shell) (child : Child) : Shell :=
  { s with awaitingTrust := none }.modifyChild child.pid ({ · with settled := true })

/-- **One end of a child.** -/
theorem done_cases (p : Platform) (s : Shell) (child : Child) (exitCode : ℕ) :
    (child.settled = true ∧ Frame s (s.done p child exitCode)) ∨
    (child.settled = false ∧
      Settled (s.ended child) child (parseCliOutcome child.stdout exitCode)
        (s.done p child exitCode)) := by
  unfold done
  simp only
  split_ifs with hs
  · exact Or.inl ⟨hs, by constructor <;> rfl⟩
  · exact Or.inr ⟨by simpa using hs, settle_spec _ _ _ _⟩

theorem ended_pids (s : Shell) (child : Child) :
    (s.ended child).children.map Child.pid = s.children.map Child.pid := by
  show List.map Child.pid (List.map _ s.children) = _
  rw [List.map_map]
  refine List.map_congr_left fun c _ => ?_
  simp only [Function.comp]
  split_ifs <;> rfl

/-- The one child in flight. -/
theorem Inv.only (hi : Inv s) {child : Child} (h : child ∈ s.inFlight) : s.inFlight = [child] := by
  have hlength := hi.flight
  rw [hi.busy_of_mem h, if_pos rfl, List.length_eq_one_iff] at hlength
  obtain ⟨c, hc⟩ := hlength
  rw [hc, List.mem_singleton] at h
  rw [hc, h]

/-- The promise of the child in flight is settled. -/
theorem Inv.ended (hi : Inv s) {child : Child} (h : child ∈ s.inFlight) :
    (s.ended child).inFlight = [] := by
  have hone := hi.only h
  rw [List.eq_nil_iff_forall_not_mem]
  intro c hc
  obtain ⟨hc, hopen⟩ := List.mem_filter.1 hc
  obtain ⟨c₀, hc₀, rfl⟩ := List.mem_map.1 hc
  split_ifs at hopen with hpid
  · cases hopen
  · have hmem : c₀ ∈ s.inFlight := List.mem_filter.2 ⟨hc₀, hopen⟩
    rw [hone, List.mem_singleton] at hmem
    exact hpid (congrArg Child.pid hmem)

theorem pids_of_core {t : Shell} (h : t.children.map Child.core = s.children.map Child.core) :
    t.children.map Child.pid = s.children.map Child.pid := by
  rw [pids_core, h, ← pids_core]

theorem fresh_of_pids {t : Shell} (hi : Inv s)
    (h : t.children.map Child.pid = s.children.map Child.pid) :
    ∀ child ∈ t.children, child.pid < s.spawned := by
  intro child hchild
  have hpid : child.pid ∈ s.children.map Child.pid := h ▸ List.mem_map_of_mem hchild
  obtain ⟨c, hc, heq⟩ := List.mem_map.1 hpid
  rw [← heq]
  exact hi.fresh c hc

/-- After `done` the child is settled. -/
theorem done_settled (hi : Inv s) {pid : ℕ} {child : Child} (h : s.child? pid = some child)
    (exitCode : ℕ) : ∀ c ∈ (s.done p child exitCode).children, c.pid = pid → c.settled = true := by
  obtain ⟨hmem, hpid⟩ := child?_mem h
  intro c hc hcpid
  have hcore := List.mem_map_of_mem (f := Child.core) hc
  rcases done_cases p s child exitCode with ⟨hs, hframe⟩ | ⟨-, hsettled⟩
  · rw [hframe.children] at hcore
    obtain ⟨c', hc', heq⟩ := List.mem_map.1 hcore
    have hpid' : c'.pid = c.pid := congrArg Prod.fst heq
    have hsettled' : c'.settled = c.settled := congrArg (·.2.2) heq
    have hcc : c' = child :=
      List.inj_on_of_nodup_map hi.pids hc' hmem (hpid'.trans (hcpid.trans hpid.symm))
    rw [← hsettled', hcc, hs]
  · rw [hsettled.children] at hcore
    obtain ⟨c', hc', heq⟩ := List.mem_map.1 hcore
    have hpid' : c'.pid = c.pid := congrArg Prod.fst heq
    have hsettled' : c'.settled = c.settled := congrArg (·.2.2) heq
    obtain ⟨c₀, hc₀, rfl⟩ := List.mem_map.1 hc'
    rw [← hsettled']
    split_ifs with hne
    · rfl
    · rw [if_neg hne] at hpid'
      exact absurd (hpid'.trans (hcpid.trans hpid.symm)) hne

theorem Inv.done (hi : Inv s) {pid : ℕ} {child : Child} (h : s.child? pid = some child)
    (exitCode : ℕ) : Inv (s.done p child exitCode) := by
  rcases done_cases p s child exitCode with ⟨-, hframe⟩ | ⟨hopen, hsettled⟩
  · exact hi.frame hframe
  · have hflying : child ∈ s.inFlight := List.mem_filter.2 ⟨(child?_mem h).1, by simp [hopen]⟩
    have hpids := (pids_of_core hsettled.children).trans (s.ended_pids child)
    refine ⟨?_, ?_, ?_, ?_⟩
    · rw [hsettled.busy, inFlight_of_core hsettled.children (hi.ended hflying)]
      rfl
    · rw [hsettled.input]
      intro hrow
      have hbusy := hi.busy_of_mem hflying
      rw [(hi.row hrow).1] at hbusy
      cases hbusy
    · rw [hpids]
      exact hi.pids
    · have hspawned : (s.done p child exitCode).spawned = s.spawned := hsettled.spawned
      rw [hspawned]
      exact fresh_of_pids hi hpids

theorem letGo_inFlight {pid : ℕ} (h : ∀ c ∈ s.children, c.pid = pid → c.settled = true) :
    (s.letGo pid).inFlight = s.inFlight := by
  show List.filter (fun c : Child => !c.settled)
    (s.children.filter fun other => other.pid != pid) = s.inFlight
  rw [List.filter_filter]
  refine List.filter_congr fun c hc => ?_
  cases hs : c.settled with
  | true => rfl
  | false =>
    have hne : c.pid ≠ pid := fun hpid => by simp [h c hc hpid] at hs
    simp [hne]

/-- A settled child is let go. -/
theorem Inv.closed (hi : Inv s) {pid : ℕ} (h : ∀ c ∈ s.children, c.pid = pid → c.settled = true) :
    Inv (s.letGo pid) where
  flight := by
    rw [letGo_inFlight h]
    exact hi.flight
  row := hi.row
  pids := (List.filter_sublist.map Child.pid).nodup hi.pids
  fresh := fun child hchild => hi.fresh child (List.mem_filter.1 hchild).1

/-! ## Every step -/

/-- The child that ends with an event, and its exit code. -/
def Event.ends : Event → Option (ℕ × ℕ)
  | .error pid => some (pid, 5)
  | .close pid code => some (pid, code.getD 1)
  | _ => none

/-- What a step can do. -/
inductive Stepped (p : Platform) (s : Shell) (e : Event) (s' : Shell) : Prop
  | frame (h : Frame s s')
  | key {sequence : JsString} {keys : List JsString} (he : e = .key)
      (hkeys : s.keys = sequence :: keys) (h : Handled p { s with keys } sequence s')
  | modal {child : Child} {t : Shell} {modal : TrustModal} (hchild : child ∈ s.inFlight)
      (ht : Frame s t) (h : Frame { t with state := { t.state with modal := some modal } } s')
  | ended {pid exitCode : ℕ} {child : Child} {t : Shell} (he : e.ends = some (pid, exitCode))
      (hchild : s.child? pid = some child) (hopen : child.settled = false)
      (hdone : t = s.done p child exitCode)
      (h : Settled (s.ended child) child (parseCliOutcome child.stdout exitCode) t)
      (hs' : s' = t ∨ s' = t.letGo pid)
  | closed {pid exitCode : ℕ} {child : Child} {t : Shell} (hchild : s.child? pid = some child)
      (hdone : t = s.done p child exitCode) (h : Frame s t) (hs' : s' = t.letGo pid)

/-- **One step.** -/
theorem step_cases {e : Event} (h : s.step p e = some s') : Stepped p s e s' := by
  cases step_occurs h with
  | handled hkeys _ => exact .key rfl hkeys (handleKey_spec p _ _)
  | dropped => exact .frame (by constructor <;> rfl)
  | resumed =>
    have hless : Frame s { s with waiting := s.waiting - 1 } := by constructor <;> rfl
    exact .frame (hless.trans (resume_frame _))
  | chunk =>
    refine .frame ?_
    unfold readChunk
    simp only
    split_ifs <;> constructor <;> rfl
  | @stdout pid => exact .frame (s.modifyChild_frame pid fun _ => rfl)
  | stderr bytes hchild hopen =>
    rcases s.readStderr_spec _ bytes with hframe | ⟨t, modal, hread, hframe⟩
    · exact .frame hframe
    · exact .modal (List.mem_filter.2 ⟨(child?_mem hchild).1, by simp [hopen]⟩) hread hframe
  | error hchild =>
    rcases done_cases p s _ 5 with ⟨-, hframe⟩ | ⟨hopen, hsettled⟩
    · exact .frame hframe
    · exact .ended rfl hchild hopen rfl hsettled (Or.inl rfl)
  | close code hchild =>
    rcases done_cases p s _ (code.getD 1) with ⟨-, hframe⟩ | ⟨hopen, hsettled⟩
    · exact .closed hchild rfl hframe rfl
    · exact .ended rfl hchild hopen rfl hsettled (Or.inr rfl)
  | resize => exact .frame (by constructor <;> rfl)
  | tick => exact .frame (by constructor <;> rfl)

theorem Inv.step {e : Event} (hi : Inv s) (h : s.step p e = some s') : Inv s' := by
  cases step_cases h with
  | frame hframe => exact hi.frame hframe
  | key _ _ hhandled => exact (hi.frame (by constructor <;> rfl)).handled hhandled
  | modal hchild hread hframe =>
    have hbusy := hread.busy.trans (hi.busy_of_mem hchild)
    exact ((hi.frame hread).announced hbusy _).frame hframe
  | ended _ hchild _ hdone _ hs' =>
    rcases hs' with rfl | rfl
    · rw [hdone]
      exact hi.done hchild _
    · rw [hdone]
      exact (hi.done hchild _).closed (done_settled hi hchild _)
  | closed hchild hdone _ hs' =>
    rw [hs', hdone]
    exact (hi.done hchild _).closed (done_settled hi hchild _)

/-- A command is started from an idle shell. -/
theorem step_spawned {e : Event} (h : s.step p e = some s') (hlt : s.spawned < s'.spawned) :
    s.state.busy = false := by
  cases step_cases h with
  | frame hframe => exact absurd hframe.spawned hlt.ne'
  | key _ _ hhandled =>
    cases hhandled with
    | idle _ hspawned _ _ hframe => exact absurd (hframe.spawned.trans hspawned) hlt.ne'
    | started _ _ hbusy => exact hbusy
  | modal _ hread hframe => exact absurd (hframe.spawned.trans hread.spawned) hlt.ne'
  | ended _ _ _ _ hsettled hs' =>
    rcases hs' with rfl | rfl <;> exact absurd hsettled.spawned hlt.ne'
  | closed _ _ hframe hs' =>
    rw [hs'] at hlt
    exact absurd hframe.spawned hlt.ne'

/-! ## Every run -/

/-- The start of the shell runs `doctor` or nothing. -/
theorem askWhatIsThere_cases (hbusy : s.state.busy = false) : s.askWhatIsThere = s ∨
    ∃ profile, s.state.active = some profile ∧ s.askWhatIsThere =
      ({ s with state := { s.state with busy := true } }.paint).runCli true
        (.doctor profile.profileDir) := by
  unfold Shell.askWhatIsThere
  cases hactive : s.state.active with
  | none => exact Or.inl rfl
  | some profile =>
    simp only
    split_ifs
    · exact Or.inl rfl
    · have hrun : reduce s.state (.run (.doctor profile.profileDir)) =
          ⟨{ s.state with busy := true }, [.runCli (.doctor profile.profileDir)]⟩ := by
        simp [reduce, hbusy]
      refine Or.inr ⟨profile, rfl, ?_⟩
      rw [hrun]

theorem Inv.askWhatIsThere (hi : Inv s) (hbusy : s.state.busy = false)
    (hinput : s.state.input = none) : Inv s.askWhatIsThere := by
  rcases askWhatIsThere_cases hbusy with hask | ⟨profile, -, hask⟩
  · rw [hask]
    exact hi
  · let t : Shell := { s with state := { s.state with busy := true } }
    have hpaint := paint_frame t
    have hopen : t.paint.state.input.isSome = s.state.input.isSome := hpaint.input
    rw [hinput] at hopen
    rw [hask]
    exact hi.started hbusy hpaint.children hpaint.spawned hpaint.busy (by simpa using hopen)

theorem Inv.start (profiles : List ProfileView) (columns rows : Option ℕ) (now : ℕ) :
    Inv (Shell.start profiles columns rows now) := by
  have hblank : Inv (blank profiles columns rows now) := by
    refine ⟨rfl, ?_, List.nodup_nil, ?_⟩
    · intro hrow
      cases hrow
    · intro child hchild
      cases hchild
  have hpaint := paint_frame (blank profiles columns rows now)
  have hopen : (blank profiles columns rows now).paint.state.input.isSome = false := hpaint.input
  exact (hblank.frame hpaint).askWhatIsThere hpaint.busy (by simpa using hopen)

end Shell

/-- **Single flight.**  At every moment of every run at most one child is in flight, the busy flag
    stands exactly while one is, no step starts a command under it, and the input row and a modal
    are not both open. -/
theorem single_flight {p : Platform} {profiles : List ProfileView} {columns rows : Option ℕ}
    {now : ℕ} {s : Shell} (h : Run (Shell.step p) Any (.start profiles columns rows now) s) :
    s.inFlight.length ≤ 1 ∧ (s.state.busy = true ↔ s.inFlight ≠ []) ∧
    (∀ e s', s.step p e = some s' → s.spawned < s'.spawned → s.state.busy = false) ∧
    (s.state.input = none ∨ s.state.modal = none) := by
  have hi : Shell.Inv s := h.invariant (fun _ _ _ hi _ hst => hi.step hst) (.start ..)
  have hflight := hi.flight
  refine ⟨?_, ?_, fun e s' => Shell.step_spawned, ?_⟩
  · rw [hflight]
    split_ifs <;> omega
  · rw [← List.length_pos_iff_ne_nil, hflight]
    split_ifs with hb <;> simp [hb]
  · cases hinput : s.state.input with
    | none => exact Or.inl rfl
    | some input =>
      have hmodal := (hi.row (by simp [hinput])).2
      exact Or.inr (by simpa using hmodal)

/-- A platform whose lower case is that of ASCII. -/
def asciiPlatform : Platform where
  toLowerCase text := text.map fun u => if 65 ≤ u ∧ u ≤ 90 then u + 32 else u
  explain _ _ _ := ([], [])

/-- A profile as the command line makes it. -/
def freshProfile (label dir : String) : ProfileView where
  label := js label
  profileDir := js dir
  relayUrl := []
  storeKeyEnv := []
  identityId := js "(run doctor)"
  deviceId := js "(run doctor)"
  contactCount := .ofNat 0
  published := false
  state := some .unknown
  storeKeyPresent := some false
  setup := some (List.replicate setupSteps .pending)
  contactCardPath := none

/-- `pd` typed under the first `doctor` starts nothing; after its end it is `p` that does. -/
theorem single_flight_keys : ∃ s, Run (Shell.step asciiPlatform) Any
    (.start [freshProfile "alice" "/alice"] none none 0) s ∧
    s.spawned = 2 ∧ s.inFlight.length ≤ 1 ∧ (s.state.busy = true ↔ s.inFlight ≠ []) := by
  have hspawned : (replay (Shell.step asciiPlatform) Any [.data [112, 100], .key, .key,
      .close 0 (some 2), .data [112, 100], .key, .key]
      (.start [freshProfile "alice" "/alice"] none none 0)).any (·.spawned == 2) = true := by
    decide +kernel
  cases hrun : replay (Shell.step asciiPlatform) Any [.data [112, 100], .key, .key,
      .close 0 (some 2), .data [112, 100], .key, .key]
      (.start [freshProfile "alice" "/alice"] none none 0) with
  | none =>
    rw [hrun] at hspawned
    cases hspawned
  | some s =>
    rw [hrun] at hspawned
    have hflight := single_flight (.of_replay hrun)
    exact ⟨s, .of_replay hrun, by simpa using hspawned, hflight.1, hflight.2.1⟩

end Echolet.Tui
