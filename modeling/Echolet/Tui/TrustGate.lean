/-
  The question of `contact import`.

  * `Asked`: what was announced and shown before an answer; `Gated` is the invariant that every
    affirmative answer was asked for, and that an open modal is on its way to it;
  * `Pending`: the modal that was confirmed is that of the import in flight, as long as no modal
    is confirmed after its child has ended (`Timely`);
  * `trust_gate`: no answer but after a question that was seen, and no contact in the roster but
    at the end of its own import.
-/
import Echolet.Tui.Attribution

namespace Echolet.Tui

/-! ## Questions -/

/-- All four identifiers are there, and none is empty. -/
def TrustIdentifiers.Complete (ids : TrustIdentifiers) : Prop :=
  ∃ identityId deviceId devicePubkey signalIdentityKey,
    ids = ⟨some identityId, some deviceId, some devicePubkey, some signalIdentityKey⟩ ∧
    identityId ≠ [] ∧ deviceId ≠ [] ∧ devicePubkey ≠ [] ∧ signalIdentityKey ≠ []

theorem complete_of_modal {modal : TrustModal} (h : trustModalIsComplete modal = true) :
    modal.identifiers.Complete := by
  obtain ⟨cardPath, profileLabel, ⟨a, b, c, d⟩, renderedAt⟩ := modal
  simp only [trustModalIsComplete, List.all_cons, List.all_nil, Bool.and_true, Bool.and_eq_true,
    Option.any_eq_true, Bool.not_eq_true', List.isEmpty_eq_false_iff] at h
  obtain ⟨⟨a, rfl, ha⟩, ⟨b, rfl, hb⟩, ⟨c, rfl, hc⟩, d, rfl, hd⟩ := h
  exact ⟨a, b, c, d, rfl, ha, hb, hc, hd⟩

/-- What is shown of complete identifiers is shown of identifiers that were complete. -/
theorem TrustIdentifiers.Complete.of_paintable {ids : TrustIdentifiers}
    (h : (paintableIdentifiers ids).Complete) : ids.Complete := by
  have hne : ∀ {o : Option JsString} {t : JsString}, o.map paintable = some t → t ≠ [] →
      ∃ u, o = some u ∧ u ≠ [] := by
    intro o t ho ht
    obtain ⟨u, rfl, rfl⟩ := Option.map_eq_some_iff.1 ho
    refine ⟨u, rfl, ?_⟩
    rintro rfl
    exact ht rfl
  obtain ⟨a, b, c, d⟩ := ids
  obtain ⟨a', b', c', d', heq, ha, hb, hc, hd⟩ := h
  simp only [paintableIdentifiers, TrustIdentifiers.mk.injEq] at heq
  obtain ⟨a, rfl, ha⟩ := hne heq.1 ha
  obtain ⟨b, rfl, hb⟩ := hne heq.2.1 hb
  obtain ⟨c, rfl, hc⟩ := hne heq.2.2.1 hc
  obtain ⟨d, rfl, hd⟩ := hne heq.2.2.2 hd
  exact ⟨a, b, c, d, rfl, ha, hb, hc, hd⟩

namespace Act

/-- A frame with a modal of these identifiers. -/
def Shows (ids : TrustIdentifiers) : Act → Prop
  | painted _ _ (some modal) _ => modal.identifiers = paintableIdentifiers ids
  | _ => False

/-- A frame at least as large as `MIN_VIEWPORT`. -/
def Legible : Act → Prop
  | painted columns rows _ _ => 72 ≤ columns ∧ 16 ≤ rows
  | _ => False

end Act

/-- A modal of this child is open: its identifiers were announced, every frame since shows them,
    and one that was seen is legible. -/
def Opened (trace : List Act) (pid : ℕ) (modal : TrustModal) : Prop :=
  ∃ earlier stderr ids frames, trace = earlier ++ .announced pid stderr :: frames ∧
    readIdentifiers stderr = some ids ∧ modal.identifiers = paintableIdentifiers ids ∧
    (∀ act ∈ frames, act.Shows ids) ∧ (modal.renderedAt ≠ none → ∃ act ∈ frames, act.Legible)

/-- The operator was asked, by a frame that could be read, whether to trust the four identifiers
    this child announced; the last frame is the one that closed the modal. -/
def Asked (trace : List Act) (pid : ℕ) : Prop :=
  ∃ earlier stderr ids frames columns rows input,
    trace = earlier ++ .announced pid stderr :: frames ++ [.painted columns rows none input] ∧
    readIdentifiers stderr = some ids ∧ ids.Complete ∧ (paintableIdentifiers ids).Complete ∧
    (∀ act ∈ frames, act.Shows ids) ∧ ∃ act ∈ frames, act.Legible

/-- A modal that is seen and complete, and closed by a frame. -/
theorem Opened.asked {trace : List Act} {pid columns rows : ℕ} {input : Option InputState}
    {modal : TrustModal}
    (h : Opened trace pid modal) (hseen : modal.renderedAt ≠ none)
    (hcomplete : trustModalIsComplete modal = true) :
    Asked (trace ++ [.painted columns rows none input]) pid := by
  obtain ⟨earlier, stderr, ids, frames, rfl, hread, hids, hshows, hlegible⟩ := h
  have hshown := complete_of_modal hcomplete
  rw [hids] at hshown
  exact ⟨earlier, stderr, ids, frames, columns, rows, input, rfl, hread, hshown.of_paintable, hshown, hshows,
    hlegible hseen⟩

/-- The acts before one of a longer trace. -/
theorem append_eq_split {α : Type} {l before after : List α} {a x : α}
    (h : l ++ [a] = before ++ x :: after) :
    (l = before ∧ a = x) ∨ ∃ after', l = before ++ x :: after' := by
  rcases List.eq_nil_or_concat after with rfl | ⟨after', y, rfl⟩
  · obtain ⟨hl, ha⟩ := List.append_inj' h rfl
    exact Or.inl ⟨hl, by simpa using ha⟩
  · rw [List.concat_eq_append, ← List.cons_append, ← List.append_assoc] at h
    exact Or.inr ⟨after', (List.append_inj' h rfl).1⟩

/-- The identifiers of a contact. -/
def ContactView.identifiers (contact : ContactView) : TrustIdentifiers :=
  ⟨some contact.identityId, some contact.deviceId, some contact.devicePubkey,
    some contact.signalIdentityKey⟩

/-! ## What the reducer answers -/

/-- What an intent does with the modal: nothing, or it closes it with an answer. -/
inductive Answers (state : OperatorState) (step : Step) : Prop
  | none (hmodal : step.state.modal = state.modal)
      (h : ∀ answer, .answerTrustPrompt answer ∉ step.effects)
  | confirm {modal : TrustModal} (hmodal : state.modal = some modal) (hseen : modal.renderedAt ≠ .none)
      (hcomplete : trustModalIsComplete modal = true)
      (h : step = ⟨{ state with modal := .none }, [.answerTrustPrompt true]⟩)
  | cancel {modal : TrustModal} (hmodal : state.modal = some modal)
      (h : step = ⟨{ state with modal := .none }, [.answerTrustPrompt false]⟩)

theorem reduce_answers (state : OperatorState) (intent : Intent) :
    Answers state (reduce state intent) := by
  cases intent with
  | trustConfirm =>
    simp only [reduce]
    split
    · exact .none rfl fun _ => List.not_mem_nil
    · next modal hmodal =>
      split_ifs with hgate
      · exact .none rfl fun _ => List.not_mem_nil
      · simp only [not_or, Bool.not_eq_false] at hgate
        exact .confirm hmodal hgate.1 hgate.2 rfl
  | trustCancel =>
    simp only [reduce]
    split
    · exact .none rfl fun _ => List.not_mem_nil
    · next modal hmodal => exact .cancel hmodal rfl
  | _ =>
    refine .none ?_ fun answer => ?_
    · simp only [reduce] <;> (repeat' split) <;> rfl
    · simp only [reduce]
      (repeat' split) <;> simp

theorem reduce_contacts (state : OperatorState) (intent : Intent) :
    (reduce state intent).state.contacts = state.contacts := by
  cases intent <;> simp only [reduce] <;> (repeat' split) <;> rfl

/-! ## Every answer was asked for -/

namespace Shell

variable {p : Platform} {s s' : Shell}

/-- Every affirmative answer was asked for, and a modal that is open is the question of the child
    that waits. -/
structure Gated (s : Shell) : Prop where
  past : ∀ before pid after, s.trace = before ++ .answered pid true :: after → Asked before pid
  card : ∀ modal, s.state.modal = some modal → ∃ pid, Opened s.trace pid modal ∧
    (s.awaitingTrust = none ∨ s.awaitingTrust = some pid)

/-- Another act, after which no modal is open, or one that was opened. -/
theorem Gated.act (h : Gated s) {act : Act} (htrace : s'.trace = s.trace ++ [act])
    (hact : ∀ pid, act = .answered pid true → Asked s.trace pid)
    (hcard : ∀ modal, s'.state.modal = some modal → ∃ pid, Opened s'.trace pid modal ∧
      (s'.awaitingTrust = none ∨ s'.awaitingTrust = some pid)) : Gated s' where
  past := by
    intro before pid after heq
    rw [htrace] at heq
    rcases append_eq_split heq with ⟨rfl, rfl⟩ | ⟨after', hs⟩
    · exact hact pid rfl
    · exact h.past before pid after' hs
  card := hcard

theorem Gated.paint (h : Gated s) : Gated s.paint := by
  have hopen : ∀ modal, s.state.modal = some modal → ∀ renderedAt,
      (renderedAt ≠ none → modal.renderedAt ≠ none ∨ s.belowMinViewport = false) →
      ∃ pid, Opened (s.trace ++ [s.frame]) pid { modal with renderedAt } ∧
        (s.awaitingTrust = none ∨ s.awaitingTrust = some pid) := by
    intro modal hmodal renderedAt hseen
    obtain ⟨pid, ⟨earlier, stderr, ids, frames, htrace, hread, hids, hshows, hlegible⟩, hwaits⟩ :=
      h.card modal hmodal
    refine ⟨pid, ⟨earlier, stderr, ids, frames ++ [s.frame], ?_, hread, hids, ?_, ?_⟩, hwaits⟩
    · rw [htrace, List.append_assoc, List.cons_append]
    · intro act hact
      rcases List.mem_append.1 hact with hact | hact
      · exact hshows act hact
      · rw [List.mem_singleton.1 hact, frame, hmodal]
        exact hids
    · intro hne
      rcases hseen hne with hbefore | hlarge
      · obtain ⟨act, hact, hleg⟩ := hlegible hbefore
        exact ⟨act, List.mem_append_left _ hact, hleg⟩
      · refine ⟨_, List.mem_append_right _ (List.mem_singleton_self _), ?_⟩
        simpa [belowMinViewport, frame, Act.Legible] using hlarge
  unfold Shell.paint
  simp only
  split_ifs with hbelow
  · refine h.act rfl (fun pid hact => by cases hact) fun modal hmodal => ?_
    exact hopen modal hmodal modal.renderedAt Or.inl
  · refine h.act rfl (fun pid hact => by cases hact) fun modal hmodal => ?_
    obtain ⟨m, hm, rfl⟩ := Option.map_eq_some_iff.1 hmodal
    exact hopen m hm _ fun _ => Or.inr (Bool.eq_false_iff.2 hbelow)

/-- What neither acts nor touches the modal. -/
theorem Gated.still (h : Gated s) (htrace : s'.trace = s.trace)
    (hmodal : s'.state.modal = s.state.modal)
    (hwaits : s'.awaitingTrust = none ∨ s'.awaitingTrust = s.awaitingTrust) : Gated s' where
  past := by
    rw [htrace]
    exact h.past
  card := by
    intro modal hm
    rw [hmodal] at hm
    obtain ⟨pid, hopen, hpid⟩ := h.card modal hm
    refine ⟨pid, htrace ▸ hopen, ?_⟩
    rcases hwaits with hnone | hsame
    · exact Or.inl hnone
    · rw [hsame]
      exact hpid

theorem Gated.resume (h : Gated s) : Gated s.resume := by
  unfold Shell.resume
  split_ifs
  · exact h.paint
  · exact h.still rfl rfl (Or.inr rfl)

/-- Effects without an answer. -/
theorem Gated.apply : ∀ {effects : List Effect} {s : Shell}, Gated s →
    (∀ answer, .answerTrustPrompt answer ∉ effects) → Gated (effects.foldl Shell.apply s)
  | [], _, h, _ => h
  | effect :: effects, s, h, hno => by
    rw [List.foldl_cons]
    refine Gated.apply ?_ fun answer hmem => hno answer (List.mem_cons_of_mem _ hmem)
    cases effect with
    | answerTrustPrompt answer => exact absurd List.mem_cons_self (hno answer)
    | _ => exact h.still rfl rfl (Or.inr rfl)

/-- The shell after the frame that closes a modal, before the answer is written. -/
theorem take_closed {step : Step} (hclosed : step.state.modal = none) :
    (s.take step).paint.trace = s.trace ++ [.painted (max 1 (s.columns.getD 72))
      (max 1 (s.rows.getD 16)) none step.state.input] ∧ (s.take step).paint.state.modal = none ∧
    (s.take step).paint.awaitingTrust = s.awaitingTrust := by
  unfold Shell.paint Shell.take frame
  simp only
  split_ifs <;> simp [hclosed]

/-- **One key.** -/
theorem Gated.handleKey (h : Gated s) (sequence : JsString) : Gated (s.handleKey p sequence) := by
  unfold Shell.handleKey
  cases mapKey p (decodeKey p sequence) s.state with
  | none => exact h
  | some intent =>
    -- the answer is written after the frame that closes the modal
    have hclose : ∀ {step : Step} {answer : Bool}, step.effects = [.answerTrustPrompt answer] →
        step.state.modal = none → (answer = true → ∃ modal, s.state.modal = some modal ∧
          modal.renderedAt ≠ none ∧ trustModalIsComplete modal = true) →
        Gated ((s.take step).paint.apply (.answerTrustPrompt answer)) := by
      intro step answer heffects hclosed hasked
      obtain ⟨htrace, hmodal, hwaits⟩ := take_closed (s := s) hclosed
      have hframed : Gated (s.take step).paint :=
        h.act htrace (fun pid hact => by cases hact) fun modal hm => by rw [hmodal] at hm; cases hm
      cases hpid : s.awaitingTrust with
      | none =>
        refine hframed.still ?_ rfl (Or.inr rfl)
        simp [Shell.apply, note, hwaits, hpid]
      | some pid =>
        have hwritten : ((s.take step).paint.apply (.answerTrustPrompt answer)).trace =
            (s.take step).paint.trace ++ [.answered pid answer] := by
          simp [Shell.apply, note, hwaits, hpid]
        refine hframed.act hwritten ?_ ?_
        · intro pid' hact
          cases hact
          obtain ⟨modal, hm, hseen, hcomplete⟩ := hasked rfl
          obtain ⟨pid', hopened, hpid'⟩ := h.card modal hm
          rw [hpid] at hpid'
          rcases hpid' with hnone | hsame
          · cases hnone
          · cases hsame
            rw [htrace]
            exact hopened.asked hseen hcomplete
        · intro modal hm
          have hm' : (s.take step).paint.state.modal = some modal := hm
          rw [hmodal] at hm'
          cases hm'
    simp only
    cases reduce_answers s.state intent with
    | none hmodal hno =>
      have htaken : Gated (s.take (reduce s.state intent)) := h.still rfl hmodal (Or.inr rfl)
      have hpainted := htaken.paint
      split
      · exact hpainted.resume
      · exact hpainted.apply hno
    | @confirm modal hm hseen hcomplete hstep =>
      rw [hstep]
      exact hclose rfl rfl fun _ => ⟨modal, hm, hseen, hcomplete⟩
    | cancel hm hstep =>
      rw [hstep]
      exact hclose rfl rfl fun hfalse => by cases hfalse

/-- A question that was just announced. -/
theorem Gated.readStderr (h : Gated s) (child : Child) (bytes : List ℕ) :
    Gated (s.readStderr child bytes) := by
  unfold Shell.readStderr
  have hread : Gated (s.modifyChild child.pid ({ · with stderr := child.stderr ++ decodeUtf8 bytes })) :=
    h.still rfl rfl (Or.inr rfl)
  simp only
  split
  · next dir source ids hrequest hids =>
    split_ifs
    · exact hread
    · refine Gated.paint (h.act (show _ = s.trace ++ [.announced child.pid
        (child.stderr ++ decodeUtf8 bytes)] from rfl) (fun pid hact => by cases hact)
        fun modal hm => ?_)
      cases hm
      refine ⟨child.pid, ⟨s.trace, _, ids, [], rfl, hids, rfl, ?_, fun hne => absurd rfl hne⟩,
        Or.inr rfl⟩
      intro act hact
      cases hact
  · exact hread

theorem Gated.closeImport (h : Gated s) (outcome : CliOutcome) : Gated (s.closeImport outcome) := by
  have hobserve : ∀ modal, Gated (s.observeContact modal) := by
    intro modal
    unfold observeContact
    split
    · split_ifs
      · exact h
      · exact h.still rfl rfl (Or.inr rfl)
    · exact h
  have hclear : ∀ {t : Shell}, Gated t → Gated { t with confirmed := none } :=
    fun ht => ht.still rfl rfl (Or.inr rfl)
  unfold Shell.closeImport
  refine hclear ?_
  split
  · split_ifs
    · exact hobserve _
    · exact h
  · exact h

theorem Gated.settle (h : Gated s) (child : Child) (outcome : CliOutcome) :
    Gated (s.settle p child outcome) := by
  have hend : ∀ {t : Shell}, Gated t → Gated (if child.unasked then if t.running then t.paint else t
      else t.resume) := by
    intro t ht
    split_ifs
    · exact ht.paint
    · exact ht
    · exact ht.resume
  have hfolded : ∀ {t : Shell}, Gated t → Gated { t with state :=
      { applyOutcome t.state child.request outcome t.now with
        busy := false, observedAtMs := some t.now } } :=
    fun ht => ht.still rfl (applyOutcome_frame _ _ _ _).1 (Or.inr rfl)
  have hnoted : Gated (({ s with inFlightCommand := none }).note
      (outcomeLine p child.request.command outcome)) := h.still rfl rfl (Or.inr rfl)
  unfold Shell.settle
  refine hend ?_
  split_ifs
  · exact (hfolded hnoted).closeImport outcome
  · exact hfolded hnoted

theorem Gated.done (h : Gated s) (child : Child) (exitCode : ℕ) :
    Gated (s.done p child exitCode) := by
  unfold Shell.done
  simp only
  split_ifs
  · exact h.still rfl rfl (Or.inl rfl)
  · have hended : Gated (s.ended child) := h.still rfl rfl (Or.inl rfl)
    exact hended.settle child _

/-- **One step.** -/
theorem Gated.step {e : Event} (hg : Gated s) (h : s.step p e = some s') : Gated s' := by
  cases step_occurs h with
  | @handled sequence keys =>
    have hnext : Gated { s with keys } := hg.still rfl rfl (Or.inr rfl)
    exact hnext.handleKey sequence
  | resumed => exact Gated.resume (hg.still rfl rfl (Or.inr rfl))
  | chunk =>
    unfold readChunk
    simp only
    split_ifs
    all_goals exact hg.still rfl rfl (Or.inr rfl)
  | stderr bytes => exact hg.readStderr _ bytes
  | error => exact hg.done _ 5
  | close code => exact (hg.done _ (code.getD 1)).still rfl rfl (Or.inr rfl)
  | _ => exact hg.still rfl rfl (Or.inr rfl)

theorem Gated.start (profiles : List ProfileView) (columns rows : Option ℕ) (now : ℕ) :
    Gated (Shell.start profiles columns rows now) := by
  have hblank : Gated (blank profiles columns rows now) := by
    refine ⟨fun before pid after h => ?_, fun modal h => by cases h⟩
    exact absurd h (by simp [blank])
  have hpaint := paint_frame (blank profiles columns rows now)
  rcases askWhatIsThere_cases hpaint.busy with hask | ⟨profile, -, hask⟩
  · rw [Shell.start, hask]
    exact hblank.paint
  · rw [Shell.start, hask]
    have hbusy : Gated { (blank profiles columns rows now).paint with
        state := { (blank profiles columns rows now).paint.state with busy := true } } :=
      hblank.paint.still rfl rfl (Or.inr rfl)
    exact hbusy.paint.still rfl rfl (Or.inr rfl)

/-! ## The import in flight -/

/-- The answer that the next key gives. -/
def answering (p : Platform) (s : Shell) : Event → Option Bool
  | .key => if s.running then do
      let sequence ← s.keys.head?
      let intent ← mapKey p (decodeKey p sequence) s.state
      (reduce s.state intent).effects.findSome? fun
        | .answerTrustPrompt answer => some answer
        | _ => none
    else none
  | _ => none

/-- No key confirms a modal when no command is in flight any more. -/
def Timely (p : Platform) (s : Shell) (e : Event) : Prop :=
  s.answering p e = some true → s.state.busy = true

instance (p : Platform) (s : Shell) (e : Event) : Decidable (s.Timely p e) :=
  inferInstanceAs (Decidable (_ → _))

/-- These identifiers are what was shown of those a child announced. -/
def Announced (trace : List Act) (pid : ℕ) (shown : TrustIdentifiers) : Prop :=
  ∃ stderr ids, .announced pid stderr ∈ trace ∧ readIdentifiers stderr = some ids ∧
    shown = paintableIdentifiers ids

theorem Announced.mono {trace trace' : List Act} {pid : ℕ} {shown : TrustIdentifiers}
    (h : Announced trace pid shown) (ht : trace ⊆ trace') : Announced trace' pid shown := by
  obtain ⟨stderr, ids, hmem, hread⟩ := h
  exact ⟨stderr, ids, ht hmem, hread⟩

/-- An import in flight announced these identifiers. -/
def Owns (s : Shell) (shown : TrustIdentifiers) : Prop :=
  ∃ core ∈ s.inFlight.map Child.core, core.2.1.command = .contactImport ∧
    Announced s.trace core.1 shown

/-- The modal that is open under a command, and the one that was confirmed, are of the import in
    flight. -/
structure Pending (s : Shell) : Prop where
  card : ∀ modal, s.state.modal = some modal → s.state.busy = true → s.Owns modal.identifiers
  confirmed : ∀ modal, s.confirmed = some modal → s.Owns modal.identifiers

theorem Owns.mono {shown : TrustIdentifiers} (h : s.Owns shown)
    (hflight : s'.inFlight.map Child.core = s.inFlight.map Child.core) (ht : s.trace ⊆ s'.trace) :
    s'.Owns shown := by
  obtain ⟨core, hmem, himport, hannounced⟩ := h
  exact ⟨core, hflight ▸ hmem, himport, hannounced.mono ht⟩

/-- What starts and ends no command, and opens and confirms no modal. -/
theorem Pending.still (h : Pending s)
    (hflight : s'.inFlight.map Child.core = s.inFlight.map Child.core) (ht : s.trace ⊆ s'.trace)
    (hbusy : s'.state.busy = s.state.busy)
    (hcard : ∀ modal, s'.state.modal = some modal →
      s.state.modal.map (·.identifiers) = some modal.identifiers)
    (hconfirmed : s'.confirmed = s.confirmed) : Pending s' where
  card := by
    intro modal hm hb
    obtain ⟨m, hs, hids⟩ := Option.map_eq_some_iff.1 (hcard modal hm)
    rw [← hids]
    exact (h.card m hs (hbusy ▸ hb)).mono hflight ht
  confirmed := by
    intro modal hm
    rw [hconfirmed] at hm
    exact (h.confirmed modal hm).mono hflight ht

theorem Pending.paint (h : Pending s) : Pending s.paint := by
  unfold Shell.paint
  simp only
  split_ifs
  · refine h.still rfl (List.subset_append_left _ _) rfl (fun modal hm => ?_) rfl
    have hm' : s.state.modal = some modal := hm
    rw [hm', Option.map_some]
  · refine h.still rfl (List.subset_append_left _ _) rfl (fun modal hm => ?_) rfl
    obtain ⟨m, hs, rfl⟩ := Option.map_eq_some_iff.1 hm
    have hs' : s.state.modal = some m := hs
    rw [hs', Option.map_some]

theorem paint_confirmed (s : Shell) : s.paint.confirmed = s.confirmed := by
  unfold Shell.paint
  simp only
  split_ifs <;> rfl

theorem Pending.same (h : Pending s)
    (hflight : s'.inFlight.map Child.core = s.inFlight.map Child.core) (ht : s'.trace = s.trace)
    (hbusy : s'.state.busy = s.state.busy) (hmodal : s'.state.modal = s.state.modal)
    (hconfirmed : s'.confirmed = s.confirmed) : Pending s' := by
  refine h.still hflight (by rw [ht]; exact List.Subset.refl _) hbusy (fun modal hm => ?_) hconfirmed
  rw [← hmodal, hm, Option.map_some]

theorem Pending.resume (h : Pending s) : Pending s.resume := by
  unfold Shell.resume
  split_ifs
  · exact h.paint
  · exact h.same rfl rfl rfl rfl rfl

theorem Pending.apply : ∀ {effects : List Effect} {s : Shell}, Pending s →
    (∀ request, .runCli request ∉ effects) → Pending (effects.foldl Shell.apply s)
  | [], _, h, _ => h
  | effect :: effects, s, h, hno => by
    rw [List.foldl_cons]
    refine Pending.apply ?_ fun request hmem => hno request (List.mem_cons_of_mem _ hmem)
    cases effect with
    | runCli request => exact absurd List.mem_cons_self (hno request)
    | answerTrustPrompt answer =>
      refine h.still rfl (List.subset_append_left _ _) rfl (fun modal hm => ?_) rfl
      have hm' : s.state.modal = some modal := hm
      rw [hm', Option.map_some]
    | quit => exact h.same rfl rfl rfl rfl rfl

theorem take_unconfirmed {step : Step} (h : ∀ answer, .answerTrustPrompt answer ∉ step.effects) :
    (s.take step).confirmed = s.confirmed := by
  unfold take
  simp only
  refine if_neg fun hconfirms => ?_
  rw [Bool.and_eq_true, List.any_eq_true] at hconfirms
  obtain ⟨-, effect, hmem, heffect⟩ := hconfirms
  cases effect with
  | answerTrustPrompt answer => exact h answer hmem
  | _ => cases heffect

theorem take_confirmed {step : Step} {answer : Bool} {modal : TrustModal}
    (h : step.effects = [.answerTrustPrompt answer]) (hm : s.state.modal = some modal) :
    (s.take step).confirmed = if answer then some modal else s.confirmed := by
  unfold take
  cases answer <;> simp [h, hm]

/-- With no command in flight no modal was confirmed. -/
theorem Pending.idle (h : Pending s) (hidle : s.inFlight = []) : s.confirmed = none := by
  rw [Option.eq_none_iff_forall_ne_some]
  intro modal hm
  obtain ⟨core, hmem, -⟩ := h.confirmed modal hm
  rw [hidle] at hmem
  cases hmem

/-- **One key.** -/
theorem Pending.handleKey (h : Pending s) (hi : Inv s) {sequence : JsString}
    (hrunning : s.running = true) {keys : List JsString}
    (htimely : Timely p { s with keys := sequence :: keys } .key) :
    Pending (s.handleKey p sequence) := by
  unfold Shell.handleKey
  cases hkey : mapKey p (decodeKey p sequence) s.state with
  | none => exact h
  | some intent =>
    simp only
    have hanswer : ∀ {answer : Bool}, (reduce s.state intent).effects = [.answerTrustPrompt answer] →
        answer = true → s.state.busy = true := by
      intro answer heffects htrue
      refine htimely ?_
      simp [answering, hrunning, hkey, heffects, htrue]
    have hclose : ∀ {step : Step} {answer : Bool} {modal : TrustModal},
        step.effects = [.answerTrustPrompt answer] → step.state.modal = none →
        s.state.modal = some modal →
        (∀ m, (if answer then some modal else s.confirmed) = some m → s.Owns m.identifiers) →
        Pending ((s.take step).paint.apply (.answerTrustPrompt answer)) := by
      intro step answer modal heffects hclosed hm howns
      obtain ⟨htrace, hmodal, -⟩ := take_closed (s := s) hclosed
      have hconfirmed : (s.take step).paint.confirmed = if answer then some modal else s.confirmed := by
        rw [paint_confirmed, take_confirmed heffects hm]
      have hflight : (s.take step).paint.inFlight.map Child.core = s.inFlight.map Child.core :=
        (paint_frame _).inFlight
      have hsubset : s.trace ⊆ ((s.take step).paint.apply (.answerTrustPrompt answer)).trace := by
        refine List.Subset.trans ?_ (List.subset_append_left _ _)
        rw [htrace]
        exact List.subset_append_left _ _
      refine ⟨fun m hm _ => ?_, fun m hm => (howns m (hconfirmed.symm.trans hm)).mono hflight hsubset⟩
      exact absurd (hmodal.symm.trans hm) (by simp)
    cases reduce_answers s.state intent with
    | none hmodal hno =>
      have hunconfirmed := take_unconfirmed (s := s) hno
      rcases reduce_cases s.state intent with ⟨request, heffects, hbusy, hstarts⟩ | ⟨hrun, hidle⟩
      · simp only [heffects]
        have hclosed : s.state.modal = none := by
          generalize (reduce s.state intent).state = state at hstarts
          cases hstarts with
          | run => exact (mapKey_run hkey).1
          | submit _ hclosed => exact hclosed
        have hpaint := paint_frame (s.take (reduce s.state intent))
        have htaken : (s.take (reduce s.state intent)).paint.state.modal = none := by
          have hsome := hpaint.modal
          rw [show (s.take (reduce s.state intent)).state.modal = none from hmodal.trans hclosed]
            at hsome
          simpa using hsome
        have hconfirmed : (s.take (reduce s.state intent)).paint.confirmed = none := by
          rw [paint_confirmed, hunconfirmed, h.idle (hi.idle hbusy)]
        refine ⟨fun modal hm _ => ?_, fun modal hm => ?_⟩
        · exact absurd (htaken.symm.trans hm) (by simp)
        · exact absurd (hconfirmed.symm.trans hm) (by simp)
      · have htaken : Pending (s.take (reduce s.state intent)) :=
          h.same rfl rfl hidle.busy hmodal hunconfirmed
        split
        · exact htaken.paint.resume
        · exact htaken.paint.apply hrun
    | @confirm modal hm hseen hcomplete hstep =>
      have howns := h.card modal hm (hanswer (by rw [hstep]) rfl)
      rw [hstep]
      refine hclose rfl rfl hm fun modal' hm' => ?_
      cases hm'
      exact howns
    | cancel hm hstep =>
      rw [hstep]
      exact hclose rfl rfl hm h.confirmed

theorem modifyChild_inFlight (s : Shell) (pid : ℕ) {f : Child → Child}
    (hf : ∀ child, (f child).core = child.core) :
    (s.modifyChild pid f).inFlight.map Child.core = s.inFlight.map Child.core :=
  (s.modifyChild_frame pid hf).inFlight

/-- The child that announces is in flight. -/
theorem Pending.readStderr (h : Pending s) {child : Child} (hchild : child ∈ s.inFlight)
    (bytes : List ℕ) : Pending (s.readStderr child bytes) := by
  unfold Shell.readStderr
  have hread : Pending (s.modifyChild child.pid ({ · with stderr := child.stderr ++ decodeUtf8 bytes })) :=
    h.same (s.modifyChild_inFlight _ fun _ => rfl) rfl rfl rfl rfl
  simp only
  split
  · next dir source ids hrequest hids =>
    split_ifs
    · exact hread
    · have hflight := (modifyChild_inFlight (s.modifyChild child.pid
        ({ · with stderr := child.stderr ++ decodeUtf8 bytes })) child.pid
        (f := ({ · with announced := true })) fun _ => rfl).trans
        (s.modifyChild_inFlight child.pid fun _ => rfl)
      refine Pending.paint ⟨fun modal hm _ => ?_, fun modal hm => ?_⟩
      · cases hm
        refine ⟨child.core, hflight.symm ▸ List.mem_map_of_mem hchild,
          by rw [Child.core, hrequest]; rfl, child.stderr ++ decodeUtf8 bytes, ids,
          List.mem_append_right _ (List.mem_singleton_self _), hids, rfl⟩
      · exact (h.confirmed modal hm).mono hflight (List.subset_append_left _ _)
  · exact hread

/-- **One result.** No modal is confirmed any more. -/
theorem settle_confirmed (s : Shell) (child : Child) (outcome : CliOutcome)
    (h : child.request.command ≠ .contactImport → s.confirmed = none) :
    (s.settle p child outcome).confirmed = none := by
  have hend : ∀ t : Shell, (if child.unasked then if t.running then t.paint else t
      else t.resume).confirmed = t.confirmed := by
    intro t
    unfold Shell.resume
    split_ifs <;> first | rfl | exact paint_confirmed t
  unfold Shell.settle
  rw [hend]
  split_ifs with himport
  · rfl
  · exact h himport

theorem Pending.done (h : Pending s) (hi : Inv s) {child : Child} (hchild : child ∈ s.inFlight)
    (exitCode : ℕ) : Pending (s.done p child exitCode) := by
  obtain ⟨hmem, hopen⟩ := List.mem_filter.1 hchild
  have hconfirmed : (s.done p child exitCode).confirmed = none := by
    unfold Shell.done
    simp only
    rw [if_neg (by simpa using hopen)]
    refine settle_confirmed _ _ _ fun hother => ?_
    show s.confirmed = none
    rw [Option.eq_none_iff_forall_ne_some]
    intro modal hm
    obtain ⟨core, hcore, himport, -⟩ := h.confirmed modal hm
    rw [hi.only hchild, List.map_cons, List.map_nil, List.mem_singleton] at hcore
    rw [hcore] at himport
    exact hother himport
  have hbusy : (s.done p child exitCode).state.busy = false := by
    rcases done_cases p s child exitCode with ⟨hs, -⟩ | ⟨-, hsettled⟩
    · rw [hs] at hopen
      cases hopen
    · exact hsettled.busy
  refine ⟨fun modal _ hb => ?_, fun modal hm => ?_⟩
  · rw [hbusy] at hb
    cases hb
  · rw [hconfirmed] at hm
    cases hm

/-- **One step.** -/
theorem Pending.step {e : Event} (hp : Pending s) (hi : Inv s) (htimely : s.Timely p e)
    (h : s.step p e = some s') : Pending s' := by
  have hdone : ∀ {pid : ℕ} {child : Child} (exitCode : ℕ), s.child? pid = some child →
      Pending (s.done p child exitCode) := by
    intro pid child exitCode hchild
    cases hs : child.settled with
    | true =>
      unfold Shell.done
      simp only
      rw [if_pos hs]
      exact hp.same rfl rfl rfl rfl rfl
    | false =>
      exact hp.done hi (List.mem_filter.2 ⟨(child?_mem hchild).1, by simp [hs]⟩) exitCode
  cases step_occurs h with
  | @handled sequence keys hkeys hrunning =>
    have hnext : Pending { s with keys } := hp.same rfl rfl rfl rfl rfl
    have htimely' : Timely p { s with keys := sequence :: keys } .key := by
      rw [← hkeys]
      exact htimely
    exact hnext.handleKey (hi.frame (by constructor <;> rfl)) hrunning htimely'
  | resumed => exact Pending.resume (hp.same rfl rfl rfl rfl rfl)
  | chunk =>
    unfold readChunk
    simp only
    split_ifs
    all_goals exact hp.same rfl rfl rfl rfl rfl
  | @stdout pid => exact hp.same (s.modifyChild_inFlight pid fun _ => rfl) rfl rfl rfl rfl
  | stderr bytes hchild hopen =>
    exact hp.readStderr (List.mem_filter.2 ⟨(child?_mem hchild).1, by simp [hopen]⟩) bytes
  | error hchild => exact hdone 5 hchild
  | close code hchild =>
    refine (hdone (code.getD 1) hchild).same ?_ rfl rfl rfl rfl
    rw [letGo_inFlight (done_settled hi hchild _)]
  | _ => exact hp.same rfl rfl rfl rfl rfl

/-! ## The roster -/

/-- At this event the import of a contact ends, and it succeeded. -/
def Joins (s : Shell) (e : Event) (shown : TrustIdentifiers) : Prop :=
  ∃ child outcome, s.ending e = some (child, outcome) ∧ child.request.command = .contactImport ∧
    outcome.ok = true ∧ Announced s.trace child.pid shown

theorem paint_contacts (s : Shell) : s.paint.state.contacts = s.state.contacts := by
  unfold Shell.paint
  simp only
  split_ifs <;> rfl

theorem resume_contacts (s : Shell) : s.resume.state.contacts = s.state.contacts := by
  unfold Shell.resume
  split_ifs
  · exact s.paint_contacts
  · rfl

theorem apply_contacts : ∀ (effects : List Effect) (s : Shell),
    (effects.foldl Shell.apply s).state.contacts = s.state.contacts
  | [], _ => rfl
  | effect :: effects, s => by
    rw [List.foldl_cons, apply_contacts]
    cases effect <;> rfl

theorem handleKey_contacts (s : Shell) (sequence : JsString) :
    (s.handleKey p sequence).state.contacts = s.state.contacts := by
  unfold Shell.handleKey
  split
  · rfl
  · next intent _ =>
    have htaken : (s.take (reduce s.state intent)).paint.state.contacts = s.state.contacts := by
      rw [paint_contacts]
      exact reduce_contacts s.state intent
    simp only
    split
    · rw [resume_contacts, htaken]
    · rw [apply_contacts, htaken]

theorem readStderr_contacts (s : Shell) (child : Child) (bytes : List ℕ) :
    (s.readStderr child bytes).state.contacts = s.state.contacts := by
  unfold Shell.readStderr
  simp only
  split
  · split_ifs
    · rfl
    · exact paint_contacts _
  · rfl

/-- Only a modal that was confirmed joins the roster. -/
theorem closeImport_contacts {outcome : CliOutcome} {contact : ContactView}
    (h : contact ∈ (s.closeImport outcome).state.contacts) : contact ∈ s.state.contacts ∨
      outcome.ok = true ∧ ∃ modal, s.confirmed = some modal ∧
        contact.identifiers = modal.identifiers := by
  unfold Shell.closeImport at h
  split at h
  · next modal hmodal =>
    split_ifs at h with hok
    · unfold observeContact at h
      split at h
      · next identityId deviceId devicePubkey signalIdentityKey hids =>
        split_ifs at h
        · exact Or.inl h
        · rcases List.mem_append.1 h with h | h
          · exact Or.inl h
          · rw [List.mem_singleton.1 h]
            exact Or.inr ⟨hok, modal, hmodal, hids.symm⟩
      · exact Or.inl h
    · exact Or.inl h
  · exact Or.inl h

/-- **One result.** -/
theorem settle_contacts {child : Child} {outcome : CliOutcome} {contact : ContactView}
    (h : contact ∈ (s.settle p child outcome).state.contacts) : contact ∈ s.state.contacts ∨
      child.request.command = .contactImport ∧ outcome.ok = true ∧
        ∃ modal, s.confirmed = some modal ∧ contact.identifiers = modal.identifiers := by
  have hend : ∀ t : Shell, (if child.unasked then if t.running then t.paint else t
      else t.resume).state.contacts = t.state.contacts := by
    intro t
    split_ifs
    · exact t.paint_contacts
    · rfl
    · exact t.resume_contacts
  let noted := ({ s with inFlightCommand := none }).note (outcomeLine p child.request.command outcome)
  have hsame : contact ∈ (applyOutcome noted.state child.request outcome noted.now).contacts →
      contact ∈ s.state.contacts := by
    rw [applyOutcome_contacts]
    exact id
  unfold Shell.settle at h
  rw [hend] at h
  split_ifs at h with himport
  · rcases closeImport_contacts h with h | ⟨hok, hconfirmed⟩
    · exact Or.inl (hsame h)
    · exact Or.inr ⟨himport, hok, hconfirmed⟩
  · exact Or.inl (hsame h)

/-- **One step.** A contact joins the roster at the end of its own import. -/
theorem Pending.joins (hp : Pending s) (hi : Inv s) {e : Event} (h : s.step p e = some s')
    {contact : ContactView} (hc : contact ∈ s'.state.contacts) :
    contact ∈ s.state.contacts ∨ s.Joins e contact.identifiers := by
  have hdone : ∀ {pid : ℕ} {child : Child} (exitCode : ℕ), e.ends = some (pid, exitCode) →
      s.child? pid = some child → contact ∈ (s.done p child exitCode).state.contacts →
      contact ∈ s.state.contacts ∨ s.Joins e contact.identifiers := by
    intro pid child exitCode he hchild hmem
    unfold Shell.done at hmem
    simp only at hmem
    split_ifs at hmem with hs
    · exact Or.inl hmem
    · rcases settle_contacts hmem with hmem | ⟨himport, hok, modal, hconfirmed, hids⟩
      · exact Or.inl hmem
      · have hflying : child ∈ s.inFlight :=
          List.mem_filter.2 ⟨(child?_mem hchild).1, by simpa using hs⟩
        obtain ⟨core, hcore, -, hannounced⟩ := hp.confirmed modal hconfirmed
        rw [hi.only hflying, List.map_cons, List.map_nil, List.mem_singleton] at hcore
        rw [hcore, ← hids] at hannounced
        refine Or.inr ⟨child, _, ?_, himport, hok, hannounced⟩
        simp [ending, he, hchild, hs]
  cases step_occurs h with
  | handled =>
    rw [handleKey_contacts] at hc
    exact Or.inl hc
  | resumed =>
    rw [resume_contacts] at hc
    exact Or.inl hc
  | chunk =>
    unfold readChunk at hc
    simp only at hc
    split_ifs at hc
    all_goals exact Or.inl hc
  | stderr =>
    rw [readStderr_contacts] at hc
    exact Or.inl hc
  | error hchild => exact hdone 5 rfl hchild hc
  | close code hchild => exact hdone (code.getD 1) rfl hchild hc
  | _ => exact Or.inl hc

theorem Pending.start (profiles : List ProfileView) (columns rows : Option ℕ) (now : ℕ) :
    Pending (Shell.start profiles columns rows now) := by
  have hblank : Pending (blank profiles columns rows now) := by
    refine ⟨fun modal hm => ?_, fun modal hm => ?_⟩ <;> cases hm
  have hpaint := paint_frame (blank profiles columns rows now)
  rcases askWhatIsThere_cases hpaint.busy with hask | ⟨profile, -, hask⟩
  · rw [Shell.start, hask]
    exact hblank.paint
  · rw [Shell.start, hask]
    have hnone : ∀ {t : Shell}, t.state.modal.isSome = false → t.confirmed = none → Pending t := by
      intro t hmodal hconfirmed
      refine ⟨fun modal hm => ?_, fun modal hm => ?_⟩
      · rw [hm] at hmodal
        cases hmodal
      · rw [hconfirmed] at hm
        cases hm
    refine hnone ?_ ?_
    · show ({ (blank profiles columns rows now).paint with
        state := { (blank profiles columns rows now).paint.state with busy := true } }).paint.state.modal.isSome = _
      rw [(paint_frame _).modal]
      exact hpaint.modal
    · show Shell.confirmed (Shell.paint _) = none
      rw [paint_confirmed]
      exact paint_confirmed _

end Shell

/-- **The trust gate.** In every run an affirmative answer is written to a child only after the
    four identifiers it announced, none of them empty, were shown in a modal that stayed open, in a
    frame at least as large as the minimum.  Where no key confirms a modal after the end of its
    import, a contact joins the roster only at the end of its own import, when that succeeded. -/
theorem trust_gate {p : Platform} {profiles : List ProfileView} {columns rows : Option ℕ} {now : ℕ} :
    (∀ s, Run (Shell.step p) Any (.start profiles columns rows now) s →
      ∀ before pid after, s.trace = before ++ .answered pid true :: after → Asked before pid) ∧
    (∀ s, Run (Shell.step p) (Shell.Timely p) (.start profiles columns rows now) s →
      ∀ e s', s.step p e = some s' → ∀ contact ∈ s'.state.contacts,
        contact ∈ s.state.contacts ∨ s.Joins e contact.identifiers) := by
  constructor
  · intro s h
    exact (h.invariant (fun _ _ _ hg _ hst => Shell.Gated.step hg hst) (.start ..)).past
  · intro s h e s' hst contact hc
    have hi : Shell.Inv s ∧ Shell.Pending s := h.invariant
      (I := fun s => Shell.Inv s ∧ Shell.Pending s)
      (fun _ _ _ hi ht hst => ⟨hi.1.step hst, hi.2.step hi.1 ht hst⟩) ⟨.start .., .start ..⟩
    exact hi.2.joins hi.1 hst hc

/-! ## One profile with a card -/

def cardProfile : ProfileView :=
  { freshProfile "alice" "/alice" with contactCardPath := some (js "/card") }

/-- What an import prints of a contact. -/
def announcement : List ℕ :=
  utf8Bytes ("\x7b\"identity_id\":\"B\",\"device_id\":\"b\",".toList ++
    "\"device_pubkey\":\"k\",\"signal_identity_key\":\"s\"\x7d\n".toList)

/-- After the first `doctor` an import is started, and announces a contact. -/
def asking : List Shell.Event :=
  [.close 0 (some 2), .data [105], .key, .stderr 1 announcement]

def succeeded : List ℕ := utf8Bytes "\x7b\"ok\":true\x7d".toList

/-- An affirmative answer to the prompt of a child. -/
def Act.confirms (pid : ℕ) : Act → Bool
  | .answered p true => p = pid
  | _ => false

theorem Act.eq_of_confirms {pid : ℕ} {act : Act} (h : act.confirms pid = true) :
    act = .answered pid true := by
  unfold Act.confirms at h
  split at h
  · rw [of_decide_eq_true h]
  · cases h

/-- The operator confirms the contact, and the import succeeds. -/
theorem trust_gate_import : ∃ s s', Run (Shell.step asciiPlatform) (Shell.Timely asciiPlatform)
      (.start [cardProfile] none none 0) s ∧
    (∃ before after, s.trace = before ++ .answered 1 true :: after ∧ Asked before 1) ∧
    s.state.contacts = [] ∧ s.step asciiPlatform (.close 1 (some 0)) = some s' ∧
    ∃ contact ∈ s'.state.contacts, s.Joins (.close 1 (some 0)) contact.identifiers := by
  let o := replay (Shell.step asciiPlatform) (Shell.Timely asciiPlatform)
    (asking ++ [.data [121], .key, .resume, .stdout 1 succeeded]) (.start [cardProfile] none none 0)
  have ho : o.any (fun s => s.trace.any (fun act => act.confirms 1) &&
      s.state.contacts.isEmpty && (s.step asciiPlatform (.close 1 (some 0))).any fun s' =>
        !s'.state.contacts.isEmpty) = true := by decide +kernel
  obtain ⟨s, hs, hchecked⟩ := (Option.any_eq_true _ _).1 ho
  rw [Bool.and_eq_true, Bool.and_eq_true, List.any_eq_true, Option.any_eq_true] at hchecked
  obtain ⟨⟨⟨act, hmem, hact⟩, hempty⟩, s', hst, hjoined⟩ := hchecked
  have hrun : Run (Shell.step asciiPlatform) (Shell.Timely asciiPlatform)
      (.start [cardProfile] none none 0) s := .of_replay hs
  have hnone : s.state.contacts = [] := by simpa using hempty
  obtain ⟨contact, hcontact⟩ : ∃ contact, contact ∈ s'.state.contacts := by
    refine List.exists_mem_of_ne_nil _ ?_
    simpa using hjoined
  obtain rfl := Act.eq_of_confirms hact
  obtain ⟨before, after, htrace⟩ := List.append_of_mem hmem
  refine ⟨s, s', hrun, ⟨before, after, htrace, trust_gate.1 s hrun.any before 1 after htrace⟩, hnone,
    hst, contact, hcontact, ?_⟩
  rcases trust_gate.2 s hrun _ s' hst contact hcontact with hbefore | hjoins
  · rw [hnone] at hbefore
    cases hbefore
  · exact hjoins

/-- **A contact whose import failed may join the roster**: the modal of a child that has gone is
    confirmed, and the next import ends well. -/
theorem failed_import_joins : ¬ ∀ (p : Platform) (profiles : List ProfileView)
    (columns rows : Option ℕ) (now : ℕ) (s s' : Shell) (e : Shell.Event),
    Run (Shell.step p) Any (.start profiles columns rows now) s → s.step p e = some s' →
    ∀ contact ∈ s'.state.contacts, contact ∈ s.state.contacts ∨ s.Joins e contact.identifiers := by
  intro hall
  let o := replay (Shell.step asciiPlatform) Any (asking ++ [.close 1 (some 1), .data [121], .key,
    .resume, .data [105], .key, .stdout 2 succeeded]) (.start [cardProfile] none none 0)
  have ho : o.any (fun s => !s.trace.any (fun act => act matches .announced 2 _) &&
      s.state.contacts.isEmpty && (s.ending (.close 2 (some 0))).all (fun found => found.1.pid == 2) &&
      (s.step asciiPlatform (.close 2 (some 0))).any fun s' =>
        !s'.state.contacts.isEmpty) = true := by decide +kernel
  obtain ⟨s, hs, hchecked⟩ := (Option.any_eq_true _ _).1 ho
  rw [Bool.and_eq_true, Bool.and_eq_true, Bool.and_eq_true, Option.any_eq_true, Bool.not_eq_true',
    List.any_eq_false] at hchecked
  obtain ⟨⟨⟨hsilent, hempty⟩, hending⟩, s', hst, hjoined⟩ := hchecked
  have hnone : s.state.contacts = [] := by simpa using hempty
  obtain ⟨contact, hcontact⟩ : ∃ contact, contact ∈ s'.state.contacts := by
    refine List.exists_mem_of_ne_nil _ ?_
    simpa using hjoined
  rcases hall _ _ _ _ _ s s' _ (.of_replay hs) hst contact hcontact with hbefore | hjoins
  · rw [hnone] at hbefore
    cases hbefore
  · obtain ⟨child, outcome, hends, -, -, stderr, ids, hmem, -⟩ := hjoins
    rw [hends, Option.all_some, beq_iff_eq] at hending
    rw [hending] at hmem
    exact hsilent _ hmem rfl

end Echolet.Tui
