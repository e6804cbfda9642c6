/-
  What is sent is what was shown.

  * `reduce_row`: what an intent does with the input row;
  * `Row`: the text of a message row is fine and no longer than a plaintext may be;
  * `OpenedFor`: the row was opened for the contact that is selected, and stayed open since;
  * `Shown`: a row that counts as seen was painted with its present text, as long as no key edits
    it while the terminal is too small (`Legibly`);
  * `sent_as_shown`, and `unseen_text_sent` for a terminal that is made smaller.
-/
import Echolet.Tui.TrustGate
import Echolet.Tui.Text

namespace Echolet.Tui

/-! ## One intent -/

/-- An input row without the moment it was seen. -/
def InputState.core (input : InputState) : InputField × JsString × ℕ :=
  (input.field, input.buffer, input.maxBytes)

/-- The text of a row after an edit. -/
inductive Edited (buffer : JsString) (maxBytes : ℕ) : Intent → JsString → Prop
  | insert (raw : JsString) (hfits : utf8BytesOf (buffer ++ paintable raw) ≤ maxBytes) :
      Edited buffer maxBytes (.inputInsert raw) (buffer ++ paintable raw)
  | backspace : Edited buffer maxBytes .inputBackspace (join (codePoints buffer).dropLast)

/-- What an intent does with the input row and the selected contact. -/
inductive RowStep (state : OperatorState) (intent : Intent) (state' : OperatorState) : Prop
  | same (hinput : state'.input = state.input)
      (hselected : state'.selectedContactId = state.selectedContactId)
  | selected {contact : JsString} (hintent : intent = .selectContact contact)
      (hinput : state'.input = state.input)
  | opened {field : InputField} (hintent : intent = .inputOpen field)
      (hinput : state'.input = some ⟨field, initialBuffer state field, none, inputMaxBytes field⟩)
      (hselected : state'.selectedContactId = state.selectedContactId)
  | edited {input : InputState} {buffer : JsString} (hbefore : state.input = some input)
      (hedited : Edited input.buffer input.maxBytes intent buffer)
      (hinput : state'.input = some { input with buffer })
      (hselected : state'.selectedContactId = state.selectedContactId)
  | closed (hinput : state'.input = none)

/-- **What an intent does with the row.** -/
theorem reduce_row (state : OperatorState) (intent : Intent) :
    RowStep state intent (reduce state intent).state := by
  cases intent with
  | selectContact contact => exact .selected rfl rfl
  | inputOpen field =>
    simp only [reduce]
    split_ifs
    · exact .same rfl rfl
    · exact .opened rfl rfl rfl
  | inputInsert raw =>
    simp only [reduce]
    split
    · exact .same rfl rfl
    · next input hinput =>
      split_ifs with hrefused
      · exact .same rfl rfl
      · simp only [not_or, not_lt] at hrefused
        exact .edited hinput (.insert raw hrefused.2.2) rfl rfl
  | inputBackspace =>
    simp only [reduce]
    split
    · exact .same rfl rfl
    · next input hinput =>
      split_ifs
      · exact .same rfl rfl
      · exact .edited hinput .backspace rfl rfl
  | inputCancel => exact .closed rfl
  | inputSubmit =>
    simp only [reduce]
    split
    · exact .same rfl rfl
    · split_ifs
      · exact .same rfl rfl
      · split
        · exact .same rfl rfl
        · exact .closed rfl
  | _ =>
    refine .same ?_ ?_
    · simp only [reduce] <;> (repeat' split) <;> rfl
    · simp only [reduce] <;> (repeat' split) <;> rfl

/-! ## Keys -/

theorem decodeKey_sequence (p : Platform) (sequence : JsString) :
    (decodeKey p sequence).sequence = sequence := by
  unfold decodeKey
  simp only
  split_ifs
  · rfl
  · rfl
  · rfl
  · split
    · split_ifs <;> rfl
    · rfl

variable {p : Platform} {state : OperatorState} {key : KeyEvent}

theorem ctrlIntent_quit {intent : Intent} (h : ctrlIntent p key = some intent) : intent = .quit := by
  unfold ctrlIntent at h
  split_ifs at h
  exact (Option.some.inj h).symm

/-- A key on an open row is text, an edit, or ends it. -/
theorem inputKey_cases {intent : Intent} (h : inputKey p key = some intent) :
    intent = .quit ∨ intent = .inputCancel ∨ intent = .inputSubmit ∨ intent = .inputBackspace ∨
      intent = .inputInsert key.sequence := by
  unfold inputKey at h
  split_ifs at h with hctrl
  · exact Or.inl (ctrlIntent_quit h)
  · exact Or.inr (Or.inl (Option.some.inj h).symm)
  · exact Or.inr (Or.inr (Or.inl (Option.some.inj h).symm))
  · exact Or.inr (Or.inr (Or.inr (Or.inl (Option.some.inj h).symm)))
  · exact Or.inr (Or.inr (Or.inr (Or.inr (Option.some.inj h).symm)))

theorem modalIntent_cases {intent : Intent} (h : modalIntent key = some intent) :
    intent = .trustConfirm ∨ intent = .trustCancel := by
  unfold modalIntent at h
  split_ifs at h
  · exact Or.inl (Option.some.inj h).symm
  · exact Or.inr (Option.some.inj h).symm
  · exact Or.inr (Option.some.inj h).symm

/-- An open row takes every key that the modal does not. -/
theorem mapKey_open {intent : Intent} (h : mapKey p key state = some intent)
    (hopen : state.input.isSome = true) : intent = .quit ∨ intent = .trustConfirm ∨
      intent = .trustCancel ∨ intent = .inputCancel ∨ intent = .inputSubmit ∨
      intent = .inputBackspace ∨ intent = .inputInsert key.sequence := by
  unfold mapKey at h
  rw [if_pos hopen] at h
  split_ifs at h
  · exact Or.inl (ctrlIntent_quit h)
  · exact Or.inr ((modalIntent_cases h).imp_right Or.inl)
  · rcases inputKey_cases h with h | h | h | h | h <;> simp [h]

theorem mapKey_selectContact {contact : JsString} (h : mapKey p key state = some (.selectContact contact)) :
    state.input = none := by
  by_contra hopen
  have hcases := mapKey_open h (Option.isSome_iff_ne_none.2 hopen)
  simp at hcases

theorem mapKey_inputOpen {field : InputField} (h : mapKey p key state = some (.inputOpen field)) :
    state.input = none := by
  by_contra hopen
  have hcases := mapKey_open h (Option.isSome_iff_ne_none.2 hopen)
  simp at hcases

theorem nextSetup_not_insert {profile : ProfileView} {raw : JsString} :
    setupStepIntent profile ≠ some (.inputInsert raw) := by
  unfold setupStepIntent
  split
  · split_ifs <;> simp
  all_goals simp

theorem paneKeyIntent_not_insert {raw : JsString} : paneKeyIntent key state ≠ some (.inputInsert raw) := by
  intro h
  unfold paneKeyIntent at h
  cases hp : state.active with
  | none => simp [hp] at h
  | some profile =>
    simp only [hp, Option.bind_eq_bind, Option.bind_some] at h
    split_ifs at h <;> simp_all [nextSetup_not_insert]

theorem mapKey_insert {raw : JsString} (h : mapKey p key state = some (.inputInsert raw)) :
    raw = key.sequence := by
  by_cases hopen : state.input.isSome = true
  · have hcases := mapKey_open h hopen
    simpa using hcases
  · exfalso
    unfold mapKey at h
    rw [if_neg hopen] at h
    split_ifs at h
    · cases ctrlIntent_quit h
    · rcases modalIntent_cases h with h | h <;> cases h
    · cases ctrlIntent_quit h
    · cases h
    · cases h
    · split at h
      · cases h
      · simp only at h
        split_ifs at h
        exact paneKeyIntent_not_insert h

/-- No key of a pane sends. -/
theorem paneKeyIntent_not_send {dir recipient text : JsString} {messageId : Option JsString} :
    paneKeyIntent key state ≠ some (.run (.send dir recipient text messageId)) := by
  intro h
  unfold paneKeyIntent at h
  cases hp : state.active with
  | none => simp [hp] at h
  | some profile =>
    have hsetup : setupStepIntent profile ≠ some (.run (.send dir recipient text messageId)) := by
      unfold setupStepIntent
      split
      · split_ifs <;> simp
      all_goals simp
    simp only [hp, Option.bind_eq_bind, Option.bind_some] at h
    split_ifs at h <;> simp_all

/-- A request to send is made of the message row that was seen. -/
theorem reduce_send {intent : Intent} {dir recipient text : JsString} {messageId : Option JsString}
    (hkey : mapKey p key state = some intent)
    (h : .runCli (.send dir recipient text messageId) ∈ (reduce state intent).effects) :
    ∃ input, state.input = some input ∧ input.field = .message ∧ input.renderedAt ≠ none ∧
      state.selectedContactId = some recipient ∧ text = input.buffer := by
  cases intent with
  | run request =>
    simp only [reduce] at h
    split_ifs at h
    · cases h
    · rw [List.mem_singleton] at h
      cases h
      exact absurd (mapKey_run hkey).2.2.2 paneKeyIntent_not_send
  | inputSubmit =>
    simp only [reduce] at h
    split at h
    · cases h
    · next input hinput =>
      split_ifs at h with hgate
      · cases h
      · simp only [not_or] at hgate
        split at h
        · cases h
        · next request hrequest =>
          rw [List.mem_singleton] at h
          cases h
          have hseen := hgate.2.2
          unfold submitRequest at hrequest
          cases hp : state.active with
          | none => simp [hp] at hrequest
          | some profile =>
            simp only [hp, Option.bind_eq_bind, Option.bind_some] at hrequest
            split at hrequest
            · next hfield =>
              cases hs : state.selectedContactId with
              | none => simp [hs] at hrequest
              | some contact =>
                simp only [hs, Option.bind_some] at hrequest
                split_ifs at hrequest
                cases hrequest
                exact ⟨input, hinput, hfield, hseen, rfl, rfl⟩
            all_goals simp at hrequest
  | _ =>
    simp only [reduce] at h
    (repeat' split at h) <;> simp at h

def Intent.isEdit : Intent → Bool
  | inputInsert _ | inputBackspace => true
  | _ => false

theorem Edited.isEdit {buffer buffer' : JsString} {maxBytes : ℕ} {intent : Intent}
    (h : Edited buffer maxBytes intent buffer') : intent.isEdit = true := by
  cases h <;> rfl

/-! ## The row in the shell -/

/-- A frame at least as large as `MIN_VIEWPORT`, with this text in this row. -/
def Act.ShowsRow (field : InputField) (buffer : JsString) : Act → Prop
  | painted columns rows _ (some input) =>
    72 ≤ columns ∧ 16 ≤ rows ∧ input.field = field ∧ input.buffer = buffer
  | _ => False

instance (field : InputField) (buffer : JsString) : DecidablePred (Act.ShowsRow field buffer)
  | .painted _ _ _ (some _) => inferInstanceAs (Decidable (_ ∧ _ ∧ _ ∧ _))
  | .painted _ _ _ none => inferInstanceAs (Decidable False)
  | .announced .. => inferInstanceAs (Decidable False)
  | .answered .. => inferInstanceAs (Decidable False)

namespace Shell

variable {s s' s'' : Shell}

/-- What neither opens, edits nor closes the row; a row that is seen was, or is shown. -/
structure Keeps (s s' : Shell) : Prop where
  core : s'.state.input.map InputState.core = s.state.input.map InputState.core
  selected : s'.state.input.isSome = true → s'.state.selectedContactId = s.state.selectedContactId
  trace : s.trace ⊆ s'.trace
  seen : ∀ input, s'.state.input = some input → input.renderedAt ≠ none →
    s.state.input = some input ∨ ∃ act ∈ s'.trace, act.ShowsRow input.field input.buffer
  keys : ∀ key ∈ s'.keys, key ∈ s.keys ∨ Units key

theorem Keeps.isSome (h : Keeps s s') : s'.state.input.isSome = s.state.input.isSome := by
  have hcore := congrArg Option.isSome h.core
  simpa using hcore

theorem Keeps.trans (h : Keeps s s') (h' : Keeps s' s'') : Keeps s s'' where
  core := h'.core.trans h.core
  selected := fun hopen => (h'.selected hopen).trans (h.selected (h'.isSome ▸ hopen))
  trace := List.Subset.trans h.trace h'.trace
  seen := by
    intro input hinput hseen
    rcases h'.seen input hinput hseen with hbefore | hshown
    · rcases h.seen input hbefore hseen with hbefore | ⟨act, hact, hshows⟩
      · exact Or.inl hbefore
      · exact Or.inr ⟨act, h'.trace hact, hshows⟩
    · exact Or.inr hshown
  keys := by
    intro key hkey
    rcases h'.keys key hkey with hkey | hunits
    · exact h.keys key hkey
    · exact Or.inr hunits

theorem Keeps.of_same (hinput : s'.state.input = s.state.input)
    (hselected : s'.state.selectedContactId = s.state.selectedContactId) (ht : s.trace ⊆ s'.trace)
    (hkeys : ∀ key ∈ s'.keys, key ∈ s.keys ∨ Units key) : Keeps s s' where
  core := congrArg (Option.map InputState.core) hinput
  selected := fun _ => hselected
  trace := ht
  seen := fun _ h _ => Or.inl (hinput ▸ h)
  keys := hkeys

theorem Keeps.refl (s : Shell) : Keeps s s := .of_same rfl rfl (List.Subset.refl _) fun _ => Or.inl

theorem paint_keeps (s : Shell) : Keeps s s.paint := by
  have hframe : s.trace ⊆ s.trace ++ [s.frame] := List.subset_append_left _ _
  unfold paint
  simp only
  split_ifs with hbelow
  · exact .of_same rfl rfl hframe fun _ => Or.inl
  · refine ⟨?_, fun _ => rfl, hframe, fun input hinput hseen => Or.inr ?_, fun _ => Or.inl⟩
    · simp only [Option.map_map]
      rfl
    · obtain ⟨before, hbefore, rfl⟩ := Option.map_eq_some_iff.1 hinput
      refine ⟨s.frame, List.mem_append_right _ (List.mem_singleton_self _), ?_⟩
      simp only [belowMinViewport, Bool.or_eq_true, decide_eq_true_eq, not_or, not_lt] at hbelow
      rw [frame, hbefore]
      exact ⟨hbelow.1, hbelow.2, rfl, rfl⟩

theorem resume_keeps (s : Shell) : Keeps s s.resume := by
  unfold resume
  split_ifs
  · exact s.paint_keeps
  · exact .of_same rfl rfl (List.Subset.refl _) fun _ => Or.inl

theorem foldl_apply_keeps : ∀ (effects : List Effect) (s : Shell), Keeps s (effects.foldl apply s)
  | [], s => .refl s
  | effect :: effects, s => by
    rw [List.foldl_cons]
    refine Keeps.trans ?_ (foldl_apply_keeps effects _)
    cases effect with
    | answerTrustPrompt answer =>
      exact .of_same rfl rfl (List.subset_append_left _ _) fun _ => Or.inl
    | _ => exact .of_same rfl rfl (List.Subset.refl _) fun _ => Or.inl

/-- **One key.** Everything after its intent keeps the row. -/
theorem handleKey_keeps (p : Platform) (s : Shell) (sequence : JsString) :
    s.handleKey p sequence = s ∨ ∃ intent, mapKey p (decodeKey p sequence) s.state = some intent ∧
      Keeps (s.take (reduce s.state intent)).paint (s.handleKey p sequence) := by
  unfold handleKey
  cases hkey : mapKey p (decodeKey p sequence) s.state with
  | none => exact Or.inl rfl
  | some intent =>
    refine Or.inr ⟨intent, rfl, ?_⟩
    simp only
    split
    · exact resume_keeps _
    · exact foldl_apply_keeps _ _

theorem observeContact_keeps (s : Shell) (modal : TrustModal) : Keeps s (s.observeContact modal) := by
  unfold observeContact
  split
  · split_ifs
    · exact .refl s
    · exact .of_same rfl rfl (List.Subset.refl _) fun _ => Or.inl
  · exact .refl s

theorem closeImport_keeps (s : Shell) (outcome : CliOutcome) : Keeps s (s.closeImport outcome) := by
  have hclear : ∀ t : Shell, Keeps t { t with confirmed := none } := fun t =>
    .of_same rfl rfl (List.Subset.refl _) fun _ => Or.inl
  unfold closeImport
  refine Keeps.trans ?_ (hclear _)
  split
  · split_ifs
    · exact s.observeContact_keeps _
    · exact .refl s
  · exact .refl s

theorem settle_keeps (p : Platform) (s : Shell) (child : Child) (outcome : CliOutcome) :
    Keeps s (s.settle p child outcome) := by
  let noted := ({ s with inFlightCommand := none }).note (outcomeLine p child.request.command outcome)
  let folded : Shell := { noted with state :=
    { applyOutcome noted.state child.request outcome noted.now with
      busy := false, observedAtMs := some noted.now } }
  have hfolded : Keeps s folded :=
    .of_same (applyOutcome_frame noted.state child.request outcome noted.now).2.1
      (applyOutcome_selected noted.state child.request outcome noted.now) (List.Subset.refl _)
      fun _ => Or.inl
  have hend : ∀ t : Shell, Keeps t (if child.unasked then if t.running then t.paint else t
      else t.resume) := by
    intro t
    split_ifs
    · exact t.paint_keeps
    · exact .refl t
    · exact t.resume_keeps
  refine hfolded.trans (Keeps.trans ?_ (hend _))
  split_ifs
  · exact folded.closeImport_keeps outcome
  · exact .refl folded

theorem done_keeps (p : Platform) (s : Shell) (child : Child) (exitCode : ℕ) :
    Keeps s (s.done p child exitCode) := by
  have hleft : Keeps s { s with awaitingTrust := none } :=
    .of_same rfl rfl (List.Subset.refl _) fun _ => Or.inl
  unfold done
  simp only
  split_ifs
  · exact hleft
  · refine hleft.trans (Keeps.trans ?_ (settle_keeps _ _ _ _))
    exact .of_same rfl rfl (List.Subset.refl _) fun _ => Or.inl

theorem readStderr_keeps (s : Shell) (child : Child) (bytes : List ℕ) :
    Keeps s (s.readStderr child bytes) := by
  unfold readStderr
  simp only
  split
  · split_ifs
    · exact .of_same rfl rfl (List.Subset.refl _) fun _ => Or.inl
    · refine Keeps.trans ?_ (paint_keeps _)
      exact .of_same rfl rfl (List.subset_append_left _ _) fun _ => Or.inl
  · exact .of_same rfl rfl (List.Subset.refl _) fun _ => Or.inl

theorem units_splitPoints : ∀ {points : List ℕ}, (∀ n ∈ points, n < 0x110000) →
    ∀ key ∈ splitPoints points, Units key
  | [], _ => fun key hkey => by cases hkey
  | point :: points, h => by
    unfold splitPoints
    split_ifs
    · intro key hkey
      rw [List.mem_singleton.1 hkey]
      exact units_join h
    · intro key hkey
      rcases List.mem_cons.1 hkey with rfl | hkey
      · exact units_unitsOf (h point List.mem_cons_self)
      · exact units_splitPoints (fun n hn => h n (List.mem_cons_of_mem point hn)) key hkey

theorem readChunk_keeps (s : Shell) (chunk : List ℕ) : Keeps s (s.readChunk chunk) := by
  have hunits : Units (utf16Units (decodeUtf8 chunk)) := units_utf16Units _
  unfold readChunk
  simp only
  split_ifs
  · refine .of_same rfl rfl (List.Subset.refl _) fun key hkey => Or.inr ?_
    exact units_splitPoints (fun n hn => codePoints_lt hunits n hn) key hkey
  · refine .of_same rfl rfl (List.Subset.refl _) fun key hkey => Or.inr ?_
    rw [List.mem_singleton.1 hkey]
    exact hunits
  · exact .refl s

/-- **One step.** It keeps the row, or handles a key. -/
theorem step_keeps {e : Event} (h : s.step p e = some s') : Keeps s s' ∨
    ∃ sequence keys intent, e = .key ∧ s.running = true ∧ s.keys = sequence :: keys ∧
      mapKey p (decodeKey p sequence) s.state = some intent ∧
      Keeps (Shell.take { s with keys } (reduce s.state intent)).paint s' := by
  cases step_occurs h with
  | @handled sequence keys hkeys hrunning =>
    have htail : Keeps s { s with keys } := .of_same rfl rfl (List.Subset.refl _) fun key hkey =>
      Or.inl (by rw [hkeys]; exact List.mem_cons_of_mem sequence hkey)
    rcases handleKey_keeps p { s with keys } sequence with hsame | ⟨intent, hkey, hkeeps⟩
    · rw [hsame]
      exact Or.inl htail
    · exact Or.inr ⟨sequence, keys, intent, rfl, hrunning, hkeys, hkey, hkeeps⟩
  | dropped => exact Or.inl (.of_same rfl rfl (List.Subset.refl _) fun key hkey => by cases hkey)
  | resumed =>
    refine Or.inl (Keeps.trans ?_ (resume_keeps _))
    exact .of_same rfl rfl (List.Subset.refl _) fun _ => Or.inl
  | chunk bytes => exact Or.inl (s.readChunk_keeps bytes)
  | stderr bytes => exact Or.inl (s.readStderr_keeps _ bytes)
  | error => exact Or.inl (done_keeps p s _ 5)
  | @close _ child code =>
    refine Or.inl ((done_keeps p s child (code.getD 1)).trans ?_)
    exact .of_same rfl rfl (List.Subset.refl _) fun _ => Or.inl
  | _ => exact Or.inl (.of_same rfl rfl (List.Subset.refl _) fun _ => Or.inl)

/-! ## The text of the row -/

/-- The bound of a row is that of its field; a message has a fine text within it. -/
def Sound (core : InputField × JsString × ℕ) : Prop :=
  core.2.2 = inputMaxBytes core.1 ∧
    (core.1 = .message → Fine core.2.1 ∧ utf8BytesOf core.2.1 ≤ maxPlaintextBytes)

theorem codePoints_dropLast {buffer : JsString} (h : Units buffer) :
    codePoints (join (codePoints buffer).dropLast) = (codePoints buffer).dropLast := by
  rw [List.dropLast_eq_take]
  exact codePoints_join (fun n hn => codePoints_lt h n (List.mem_of_mem_take hn))
    ((codePoints_apart buffer).take _)

theorem Sound.edited {input : InputState} {intent : Intent} {buffer : JsString}
    (h : Sound input.core) (hedited : Edited input.buffer input.maxBytes intent buffer)
    (hunits : ∀ raw, intent = .inputInsert raw → Units raw) :
    Sound { input with buffer }.core := by
  refine ⟨h.1, fun hmessage => ?_⟩
  have htext : Fine input.buffer ∧ utf8BytesOf input.buffer ≤ maxPlaintextBytes := h.2 hmessage
  obtain ⟨hfine, hbytes⟩ := htext
  cases hedited with
  | insert raw hfits =>
    have hmax : input.maxBytes = maxPlaintextBytes := by
      have hbound : input.maxBytes = inputMaxBytes input.field := h.1
      rw [hbound, show input.field = .message from hmessage]
      rfl
    exact ⟨hfine.append (paintable_fine (hunits raw rfl)), hmax ▸ hfits⟩
  | backspace =>
    have hsublist := List.dropLast_sublist (codePoints input.buffer)
    refine ⟨hfine.join hsublist.subset, le_trans ?_ hbytes⟩
    show utf8BytesOf (join (codePoints input.buffer).dropLast) ≤ utf8BytesOf input.buffer
    rw [utf8BytesOf, utf8BytesOf, codePoints_dropLast hfine.units]
    exact (hsublist.map _).sum_le_sum fun _ _ => Nat.zero_le _

/-- The row is sound, and so is what is still to be typed. -/
structure Row (s : Shell) : Prop where
  keys : ∀ key ∈ s.keys, Units key
  text : ∀ core, s.state.input.map InputState.core = some core → Sound core

theorem Row.keeps (h : Row s) (hk : Keeps s s') : Row s' where
  keys := by
    intro key hkey
    rcases hk.keys key hkey with hkey | hunits
    · exact h.keys key hkey
    · exact hunits
  text := by
    rw [hk.core]
    exact h.text

theorem Row.take (h : Row s) {sequence : JsString} {intent : Intent} (hunits : Units sequence)
    (hkey : mapKey p (decodeKey p sequence) s.state = some intent) :
    Row (s.take (reduce s.state intent)) := by
  refine ⟨h.keys, fun core hcore => ?_⟩
  have hcore' : (reduce s.state intent).state.input.map InputState.core = some core := hcore
  cases reduce_row s.state intent with
  | same hinput => exact h.text core (hinput ▸ hcore')
  | selected _ hinput => exact h.text core (hinput ▸ hcore')
  | @opened field _ hinput =>
    rw [hinput] at hcore'
    cases hcore'
    refine ⟨rfl, fun hmessage => ?_⟩
    have hempty : initialBuffer s.state field = [] := by
      rw [show field = .message from hmessage, initialBuffer]
      cases s.state.active <;> rfl
    show Fine (initialBuffer s.state field) ∧ utf8BytesOf (initialBuffer s.state field) ≤ _
    rw [hempty]
    exact ⟨fine_nil, Nat.zero_le _⟩
  | @edited input buffer hbefore hedited hinput =>
    rw [hinput] at hcore'
    cases hcore'
    have hsound : Sound input.core := h.text _ (by rw [hbefore]; rfl)
    refine hsound.edited hedited fun raw hraw => ?_
    rw [hraw] at hkey
    rw [mapKey_insert hkey, decodeKey_sequence]
    exact hunits
  | closed hinput =>
    rw [hinput] at hcore'
    cases hcore'

theorem Row.step {e : Event} (h : Row s) (hst : s.step p e = some s') : Row s' := by
  rcases step_keeps hst with hkeeps | ⟨sequence, keys, intent, -, -, hkeys, hkey, hkeeps⟩
  · exact h.keeps hkeeps
  · have hless : Row { s with keys } := by
      refine ⟨fun key hmem => h.keys key ?_, h.text⟩
      rw [hkeys]
      exact List.mem_cons_of_mem sequence hmem
    have hunits : Units sequence := h.keys sequence (by rw [hkeys]; exact List.mem_cons_self)
    exact ((hless.take hunits hkey).keeps (paint_keeps _)).keeps hkeeps

/-! ## Whom the row was opened for -/

/-- The row is open, and stays open until the next state. -/
def RowOpen (s : Shell) (_ : Event) : Prop := s.state.input.isSome = true

/-- The row that is open was opened while this contact was selected, and not closed since. -/
def OpenedFor (p : Platform) (first s : Shell) (contact : Option JsString) : Prop :=
  ∃ t e t', Run (Shell.step p) Any first t ∧ t.step p e = some t' ∧ t.state.input = none ∧
    Run (Shell.step p) RowOpen t' s ∧ t.state.selectedContactId = contact

/-- No step selects a contact under an open row, or opens a row with another one. -/
theorem selected_of_open {e : Event} (h : s.step p e = some s')
    (hopen : s'.state.input.isSome = true) :
    s'.state.selectedContactId = s.state.selectedContactId := by
  rcases step_keeps h with hkeeps | ⟨sequence, keys, intent, -, -, -, hkey, hkeeps⟩
  · exact hkeeps.selected hopen
  · have hpaint := paint_keeps (Shell.take { s with keys } (reduce s.state intent))
    have hboth := hpaint.trans hkeeps
    rw [hboth.selected hopen]
    show (reduce s.state intent).state.selectedContactId = _
    cases reduce_row s.state intent with
    | same _ hselected => exact hselected
    | opened _ _ hselected => exact hselected
    | edited _ _ _ hselected => exact hselected
    | selected hintent hinput =>
      rw [hintent] at hkey
      rw [hboth.isSome] at hopen
      have hnone : (reduce s.state intent).state.input = none := hinput.trans (mapKey_selectContact hkey)
      rw [show (Shell.take { s with keys } (reduce s.state intent)).state.input = none from hnone] at hopen
      cases hopen
    | closed hinput =>
      rw [hboth.isSome,
        show (Shell.take { s with keys } (reduce s.state intent)).state.input = none from hinput] at hopen
      cases hopen

theorem opened_for {first : Shell} (hfirst : first.state.input = none)
    (h : Run (Shell.step p) Any first s) :
    s.state.input.isSome = true → OpenedFor p first s s.state.selectedContactId := by
  induction h with
  | refl =>
    intro hopen
    rw [hfirst] at hopen
    cases hopen
  | @tail t t' e hrun _ hst ih =>
    intro hopen
    have hselected := selected_of_open hst hopen
    cases hinput : t.state.input with
    | none => exact ⟨t, e, t', hrun, hst, hinput, .refl, hselected.symm⟩
    | some input =>
      have hbefore : t.state.input.isSome = true := by rw [hinput]; rfl
      obtain ⟨u, d, u', hu, hd, hclosed, hsince, hcontact⟩ := ih hbefore
      exact ⟨u, d, u', hu, hd, hclosed, hsince.tail hbefore hst, hcontact.trans hselected.symm⟩

/-! ## What was shown -/

/-- A row that counts as seen was shown with the text it has. -/
def Shown (s : Shell) : Prop :=
  ∀ input, s.state.input = some input → input.renderedAt ≠ none →
    ∃ act ∈ s.trace, act.ShowsRow input.field input.buffer

theorem Shown.keeps (h : Shown s) (hk : Keeps s s') : Shown s' := by
  intro input hinput hseen
  rcases hk.seen input hinput hseen with hbefore | hshown
  · obtain ⟨act, hact, hshows⟩ := h input hbefore hseen
    exact ⟨act, hk.trace hact, hshows⟩
  · exact hshown

/-- A frame that is large enough shows the row. -/
theorem paint_shown (h : s.belowMinViewport = false) : Shown s.paint := by
  unfold paint
  simp only
  split_ifs with hbelow
  · have hlarge : s.belowMinViewport = true := hbelow
    rw [h] at hlarge
    cases hlarge
  · intro input hinput _
    obtain ⟨before, hbefore, rfl⟩ := Option.map_eq_some_iff.1 hinput
    refine ⟨s.frame, List.mem_append_right _ (List.mem_singleton_self _), ?_⟩
    simp only [belowMinViewport, Bool.or_eq_false_iff, decide_eq_false_iff_not, not_lt] at h
    rw [frame, hbefore]
    exact ⟨h.1, h.2, rfl, rfl⟩

/-- The next key edits a row that counts as seen. -/
def editing (p : Platform) (s : Shell) : Event → Bool
  | .key => s.running && s.state.input.any (·.renderedAt.isSome) &&
    (s.keys.head?.bind fun sequence => mapKey p (decodeKey p sequence) s.state).any Intent.isEdit
  | _ => false

/-- No key edits a row that counts as seen while the terminal is smaller than `MIN_VIEWPORT`. -/
def Legibly (p : Platform) (s : Shell) (e : Event) : Prop :=
  s.editing p e = true → s.belowMinViewport = false

instance (p : Platform) (s : Shell) (e : Event) : Decidable (s.Legibly p e) :=
  inferInstanceAs (Decidable (_ → _))

theorem Shown.take (h : Shown s) {keys : List JsString} {sequence : JsString} {intent : Intent}
    (hrunning : s.running = true) (hkeys : s.keys = sequence :: keys)
    (hkey : mapKey p (decodeKey p sequence) s.state = some intent) (hlegibly : s.Legibly p .key) :
    Shown (Shell.take { s with keys } (reduce s.state intent)).paint := by
  cases hbelow : s.belowMinViewport with
  | false => exact paint_shown hbelow
  | true =>
    refine Shown.keeps (fun input hinput hseen => ?_) (paint_keeps _)
    have hinput' : (reduce s.state intent).state.input = some input := hinput
    cases reduce_row s.state intent with
    | same hsame => exact h input (hsame ▸ hinput') hseen
    | selected _ hsame => exact h input (hsame ▸ hinput') hseen
    | opened _ hopened =>
      rw [hopened] at hinput'
      cases hinput'
      exact absurd rfl hseen
    | edited hbefore hedited hedit =>
      rw [hedit] at hinput'
      cases hinput'
      have hediting : s.editing p .key = true := by
        simp [editing, hrunning, hkeys, hkey, hbefore, hedited.isEdit,
          Option.isSome_iff_ne_none.2 hseen]
      rw [hlegibly hediting] at hbelow
      cases hbelow
    | closed hclosed =>
      rw [hclosed] at hinput'
      cases hinput'

theorem Shown.step {e : Event} (h : Shown s) (hlegibly : s.Legibly p e) (hst : s.step p e = some s') :
    Shown s' := by
  rcases step_keeps hst with hkeeps | ⟨sequence, keys, intent, he, hrunning, hkeys, hkey, hkeeps⟩
  · exact h.keeps hkeeps
  · rw [he] at hlegibly
    exact (h.take hrunning hkeys hkey hlegibly).keeps hkeeps

theorem start_closed (profiles : List ProfileView) (columns rows : Option ℕ) (now : ℕ) :
    (Shell.start profiles columns rows now).state.input = none := by
  have hpaint := paint_frame (blank profiles columns rows now)
  have hclosed : (blank profiles columns rows now).paint.state.input.isSome = false := hpaint.input
  rcases askWhatIsThere_cases hpaint.busy with hask | ⟨profile, -, hask⟩
  · rw [Shell.start, hask]
    simpa using hclosed
  · rw [Shell.start, hask]
    have hagain := (paint_frame { (blank profiles columns rows now).paint with
      state := { (blank profiles columns rows now).paint.state with busy := true } }).input
    have hnone := hagain.trans hclosed
    simpa [runCli] using hnone

theorem start_keys (profiles : List ProfileView) (columns rows : Option ℕ) (now : ℕ) :
    (Shell.start profiles columns rows now).keys = [] := by
  have hpaint : ∀ t : Shell, t.paint.keys = t.keys := by
    intro t
    unfold paint
    simp only
    split_ifs <;> rfl
  have hblank : (blank profiles columns rows now).paint.keys = [] := hpaint _
  rcases askWhatIsThere_cases (paint_frame (blank profiles columns rows now)).busy with
    hask | ⟨profile, -, hask⟩
  · rw [Shell.start, hask, hblank]
  · rw [Shell.start, hask]
    exact (hpaint _).trans hblank

/-- A command to send is started from the message row that was seen. -/
theorem starting_send {e : Event} {dir recipient text : JsString} {messageId : Option JsString}
    (h : s.starting p e = some (.send dir recipient text messageId)) :
    ∃ input, s.state.input = some input ∧ input.field = .message ∧ input.renderedAt ≠ none ∧
      s.state.selectedContactId = some recipient ∧ text = input.buffer := by
  cases e with
  | key =>
    simp only [starting, Option.bind_eq_bind, Option.bind_eq_some_iff] at h
    obtain ⟨sequence, -, intent, hkey, hfound⟩ := h
    obtain ⟨effect, hmem, heffect⟩ := List.exists_of_findSome?_eq_some hfound
    cases effect with
    | runCli request =>
      cases heffect
      exact reduce_send hkey hmem
    | _ => cases heffect
  | _ => cases h

end Shell

/-- **What is sent is what was shown.**  In every run the text of a message row fits a plaintext
    and steers no display, and a `send` is started with the whole text of the row, for the contact
    that was selected when the row was opened.  As long as no key edits a row that was seen while
    the terminal is smaller than the minimum, that text was painted in a frame of at least that
    size. -/
theorem sent_as_shown {p : Platform} {profiles : List ProfileView} {columns rows : Option ℕ}
    {now : ℕ} :
    (∀ s, Run (Shell.step p) Any (.start profiles columns rows now) s →
      ∀ input, s.state.input = some input → input.field = .message →
        utf8BytesOf input.buffer ≤ maxPlaintextBytes ∧
        ∀ n ∈ codePoints input.buffer, steersTheDisplay n = false) ∧
    (∀ s, Run (Shell.step p) Any (.start profiles columns rows now) s →
      ∀ e dir recipient text messageId,
        s.starting p e = some (.send dir recipient text messageId) →
        s.state.input.map (·.buffer) = some text ∧
        Shell.OpenedFor p (.start profiles columns rows now) s (some recipient)) ∧
    (∀ s, Run (Shell.step p) (Shell.Legibly p) (.start profiles columns rows now) s →
      ∀ e dir recipient text messageId,
        s.starting p e = some (.send dir recipient text messageId) →
        ∃ act ∈ s.trace, act.ShowsRow .message text) := by
  refine ⟨?_, ?_, ?_⟩
  · intro s h input hinput hmessage
    have hfirst : Shell.Row (.start profiles columns rows now) := by
      refine ⟨fun key hkey => ?_, fun core hcore => ?_⟩
      · rw [Shell.start_keys] at hkey
        cases hkey
      · rw [Shell.start_closed] at hcore
        cases hcore
    have hrow : Shell.Row s := h.invariant (fun _ _ _ hi _ hst => hi.step hst) hfirst
    have hsound := (hrow.text input.core (by rw [hinput]; rfl)).2 hmessage
    exact ⟨hsound.2, hsound.1.quiet⟩
  · intro s h e dir recipient text messageId hsend
    obtain ⟨input, hinput, -, -, hselected, rfl⟩ := Shell.starting_send hsend
    have hopened := Shell.opened_for (Shell.start_closed profiles columns rows now) h
    rw [hselected] at hopened
    exact ⟨by rw [hinput]; rfl, hopened (by rw [hinput]; rfl)⟩
  · intro s h e dir recipient text messageId hsend
    obtain ⟨input, hinput, hmessage, hseen, -, rfl⟩ := Shell.starting_send hsend
    have hfirst : Shell.Shown (.start profiles columns rows now) := by
      intro input hinput
      rw [Shell.start_closed] at hinput
      cases hinput
    have hshown : Shell.Shown s := h.invariant (fun _ _ _ hi hc hst => hi.step hc hst) hfirst
    rw [← hmessage]
    exact hshown input hinput hseen

/-! ## One message -/

/-- A contact is imported and selected, the profile is published, and the row is opened. -/
def composing : List Shell.Event :=
  asking ++ [.data [121], .key, .resume, .stdout 1 succeeded, .close 1 (some 0), .data [99], .key,
    .data [114], .key, .stdout 2 succeeded, .close 2 (some 0), .data [51], .key, .data [119], .key]

def hi : CliRequest := .send (js "/alice") (js "B") (js "hi") none

theorem sent_as_shown_hi : ∃ s,
    Run (Shell.step asciiPlatform) (Shell.Legibly asciiPlatform) (.start [cardProfile] none none 0) s ∧
    s.starting asciiPlatform .key = some hi ∧ s.state.input.map (·.buffer) = some (js "hi") ∧
    Shell.OpenedFor asciiPlatform (.start [cardProfile] none none 0) s (some (js "B")) ∧
    ∃ act ∈ s.trace, act.ShowsRow .message (js "hi") := by
  let o := replay (Shell.step asciiPlatform) (Shell.Legibly asciiPlatform)
    (composing ++ [.data [104, 105], .key, .data [13]]) (.start [cardProfile] none none 0)
  have ho : o.any (fun s => s.starting asciiPlatform .key == some hi) = true := by decide +kernel
  obtain ⟨s, hs, hstarting⟩ := (Option.any_eq_true _ _).1 ho
  have hrun : Run (Shell.step asciiPlatform) (Shell.Legibly asciiPlatform)
      (.start [cardProfile] none none 0) s := .of_replay hs
  have hsend : s.starting asciiPlatform .key = some hi := by simpa using hstarting
  have hwhole := sent_as_shown.2.1 s hrun.any _ _ _ _ _ hsend
  exact ⟨s, hrun, hsend, hwhole.1, hwhole.2, sent_as_shown.2.2 s hrun _ _ _ _ _ hsend⟩

/-- **A text that was never on the screen is sent**: it is typed after the terminal was made
    smaller than the minimum, into a row that was seen empty. -/
theorem unseen_text_sent : ¬ ∀ (p : Platform) (profiles : List ProfileView) (columns rows : Option ℕ)
    (now : ℕ) (s : Shell) (e : Shell.Event) (dir recipient text : JsString)
    (messageId : Option JsString), Run (Shell.step p) Any (.start profiles columns rows now) s →
    s.starting p e = some (.send dir recipient text messageId) →
    ∃ act ∈ s.trace, act.ShowsRow .message text := by
  intro hall
  let o := replay (Shell.step asciiPlatform) Any (composing ++
    [.resize (some 40) (some 10), .data [104, 105], .key, .data [13]]) (.start [cardProfile] none none 0)
  have ho : o.any (fun s => s.starting asciiPlatform .key == some hi &&
      decide (∀ act ∈ s.trace, ¬ act.ShowsRow .message (js "hi"))) = true := by decide +kernel
  obtain ⟨s, hs, hchecked⟩ := (Option.any_eq_true _ _).1 ho
  rw [Bool.and_eq_true, beq_iff_eq, decide_eq_true_eq] at hchecked
  obtain ⟨act, hact, hshows⟩ := hall _ _ _ _ _ s _ _ _ _ _ (.of_replay hs) hchecked.1
  exact hchecked.2 act hact hshows

end Echolet.Tui
