/-
  Whose view a result changes.

  A result is folded into the profile that is active when the command ends, and the keys that
  switch profiles stay live while it runs.

  * `outcomes_attributed`: as long as every command ends while a profile with the directory it
    names is active, or says nothing of the active one, results change the views of no other
    profile;
  * `apt_of_steady`: this is so when no profile is switched to while a command is in flight;
  * `switched_profile_overwritten`: the identity of one profile under another.
-/
import Echolet.Tui.SingleFlight

namespace Echolet.Tui

namespace Shell

variable {p : Platform} {s s' : Shell}

/-- The child that an event ends, with its result. -/
def ending (s : Shell) (e : Event) : Option (Child × CliOutcome) := do
  let (pid, exitCode) ← e.ends
  let child ← s.child? pid
  if child.settled then none else some (child, parseCliOutcome child.stdout exitCode)

/-- The command that an event starts. -/
def starting (p : Platform) (s : Shell) : Event → Option CliRequest
  | .key => do
    let sequence ← s.keys.head?
    let intent ← mapKey p (decodeKey p sequence) s.state
    (reduce s.state intent).effects.findSome? fun
      | .runCli request => some request
      | _ => none
  | _ => none

/-- A command that ends does so under a profile with the directory it names, or says nothing of
    the active profile. -/
def Apt (s : Shell) (e : Event) : Prop :=
  (s.ending e).all fun (child, outcome) => s.state.active.all fun profile =>
    profile.profileDir == child.request.profileDir || !outcome.concerns child.request profile

/-- No command for `dir` starts or ends. -/
def Elsewhere (p : Platform) (dir : JsString) (s : Shell) (e : Event) : Prop :=
  (s.starting p e).all (·.profileDir != dir) && (s.ending e).all (·.1.request.profileDir != dir)

/-- A step that keeps the views of the profiles in `dir`. -/
def AptElsewhere (p : Platform) (dir : JsString) (s : Shell) (e : Event) : Prop :=
  s.Apt e ∧ s.Elsewhere p dir e

instance (s : Shell) (e : Event) : Decidable (s.Apt e) := inferInstanceAs (Decidable (_ = true))

instance (p : Platform) (dir : JsString) (s : Shell) (e : Event) :
    Decidable (s.Elsewhere p dir e) := inferInstanceAs (Decidable (_ = true))

instance (p : Platform) (dir : JsString) (s : Shell) (e : Event) :
    Decidable (AptElsewhere p dir s e) := inferInstanceAs (Decidable (_ ∧ _))

theorem Apt.ending {e : Event} {child : Child} {outcome : CliOutcome} {profile : ProfileView}
    (h : s.Apt e) (he : s.ending e = some (child, outcome)) (hp : s.state.active = some profile) :
    profile.profileDir = child.request.profileDir ∨
      outcome.concerns child.request profile = false := by
  simpa [Apt, he, hp] using h

theorem Elsewhere.starting {dir : JsString} {e : Event} {request : CliRequest}
    (h : s.Elsewhere p dir e) (he : s.starting p e = some request) : request.profileDir ≠ dir := by
  simp only [Elsewhere, he, Bool.and_eq_true, Option.all_some] at h
  simpa using h.1

theorem Elsewhere.ending {dir : JsString} {e : Event} {child : Child} {outcome : CliOutcome}
    (h : s.Elsewhere p dir e) (he : s.ending e = some (child, outcome)) :
    child.request.profileDir ≠ dir := by
  simp only [Elsewhere, he, Bool.and_eq_true, Option.all_some] at h
  simpa using h.2

/-- The views of the profiles in `dir` are the same. -/
def SameViews (dir : JsString) (s s' : Shell) : Prop :=
  ∀ (i : ℕ) (view : ProfileView), s.state.profiles[i]? = some view → view.profileDir = dir →
    s'.state.profiles[i]? = some view

theorem SameViews.of_eq {dir : JsString} (h : s'.state.profiles = s.state.profiles) :
    SameViews dir s s' := by
  intro i view hview _
  rw [h, hview]

/-- A change of the active profile is none of the others. -/
theorem SameViews.modify {dir : JsString} {f : ProfileView → ProfileView}
    (h : s'.state.profiles = s.state.profiles.modify s.state.activeProfile f)
    (hf : ∀ view, s.state.active = some view → view.profileDir = dir → f view = view) :
    SameViews dir s s' := by
  intro i view hview hdir
  rw [h, List.getElem?_modify, hview]
  split_ifs with hi
  · rw [← hi] at hview
    show some (f view) = some view
    rw [hf view hview hdir]
  · rfl

/-- **One step.** -/
theorem SameViews.step {dir : JsString} {e : Event} (h : s.step p e = some s') (hapt : s.Apt e)
    (helse : s.Elsewhere p dir e) : SameViews dir s s' := by
  cases step_cases h with
  | frame hframe => exact .of_eq hframe.profiles
  | key he hkeys hhandled =>
    cases hhandled with
    | idle _ _ _ hidle hframe => exact .of_eq (hframe.profiles.trans hidle.profiles)
    | @started t t' intent request hkey heffects _ _ _ hstarts hframe hs =>
      have hstarting : s.starting p .key = some request := by
        simp [starting, hkeys, hkey, heffects]
      have hprofiles : s'.state.profiles = t.state.profiles := by
        rw [hs]
        exact hframe.profiles
      rcases hstarts.profiles with hsame | ⟨url, hadopted, hnamed⟩
      · exact .of_eq (hprofiles.trans hsame)
      · refine .modify (hprofiles.trans hadopted) fun view hactive hdir => ?_
        simp only at hnamed hactive
        rw [hactive, Option.map_some, Option.some.injEq] at hnamed
        exact absurd (hnamed.symm.trans hdir) (helse.starting (he ▸ hstarting))
  | modal _ hread hframe => exact .of_eq (hframe.profiles.trans hread.profiles)
  | @ended pid exitCode child t he hchild hopen _ hsettled hs' =>
    have hending : s.ending e = some (child, parseCliOutcome child.stdout exitCode) := by
      simp [ending, he, hchild, hopen]
    have hprofiles : s'.state.profiles = t.state.profiles := by
      rcases hs' with rfl | rfl <;> rfl
    refine .modify (hprofiles.trans hsettled.profiles) fun view hactive hdir => ?_
    rcases hapt.ending hending hactive with hname | hquiet
    · exact absurd (hname.symm.trans hdir) (helse.ending hending)
    · exact outcomeView_of_not_concerns hquiet
  | closed _ _ hframe hs' =>
    rw [hs']
    exact .of_eq hframe.profiles

/-! ## Profiles that are not switched -/

/-- No key switches the profile while a command is in flight. -/
def Steady (p : Platform) (s : Shell) (e : Event) : Prop :=
  e = .key → s.state.busy = true → ∀ sequence ∈ s.keys.head?, ∀ index,
    mapKey p (decodeKey p sequence) s.state ≠ some (.selectProfile index)

/-- The command in flight is for the active profile. -/
def Owned (s : Shell) : Prop :=
  ∀ child ∈ s.inFlight, s.state.active.map ProfileView.profileDir = some child.request.profileDir

theorem active_frame (h : Frame s s') : s'.state.active = s.state.active := by
  rw [OperatorState.active, OperatorState.active, h.profiles, h.activeProfile]

theorem Owned.frame (ho : Owned s) (h : Frame s s') : Owned s' := by
  intro child hchild
  have hcore : child.core ∈ s.inFlight.map Child.core := h.inFlight ▸ List.mem_map_of_mem hchild
  obtain ⟨c, hc, heq⟩ := List.mem_map.1 hcore
  have hrequest : c.request = child.request := congrArg (·.2.1) heq
  rw [active_frame h, ← hrequest]
  exact ho c hc

theorem Owned.of_idle (h : s.inFlight = []) : Owned s := by
  intro child hchild
  rw [h] at hchild
  cases hchild

theorem Owned.started (h : s.inFlight = []) {unasked : Bool} {request : CliRequest}
    (hactive : s.state.active.map ProfileView.profileDir = some request.profileDir) :
    Owned (s.runCli unasked request) := by
  intro child hchild
  rw [runCli, inFlight, List.filter_append, ← inFlight, h] at hchild
  simp only [List.nil_append, Bool.not_false, List.filter_cons_of_pos, List.filter_nil,
    List.mem_singleton] at hchild
  rw [hchild]
  exact hactive

theorem Owned.letGo (ho : Owned s) (pid : ℕ) : Owned (s.letGo pid) := by
  intro child hchild
  obtain ⟨hmem, hopen⟩ := List.mem_filter.1 hchild
  exact ho child (List.mem_filter.2 ⟨(List.mem_filter.1 hmem).1, hopen⟩)

theorem Owned.step {e : Event} (hi : Inv s) (ho : Owned s) (hsteady : s.Steady p e)
    (h : s.step p e = some s') : Owned s' := by
  cases step_cases h with
  | frame hframe => exact ho.frame hframe
  | @key sequence keys he hkeys hhandled =>
    cases hhandled with
    | @idle t hchildren _ hreduced hidle hframe =>
      refine Owned.frame (fun child hchild => ?_) hframe
      have hflying : child ∈ s.inFlight := by
        rw [inFlight, hchildren] at hchild
        exact hchild
      have hactive : t.state.activeProfile = s.state.activeProfile := by
        rcases hreduced with hsame | ⟨intent, hkey, hreduced⟩
        · rw [hsame]
        · rw [hreduced]
          refine reduce_activeProfile fun index hindex => ?_
          refine hsteady he (hi.busy_of_mem hflying) sequence (by simp [hkeys]) index ?_
          rw [← hindex]
          exact hkey
      rw [OperatorState.active, hidle.profiles, hactive]
      exact ho child hflying
    | @started t t' intent request hkey _ hbusy hchildren _ hstarts hframe hs =>
      have hidle : s.inFlight = [] := hi.idle hbusy
      have hcores : t'.children.map Child.core = s.children.map Child.core := by
        rw [hframe.children, hchildren]
      rw [hs]
      refine Owned.started (inFlight_of_core hcores hidle) ?_
      rw [active_frame hframe]
      exact hstarts.active hkey
  | modal _ hread hframe =>
    refine Owned.frame (fun child hchild => ?_) hframe
    exact ho.frame hread child hchild
  | @ended _ _ child t _ hchild hopen _ hsettled hs' =>
    have hflying : child ∈ s.inFlight := List.mem_filter.2 ⟨(child?_mem hchild).1, by simp [hopen]⟩
    have howned : Owned t := .of_idle (inFlight_of_core hsettled.children (hi.ended hflying))
    rcases hs' with rfl | rfl
    · exact howned
    · exact howned.letGo _
  | closed _ _ hframe hs' =>
    rw [hs']
    exact (ho.frame hframe).letGo _

/-- With no switch under a command every result goes where it was asked for. -/
theorem Owned.apt (ho : Owned s) (e : Event) : s.Apt e := by
  unfold Apt
  cases hending : s.ending e with
  | none => rfl
  | some found =>
    obtain ⟨child, outcome⟩ := found
    simp only [ending, Option.bind_eq_bind, Option.bind_eq_some_iff] at hending
    obtain ⟨⟨pid, exitCode⟩, -, found, hfound, hchild⟩ := hending
    split_ifs at hchild with hopen
    cases hchild
    have hnamed := ho child (List.mem_filter.2 ⟨(child?_mem hfound).1, by simp [hopen]⟩)
    rw [Option.map_eq_some_iff] at hnamed
    obtain ⟨profile, hactive, hdir⟩ := hnamed
    simp [hactive, hdir]

theorem Owned.start (profiles : List ProfileView) (columns rows : Option ℕ) (now : ℕ) :
    Owned (Shell.start profiles columns rows now) := by
  let s := (blank profiles columns rows now).paint
  have hpaint : Frame (blank profiles columns rows now) s := paint_frame _
  have hnone : s.inFlight = [] := inFlight_of_core hpaint.children rfl
  rcases askWhatIsThere_cases (s := s) hpaint.busy with hask | ⟨profile, hactive, hask⟩
  · exact .of_idle ((congrArg inFlight hask).trans hnone)
  · let t : Shell := { s with state := { s.state with busy := true } }
    have hframe := paint_frame t
    have howned : Owned (t.paint.runCli true (.doctor profile.profileDir)) := by
      refine Owned.started (inFlight_of_core (s := s) hframe.children hnone) ?_
      rw [active_frame hframe]
      show s.state.active.map ProfileView.profileDir = some profile.profileDir
      rw [hactive, Option.map_some]
    rw [Shell.start, hask]
    exact howned

/-- **Profiles that are not switched.**  When no key switches the profile while a command is in
    flight, every command ends under a profile with the directory it names. -/
theorem apt_of_steady {profiles : List ProfileView} {columns rows : Option ℕ} {now : ℕ}
    (h : Run (Shell.step p) (Steady p) (.start profiles columns rows now) s) (e : Event) :
    s.Apt e := by
  have hboth : Inv s ∧ Owned s := by
    refine Run.invariant (I := fun s => Inv s ∧ Owned s) ?_ h
      ⟨.start .., Owned.start profiles columns rows now⟩
    intro s e s' hi hc hst
    exact ⟨hi.1.step hst, hi.2.step hi.1 hc hst⟩
  exact hboth.2.apt e

end Shell

/-- **Results land where they were asked for.**  In every run whose commands end while a profile
    with the directory they name is active, or say nothing of the active one, the views of the
    profiles in `dir` stay as they are from any state to any later one, as long as no command for
    `dir` starts or ends. -/
theorem outcomes_attributed {p : Platform} {dir : JsString} {s s' : Shell}
    (h : Run (Shell.step p) (Shell.AptElsewhere p dir) s s') : s.SameViews dir s' := by
  induction h with
  | refl => exact .of_eq rfl
  | tail _ hc hst ih =>
    intro i view hview hdir
    have hmiddle := ih i view hview hdir
    exact Shell.SameViews.step hst hc.1 hc.2 i view hmiddle hdir

/-! ## Two profiles -/

def aliceAndBob : Shell :=
  .start [freshProfile "alice" "/alice", freshProfile "bob" "/bob"] none none 0

def doctorOutput : List ℕ :=
  utf8Bytes "\x7b\"ok\":true,\"data\":\x7b\"identity_id\":\"A\"\x7d\x7d".toList

theorem outcomes_attributed_doctor : ∃ s, Run (Shell.step asciiPlatform)
    (Shell.AptElsewhere asciiPlatform (js "/bob")) aliceAndBob s ∧
      s.state.profiles.map (·.identityId) = [js "A", js "(run doctor)"] ∧
      aliceAndBob.SameViews (js "/bob") s := by
  have hviews : (replay (Shell.step asciiPlatform) (Shell.AptElsewhere asciiPlatform (js "/bob"))
      [.stdout 0 doctorOutput, .close 0 (some 0)] aliceAndBob).any (fun s =>
        s.state.profiles.map (·.identityId) == [js "A", js "(run doctor)"]) = true := by
    decide +kernel
  cases hrun : replay (Shell.step asciiPlatform) (Shell.AptElsewhere asciiPlatform (js "/bob"))
      [.stdout 0 doctorOutput, .close 0 (some 0)] aliceAndBob with
  | none =>
    rw [hrun] at hviews
    cases hviews
  | some s =>
    rw [hrun] at hviews
    exact ⟨s, .of_replay hrun, by simpa using hviews, outcomes_attributed (.of_replay hrun)⟩

/-- Pressing `t` while the `doctor` of Alice runs files her identity under Bob. -/
theorem switched_profile_overwritten : ∃ s s' child outcome view,
    Run (Shell.step asciiPlatform) Any aliceAndBob s ∧
    s.ending (.close 0 (some 0)) = some (child, outcome) ∧
    s.step asciiPlatform (.close 0 (some 0)) = some s' ∧ s.state.profiles[1]? = some view ∧
    view.profileDir ≠ child.request.profileDir ∧ s'.state.profiles[1]? ≠ some view := by
  have hviews : (replay (Shell.step asciiPlatform) Any
      [.data [116], .key, .stdout 0 doctorOutput] aliceAndBob).any (fun s =>
        (s.ending (.close 0 (some 0))).any (fun found =>
          s.state.profiles[1]?.any fun view => view.profileDir != found.1.request.profileDir) &&
        (s.step asciiPlatform (.close 0 (some 0))).any fun s' =>
          s'.state.profiles[1]? != s.state.profiles[1]?) = true := by
    decide +kernel
  cases hrun : replay (Shell.step asciiPlatform) Any
      [.data [116], .key, .stdout 0 doctorOutput] aliceAndBob with
  | none =>
    rw [hrun] at hviews
    cases hviews
  | some s =>
    rw [hrun, Option.any_some, Bool.and_eq_true, Option.any_eq_true, Option.any_eq_true] at hviews
    obtain ⟨⟨found, hfound, hview⟩, s', hstep, hne⟩ := hviews
    rw [Option.any_eq_true] at hview
    obtain ⟨view, hview, hdir⟩ := hview
    refine ⟨s, s', found.1, found.2, view, .of_replay hrun, hfound, hstep, hview, ?_, ?_⟩
    · simpa using hdir
    · rw [← hview]
      simpa using hne

end Echolet.Tui
