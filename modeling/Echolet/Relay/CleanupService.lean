/-
  The cleanup service (`CleanupService`): its ticker goroutine, and `Start` and `Stop` called by
  any number of goroutines.

  * What a call does while it holds the lock is one step; the ticker goroutines take theirs
    between them, and `select` may choose a tick although `stop` is closed;
  * `Stopped` is what a stop means: no two ticker goroutines at once, and after a `Stop` has
    returned none of those launched before it was called;
  * `Alone`: no `Start` and no `Stop` finds the service without handles while a goroutine of
    an earlier `Start` runs on;
  * `stopped_of_alone`: where every step is so, every state is; `Alone.exact`: a step that is not
    leads to a state that is not.
-/
import Echolet.Lib.Runs

namespace Echolet.Cleanup

/-! ## The goroutine -/

inductive Phase where
  /-- In `select`. -/
  | waiting
  /-- In `runCleanup`, with so many tasks to go. -/
  | cleaning (left : ℕ)
  /-- `stopped` is closed. -/
  | finished
  deriving DecidableEq

/-- A goroutine that `Start` launched, with its two channels. -/
structure Goroutine where
  phase : Phase
  /-- How often `stop` was closed. -/
  closes : ℕ
  deriving DecidableEq

inductive Event where
  | tick
  | task
  | cleaned
  /-- `stop` is received from. -/
  | stop
  /-- A task does not return: the deferred calls are made. -/
  | panic
  deriving DecidableEq

def Goroutine.step (maintenance : ℕ) (r : Goroutine) (e : Event) : Option Goroutine :=
  match e, r.phase with
  | .tick, .waiting => some { r with phase := .cleaning maintenance }
  | .task, .cleaning (left + 1) => some { r with phase := .cleaning left }
  | .cleaned, .cleaning 0 => some { r with phase := .waiting }
  | .stop, .waiting => if 0 < r.closes then some { r with phase := .finished } else none
  | .panic, .cleaning (_ + 1) => some { r with phase := .finished }
  | _, _ => none

/-- A goroutine that finished does nothing, and none closes its own `stop`. -/
theorem Goroutine.step_spec {maintenance : ℕ} {r r' : Goroutine} {e : Event}
    (h : r.step maintenance e = some r') : r.phase ≠ .finished ∧ r'.closes = r.closes := by
  have hphase : ∀ {p : Phase}, r.phase = p → p ≠ .finished → r.phase ≠ .finished :=
    fun hp hne => hp ▸ hne
  unfold Goroutine.step at h
  split at h
  next hp => cases h; exact ⟨hphase hp nofun, rfl⟩
  next hp => cases h; exact ⟨hphase hp nofun, rfl⟩
  next hp => cases h; exact ⟨hphase hp nofun, rfl⟩
  next hp => split_ifs at h; cases h; exact ⟨hphase hp nofun, rfl⟩
  next hp => cases h; exact ⟨hphase hp nofun, rfl⟩
  next => cases h

/-! ## The service -/

/-- A call of `Start` or `Stop`.  A call of `Stop` knows the goroutines launched by the calls of
    `Start` that had returned when it was made, which the source does not record. -/
inductive Call where
  | starting
  /-- The lock is released. -/
  | started (launched : Option ℕ)
  | startReturned
  | stopping (before : List ℕ)
  /-- The lock is released, with the handles of a goroutine. -/
  | taken (before : List ℕ) (g : ℕ)
  /-- At `<-stopped`. -/
  | waiting (before : List ℕ) (g : ℕ)
  /-- The lock is released, and there was nothing to stop. -/
  | idle (before : List ℕ)
  | stopReturned (before : List ℕ)
  deriving DecidableEq

/-- The goroutines a call knows of. -/
def Call.before : Call → List ℕ
  | .started launched => launched.toList
  | .stopping before | .taken before _ | .waiting before _ | .idle before | .stopReturned before =>
    before
  | _ => []

structure CleanupService where
  /-- `stop` and `stopped`: the channels of a goroutine. -/
  handles : Option ℕ
  /-- The goroutines in the order they were launched. -/
  goroutines : List Goroutine
  calls : ℕ → Option Call
  /-- The goroutines launched by calls of `Start` that returned. -/
  completed : List ℕ

namespace CleanupService

def init : CleanupService := ⟨none, [], fun _ => none, []⟩

def setCall (s : CleanupService) (c : ℕ) (call : Call) : CleanupService :=
  { s with calls := fun k => if k = c then some call else s.calls k }

/-- Whether a goroutine is there and has not closed its `stopped`. -/
def running (s : CleanupService) (g : ℕ) : Bool :=
  (s.goroutines[g]?).any fun r => r.phase ≠ .finished

def closes (s : CleanupService) (g : ℕ) : ℕ := ((s.goroutines[g]?).map (·.closes)).getD 0

def launch (s : CleanupService) : CleanupService :=
  { s with handles := some s.goroutines.length, goroutines := s.goroutines ++ [⟨.waiting, 0⟩] }

/-- `close(stop)` -/
def close (s : CleanupService) (g : ℕ) : CleanupService :=
  { s with goroutines := s.goroutines.modify g fun r => { r with closes := r.closes + 1 } }

end CleanupService

inductive Action where
  | callStart (c : ℕ)
  | lockStart (c : ℕ)
  | returnStart (c : ℕ)
  | callStop (c : ℕ)
  | lockStop (c : ℕ)
  | closeStop (c : ℕ)
  | returnStop (c : ℕ)
  | run (g : ℕ) (e : Event)
  deriving DecidableEq

def step (maintenance : ℕ) (s : CleanupService) : Action → Option CleanupService
  | .callStart c => if s.calls c = none then some (s.setCall c .starting) else none
  | .lockStart c =>
    if s.calls c = some .starting then
      match s.handles with
      | some _ => some (s.setCall c (.started none))
      | none => some (s.launch.setCall c (.started (some s.goroutines.length)))
    else none
  | .returnStart c =>
    match s.calls c with
    | some (.started launched) =>
      some { s.setCall c .startReturned with completed := launched.toList ++ s.completed }
    | _ => none
  | .callStop c => if s.calls c = none then some (s.setCall c (.stopping s.completed)) else none
  | .lockStop c =>
    match s.calls c with
    | some (.stopping before) =>
      match s.handles with
      | some g => some { s.setCall c (.taken before g) with handles := none }
      | none => some (s.setCall c (.idle before))
    | _ => none
  | .closeStop c =>
    match s.calls c with
    | some (.taken before g) => some ((s.close g).setCall c (.waiting before g))
    | _ => none
  | .returnStop c =>
    match s.calls c with
    | some (.idle before) => some (s.setCall c (.stopReturned before))
    | some (.waiting before g) =>
      if s.running g = false then some (s.setCall c (.stopReturned before)) else none
    | _ => none
  | .run g e => do
    let r ← s.goroutines[g]?
    let r' ← r.step maintenance e
    some { s with goroutines := s.goroutines.set g r' }

/-! ## What a step changes -/

namespace CleanupService
variable {s s' : CleanupService} {g : ℕ}

theorem running_lt (h : s.running g = true) : g < s.goroutines.length := by
  by_contra hg
  rw [running, List.getElem?_eq_none (Nat.not_lt.1 hg)] at h
  cases h

theorem running_launch (s : CleanupService) (g : ℕ) :
    s.launch.running g = (decide (g = s.goroutines.length) || s.running g) := by
  unfold running launch
  dsimp only
  rw [List.getElem?_append]
  split_ifs with hg
  · simp [Nat.ne_of_lt hg]
  · rcases eq_or_ne g s.goroutines.length with rfl | hne
    · simp
    · rw [List.getElem?_eq_none (by simp; omega), List.getElem?_eq_none (Nat.not_lt.1 hg)]
      simp [hne]

theorem closes_launch (s : CleanupService) (g : ℕ) : s.launch.closes g = s.closes g := by
  unfold closes launch
  dsimp only
  rw [List.getElem?_append]
  split_ifs with hg
  · rfl
  · rw [List.getElem?_eq_none (Nat.not_lt.1 hg)]
    rcases eq_or_ne g s.goroutines.length with rfl | hne
    · simp
    · rw [List.getElem?_eq_none (by simp; omega)]

theorem running_close (s : CleanupService) (g k : ℕ) : (s.close g).running k = s.running k := by
  unfold running close
  dsimp only
  rw [List.getElem?_modify]
  cases s.goroutines[k]? with
  | none => rfl
  | some r => by_cases h : g = k <;> simp [h]

theorem closes_close {g : ℕ} (hg : g < s.goroutines.length) (k : ℕ) :
    (s.close g).closes k = if k = g then s.closes g + 1 else s.closes k := by
  unfold closes close
  dsimp only
  rw [List.getElem?_modify]
  by_cases h : k = g
  · subst h
    rw [List.getElem?_eq_getElem hg]
    simp
  · rw [if_neg h]
    simp [Ne.symm h]

end CleanupService

/-- What a step of a goroutine changes: none runs on that did not run. -/
theorem run_spec {maintenance : ℕ} {s s' : CleanupService} {g : ℕ} {e : Event}
    (h : step maintenance s (.run g e) = some s') : s.running g = true ∧
      (∀ k, s'.running k = true → s.running k = true) ∧ (∀ k, s'.closes k = s.closes k) ∧
      s'.goroutines.length = s.goroutines.length ∧ s'.handles = s.handles ∧ s'.calls = s.calls ∧
      s'.completed = s.completed := by
  obtain ⟨r, hr, h⟩ := Option.bind_eq_some_iff.1 h
  obtain ⟨r', hr', h⟩ := Option.bind_eq_some_iff.1 h
  cases h
  obtain ⟨hphase, hcloses⟩ := Goroutine.step_spec hr'
  have hrun : s.running g = true := by
    rw [CleanupService.running, hr]
    simpa using hphase
  have hg := CleanupService.running_lt hrun
  refine ⟨hrun, fun k hk => ?_, fun k => ?_, List.length_set, rfl, rfl, rfl⟩
  · by_cases hkg : g = k
    · exact hkg ▸ hrun
    · simpa [CleanupService.running, List.getElem?_set_ne hkg] using hk
  · by_cases hkg : g = k
    · subst hkg
      simp [CleanupService.closes, List.getElem?_set_self hg, hr, hcloses]
    · simp [CleanupService.closes, List.getElem?_set_ne hkg]

/-- What an action can do. -/
inductive Moves (maintenance : ℕ) (s : CleanupService) : Action → CleanupService → Prop
  | callStart {c} : s.calls c = none → Moves maintenance s (.callStart c) (s.setCall c .starting)
  | again {c g} : s.calls c = some .starting → s.handles = some g →
      Moves maintenance s (.lockStart c) (s.setCall c (.started none))
  | launch {c} : s.calls c = some .starting → s.handles = none →
      Moves maintenance s (.lockStart c) (s.launch.setCall c (.started (some s.goroutines.length)))
  | returnStart {c launched} : s.calls c = some (.started launched) →
      Moves maintenance s (.returnStart c)
        { s.setCall c .startReturned with completed := launched.toList ++ s.completed }
  | callStop {c} : s.calls c = none →
      Moves maintenance s (.callStop c) (s.setCall c (.stopping s.completed))
  | take {c before g} : s.calls c = some (.stopping before) → s.handles = some g →
      Moves maintenance s (.lockStop c) { s.setCall c (.taken before g) with handles := none }
  | idle {c before} : s.calls c = some (.stopping before) → s.handles = none →
      Moves maintenance s (.lockStop c) (s.setCall c (.idle before))
  | close {c before g} : s.calls c = some (.taken before g) →
      Moves maintenance s (.closeStop c) ((s.close g).setCall c (.waiting before g))
  | returnIdle {c before} : s.calls c = some (.idle before) →
      Moves maintenance s (.returnStop c) (s.setCall c (.stopReturned before))
  | returnStopped {c before g} : s.calls c = some (.waiting before g) → s.running g = false →
      Moves maintenance s (.returnStop c) (s.setCall c (.stopReturned before))
  | run {g e s'} : step maintenance s (.run g e) = some s' → Moves maintenance s (.run g e) s'

theorem step_moves {maintenance : ℕ} {s s' : CleanupService} {a : Action}
    (h : step maintenance s a = some s') : Moves maintenance s a s' := by
  cases a with
  | run g e => exact .run h
  | callStart c =>
    obtain ⟨hc, h⟩ := Option.ite_none_right_eq_some.1 h
    cases h
    exact .callStart hc
  | lockStart c =>
    obtain ⟨hc, h⟩ := Option.ite_none_right_eq_some.1 h
    split at h
    next g hg => cases h; exact .again hc hg
    next hg => cases h; exact .launch hc hg
  | returnStart c =>
    unfold step at h
    dsimp only at h
    split at h
    next launched hc => cases h; exact .returnStart hc
    next => cases h
  | callStop c =>
    obtain ⟨hc, h⟩ := Option.ite_none_right_eq_some.1 h
    cases h
    exact .callStop hc
  | lockStop c =>
    unfold step at h
    dsimp only at h
    split at h
    next before hc =>
      split at h
      next g hg => cases h; exact .take hc hg
      next hg => cases h; exact .idle hc hg
    next => cases h
  | closeStop c =>
    unfold step at h
    dsimp only at h
    split at h
    next before g hc => cases h; exact .close hc
    next => cases h
  | returnStop c =>
    unfold step at h
    dsimp only at h
    split at h
    next before hc => cases h; exact .returnIdle hc
    next before g hc =>
      split_ifs at h with hg
      cases h
      exact .returnStopped hc hg
    next => cases h

/-! ## No channel is closed twice -/

/-- A `stop` that somebody has yet to close is open, and nobody else is to close it. -/
structure Closing (s : CleanupService) : Prop where
  handles : ∀ g, s.handles = some g → g < s.goroutines.length ∧ s.closes g = 0
  taken : ∀ c before g, s.calls c = some (.taken before g) →
    g < s.goroutines.length ∧ s.closes g = 0 ∧ s.handles ≠ some g
  alone : ∀ c c' before before' g, s.calls c = some (.taken before g) →
    s.calls c' = some (.taken before' g) → c = c'
  once : ∀ g, s.closes g ≤ 1

section
variable {maintenance c : ℕ} {s s' : CleanupService}

theorem setCall_calls {call : Call} {k : ℕ} :
    (s.setCall c call).calls k = if k = c then some call else s.calls k := rfl

theorem Closing.setCall (h : Closing s) {call : Call} (hne : ∀ before g, call ≠ .taken before g) :
    Closing (s.setCall c call) := by
  have hold : ∀ {k before g}, (s.setCall c call).calls k = some (.taken before g) →
      s.calls k = some (.taken before g) := by
    intro k before g hk
    rw [setCall_calls] at hk
    split_ifs at hk
    · exact absurd (Option.some.inj hk) (hne before g)
    · exact hk
  exact ⟨h.handles, fun k before g hk => h.taken k before g (hold hk),
    fun k k' before before' g hk hk' => h.alone k k' before before' g (hold hk) (hold hk'), h.once⟩

theorem Closing.launch (h : Closing s) : Closing s.launch where
  handles g hg := by
    cases hg
    rw [CleanupService.closes_launch]
    exact ⟨by simp [CleanupService.launch], by simp [CleanupService.closes]⟩
  taken k before g hk := by
    obtain ⟨hlt, h0, -⟩ := h.taken k before g hk
    rw [CleanupService.closes_launch]
    refine ⟨by simp [CleanupService.launch]; omega, h0, fun hg => ?_⟩
    exact Nat.ne_of_lt hlt (Option.some.inj hg).symm
  alone := h.alone
  once g := by
    rw [CleanupService.closes_launch]
    exact h.once g

/-- The call that took the handles is the one that closes. -/
theorem Closing.take (h : Closing s) {before : List ℕ} {g : ℕ} (hg : s.handles = some g) :
    Closing { s.setCall c (.taken before g) with handles := none } := by
  have hold : ∀ {k before' g'}, (s.setCall c (.taken before g)).calls k = some (.taken before' g') →
      k = c ∧ g' = g ∨ s.calls k = some (.taken before' g') := by
    intro k before' g' hk
    rw [setCall_calls] at hk
    split_ifs at hk with hkc
    · cases hk
      exact Or.inl ⟨hkc, rfl⟩
    · exact Or.inr hk
  refine ⟨fun _ hn => (by cases hn), fun k before' g' hk => ?_, fun k k' b b' g' hk hk' => ?_, h.once⟩
  · rcases hold hk with ⟨-, rfl⟩ | hold
    · exact ⟨(h.handles g' hg).1, (h.handles g' hg).2, nofun⟩
    · exact ⟨(h.taken k before' g' hold).1, (h.taken k before' g' hold).2.1, nofun⟩
  · rcases hold hk with ⟨rfl, rfl⟩ | hold₁
    · rcases hold hk' with ⟨rfl, -⟩ | hold₂
      · rfl
      · exact absurd hg (h.taken k' b' g' hold₂).2.2
    · rcases hold hk' with ⟨rfl, rfl⟩ | hold₂
      · exact absurd hg (h.taken k b g' hold₁).2.2
      · exact h.alone k k' b b' g' hold₁ hold₂

theorem Closing.close (h : Closing s) {before : List ℕ} {g : ℕ}
    (hc : s.calls c = some (.taken before g)) :
    Closing ((s.close g).setCall c (.waiting before g)) := by
  obtain ⟨hlt, h0, hne⟩ := h.taken c before g hc
  have hcloses : ∀ k, ((s.close g).setCall c (.waiting before g)).closes k =
      if k = g then 1 else s.closes k := by
    intro k
    exact (CleanupService.closes_close hlt k).trans (by rw [h0])
  have hlen : ((s.close g).setCall c (.waiting before g)).goroutines.length = s.goroutines.length :=
    List.length_modify _ _ _
  have hold : ∀ {k b g'}, ((s.close g).setCall c (.waiting before g)).calls k = some (.taken b g') →
      k ≠ c ∧ s.calls k = some (.taken b g') := by
    intro k b g' hk
    rw [setCall_calls] at hk
    split_ifs at hk with hkc
    · cases hk
    · exact ⟨hkc, hk⟩
  refine ⟨fun g' hg' => ?_, fun k b g' hk => ?_, fun k k' b b' g' hk hk' => ?_, fun k => ?_⟩
  · have hgg : g' ≠ g := by
      rintro rfl
      exact hne hg'
    rw [hcloses, hlen, if_neg hgg]
    exact h.handles g' hg'
  · obtain ⟨hkc, hkold⟩ := hold hk
    have hgg : g' ≠ g := by
      rintro rfl
      exact hkc (h.alone k c b before g' hkold hc)
    rw [hcloses, hlen, if_neg hgg]
    exact h.taken k b g' hkold
  · exact h.alone k k' b b' g' (hold hk).2 (hold hk').2
  · rw [hcloses]
    split_ifs
    · exact Nat.le_refl 1
    · exact h.once k

theorem Closing.step (h : Closing s) {a : Action} (hs : step maintenance s a = some s') :
    Closing s' := by
  cases step_moves hs with
  | callStart | again | callStop | idle | returnIdle | returnStopped => exact h.setCall nofun
  | launch => exact h.launch.setCall nofun
  | @returnStart c =>
    have hset : Closing (s.setCall c .startReturned) := h.setCall nofun
    exact ⟨hset.handles, hset.taken, hset.alone, hset.once⟩
  | take _ hg => exact h.take hg
  | close hc => exact h.close hc
  | run hrun =>
    obtain ⟨-, -, hcloses, hlen, hhandles, hcalls, -⟩ := run_spec hrun
    refine ⟨?_, ?_, ?_, ?_⟩
    · rw [hhandles, hlen]
      simpa only [hcloses] using h.handles
    · rw [hcalls, hhandles, hlen]
      simpa only [hcloses] using h.taken
    · rw [hcalls]
      exact h.alone
    · simpa only [hcloses] using h.once

end

/-! ## Stopped -/

/-- No `Start` and no `Stop` takes the lock while the service has no handles and a goroutine it
    would have to know of runs on: for a `Start` any, for a `Stop` one of those launched by
    calls that had returned before it was made. -/
def Alone (s : CleanupService) : Action → Prop
  | .lockStart _ => s.handles = none → ∀ g < s.goroutines.length, s.running g = false
  | .lockStop c => s.handles = none → ∀ call, s.calls c = some call →
      ∀ g ∈ call.before, s.running g = false
  | _ => True

/-- What is known of a call. -/
def Call.Ok (s : CleanupService) : Call → Prop
  | .taken before g | .waiting before g => ∀ b ∈ before, s.running b = true → b = g
  | .idle before | .stopReturned before => ∀ b ∈ before, s.running b = false
  | _ => True

/-- At most one goroutine runs, which is the one with the handles if the service has any. -/
structure Inv (s : CleanupService) : Prop where
  single : ∀ g g', s.running g = true → s.running g' = true → g = g'
  held : ∀ g g', s.handles = some g → s.running g' = true → g' = g
  completed : ∀ g ∈ s.completed, g < s.goroutines.length
  known : ∀ c call, s.calls c = some call → ∀ g ∈ call.before, g < s.goroutines.length
  ok : ∀ c call, s.calls c = some call → call.Ok s

section
variable {maintenance c : ℕ} {s s' : CleanupService}

/-- What is known of a call stays known while no goroutine it knows of starts to run. -/
theorem Call.Ok.mono {call : Call} (h : call.Ok s)
    (hrun : ∀ g ∈ call.before, s'.running g = true → s.running g = true) : call.Ok s' := by
  have hfalse : ∀ {g}, g ∈ call.before → s.running g = false → s'.running g = false :=
    fun hg hr => Bool.eq_false_iff.2 fun hr' => Bool.eq_false_iff.1 hr (hrun _ hg hr')
  cases call with
  | taken before g | waiting before g => exact fun b hb hr => h b hb (hrun b hb hr)
  | idle before | stopReturned before => exact fun b hb => hfalse hb (h b hb)
  | starting | started | startReturned | stopping => trivial

/-- A step after which no other goroutine runs, and nothing is known of another call. -/
theorem Inv.calm (h : Inv s) (hrun : ∀ g, s'.running g = true → s.running g = true)
    (hlen : s'.goroutines.length = s.goroutines.length)
    (hhandles : s'.handles = s.handles ∨ s'.handles = none) (hcalls : s'.calls = s.calls)
    (hcompleted : s'.completed = s.completed) : Inv s' where
  single g g' hg hg' := h.single g g' (hrun g hg) (hrun g' hg')
  held g g' hg hg' := by
    rcases hhandles with he | he
    · exact h.held g g' (he ▸ hg) (hrun g' hg')
    · rw [he] at hg
      cases hg
  completed := by
    rw [hcompleted, hlen]
    exact h.completed
  known := by
    rw [hcalls, hlen]
    exact h.known
  ok c call hc := (h.ok c call (hcalls ▸ hc)).mono fun g _ => hrun g

theorem Inv.setCall (h : Inv s) {call : Call} (hok : call.Ok s)
    (hknown : ∀ g ∈ call.before, g < s.goroutines.length) : Inv (s.setCall c call) where
  single := h.single
  held := h.held
  completed := h.completed
  known k call' hk := by
    rw [setCall_calls] at hk
    split_ifs at hk
    · exact Option.some.inj hk ▸ hknown
    · exact h.known k call' hk
  ok k call' hk := by
    rw [setCall_calls] at hk
    split_ifs at hk
    · exact Option.some.inj hk ▸ hok.mono fun _ _ => id
    · exact (h.ok k call' hk).mono fun _ _ => id

/-- A goroutine is launched where none runs. -/
theorem Inv.launch (h : Inv s) (hnone : ∀ g < s.goroutines.length, s.running g = false) :
    Inv s.launch := by
  have hnew : ∀ g, s.launch.running g = true → g = s.goroutines.length := by
    intro g hg
    rw [CleanupService.running_launch, Bool.or_eq_true, decide_eq_true_iff] at hg
    rcases hg with hg | hg
    · exact hg
    · exact absurd hg (Bool.eq_false_iff.1 (hnone g (CleanupService.running_lt hg)))
  have hlen : s.launch.goroutines.length = s.goroutines.length + 1 := by
    simp [CleanupService.launch]
  refine ⟨fun g g' hg hg' => (hnew g hg).trans (hnew g' hg').symm, fun g g' hg hg' => ?_, ?_, ?_, ?_⟩
  · cases hg
    exact hnew g' hg'
  · intro g hg
    rw [hlen]
    exact Nat.lt_succ_of_lt (h.completed g hg)
  · intro k call hk g hg
    rw [hlen]
    exact Nat.lt_succ_of_lt (h.known k call hk g hg)
  · intro k call hk
    refine (h.ok k call hk).mono fun g hg hr => ?_
    exact absurd (hnew g hr) (Nat.ne_of_lt (h.known k call hk g hg))

theorem Inv.step (h : Inv s) {a : Action} (ha : Alone s a) (hs : step maintenance s a = some s') :
    Inv s' := by
  cases step_moves hs with
  | callStart => exact h.setCall trivial nofun
  | again => exact h.setCall trivial nofun
  | launch hc hg =>
    refine (h.launch (ha hg)).setCall trivial fun g hb => ?_
    rw [List.mem_singleton.1 hb]
    simp [CleanupService.launch]
  | @returnStart c launched hc =>
    have hset : Inv (s.setCall c .startReturned) := h.setCall trivial nofun
    refine ⟨hset.single, hset.held, fun g hg => ?_, hset.known, hset.ok⟩
    rcases List.mem_append.1 hg with hg | hg
    · exact h.known c _ hc g hg
    · exact h.completed g hg
  | callStop => exact h.setCall trivial h.completed
  | @take c before g hc hg =>
    have hset : Inv (s.setCall c (.taken before g)) :=
      h.setCall (fun b _ => h.held g b hg) (h.known c (.stopping before) hc)
    exact hset.calm (fun _ => id) rfl (Or.inr rfl) rfl rfl
  | @idle c before hc hg => exact h.setCall (ha hg _ hc) (h.known c (.stopping before) hc)
  | @close c before g hc =>
    have hclose : Inv (s.close g) := by
      refine h.calm (fun k hk => ?_) (List.length_modify _ _ _) (Or.inl rfl) rfl rfl
      rw [← CleanupService.running_close s g]
      exact hk
    exact hclose.setCall (hclose.ok c (.taken before g) hc) (hclose.known c (.taken before g) hc)
  | @returnIdle c before hc => exact h.setCall (h.ok c (.idle before) hc) (h.known c (.idle before) hc)
  | @returnStopped c before g hc hg =>
    refine h.setCall (fun b hb => ?_) (h.known c (.waiting before g) hc)
    refine Bool.eq_false_iff.2 fun hr => ?_
    rw [h.ok c (.waiting before g) hc b hb hr, hg] at hr
    cases hr
  | run hrun =>
    obtain ⟨-, hrun, -, hlen, hhandles, hcalls, hcompleted⟩ := run_spec hrun
    exact h.calm hrun hlen (Or.inl hhandles) hcalls hcompleted

/-- A goroutine that does not run any more never does. -/
theorem running_mono (hs : Run (step maintenance) Any s s') {g : ℕ} (hg : g < s.goroutines.length)
    (hr : s.running g = false) : s'.running g = false := by
  have hkeeps : ∀ t t' a, (g < t.goroutines.length ∧ t.running g = false) → Any t a →
      step maintenance t a = some t' → g < t'.goroutines.length ∧ t'.running g = false := by
    rintro t t' a ⟨hlt, hfalse⟩ - hst
    cases step_moves hst with
    | callStart | again | returnStart | callStop | take | idle | returnIdle | returnStopped =>
      exact ⟨hlt, hfalse⟩
    | launch =>
      refine ⟨by simp [CleanupService.launch, CleanupService.setCall]; omega, ?_⟩
      change t.launch.running g = false
      rw [CleanupService.running_launch, hfalse, decide_eq_false (Nat.ne_of_lt hlt)]
      rfl
    | @close c before k =>
      refine ⟨(List.length_modify _ _ _).symm ▸ hlt, ?_⟩
      change (t.close k).running g = false
      rw [CleanupService.running_close, hfalse]
    | run hrun =>
      obtain ⟨-, hold, -, hlen, -⟩ := run_spec hrun
      exact ⟨hlen ▸ hlt, Bool.eq_false_iff.2 fun h => Bool.eq_false_iff.1 hfalse (hold g h)⟩
  exact (hs.invariant (I := fun t => g < t.goroutines.length ∧ t.running g = false)
    (fun t a t' => hkeeps t t' a) ⟨hg, hr⟩).2

end

/-- What a stop means. -/
structure Stopped (maintenance : ℕ) (s : CleanupService) : Prop where
  /-- There is at most one ticker goroutine. -/
  single : ∀ g g', s.running g = true → s.running g' = true → g = g'
  /-- Where a `Stop` has returned, a goroutine launched before it was called is gone, and never
      performs a task again. -/
  stopped : ∀ c before, s.calls c = some (.stopReturned before) → ∀ g ∈ before,
    ∀ s', Run (step maintenance) Any s s' →
      s'.running g = false ∧ step maintenance s' (.run g .task) = none
  once : ∀ g, s.closes g ≤ 1

theorem Inv.stopped {maintenance : ℕ} {s : CleanupService} (h : Inv s) (hc : Closing s) :
    Stopped maintenance s where
  single := h.single
  stopped c before hcall g hg s' hs := by
    have hfalse := running_mono hs (h.known c _ hcall g hg) (h.ok c _ hcall g hg)
    refine ⟨hfalse, ?_⟩
    cases ht : Cleanup.step maintenance s' (.run g .task) with
    | none => rfl
    | some t => exact absurd (run_spec ht).1 (Bool.eq_false_iff.1 hfalse)
  once := hc.once

theorem Alone.exact {maintenance : ℕ} {s s' : CleanupService} {a : Action} (ha : ¬ Alone s a)
    (hs : step maintenance s a = some s') :
    ∃ t, Run (step maintenance) Any s' t ∧ ¬ Stopped maintenance t := by
  cases step_moves hs with
  | callStart | returnStart | callStop | close | returnIdle | returnStopped | run =>
    exact absurd trivial ha
  | again _ hg | take _ hg => exact absurd (fun hn => by rw [hg] at hn; cases hn) ha
  | @launch c hc hg =>
    obtain ⟨g, hlt, hr⟩ : ∃ g < s.goroutines.length, s.running g ≠ false := by
      by_contra hnot
      exact ha fun _ g hlt => Classical.byContradiction fun hr => hnot ⟨g, hlt, hr⟩
    refine ⟨_, .refl, fun h => Nat.ne_of_lt hlt (h.single g s.goroutines.length ?_ ?_)⟩
    · change s.launch.running g = true
      rw [CleanupService.running_launch, eq_true_of_ne_false hr, Bool.or_true]
    · change s.launch.running _ = true
      rw [CleanupService.running_launch, decide_eq_true rfl, Bool.true_or]
  | @idle c before hc hg =>
    obtain ⟨g, hmem, hr⟩ : ∃ g ∈ before, s.running g ≠ false := by
      by_contra hnot
      refine ha fun _ call hcall g hmem => Classical.byContradiction fun hr => hnot ⟨g, ?_, hr⟩
      rw [hc] at hcall
      cases hcall
      exact hmem
    -- this `Stop` returns, and the goroutine runs on
    have hidle : (s.setCall c (.idle before)).calls c = some (.idle before) := if_pos rfl
    have hret : step maintenance (s.setCall c (.idle before)) (.returnStop c) =
        some ((s.setCall c (.idle before)).setCall c (.stopReturned before)) := by
      unfold step
      dsimp only
      rw [hidle]
    exact ⟨_, Run.single trivial hret, fun h =>
      hr (h.stopped c before (if_pos rfl) g hmem _ .refl).1⟩

theorem closing_init : Closing .init :=
  ⟨nofun, nofun, nofun, fun _ => Nat.zero_le 1⟩

theorem inv_init : Inv .init :=
  ⟨nofun, nofun, nofun, nofun, nofun⟩

/-- **Stopped means stopped** in every run in which no `Start` and no `Stop` finds the service
    without handles while a goroutine it would have to know of runs on, and no weaker condition
    on the steps will do.  No `Stop` closes a channel twice in any run. -/
theorem stopped_of_alone (maintenance : ℕ) :
    (∀ s, Run (step maintenance) Alone .init s → Stopped maintenance s) ∧
    (∀ s a s', Run (step maintenance) Alone .init s → step maintenance s a = some s' → ¬ Alone s a →
      ∃ t, Run (step maintenance) Any s' t ∧ ¬ Stopped maintenance t) ∧
    ∀ s, Run (step maintenance) Any .init s → ∀ g, s.closes g ≤ 1 := by
  have hclosing : ∀ s, Run (step maintenance) Any .init s → Closing s := fun s h =>
    h.invariant (I := Closing) (fun _ _ _ h _ hs => h.step hs) closing_init
  refine ⟨fun s h => ?_, fun s a s' _ hs ha => Alone.exact ha hs, fun s h => (hclosing s h).once⟩
  have hinv : Inv s := h.invariant (I := Inv) (fun _ _ _ h ha hs => h.step ha hs) inv_init
  exact hinv.stopped (hclosing s h.any)

/-- Two calls of `Stop`: the second one finds no handles, and returns while the goroutine runs. -/
def secondStop : List Action :=
  [.callStart 0, .lockStart 0, .returnStart 0, .callStop 1, .callStop 2, .lockStop 1, .lockStop 2,
    .returnStop 2]

theorem secondStop_running : ¬ ∀ s, Run (step 1) Any .init s → Stopped 1 s := by
  intro h
  have hend : (replay (step 1) Any secondStop .init).map
      (fun s => (s.calls 2, s.running 0)) = some (some (.stopReturned [0]), true) := by
    decide +kernel
  obtain ⟨s, hs, hend⟩ := Option.map_eq_some_iff.1 hend
  obtain ⟨hcall, hrun⟩ := Prod.mk.inj hend
  have hfalse := ((h s (Run.of_replay hs)).stopped 2 [0] hcall 0 (by simp) s .refl).1
  rw [hrun] at hfalse
  cases hfalse

end Echolet.Cleanup
