/-
  What a child process comes to (`CliBridge.execute` of the web station, `runCli` of the console).

  Both bridges collect what a child prints and deliver an outcome at the first event that decides;
  later events find the promise settled.

  * `outcomes_eq`: the one outcome, by the first event that decides and what was printed before;
  * `Web.Sound`, `Console.Sound`: exactly one outcome, a success only where it was printed (or, at
    the station, the child exited with code 0);
  * `child_outcome`: the console is sound; the station is, exactly where `Reported` holds, and
    `killed_child_ok` is a child killed by a signal.
-/
import Echolet.Tui.Shell

namespace Echolet

open Tui (JsString js property recordOf parseCliOutcome trim)

/-- What a bridge hears of a child.  A child that a signal ends has no exit code. -/
inductive ChildEvent
  | stdout (chunk : List ℕ)
  | stderr (chunk : List ℕ)
  | error (message : JsString)
  | timeout
  | close (exitCode : Option ℕ)

/-- A bridge that delivers to one promise. -/
structure Bridge (Outcome : Type) where
  stdout : Text
  stderr : Text
  settled : Bool
  delivered : List Outcome

namespace Bridge

variable {Outcome : Type}

def new : Bridge Outcome := ⟨[], [], false, []⟩

def finish (b : Bridge Outcome) (outcome : Outcome) : Bridge Outcome :=
  if b.settled then b else { b with settled := true, delivered := b.delivered ++ [outcome] }

/-- One event, where `verdict` is what the bridge makes of the events that decide. -/
def hear (verdict : Text → Text → ChildEvent → Option Outcome) (b : Bridge Outcome) :
    ChildEvent → Bridge Outcome
  | .stdout chunk => { b with stdout := b.stdout ++ decodeUtf8 chunk }
  | .stderr chunk => { b with stderr := b.stderr ++ decodeUtf8 chunk }
  | e => ((verdict b.stdout b.stderr e).map b.finish).getD b

/-- What is delivered, in order. -/
def outcomes (verdict : Text → Text → ChildEvent → Option Outcome) (events : List ChildEvent) :
    List Outcome :=
  (events.foldl (hear verdict) new).delivered

end Bridge

/-! ## The console -/

namespace Console

/-- `runCli`, which sets no timeout. -/
def verdict (stdout _stderr : Text) : ChildEvent → Option Tui.CliOutcome
  | .error _ => some (parseCliOutcome stdout 5)
  | .close exitCode => some (parseCliOutcome stdout (exitCode.getD 1))
  | _ => none

def runCli (events : List ChildEvent) : List Tui.CliOutcome := Bridge.outcomes verdict events

/-- The events that decide. -/
def decides : ChildEvent → Bool
  | .error _ | .close _ => true
  | _ => false

end Console

/-! ## The web station -/

/-- Whether a value counts as true. -/
def truthy : Document (List ℕ) → Bool
  | .null => false
  | .bool b => b
  | .number x => x.magnitude != 0
  | .str s => !s.isEmpty
  | .infinite _ | .arr _ | .obj _ => true

/-- A property that is neither missing nor null. -/
def given (members : List (List ℕ × Document (List ℕ))) (name : String) : Option (Document (List ℕ)) :=
  (property members name).filter fun value => !(value matches .null)

namespace Web

/-- The outcome as the station passes it on: `ok` and `code` are whatever was printed there. -/
structure CliOutcome where
  ok : Document (List ℕ)
  code : Document (List ℕ)
  exitCode : ℕ
  data : Document (List ℕ)

def failure (code error : String) : CliOutcome :=
  ⟨.bool false, .str (js code), 1, .obj [(js "error", .str (js error))]⟩

/-- What was printed, if it is an object. -/
def printedObject (stdout : Text) : Option (List (List ℕ × Document (List ℕ))) :=
  if (trim stdout).head? = some '\x7b' then (Document.parse (trim stdout)).bind recordOf else none

/-- The outcome of a child that closed. -/
def closed (stdout stderr : Text) (code : ℕ) : CliOutcome :=
  match printedObject stdout with
  | some parsed =>
    let error := (given parsed "error").bind recordOf
    ⟨(given parsed "ok").getD (.bool (code == 0)),
      (error.bind (given · "code")).getD (.str (if code = 0 then js "ok" else js "ERROR")), code,
      (given parsed "data").getD (.obj parsed)⟩
  | none =>
    ⟨.bool (code == 0), .str (if code = 0 then js "ok" else js "NON_ZERO_EXIT"), code,
      .obj [(js "stdout", .str (utf16Units stdout)), (js "stderr", .str (utf16Units stderr))]⟩

def verdict (stdout stderr : Text) : ChildEvent → Option CliOutcome
  | .error message => some ⟨.bool false, .str (js "SPAWN_ERROR"), 1, .obj [(js "error", .str message)]⟩
  | .timeout => some (failure "CLI_TIMEOUT" "CLI command timed out")
  | .close exitCode => some (closed stdout stderr (exitCode.getD 0))
  | _ => none

/-- `CliBridge.execute` -/
def execute (events : List ChildEvent) : List CliOutcome := Bridge.outcomes verdict events

def decides : ChildEvent → Bool
  | .error _ | .timeout | .close _ => true
  | _ => false

end Web

/-! ## The one outcome -/

/-- What these events print on standard output. -/
def printed (events : List ChildEvent) : Text := events.flatMap fun
  | .stdout chunk => decodeUtf8 chunk
  | _ => []

def complained (events : List ChildEvent) : Text := events.flatMap fun
  | .stderr chunk => decodeUtf8 chunk
  | _ => []

/-- The events before the first that decides. -/
def undecided (decides : ChildEvent → Bool) (events : List ChildEvent) : List ChildEvent :=
  events.takeWhile fun e => !decides e

namespace Bridge

variable {Outcome : Type} {verdict : Text → Text → ChildEvent → Option Outcome}
variable {decides : ChildEvent → Bool}

/-- A bridge decides at these events, and prints do not. -/
structure Judges (verdict : Text → Text → ChildEvent → Option Outcome) (decides : ChildEvent → Bool) :
    Prop where
  verdict : ∀ out err e, (verdict out err e).isSome = decides e
  stdout : ∀ chunk, decides (.stdout chunk) = false
  stderr : ∀ chunk, decides (.stderr chunk) = false

theorem settled_stays (events : List ChildEvent) {b : Bridge Outcome} (h : b.settled = true) :
    (events.foldl (hear verdict) b).delivered = b.delivered := by
  induction events generalizing b with
  | nil => rfl
  | cons e events ih =>
    have hstep : (b.hear verdict e).settled = true ∧ (b.hear verdict e).delivered = b.delivered := by
      cases e with
      | stdout chunk => exact ⟨h, rfl⟩
      | stderr chunk => exact ⟨h, rfl⟩
      | _ =>
        simp only [hear]
        cases hv : verdict b.stdout b.stderr _ with
        | none => exact ⟨h, rfl⟩
        | some outcome => simp [finish, h]
    rw [List.foldl_cons, ih hstep.1, hstep.2]

/-- What an open bridge delivers. -/
theorem delivered_eq (hj : Judges verdict decides) (events : List ChildEvent) {b : Bridge Outcome}
    (hopen : b.settled = false) (hnone : b.delivered = []) :
    (events.foldl (hear verdict) b).delivered =
      ((events.find? decides).bind (verdict (b.stdout ++ printed (undecided decides events))
        (b.stderr ++ complained (undecided decides events)))).toList := by
  induction events generalizing b with
  | nil => simpa using hnone
  | cons e events ih =>
    cases hd : decides e with
    | true =>
      obtain ⟨outcome, houtcome⟩ := Option.isSome_iff_exists.1 ((hj.verdict b.stdout b.stderr e).trans hd)
      have hstep : b.hear verdict e = b.finish outcome := by
        cases e with
        | stdout chunk => rw [hj.stdout] at hd; cases hd
        | stderr chunk => rw [hj.stderr] at hd; cases hd
        | _ => simp [hear, houtcome]
      have hfinish : (b.finish outcome).settled = true ∧ (b.finish outcome).delivered = [outcome] := by
        simp [finish, hopen, hnone]
      rw [List.foldl_cons, hstep, settled_stays events hfinish.1, hfinish.2]
      simp [hd, undecided, printed, complained, houtcome]
    | false =>
      have hnext : undecided decides (e :: events) = e :: undecided decides events := by
        simp [undecided, hd]
      rw [List.foldl_cons, List.find?_cons, hd, hnext]
      cases e with
      | stdout chunk =>
        have hrest := ih (b := { b with stdout := b.stdout ++ decodeUtf8 chunk }) hopen hnone
        simpa [hear, printed, complained] using hrest
      | stderr chunk =>
        have hrest := ih (b := { b with stderr := b.stderr ++ decodeUtf8 chunk }) hopen hnone
        simpa [hear, printed, complained] using hrest
      | _ =>
        have hquiet := (hj.verdict b.stdout b.stderr _).trans hd
        rw [Option.isSome_eq_false_iff, Option.isNone_iff_eq_none] at hquiet
        simp only [hear, hquiet]
        exact ih hopen hnone

/-- **The one outcome**: the verdict on the first event that decides. -/
theorem outcomes_eq (hj : Judges verdict decides) (events : List ChildEvent) :
    outcomes verdict events = ((events.find? decides).bind
      (verdict (printed (undecided decides events)) (complained (undecided decides events)))).toList :=
  delivered_eq hj events rfl rfl

/-- Exactly one outcome, once an event decides. -/
theorem outcomes_length (hj : Judges verdict decides) (events : List ChildEvent) :
    (outcomes verdict events).length = if events.any decides then 1 else 0 := by
  rw [outcomes_eq hj]
  cases hfind : events.find? decides with
  | none =>
    have hquiet : events.any decides = false := by simpa [List.find?_eq_none] using hfind
    simp [hquiet]
  | some e =>
    have hany : events.any decides = true :=
      List.any_eq_true.2 ⟨e, List.mem_of_find?_eq_some hfind, List.find?_some hfind⟩
    obtain ⟨outcome, houtcome⟩ := Option.isSome_iff_exists.1 ((hj.verdict
      (printed (undecided decides events)) (complained (undecided decides events)) e).trans
        (List.find?_some hfind))
    simp [hany, houtcome]

/-- An outcome is the verdict on the event that decides. -/
theorem mem_outcomes (hj : Judges verdict decides) {events : List ChildEvent} {outcome : Outcome}
    (h : outcome ∈ outcomes verdict events) : ∃ e, events.find? decides = some e ∧
      verdict (printed (undecided decides events)) (complained (undecided decides events)) e =
        some outcome := by
  rw [outcomes_eq hj, Option.mem_toList, Option.bind_eq_some_iff] at h
  exact h

end Bridge

/-! ## Soundness -/

/-- A printed result that is a success. -/
def PrintedOk (members : Option (List (List ℕ × Document (List ℕ)))) : Prop :=
  ∃ ms, members = some ms ∧ property ms "ok" = some (.bool true)

variable {events : List ChildEvent}

namespace Console

theorem judges : Bridge.Judges verdict decides := by
  refine ⟨fun out err e => ?_, fun _ => rfl, fun _ => rfl⟩
  cases e <;> rfl

/-- One outcome once an event decides, and a success only where one was printed. -/
def Sound (events : List ChildEvent) : Prop :=
  (runCli events).length = (if events.any decides then 1 else 0) ∧
    ∀ outcome ∈ runCli events, outcome.ok = true →
      PrintedOk ((Document.parse (printed (undecided decides events))).bind recordOf)

theorem parseCliOutcome_ok {stdout : Text} {exitCode : ℕ}
    (h : (parseCliOutcome stdout exitCode).ok = true) :
    PrintedOk ((Document.parse stdout).bind recordOf) := by
  unfold parseCliOutcome at h
  split at h
  · cases h
  · next envelope henvelope =>
    split at h
    · next hok => exact ⟨envelope, henvelope, hok⟩
    · cases h

/-- **The console reports no success that was not printed.** -/
theorem sound (events : List ChildEvent) : Sound events := by
  refine ⟨Bridge.outcomes_length judges events, fun outcome hmem hok => ?_⟩
  obtain ⟨e, -, hverdict⟩ := Bridge.mem_outcomes judges hmem
  cases e with
  | error message =>
    cases hverdict
    exact parseCliOutcome_ok hok
  | close exitCode =>
    cases hverdict
    exact parseCliOutcome_ok hok
  | _ => cases hverdict

end Console

namespace Web

theorem judges : Bridge.Judges verdict decides := by
  refine ⟨fun out err e => ?_, fun _ => rfl, fun _ => rfl⟩
  cases e <;> rfl

/-- The child exited by itself with code 0. -/
def ExitedZero (events : List ChildEvent) : Prop := events.find? decides = some (.close (some 0))

/-- One outcome once an event decides, and a success only where one was printed or the child
    exited by itself with code 0. -/
def Sound (events : List ChildEvent) : Prop :=
  (execute events).length = (if events.any decides then 1 else 0) ∧
    ∀ outcome ∈ execute events, truthy outcome.ok = true →
      PrintedOk (printedObject (printed (undecided decides events))) ∨ ExitedZero events

/-- The child says how it ended: a printed `ok` is true or does not count as true, and where none
    is printed no signal ended the child. -/
def Reported (members : Option (List (List ℕ × Document (List ℕ)))) (exitCode : Option ℕ) : Prop :=
  exitCode = some 0 ∨
    match members.bind (given · "ok") with
    | some ok => ok = .bool true ∨ truthy ok = false
    | none => exitCode.isSome = true

/-- A child that closed counts as a success where it should, exactly if it said how it ended. -/
theorem closed_iff (stdout stderr : Text) (exitCode : Option ℕ) :
    (truthy (closed stdout stderr (exitCode.getD 0)).ok = true →
        PrintedOk (printedObject stdout) ∨ exitCode = some 0) ↔
      Reported (printedObject stdout) exitCode := by
  unfold closed Reported PrintedOk
  cases hobject : printedObject stdout with
  | none =>
    rcases exitCode with _ | code
    · simp [truthy]
    · simp [truthy]
  | some parsed =>
    cases hgiven : given parsed "ok" with
    | none =>
      have hnot : property parsed "ok" ≠ some (.bool true) := by
        intro hok
        simp [given, hok] at hgiven
      rcases exitCode with _ | code
      · simp [hgiven, truthy, hnot]
      · simp [hgiven, truthy, hnot]
    | some ok =>
      have hok : property parsed "ok" = some ok := (Option.filter_eq_some_iff.1 hgiven).1
      cases htrue : truthy ok with
      | true => simp [hgiven, hok, htrue, or_comm]
      | false => simp [hgiven, htrue]

/-- **The station, exactly**: it is sound where a child that closes says how it ended. -/
theorem sound_iff (events : List ChildEvent) : Sound events ↔
    ∀ exitCode, events.find? decides = some (.close exitCode) →
      Reported (printedObject (printed (undecided decides events))) exitCode := by
  constructor
  · rintro ⟨-, hsound⟩ exitCode hfind
    refine (closed_iff _ (complained (undecided decides events)) exitCode).1 fun hok => ?_
    have hmem : closed (printed (undecided decides events)) (complained (undecided decides events))
        (exitCode.getD 0) ∈ execute events := by
      rw [execute, Bridge.outcomes_eq judges, hfind]
      exact List.mem_singleton_self _
    refine (hsound _ hmem hok).imp_right fun hzero => ?_
    cases hfind.symm.trans hzero
    rfl
  · intro hreported
    refine ⟨Bridge.outcomes_length judges events, fun outcome hmem hok => ?_⟩
    obtain ⟨e, hfind, hverdict⟩ := Bridge.mem_outcomes judges hmem
    cases e with
    | error message => cases hverdict; cases hok
    | timeout => cases hverdict; cases hok
    | close exitCode =>
      cases hverdict
      refine ((closed_iff _ _ exitCode).2 (hreported exitCode hfind) hok).imp_right fun hzero => ?_
      rw [ExitedZero, hfind, hzero]
    | _ => cases hverdict

end Web

/-- **What a child comes to.**  Both bridges deliver one outcome; the console reports a success only
    where one was printed, and the station reports no other (but for an exit with code 0) exactly
    where the child says how it ended. -/
theorem child_outcome (events : List ChildEvent) : Console.Sound events ∧ (Web.Sound events ↔
    ∀ exitCode, events.find? Web.decides = some (.close exitCode) →
      Web.Reported (Web.printedObject (printed (undecided Web.decides events))) exitCode) :=
  ⟨Console.sound events, Web.sound_iff events⟩

/-- A child that a signal ends before it prints is a success of the station. -/
theorem killed_child_ok : ¬ Web.Sound [.close none] := by
  rintro ⟨-, hsound⟩
  rcases hsound _ (List.mem_singleton_self _) rfl with ⟨parsed, hparsed, -⟩ | hzero
  · cases hparsed
  · cases hzero

end Echolet
