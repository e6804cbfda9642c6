/-
  What `station setup` and `profile delete` remove (`operator/station.ts`, `operator/profile.ts`).

  The directory of a profile is its name joined to the profiles directory, whatever the name.

  * `Disk`: files and directories, each in a directory;
  * `resolve_profileDir`: where the name leads to from the profiles directory;
  * `station_removals`: when what is removed is a directory strictly inside the profiles directory
    and no database goes unasked; `plain_name_inside` for names of one segment;
  * `dot_removes_all` is the name of a single dot.
-/
import Echolet.Lib.Path
import Echolet.Tui.Shell

namespace Echolet

open Path

/-! ## The disk -/

inductive Entry
  | file
  | directory
  deriving DecidableEq

/-- The entries of a file system; each but the root is in a directory. -/
structure Disk where
  entry : List Text → Option Entry
  nested : ∀ place name, (entry (place ++ [name])).isSome = true → entry place = some .directory

namespace Disk

/-- `rmSync` with `recursive` and `force` -/
def rmSync (d : Disk) (place : List Text) : Disk where
  entry q := if place <+: q then none else d.entry q
  nested q name h := by
    split_ifs at h with hbelow
    · cases h
    · rw [if_neg fun hq => hbelow (hq.trans (List.prefix_append _ _))]
      exact d.nested q name h

/-- `mkdirSync` with `recursive`; it throws where a file is in the way. -/
def mkdirSync (d : Disk) (place : List Text) : Option Disk :=
  if place.inits.any fun q => d.entry q == some .file then none
  else some {
    entry := fun q => if q <+: place then some .directory else d.entry q
    nested := fun q name h => by
      split_ifs with hq
      · rfl
      · rw [if_neg fun hname => hq ((List.prefix_append _ _).trans hname)] at h
        exact d.nested q name h }

/-- `existsSync`, of a path that ends in a slash only for a directory -/
def existsSync (d : Disk) (cwd : List Text) (path : Text) : Bool :=
  decide ('\x00' ∉ path) && (d.entry (resolve cwd path)).any fun e =>
    decide (path.getLast? = some '/' → e = .directory)

end Disk

/-! ## Paths -/

def txt (s : String) : Text := s.toList

/-- What the paths are made from. -/
structure Environment where
  echoletHome : Option Text
  homedir : Text
  cwd : List Text

namespace Environment

def getEcholetHome (e : Environment) : Text :=
  match e.echoletHome with
  | none => join [e.homedir, txt ".echolet"]
  | some home => if home = [] then join [e.homedir, txt ".echolet"] else home

def getProfilesDir (e : Environment) : Text := join [e.getEcholetHome, txt "profiles"]

def getProfileDir (e : Environment) (callsign : Text) : Text := join [e.getProfilesDir, callsign]

def getClientDbPath (e : Environment) (callsign : Text) : Text :=
  join [e.getProfileDir callsign, txt "client.sqlite"]

def getRepeaterDir (e : Environment) : Text := join [e.getEcholetHome, txt "repeater"]

def getRunDir (e : Environment) : Text := join [e.getEcholetHome, txt "run"]

def getLogsDir (e : Environment) : Text := join [e.getEcholetHome, txt "logs"]

def ensureEcholetDirs (e : Environment) (d : Disk) : Option Disk :=
  [e.getEcholetHome, e.getProfilesDir, e.getRepeaterDir, e.getRunDir, e.getLogsDir].foldlM
    (fun d dir => d.mkdirSync (resolve e.cwd dir)) d

/-- The profiles directory. -/
def profiles (e : Environment) : List Text := resolve e.cwd e.getProfilesDir

/-- Where a name leads to from the profiles directory. -/
def place (e : Environment) (name : Text) : List Text := walk e.profiles (segments name)

theorem resolve_profileDir (e : Environment) (name : Text) :
    resolve e.cwd (e.getProfileDir name) = e.place name :=
  resolve_join e.cwd name (join_ne_nil _)

end Environment

/-! ## The commands -/

/-- `ask`: the line that is entered, or the default. -/
def ask (line : Option Text) (defaultValue : Text) : Text :=
  match line with
  | none => defaultValue
  | some value => if Tui.trim value = [] then defaultValue else Tui.trim value

/-- `confirm`, with the default no -/
def confirm (line : Option Text) : Bool :=
  match (ask line (txt "n")).head? with
  | some c => c == 'y' || c == 'Y'
  | none => false

/-- A recursive removal. -/
structure TreeRemoval where
  disk : Disk
  place : List Text
  confirmed : Bool

/-- `station setup`, up to the removal: the lines are the callsign and the answer. -/
def setup (e : Environment) (d : Disk) (line answer : Option Text) : Option TreeRemoval := do
  let d ← e.ensureEcholetDirs d
  let callsign := ask line (txt "Echo-Operator")
  let dir := e.getProfileDir callsign
  if d.existsSync e.cwd dir then
    if d.existsSync e.cwd (e.getClientDbPath callsign) then
      if confirm answer then some ⟨d, resolve e.cwd dir, true⟩ else none
    else some ⟨d, resolve e.cwd dir, false⟩
  else none

/-- `profile delete`, up to the removal. -/
def profileDelete (e : Environment) (d : Disk) (target : Text) (answer : Option Text) :
    Option TreeRemoval :=
  if target = [] then none
  else
    let dir := e.getProfileDir target
    if d.existsSync e.cwd dir then
      if confirm answer then some ⟨d, resolve e.cwd dir, true⟩ else none
    else none

/-! ## What may be removed -/

/-- A place strictly inside the profiles directory. -/
def Inside (e : Environment) (place : List Text) : Prop := e.profiles <+: place ∧ place ≠ e.profiles

/-- The database of a profile. -/
def IsDatabase (e : Environment) (d : Disk) (q : List Text) : Prop :=
  ∃ profile, Inside e profile ∧ q = profile ++ [txt "client.sqlite"] ∧ (d.entry q).isSome = true

/-- The removal is of a directory strictly inside the profiles directory, and no database goes
    unasked. -/
def TreeRemoval.Safe (e : Environment) (r : TreeRemoval) : Prop :=
  (Inside e r.place ∧ r.disk.entry r.place = some .directory) ∧
    ∀ q, IsDatabase e r.disk q → (r.disk.rmSync r.place).entry q = none → r.confirmed = true

/-- A name that leads to a directory strictly inside the profiles directory. -/
def Contained (e : Environment) (d : Disk) (name : Text) : Prop :=
  Inside e (e.place name) ∧ d.entry (e.place name) = some .directory

/-- No database of a profile is below the place of a name. -/
def HoldsNone (e : Environment) (d : Disk) (name : Text) : Prop :=
  ∀ q, IsDatabase e d q → ¬ e.place name <+: q

theorem removal_safe_iff {e : Environment} {d : Disk} {place : List Text} {confirmed : Bool} :
    (TreeRemoval.mk d place confirmed).Safe e ↔ (Inside e place ∧ d.entry place = some .directory) ∧
      (confirmed = false → ∀ q, IsDatabase e d q → ¬ place <+: q) := by
  have hgone : ∀ q, IsDatabase e d q → ((d.rmSync place).entry q = none ↔ place <+: q) := by
    rintro q ⟨-, -, -, hthere⟩
    have hsome : d.entry q ≠ none := Option.isSome_iff_ne_none.1 hthere
    simp [Disk.rmSync, hsome]
  refine and_congr_right fun _ => ⟨fun h hc q hq hbelow => ?_, fun h q hq hnone => ?_⟩
  · exact Bool.false_ne_true (hc.symm.trans (h q hq ((hgone q hq).2 hbelow)))
  · cases hc : confirmed with
    | true => rfl
    | false => exact absurd ((hgone q hq).1 hnone) (h hc q hq)

section
variable {e : Environment} {d : Disk} {line answer : Option Text}

/-- What setup asks of its name, and of the answer where there is a database. -/
def SetupSafe (e : Environment) (d : Disk) (callsign : Text) (answer : Option Text) : Prop :=
  d.existsSync e.cwd (e.getProfileDir callsign) = true →
    if d.existsSync e.cwd (e.getClientDbPath callsign) then
      confirm answer = true → Contained e d callsign
    else Contained e d callsign ∧ HoldsNone e d callsign

theorem setup_safe_iff : (∀ r, setup e d line answer = some r → r.Safe e) ↔
    ∀ d', e.ensureEcholetDirs d = some d' → SetupSafe e d' (ask line (txt "Echo-Operator")) answer := by
  cases hensure : e.ensureEcholetDirs d with
  | none => simp [setup, hensure]
  | some d' =>
    have hgo : setup e d line answer =
        if d'.existsSync e.cwd (e.getProfileDir (ask line (txt "Echo-Operator"))) then
          if d'.existsSync e.cwd (e.getClientDbPath (ask line (txt "Echo-Operator"))) then
            if confirm answer then
              some ⟨d', e.place (ask line (txt "Echo-Operator")), true⟩ else none
          else some ⟨d', e.place (ask line (txt "Echo-Operator")), false⟩
        else none := by
      simp only [setup, hensure, Option.bind_eq_bind, Option.bind_some, Environment.resolve_profileDir]
    rw [hgo]
    generalize ask line (txt "Echo-Operator") = callsign
    simp only [Option.some.injEq, forall_eq', SetupSafe]
    split_ifs with hdir hdb hconfirm
    · simp [hdir, hconfirm, removal_safe_iff, Contained]
    · simp [hdir, hconfirm]
    · simp [hdir, removal_safe_iff, Contained, HoldsNone]
    · simp [hdir]
    · simp [hdir]

theorem profileDelete_safe_iff {target : Text} :
    (∀ r, profileDelete e d target answer = some r → r.Safe e) ↔
      (target ≠ [] → d.existsSync e.cwd (e.getProfileDir target) = true → confirm answer = true →
        Contained e d target) := by
  unfold profileDelete
  simp only [Environment.resolve_profileDir]
  split_ifs with hempty hdir hconfirm
  · simp [hempty]
  · simp [hempty, hdir, hconfirm, removal_safe_iff, Contained]
  · simp [hempty, hdir, hconfirm]
  · simp [hempty, hdir]

end

/-- **What the commands remove.**  It is a directory strictly inside the profiles directory, and no
    database goes unasked, exactly where the name leads to such a directory and, if setup does not
    ask, there is no database below it. -/
theorem station_removals (e : Environment) (d : Disk) (answer : Option Text) :
    (∀ line, (∀ r, setup e d line answer = some r → r.Safe e) ↔
      ∀ d', e.ensureEcholetDirs d = some d' → SetupSafe e d' (ask line (txt "Echo-Operator")) answer) ∧
    ∀ target, (∀ r, profileDelete e d target answer = some r → r.Safe e) ↔
      (target ≠ [] → d.existsSync e.cwd (e.getProfileDir target) = true → confirm answer = true →
        Contained e d target) :=
  ⟨fun _ => setup_safe_iff, fun _ => profileDelete_safe_iff⟩

/-! ## Names -/

/-- **A name of one segment** leads to an entry of the profiles directory. -/
theorem plain_name_inside (e : Environment) {name : Text} (hne : name ≠ []) (hdot : name ≠ dot)
    (hdots : name ≠ dots) (hslash : '/' ∉ name) :
    e.place name = e.profiles ++ [name] ∧ Inside e (e.place name) := by
  have hplace : e.place name = e.profiles ++ [name] := by
    rw [Environment.place, segments, List.splitOn_eq_singleton hslash, walk_cons, walk_nil,
      walkStep_name hne hdot hdots]
  rw [hplace]
  refine ⟨rfl, List.prefix_append _ _, fun heq => ?_⟩
  simpa using congrArg List.length heq

/-- A disk with one file. -/
def oneFile (file : List Text) : Disk where
  entry q := if q = file then some .file else if q <+: file then some .directory else none
  nested q name h := by
    have hbelow : q <+: file ∧ q ≠ file := by
      split_ifs at h with hfile hunder
      · subst hfile
        exact ⟨List.prefix_append _ _, fun heq => by simpa using congrArg List.length heq⟩
      · refine ⟨(List.prefix_append _ _).trans hunder, fun heq => ?_⟩
        have hle := hunder.length_le
        rw [heq] at hle
        simp at hle
      · cases h
    rw [if_neg hbelow.2, if_pos hbelow.1]

/-- The database of the one profile in the home directory `/e`. -/
def aliceDatabase : List Text := [txt "e", txt "profiles", txt "alice", txt "client.sqlite"]

def homeE : Environment := ⟨some (txt "/e"), txt "/root", []⟩

/-- **A dot removes every profile** without a question. -/
theorem dot_removes_all : ∃ r, setup homeE (oneFile aliceDatabase) (some dot) none = some r ∧
    r.confirmed = false ∧ r.place = homeE.profiles ∧ ¬ r.Safe homeE := by
  have hsetup : (setup homeE (oneFile aliceDatabase) (some dot) none).any
      (fun r => !r.confirmed && r.place == homeE.profiles) = true := by decide +kernel
  obtain ⟨r, hr, hchecked⟩ := (Option.any_eq_true _ _).1 hsetup
  rw [Bool.and_eq_true, Bool.not_eq_true', beq_iff_eq] at hchecked
  exact ⟨r, hr, hchecked.1, hchecked.2, fun hsafe => hsafe.1.1.2 hchecked.2⟩

end Echolet
