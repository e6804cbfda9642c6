/-
  Optimistic transactions over one store.

  A transaction reads one snapshot of the store, records the keys it read and collects its
  writes.  At its end it is aborted if a transaction that committed since wrote a key it
  read, and tried again on a new snapshot, a bounded number of times.

  * `Attempt` is what a transaction did on its snapshot;
  * `Optimistic.step` submits a request, starts an attempt of it or ends one;
  * `Optimistic.step_cases` says what a step does; `Snapshots.step` is the rule for what holds
    between the store and the snapshots of running attempts, `Concerns.step` the rule for the
    answer of a request.
-/
import Mathlib.Logic.Function.Basic
import Mathlib.Tactic.SplitIfs
import Echolet.Lib.Runs

namespace Echolet

/-- The keys a transaction read and what it writes. -/
structure Attempt (K W : Type) where
  reads : List K
  writes : List W

namespace Attempt
variable {K W S : Type}

def empty : Attempt K W := ⟨[], []⟩

/-- Two parts of one transaction. -/
def append (a b : Attempt K W) : Attempt K W := ⟨a.reads ++ b.reads, a.writes ++ b.writes⟩

instance : Append (Attempt K W) := ⟨append⟩

@[simp] theorem reads_append (a b : Attempt K W) : (a ++ b).reads = a.reads ++ b.reads := rfl
@[simp] theorem writes_append (a b : Attempt K W) : (a ++ b).writes = a.writes ++ b.writes := rfl

theorem append_empty (a : Attempt K W) : a ++ empty = a := by
  cases a
  exact congrArg₂ Attempt.mk (List.append_nil _) (List.append_nil _)

/-- The store after the writes. -/
def commit (apply : S → W → S) (a : Attempt K W) (s : S) : S := a.writes.foldl apply s

theorem commit_append (apply : S → W → S) (a b : Attempt K W) (s : S) :
    (a ++ b).commit apply s = b.commit apply (a.commit apply s) :=
  List.foldl_append

/-- What every write keeps, a commit keeps. -/
theorem commit_keeps {apply : S → W → S} {P : S → Prop} (hw : ∀ s w, P s → P (apply s w))
    (a : Attempt K W) {s : S} (h : P s) : P (a.commit apply s) := by
  unfold commit
  induction a.writes generalizing s with
  | nil => exact h
  | cons w ws ih => exact ih (hw s w h)

end Attempt

/-- A request under way: how often it was aborted, and the attempt that is running with its
    snapshot and the keys written since. -/
structure Flight (R S K : Type) where
  request : R
  aborted : ℕ
  running : Option (S × List K)

/-- Note the keys of a commit in an attempt that is running. -/
def Flight.noting {R S K : Type} (keys : List K) (f : Flight R S K) : Flight R S K :=
  { f with running := f.running.map fun r => (r.1, r.2 ++ keys) }

structure Optimistic (R S K E : Type) where
  db : S
  flights : ℕ → Option (Flight R S K)
  answers : ℕ → Option (Except (Option E) Unit)

inductive OptimisticAct (R : Type) where
  | submit (i : ℕ) (request : R)
  | start (i : ℕ)
  | finish (i : ℕ)

namespace Optimistic

variable {R S K W E : Type}

/-- A store before any request. -/
def init (db : S) : Optimistic R S K E := ⟨db, fun _ => none, fun _ => none⟩

/-- A request is answered and over. -/
def close (s : Optimistic R S K E) (i : ℕ) (answer : Except (Option E) Unit) :
    Optimistic R S K E :=
  { s with
    flights := Function.update s.flights i none
    answers := Function.update s.answers i (some answer) }

variable [DecidableEq K] (transaction : R → S → Except E (Attempt K W)) (apply : S → W → S)
  (key : W → K) (retries : ℕ)

/-- The end of an attempt; the error `none` is a conflict that was not resolved. -/
def finish (s : Optimistic R S K E) (i : ℕ) (f : Flight R S K) (snapshot : S) (since : List K) :
    Optimistic R S K E :=
  match transaction f.request snapshot with
  | .error e => s.close i (.error (some e))
  | .ok a =>
    if a.reads.any fun k => k ∈ since then
      if f.aborted + 1 < retries then
        { s with flights := Function.update s.flights i (some ⟨f.request, f.aborted + 1, none⟩) }
      else s.close i (.error none)
    else close { s with
      db := a.commit apply s.db
      flights := fun j => (s.flights j).map (Flight.noting (a.writes.map key)) } i (.ok ())

def step (s : Optimistic R S K E) : OptimisticAct R → Option (Optimistic R S K E)
  | .submit i request =>
    if (s.flights i).isNone ∧ (s.answers i).isNone then
      some { s with flights := Function.update s.flights i (some ⟨request, 0, none⟩) }
    else none
  | .start i =>
    match s.flights i with
    | some f => if f.running.isNone then
        some { s with flights := Function.update s.flights i (some { f with running := some (s.db, []) }) }
      else none
    | none => none
  | .finish i =>
    match s.flights i with
    | some f =>
      match f.running with
      | some (snapshot, since) => some (s.finish transaction apply key retries i f snapshot since)
      | none => none
    | none => none

/-! ## What a step does -/

variable {transaction apply key retries} {s s' : Optimistic R S K E}

/-- **What each step does.** -/
inductive Does (transaction : R → S → Except E (Attempt K W)) (apply : S → W → S) (key : W → K)
    (s : Optimistic R S K E) : OptimisticAct R → Optimistic R S K E → Prop
  | submitted {i request} : s.flights i = none → s.answers i = none →
    Does transaction apply key s (.submit i request)
      { s with flights := Function.update s.flights i (some ⟨request, 0, none⟩) }
  | started {i f} : s.flights i = some f →
    Does transaction apply key s (.start i)
      { s with flights := Function.update s.flights i (some { f with running := some (s.db, []) }) }
  | refused {i f snapshot since e} : s.flights i = some f → f.running = some (snapshot, since) →
    transaction f.request snapshot = .error e →
    Does transaction apply key s (.finish i) (s.close i (.error (some e)))
  | aborted {i f} : s.flights i = some f →
    Does transaction apply key s (.finish i)
      { s with flights := Function.update s.flights i (some ⟨f.request, f.aborted + 1, none⟩) }
  | dropped {i f} : s.flights i = some f →
    Does transaction apply key s (.finish i) (s.close i (.error none))
  | committed {i f snapshot since a} : s.flights i = some f →
    f.running = some (snapshot, since) → transaction f.request snapshot = .ok a →
    (∀ k ∈ a.reads, k ∉ since) →
    Does transaction apply key s (.finish i) (close { s with
      db := a.commit apply s.db
      flights := fun j => (s.flights j).map (Flight.noting (a.writes.map key)) } i (.ok ()))

theorem step_cases {act : OptimisticAct R}
    (h : step transaction apply key retries s act = some s') :
    Does transaction apply key s act s' := by
  cases act with
  | submit i request =>
    simp only [step] at h
    split_ifs at h with hn
    cases h
    exact .submitted (Option.isNone_iff_eq_none.1 hn.1) (Option.isNone_iff_eq_none.1 hn.2)
  | start i =>
    simp only [step] at h
    split at h
    next f hf => split_ifs at h; cases h; exact .started hf
    next => cases h
  | finish i =>
    simp only [step] at h
    split at h
    next f hf =>
      split at h
      next snapshot since hr =>
        cases h
        unfold finish
        split
        next e he => exact .refused hf hr he
        next a ha =>
          split_ifs with hc
          · exact .aborted hf
          · exact .dropped hf
          · refine .committed hf hr ha fun k hk hs => hc ?_
            exact List.any_eq_true.2 ⟨k, hk, decide_eq_true hs⟩
      next => cases h
    next => cases h

/-! ## Snapshots -/

/-- Every snapshot an attempt is running on stands in a relation to the store. -/
def Snapshots (Q : ℕ → S → S → Prop) (s : Optimistic R S K E) : Prop :=
  ∀ i f snapshot since, s.flights i = some f → f.running = some (snapshot, since) →
    Q i snapshot s.db

omit [DecidableEq K] in
theorem Snapshots.init (Q : ℕ → S → S → Prop) (db : S) :
    Snapshots Q (init db : Optimistic R S K E) :=
  fun _ _ _ _ h => by cases h

/-- **Snapshots.** What holds of the store as its own snapshot and is kept by commits holds of
    every snapshot. -/
theorem Snapshots.step {Q : ℕ → S → S → Prop} (hstart : ∀ i, Q i s.db s.db)
    (hcommit : ∀ i snapshot (a : Attempt K W), Q i snapshot s.db →
      Q i snapshot (a.commit apply s.db))
    (h : Snapshots Q s) {act : OptimisticAct R}
    (hst : step transaction apply key retries s act = some s') : Snapshots Q s' := by
  -- a flight of the new state is one of the old or is on the store itself
  have hupd : ∀ {i : ℕ} {f : Flight R S K}, (∀ snapshot since, f.running = some (snapshot, since) →
      Q i snapshot s.db) → Snapshots Q { s with flights := Function.update s.flights i (some f) } := by
    intro i f hf j g snapshot since hj hr
    by_cases hij : j = i
    · subst hij
      simp only [Function.update_self, Option.some.injEq] at hj
      subst hj
      exact hf _ _ hr
    · simp only [Function.update_of_ne hij] at hj
      exact h j g snapshot since hj hr
  have hclose : ∀ {t : Optimistic R S K E} {i : ℕ} {answer : Except (Option E) Unit},
      Snapshots Q t → Snapshots Q (t.close i answer) := by
    intro t i answer ht j g snapshot since hj hr
    by_cases hij : j = i
    · subst hij
      simp [close] at hj
    · simp only [close, Function.update_of_ne hij] at hj
      exact ht j g snapshot since hj hr
  cases step_cases hst with
  | submitted => exact hupd fun _ _ hr => by cases hr
  | started =>
    refine hupd fun snapshot since hr => ?_
    cases hr
    exact hstart _
  | refused => exact hclose h
  | aborted => exact hupd fun _ _ hr => by cases hr
  | dropped => exact hclose h
  | @committed i f snapshot since a hf hr ha hc =>
    refine hclose fun j g older since' hj hg => ?_
    obtain ⟨g', hg', rfl⟩ := Option.map_eq_some_iff.1 hj
    obtain ⟨⟨older', since''⟩, hr', he⟩ := Option.map_eq_some_iff.1 hg
    cases he
    exact hcommit j _ a (h j g' _ since'' hg' hr')

/-! ## Answers -/

/-- The request `i` is the given one: it is under way, or what it was answered satisfies `P`. -/
def Concerns (i : ℕ) (request : R) (P : Except (Option E) Unit → Prop) (s : Optimistic R S K E) :
    Prop :=
  (∃ f, s.flights i = some f ∧ f.request = request ∧ s.answers i = none) ∨
    s.flights i = none ∧ ∃ answer, s.answers i = some answer ∧ P answer

theorem Concerns.step {i : ℕ} {request : R} {P : Except (Option E) Unit → Prop}
    (h : Concerns i request P s) {act : OptimisticAct R}
    (hst : step transaction apply key retries s act = some s')
    (hok : P (.ok ())) (hnone : P (.error none))
    (hP : ∀ f snapshot since e, s.flights i = some f → f.running = some (snapshot, since) →
      transaction request snapshot = .error e → P (.error (some e))) : Concerns i request P s' := by
  have hclose : ∀ {t : Optimistic R S K E} {j : ℕ} {answer : Except (Option E) Unit},
      Concerns i request P t → (j = i → P answer) → Concerns i request P (t.close j answer) := by
    intro t j answer ht ha
    by_cases hij : i = j
    · subst hij
      exact Or.inr ⟨by simp [close], answer, by simp [close], ha rfl⟩
    · simpa only [Concerns, close, Function.update_of_ne hij] using ht
  have hupd : ∀ {j : ℕ} {f : Flight R S K}, s.flights j = some f → ∀ {f' : Flight R S K},
      f'.request = f.request →
      Concerns i request P { s with flights := Function.update s.flights j (some f') } := by
    intro j f hf f' hr
    by_cases hij : i = j
    · subst hij
      rcases h with ⟨g, hg, hreq, hn⟩ | ⟨hn, -⟩
      · rw [hf] at hg; cases hg
        exact Or.inl ⟨f', Function.update_self .., hr.trans hreq, hn⟩
      · rw [hf] at hn; cases hn
    · simpa only [Concerns, Function.update_of_ne hij] using h
  cases step_cases hst with
  | @submitted j request' hn ha =>
    by_cases hij : i = j
    · subst hij
      rcases h with ⟨g, hg, -⟩ | ⟨-, answer, ha', -⟩
      · rw [hn] at hg; cases hg
      · rw [ha] at ha'; cases ha'
    · simpa only [Concerns, Function.update_of_ne hij] using h
  | started hf => exact hupd hf rfl
  | @refused j f snapshot since e hf hr he =>
    refine hclose h ?_
    rintro rfl
    rcases h with ⟨g, hg, hreq, -⟩ | ⟨hn, -⟩
    · rw [hf] at hg; cases hg
      exact hP f snapshot since e hf hr (hreq ▸ he)
    · rw [hf] at hn; cases hn
  | aborted hf => exact hupd hf rfl
  | dropped hf => exact hclose h fun _ => hnone
  | @committed j f snapshot since a hf hr ha hc =>
    refine hclose ?_ fun _ => hok
    rcases h with ⟨g, hg, hreq, hn⟩ | ⟨hn, ha⟩
    · refine Or.inl ⟨g.noting (a.writes.map key), ?_, hreq, hn⟩
      simp [hg]
    · refine Or.inr ⟨?_, ha⟩
      simp [hn]

end Optimistic

end Echolet
