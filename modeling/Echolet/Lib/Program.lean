/-
  Programs over an interface, transactions, and processes that share a state.

  * `Tx W E α` is an operation on a state that may fail; what it wrote before it failed is
    still there, and `transact` is what keeps or discards it; `Reads` and `Atomic` are
    operations that change nothing, and nothing where they fail;
  * `Program C A E α` performs calls `c : C`, each answered with an `A c` or an error, and
    ends with a value or an error; `run` answers the calls with a handler, and what every
    answer preserves, the run preserves (`run_invariant`); `Only` bounds the calls, and `Asks`
    their order: what is asked for first (`Asks.run`, and `Returns.run` for values);
  * a `Pool` is a shared state with processes that each perform one call at a time, start
    when they are idle and may be killed between two calls;
  * `Safe` is a rely/guarantee triple for one program among others: `Ok.run` for a pool of
    safe programs whose guarantee is what they rely on, `Safe.alone` for a program by itself.
-/
import Echolet.Lib.Runs

namespace Echolet

/-! ## Transactions -/

/-- An operation on a state, with the state it leaves also where it fails. -/
def Tx (W E α : Type) : Type := W → Except E α × W

namespace Tx

variable {W V E α β : Type}

protected def bind (x : Tx W E α) (f : α → Tx W E β) : Tx W E β := fun w =>
  match x w with
  | (.ok a, w') => f a w'
  | (.error e, w') => (.error e, w')

instance : Monad (Tx W E) where
  pure a := fun w => (.ok a, w)
  bind := Tx.bind

instance : MonadExcept E (Tx W E) where
  throw e := fun w => (.error e, w)
  tryCatch x handler := fun w =>
    match x w with
    | (.ok a, w') => (.ok a, w')
    | (.error e, w') => handler e w'

def read (f : W → α) : Tx W E α := fun w => (.ok (f w), w)

def modify (f : W → W) : Tx W E Unit := fun w => (.ok (), f w)

/-- Go on only where a condition holds. -/
def ensure (p : Prop) [Decidable p] (e : E) : Tx W E Unit := if p then pure () else throw e

/-- The value, or an error where there is none. -/
def need (a : Option α) (e : E) : Tx W E α :=
  match a with
  | some a => pure a
  | none => throw e

/-- An operation on a part of the state. -/
def zoom (get : W → V) (set : W → V → W) (x : Tx V E α) : Tx W E α := fun w =>
  ((x (get w)).1, set w (x (get w)).2)

/-- Commit what an operation wrote, or roll it back. -/
def transact (x : Tx W E α) (w : W) : Except E α × W :=
  match x w with
  | (.ok a, w') => (.ok a, w')
  | (.error e, _) => (.error e, w)

variable {x : Tx W E α} {f : α → Tx W E β} {w w' : W} {a : α} {b : β} {e : E}

theorem bind_ok : (x >>= f) w = (.ok b, w') ↔ ∃ a v, x w = (.ok a, v) ∧ f a v = (.ok b, w') := by
  change Tx.bind x f w = _ ↔ _
  unfold Tx.bind
  rcases hx : x w with ⟨r | a, v⟩
  · simp
  · constructor
    · exact fun h => ⟨a, v, rfl, h⟩
    · rintro ⟨a', v', h, h'⟩
      cases h
      exact h'

theorem pure_ok {c : α} : (pure a : Tx W E α) w = (.ok c, w') ↔ a = c ∧ w = w' := by
  change (Except.ok a, w) = _ ↔ _
  simp

theorem throw_ok : (throw e : Tx W E α) w ≠ (.ok a, w') := by
  change (Except.error e, w) ≠ _
  simp

theorem read_ok {g : W → α} : (read g : Tx W E α) w = (.ok a, w') ↔ g w = a ∧ w = w' := by
  simp [read]

theorem modify_ok {g : W → W} {u : Unit} :
    (modify g : Tx W E Unit) w = (.ok u, w') ↔ g w = w' := by
  simp [modify]

theorem ensure_ok {p : Prop} [Decidable p] {u : Unit} :
    (ensure p e : Tx W E Unit) w = (.ok u, w') ↔ p ∧ w = w' := by
  unfold ensure
  split_ifs with h
  · rw [pure_ok]; simp [h]
  · simp [h, throw_ok]

theorem need_ok {o : Option α} : (need o e : Tx W E α) w = (.ok a, w') ↔ o = some a ∧ w = w' := by
  cases o with
  | none => simp [need, throw_ok]
  | some v => rw [need, pure_ok]; simp

theorem zoom_ok {get : W → V} {set : W → V → W} {y : Tx V E α} :
    zoom get set y w = (.ok a, w') ↔ ∃ v, y (get w) = (.ok a, v) ∧ set w v = w' := by
  unfold zoom
  rcases h : y (get w) with ⟨r, v⟩
  simp

theorem transact_ok : transact x w = (.ok a, w') ↔ x w = (.ok a, w') := by
  unfold transact
  split <;> simp_all

/-- A transaction that fails has changed nothing. -/
theorem transact_error (h : transact x w = (.error e, w')) : w' = w := by
  unfold transact at h
  split at h <;> simp_all

/-- The state is read only. -/
def Reads (x : Tx W E α) : Prop := ∀ w, (x w).2 = w

/-- What fails has changed nothing. -/
def Atomic (x : Tx W E α) : Prop := ∀ w e w', x w = (.error e, w') → w' = w

namespace Reads

theorem pure (a : α) : Reads (Pure.pure a : Tx W E α) := fun _ => rfl

theorem read (g : W → α) : Reads (Tx.read g : Tx W E α) := fun _ => rfl

theorem ensure (p : Prop) [Decidable p] (e : E) : Reads (Tx.ensure p e : Tx W E Unit) := by
  intro w
  unfold Tx.ensure
  split <;> rfl

theorem need (a : Option α) (e : E) : Reads (Tx.need a e : Tx W E α) := by
  intro w
  cases a <;> rfl

theorem bind (hx : x.Reads) (hf : ∀ a, (f a).Reads) : (x >>= f).Reads := by
  intro w
  change (Tx.bind x f w).2 = w
  unfold Tx.bind
  have hw := hx w
  split
  next a w' h => rw [hf a w', ← hw, h]
  next e w' h => rw [← hw, h]

/-- What is only read does not count. -/
theorem atomic_bind (hx : x.Reads) (hf : ∀ a, (f a).Atomic) : (x >>= f).Atomic := by
  intro w e w' h
  change Tx.bind x f w = _ at h
  unfold Tx.bind at h
  have hw := hx w
  split at h
  next a v hv =>
    rw [hv] at hw
    exact (hf a v e w' h).trans hw
  next e' v hv =>
    rw [hv] at hw
    cases h
    exact hw

end Reads

end Tx

/-! ## Programs -/

/-- Calls answered with values of `A`, or with an error the program may catch. -/
inductive Program (C : Type) (A : C → Type) (E α : Type) : Type where
  | done (r : Except E α)
  | call (c : C) (next : Except E (A c) → Program C A E α)

namespace Program

variable {C : Type} {A : C → Type} {E W α β : Type}

protected def bind (f : α → Program C A E β) : Program C A E α → Program C A E β
  | .done (.ok a) => f a
  | .done (.error e) => .done (.error e)
  | .call c next => .call c fun r => (next r).bind f

protected def recover (handler : E → Program C A E α) : Program C A E α → Program C A E α
  | .done (.ok a) => .done (.ok a)
  | .done (.error e) => handler e
  | .call c next => .call c fun r => (next r).recover handler

instance : Monad (Program C A E) where
  pure a := .done (.ok a)
  bind p f := p.bind f

instance : MonadExcept E (Program C A E) where
  throw e := .done (.error e)
  tryCatch p handler := p.recover handler

/-- One call. -/
def perform (c : C) : Program C A E (A c) := .call c .done

/-- Answer the calls of a program with a handler. -/
def run (handler : (c : C) → Tx W E (A c)) : Program C A E α → Tx W E α
  | .done r => fun w => (r, w)
  | .call c next => fun w => (next (handler c w).1).run handler (handler c w).2

/-- What is left of a program, and of the state, after calls in these circumstances. -/
def steps {V : Type} (exec : (c : C) → V → W → Option (Except E (A c) × W)) :
    List V → Program C A E α → W → Option (Program C A E α × W)
  | [], p, w => some (p, w)
  | _ :: _, .done _, _ => none
  | v :: vs, .call c next, w => (exec c v w).bind fun x => (next x.1).steps exec vs x.2

/-- Calls with the answers they got, the latest first. -/
abbrev Exchange (C : Type) (A : C → Type) (E : Type) : Type := List ((c : C) × Except E (A c))

/-- Any answer to a call, which is recorded. -/
def recorded (c : C) (answer : (c : C) → Except E (A c)) (l : Exchange C A E) :
    Option (Except E (A c) × Exchange C A E) :=
  some (answer c, ⟨c, answer c⟩ :: l)

/-- The result of a program that has ended. -/
def result (o : Option (Program C A E α × W)) : Option (Except E α) :=
  match o with
  | some (.done r, _) => some r
  | _ => none

theorem result_eq {o : Option (Program C A E α × W)} {r : Except E α} (h : result o = some r) :
    ∃ w, o = some (.done r, w) := by
  unfold result at h
  split at h
  · cases h; exact ⟨_, rfl⟩
  · cases h

/-- What follows a result. -/
def resume (f : α → Program C A E β) : Except E α → Program C A E β
  | .ok a => f a
  | .error e => .done (.error e)

section
variable {V : Type} {exec : (c : C) → V → W → Option (Except E (A c) × W)}

/-- A sequence that ends runs its first part to the end, and then the second. -/
theorem steps_bind {f : α → Program C A E β} {r : Except E β} {w' : W} :
    ∀ {vs : List V} {p : Program C A E α} {w : W},
      steps exec vs (p >>= f) w = some (.done r, w') ↔ ∃ vs₁ vs₂ r₁ w₁, vs = vs₁ ++ vs₂ ∧
        steps exec vs₁ p w = some (.done r₁, w₁) ∧
        steps exec vs₂ (resume f r₁) w₁ = some (.done r, w') := by
  intro vs p
  induction p generalizing vs with
  | done r₁ =>
    intro w
    have hb : (Program.done r₁ : Program C A E α) >>= f = resume f r₁ := by
      cases r₁ <;> rfl
    rw [hb]
    constructor
    · exact fun h => ⟨[], vs, r₁, w, rfl, rfl, h⟩
    · rintro ⟨vs₁, vs₂, r₂, w₁, rfl, h, h'⟩
      cases vs₁ with
      | nil => cases h; exact h'
      | cons v vs₁ => cases h
  | call c next ih =>
    intro w
    cases vs with
    | nil =>
      constructor
      · exact fun h => by cases h
      · rintro ⟨vs₁, vs₂, r₂, w₁, hvs, h, -⟩
        obtain ⟨rfl, rfl⟩ := List.nil_eq_append_iff.1 hvs
        cases h
    | cons v vs =>
      change ((exec c v w).bind fun x => steps exec vs (next x.1 >>= f) x.2) = _ ↔ _
      rw [Option.bind_eq_some_iff]
      constructor
      · rintro ⟨x, hx, h⟩
        obtain ⟨vs₁, vs₂, r₁, w₁, rfl, h₁, h₂⟩ := (ih x.1).1 h
        exact ⟨v :: vs₁, vs₂, r₁, w₁, rfl, Option.bind_eq_some_iff.2 ⟨x, hx, h₁⟩, h₂⟩
      · rintro ⟨vs₁, vs₂, r₁, w₁, hvs, h₁, h₂⟩
        cases vs₁ with
        | nil => cases h₁
        | cons v' vs₁ =>
          obtain ⟨rfl, rfl⟩ := List.cons.inj hvs
          obtain ⟨x, hx, h₁⟩ := Option.bind_eq_some_iff.1 h₁
          exact ⟨x, hx, (ih x.1).2 ⟨vs₁, vs₂, r₁, w₁, rfl, h₁, h₂⟩⟩

/-- The end of a program takes no more calls. -/
theorem steps_done {vs : List V} {r r' : Except E α} {w w' : W} :
    steps exec vs (.done r) w = some (.done r', w') ↔ vs = [] ∧ r = r' ∧ w = w' := by
  cases vs with
  | nil => simp [steps]
  | cons v vs => simp [steps]

end

/-- Every call a program may make has a property. -/
def Only (P : C → Prop) : Program C A E α → Prop
  | .done _ => True
  | .call c next => P c ∧ ∀ r, (next r).Only P

section
variable {P P' : C → Prop} {p : Program C A E α}

theorem Only.perform {c : C} (h : P c) : (perform c : Program C A E (A c)).Only P :=
  ⟨h, fun _ => trivial⟩

theorem Only.mono (hP : ∀ c, P c → P' c) (h : p.Only P) : p.Only P' := by
  induction p with
  | done r => trivial
  | call c next ih => exact ⟨hP c h.1, fun r => ih r (h.2 r)⟩

theorem Only.bind {f : α → Program C A E β} (hp : p.Only P) (hf : ∀ a, (f a).Only P) :
    (p >>= f).Only P := by
  change (p.bind f).Only P
  induction p with
  | done r =>
    cases r with
    | ok a => exact hf a
    | error e => trivial
  | call c next ih => exact ⟨hp.1, fun r => ih r (hp.2 r)⟩

theorem Only.recover {handler : E → Program C A E α} (hp : p.Only P)
    (hh : ∀ e, (handler e).Only P) : (tryCatch p handler).Only P := by
  change (p.recover handler).Only P
  induction p with
  | done r =>
    cases r with
    | ok a => trivial
    | error e => exact hh e
  | call c next ih => exact ⟨hp.1, fun r => ih r (hp.2 r)⟩

end

/-- A call that needs an answer comes only after an answer that gives it. -/
def Asks (gives : (c : C) → Except E (A c) → Prop) (needs : C → Prop) : Program C A E α → Prop
  | .done _ => True
  | .call c next => ¬ needs c ∧ ∀ r, ¬ gives c r → (next r).Asks gives needs

/-- A value is returned only after an answer that gives it. -/
def Returns (gives : (c : C) → Except E (A c) → Prop) : Program C A E α → Prop
  | .done (.ok _) => False
  | .done (.error _) => True
  | .call c next => ∀ r, ¬ gives c r → (next r).Returns gives

/-- An answer that shows something is the last: the program ends with a given result. -/
def Ends (gives : (c : C) → Except E (A c) → Prop) (r₀ : Except E α) : Program C A E α → Prop
  | .done _ => True
  | .call c next => ∀ r, (gives c r → next r = .done r₀) ∧ (next r).Ends gives r₀

section
variable {P : C → Prop} {gives : (c : C) → Except E (A c) → Prop} {needs : C → Prop}
  {p : Program C A E α} {e : E}

theorem Only.asks (h : p.Only fun c => ¬ needs c) : p.Asks gives needs := by
  induction p with
  | done r => trivial
  | call c next ih => exact ⟨h.1, fun r _ => ih r (h.2 r)⟩

theorem Asks.bind {f : α → Program C A E β} (hp : p.Asks gives needs)
    (hf : ∀ a, (f a).Asks gives needs) : (p >>= f).Asks gives needs := by
  change (p.bind f).Asks gives needs
  induction p with
  | done r =>
    cases r with
    | ok a => exact hf a
    | error e => trivial
  | call c next ih => exact ⟨hp.1, fun r hr => ih r (hp.2 r hr)⟩

theorem Asks.mono {gives' : (c : C) → Except E (A c) → Prop}
    (hg : ∀ c r, gives c r → gives' c r) (hp : p.Asks gives needs) : p.Asks gives' needs := by
  induction p with
  | done r => trivial
  | call c next ih => exact ⟨hp.1, fun r hr => ih r (hp.2 r fun h => hr (hg c r h))⟩

theorem Asks.recover {handler : E → Program C A E α} (hp : p.Asks gives needs)
    (hh : ∀ e, (handler e).Asks gives needs) : (tryCatch p handler).Asks gives needs := by
  change (p.recover handler).Asks gives needs
  induction p with
  | done r =>
    cases r with
    | ok a => trivial
    | error e => exact hh e
  | call c next ih => exact ⟨hp.1, fun r hr => ih r (hp.2 r hr)⟩

theorem Only.ends {r₀ : Except E α} (h : p.Only fun c => ∀ r, ¬ gives c r) : p.Ends gives r₀ := by
  induction p with
  | done r => trivial
  | call c next ih => exact fun r => ⟨fun hr => absurd hr (h.1 r), ih r (h.2 r)⟩

theorem Ends.bind {f : α → Program C A E β} (hp : p.Ends gives (.error e))
    (hf : ∀ a, (f a).Ends gives (.error e)) : (p >>= f).Ends gives (.error e) := by
  change (p.bind f).Ends gives (.error e)
  induction p with
  | done r =>
    cases r with
    | ok a => exact hf a
    | error e => trivial
  | call c next ih =>
    refine fun r => ⟨fun hr => ?_, ih r (hp r).2⟩
    change (next r).bind f = _
    rw [(hp r).1 hr]
    rfl

theorem Ends.recover {handler : E → Program C A E α} (hp : p.Ends gives (.error e))
    (he : handler e = .done (.error e)) (hh : ∀ e', (handler e').Ends gives (.error e)) :
    (tryCatch p handler).Ends gives (.error e) := by
  change (p.recover handler).Ends gives (.error e)
  induction p with
  | done r =>
    cases r with
    | ok a => trivial
    | error e' => exact hh e'
  | call c next ih =>
    refine fun r => ⟨fun hr => ?_, ih r (hp r).2⟩
    change (next r).recover handler = _
    rw [(hp r).1 hr]
    exact he

end

/-- A call, and the rest with its answer. -/
theorem run_perform_bind {handler : (c : C) → Tx W E (A c)} {c : C} {f : A c → Program C A E α}
    {w : W} : (perform c >>= f).run handler w = match handler c w with
      | (.ok a, w') => (f a).run handler w'
      | (.error e, w') => (.error e, w') := by
  change ((Program.done (handler c w).1).bind f).run handler (handler c w).2 = _
  rcases handler c w with ⟨r, w'⟩
  cases r <;> rfl

section
variable {handler : (c : C) → Tx W E (A c)} {w v : W} {p : Program C A E α}

theorem run_bind_ok {f : α → Program C A E β} {a : α} (h : p.run handler w = (.ok a, v)) :
    (p >>= f).run handler w = (f a).run handler v := by
  change (p.bind f).run handler w = _
  induction p generalizing w with
  | done r => cases h; rfl
  | call c next ih => exact ih _ h

theorem run_bind_error {f : α → Program C A E β} {e : E} (h : p.run handler w = (.error e, v)) :
    (p >>= f).run handler w = (.error e, v) := by
  change (p.bind f).run handler w = _
  induction p generalizing w with
  | done r => cases h; rfl
  | call c next ih => exact ih _ h

theorem run_recover_ok {g : E → Program C A E α} {a : α} (h : p.run handler w = (.ok a, v)) :
    (tryCatch p g).run handler w = (.ok a, v) := by
  change (p.recover g).run handler w = _
  induction p generalizing w with
  | done r => cases h; rfl
  | call c next ih => exact ih _ h

theorem run_recover_error {g : E → Program C A E α} {e : E} (h : p.run handler w = (.error e, v)) :
    (tryCatch p g).run handler w = (g e).run handler v := by
  change (p.recover g).run handler w = _
  induction p generalizing w with
  | done r => cases h; rfl
  | call c next ih => exact ih _ h

end

/-- **Runs keep what every answer keeps.** -/
theorem run_invariant {handler : (c : C) → Tx W E (A c)} {I : W → Prop}
    (h : ∀ c w, I w → I (handler c w).2) :
    ∀ (p : Program C A E α) {w : W}, I w → I (p.run handler w).2
  | .done _, _, hw => hw
  | .call c next, w, hw => by
    rw [run]
    exact run_invariant h (next (handler c w).1) (h c w hw)

/-- What the calls that are made preserve, the run preserves. -/
theorem Only.run {handler : (c : C) → Tx W E (A c)} {P : C → Prop} {I : W → Prop}
    (h : ∀ c w, P c → I w → I (handler c w).2) :
    ∀ {p : Program C A E α} {w : W}, p.Only P → I w → I (p.run handler w).2
  | .done _, _, _, hw => hw
  | .call c next, w, hp, hw => by
    rw [Program.run]
    exact Only.run h (hp.2 _) (h c w hp.1 hw)

section
variable {gives : (c : C) → Except E (A c) → Prop} {needs : C → Prop}
  {handler : (c : C) → Tx W E (A c)} {I P : W → Prop}

/-- Runs keep what every call keeps, where some calls keep it only under a condition that an
    answer gives and that no call undoes. -/
theorem Asks.run (hI : ∀ c w, I w → (needs c → P w) → I (handler c w).2)
    (hP : ∀ c w, P w → P (handler c w).2)
    (hg : ∀ c w, gives c (handler c w).1 → P (handler c w).2) {p : Program C A E α}
    (hp : p.Asks gives needs) {w : W} (hw : I w) : I (p.run handler w).2 := by
  induction p generalizing w with
  | done r => exact hw
  | call c next ih =>
    rw [Program.run]
    have hi : I (handler c w).2 := hI c w hw fun hn => absurd hn hp.1
    by_cases hc : gives c (handler c w).1
    · refine (run_invariant (I := fun w => I w ∧ P w) (fun c w h => ?_) (next (handler c w).1)
        ⟨hi, hg c w hc⟩).1
      exact ⟨hI c w h.1 fun _ => h.2, hP c w h.2⟩
    · exact ih _ (hp.2 _ hc) hi

/-- Where a value is returned, what an answer gave still holds. -/
theorem Returns.run (hP : ∀ c w, P w → P (handler c w).2)
    (hg : ∀ c w, gives c (handler c w).1 → P (handler c w).2) {p : Program C A E α}
    (hp : p.Returns gives) {w w' : W} {a : α} (h : p.run handler w = (.ok a, w')) : P w' := by
  induction p generalizing w with
  | done r =>
    cases r with
    | ok a => exact hp.elim
    | error e => cases h
  | call c next ih =>
    change (next (handler c w).1).run handler (handler c w).2 = (.ok a, w') at h
    by_cases hc : gives c (handler c w).1
    · have hk := run_invariant (I := P) hP (next (handler c w).1) (hg c w hc)
      rwa [h] at hk
    · exact ih _ (hp _ hc) h

end

end Program

/-! ## Processes -/

/-- A shared state, and the program that is left of each process. -/
structure Pool (C : Type) (A : C → Type) (E α W : Type) where
  shared : W
  proc : ℕ → Option (Program C A E α)

/-- Start a job, perform the next call of a process, or kill a process. -/
inductive PoolAct (J V : Type) where
  | start (i : ℕ) (j : J)
  | step (i : ℕ) (v : V)
  | kill (i : ℕ)
  deriving DecidableEq

namespace Pool

variable {C : Type} {A : C → Type} {E α W V J : Type}

def put (s : Pool C A E α W) (w : W) (i : ℕ) (p : Option (Program C A E α)) : Pool C A E α W :=
  ⟨w, fun k => if k = i then p else s.proc k⟩

/-- A call is answered in the circumstances `v`; a job starts on a process that has none. -/
def step (exec : (c : C) → V → W → Option (Except E (A c) × W)) (jobs : J → Program C A E α)
    (s : Pool C A E α W) : PoolAct J V → Option (Pool C A E α W)
  | .start i j =>
    match s.proc i with
    | some (.call _ _) => none
    | _ => some (s.put s.shared i (some (jobs j)))
  | .step i v =>
    match s.proc i with
    | some (.call c next) => (exec c v s.shared).map fun x => s.put x.2 i (some (next x.1))
    | _ => none
  | .kill i => some (s.put s.shared i none)

/-- Every call that is performed meets the condition. -/
def Meets (D : C → V → W → Prop) (s : Pool C A E α W) : PoolAct J V → Prop
  | .step i v =>
    match s.proc i with
    | some (.call c _) => D c v s.shared
    | _ => True
  | _ => True

instance (D : C → V → W → Prop) [∀ c v w, Decidable (D c v w)] (s : Pool C A E α W)
    (a : PoolAct J V) : Decidable (Meets D s a) := by
  unfold Meets
  split
  · split <;> infer_instance
  · infer_instance

/-- A step leaves what is shared as it is, or performs one call on it. -/
theorem step_shared {exec : (c : C) → V → W → Option (Except E (A c) × W)}
    {jobs : J → Program C A E α} {s s' : Pool C A E α W} {a : PoolAct J V}
    (h : s.step exec jobs a = some s') : s'.shared = s.shared ∨
      ∃ c v r, exec c v s.shared = some (r, s'.shared) := by
  cases a with
  | start i j =>
    simp only [step] at h
    split at h
    · cases h
    · cases h; exact Or.inl rfl
  | step i v =>
    simp only [step] at h
    split at h
    · obtain ⟨⟨r, w⟩, hx, h⟩ := Option.map_eq_some_iff.1 h
      cases h
      exact Or.inr ⟨_, v, r, hx⟩
    · cases h
  | kill i => cases h; exact Or.inl rfl

end Pool

/-! ## Rely and guarantee -/

/-- How calls are answered, under which condition, the invariant of the shared state, what one
    call may do to it, and what may happen to it between two calls of a program. -/
structure Contract (C : Type) (A : C → Type) (E V W : Type) where
  exec : (c : C) → V → W → Option (Except E (A c) × W)
  allowed : C → V → W → Prop
  inv : W → Prop
  guar : W → W → Prop
  rely : W → W → Prop

namespace Contract

variable {C : Type} {A : C → Type} {E V W α β J : Type} (R : Contract C A E V W)

/-- What holds of the shared state whatever happens between two calls. -/
def Stable (K : W → Prop) : Prop := ∀ w w', R.inv w → R.inv w' → R.rely w w' → K w → K w'

/-- From a state with `K`, every call of the program keeps the invariant and the guarantee
    whatever happens between, and the program ends with `Q`. -/
def Safe (Q : Except E α → W → Prop) : (W → Prop) → Program C A E α → Prop
  | K, .done r => ∀ w, R.inv w → K w → Q r w
  | K, .call c next => ∀ v w r w', R.inv w → K w → R.allowed c v w → R.exec c v w = some (r, w') →
      (R.inv w' ∧ R.guar w w') ∧ ∃ K', R.Stable K' ∧ K' w' ∧ Safe Q K' (next r)

variable {R} {Q Q' M : Except E α → W → Prop} {K K' : W → Prop} {p : Program C A E α}

theorem Stable.true : R.Stable fun _ => True := fun _ _ _ _ _ _ => trivial

theorem Stable.and (h : R.Stable K) (h' : R.Stable K') : R.Stable fun w => K w ∧ K' w :=
  fun _ _ hi hi' hr hk => ⟨h _ _ hi hi' hr hk.1, h' _ _ hi hi' hr hk.2⟩

theorem Stable.const {P : Prop} : R.Stable fun _ => P := fun _ _ _ _ _ h => h

theorem Safe.weaken (h : ∀ w, R.inv w → K' w → K w) (hp : R.Safe Q K p) : R.Safe Q K' p := by
  cases p with
  | done r => exact fun w hi hk => hp w hi (h w hi hk)
  | call c next => exact fun v w r w' hi hk => hp v w r w' hi (h w hi hk)

/-- A fact that does not depend on the state. -/
theorem Safe.assume {P : Prop} (h : P → R.Safe Q K p) : R.Safe Q (fun w => K w ∧ P) p := by
  cases p with
  | done r => exact fun w hi hk => h hk.2 w hi hk.1
  | call c next => exact fun v w r w' hi hk => h hk.2 v w r w' hi hk.1

theorem Safe.post (h : ∀ r w, R.inv w → Q r w → Q' r w) (hp : R.Safe Q K p) : R.Safe Q' K p := by
  induction p generalizing K with
  | done r => exact fun w hi hk => h r w hi (hp w hi hk)
  | call c next ih =>
    intro v w r w' hi hk ha hx
    obtain ⟨hs, K', hst, hk', hn⟩ := hp v w r w' hi hk ha hx
    exact ⟨hs, K', hst, hk', ih r hn⟩

/-- What the calls themselves leave, and others leave, holds after a program. -/
theorem Safe.keep (hK : R.Stable K) (hown : ∀ w w', R.guar w w' → R.rely w w')
    (hp : R.Safe Q K p) : R.Safe (fun r w => K w ∧ Q r w) K p := by
  suffices h : ∀ (p : Program C A E α) (K' : W → Prop), R.Safe Q K' p →
      R.Safe (fun r w => K w ∧ Q r w) (fun w => K w ∧ K' w) p from
    (h p K hp).weaken fun _ _ hk => ⟨hk, hk⟩
  intro p
  induction p with
  | done r => exact fun K' hp w hi hk => ⟨hk.1, hp w hi hk.2⟩
  | call c next ih =>
    intro K' hp v w r w' hi hk ha he
    obtain ⟨hs, K'', hst, hk'', hn⟩ := hp v w r w' hi hk.2 ha he
    exact ⟨hs, _, hK.and hst, ⟨hK _ _ hi hs.1 (hown _ _ hs.2) hk.1, hk''⟩, ih r K'' hn⟩

theorem Safe.perform {c : C} {Q : Except E (A c) → W → Prop} (hQ : ∀ r, R.Stable (Q r))
    (h : ∀ v w r w', R.inv w → K w → R.allowed c v w → R.exec c v w = some (r, w') →
      (R.inv w' ∧ R.guar w w') ∧ Q r w') : R.Safe Q K (Program.perform c) := by
  intro v w r w' hi hk ha he
  obtain ⟨hs, hq⟩ := h v w r w' hi hk ha he
  exact ⟨hs, Q r, hQ r, hq, fun _ _ h => h⟩

theorem Safe.bind {f : α → Program C A E β} {Q : Except E β → W → Prop}
    (hp : R.Safe M K p) (hf : ∀ a, R.Safe Q (M (.ok a)) (f a))
    (he : ∀ e w, R.inv w → M (.error e) w → Q (.error e) w) : R.Safe Q K (p >>= f) := by
  change R.Safe Q K (p.bind f)
  induction p generalizing K with
  | done r =>
    cases r with
    | ok a => exact (hf a).weaken hp
    | error e => exact fun w hi hk => he e w hi (hp w hi hk)
  | call c next ih =>
    intro v w r w' hi hk ha hx
    obtain ⟨hs, K', hst, hk', hn⟩ := hp v w r w' hi hk ha hx
    exact ⟨hs, K', hst, hk', ih r hn⟩

theorem Safe.recover {handler : E → Program C A E α} (hp : R.Safe M K p)
    (ho : ∀ a w, R.inv w → M (.ok a) w → Q (.ok a) w)
    (hh : ∀ e, R.Safe Q (M (.error e)) (handler e)) : R.Safe Q K (tryCatch p handler) := by
  change R.Safe Q K (p.recover handler)
  induction p generalizing K with
  | done r =>
    cases r with
    | ok a => exact fun w hi hk => ho a w hi (hp w hi hk)
    | error e => exact (hh e).weaken hp
  | call c next ih =>
    intro v w r w' hi hk ha hx
    obtain ⟨hs, K', hst, hk', hn⟩ := hp v w r w' hi hk ha hx
    exact ⟨hs, K', hst, hk', ih r hn⟩

/-- A value comes with what holds of it. -/
def Gives (K' : α → W → Prop) (r : Except E α) (w : W) : Prop := ∀ a, r = .ok a → K' a w

/-- A first part that gives something, then the rest, which still knows what it started from. -/
theorem Safe.seq {f : α → Program C A E β} {Q : Except E β → W → Prop} {K₁ : α → W → Prop}
    (hK : R.Stable K) (hown : ∀ w w', R.guar w w' → R.rely w w')
    (hp : R.Safe (Gives K₁) K p) (hf : ∀ a, R.Safe Q (fun w => K w ∧ K₁ a w) (f a))
    (he : ∀ e w, Q (.error e) w) : R.Safe Q K (p >>= f) := by
  refine Safe.bind (Safe.keep hK hown hp) (fun a => ?_) fun e w _ _ => he e w
  exact (hf a).weaken fun w _ h => ⟨h.1, h.2 a rfl⟩

/-- A program of calls that may be made at any time. -/
theorem Safe.only {P : C → Prop} (hc : ∀ c v w r w', P c → R.inv w → R.allowed c v w →
      R.exec c v w = some (r, w') → R.inv w' ∧ R.guar w w')
    (hp : p.Only P) : R.Safe (fun _ _ => True) K p := by
  induction p generalizing K with
  | done r => exact fun _ _ _ => trivial
  | call c next ih =>
    intro v w r w' hi _ ha hx
    exact ⟨hc c v w r w' hp.1 hi ha hx, _, .true, trivial, ih r (hp.2 r)⟩

/-- A program that needs only what it was given, where no answer gives what is bad. -/
theorem Safe.asks {X : Type} {bad : X → Prop} {gives : X → (c : C) → Except E (A c) → Prop}
    {needs : X → C → Prop} (hc : ∀ c v w r w', (∀ x, bad x → ¬ needs x c) → R.inv w →
      R.allowed c v w → R.exec c v w = some (r, w') →
      (R.inv w' ∧ R.guar w w') ∧ ∀ x, bad x → ¬ gives x c r)
    (hp : ∀ x, p.Asks (gives x) (needs x)) : R.Safe (fun _ _ => True) K p := by
  suffices h : ∀ {K : W → Prop}, (∀ x, bad x → p.Asks (gives x) (needs x)) →
      R.Safe (fun _ _ => True) K p from h fun x _ => hp x
  clear hp
  induction p with
  | done r => exact fun _ _ _ _ => trivial
  | call c next ih =>
    intro K hp v w r w' hi _ ha hx
    obtain ⟨hs, hg⟩ := hc c v w r w' (fun x hb => (hp x hb).1) hi ha hx
    exact ⟨hs, _, .true, trivial, ih r fun x hb => (hp x hb).2 r (hg x hb)⟩

/-- **A program by itself**, after any number of its calls. -/
theorem Safe.alone (hall : ∀ c v w, R.allowed c v w) : ∀ {vs : List V} {p p' : Program C A E α}
    {K : W → Prop} {w w' : W}, R.Safe Q K p → R.inv w → K w →
      p.steps R.exec vs w = some (p', w') → R.inv w' ∧ ∃ K', K' w' ∧ R.Safe Q K' p'
  | [], p, p', K, w, w', hp, hi, hk, hs => by
    cases hs
    exact ⟨hi, K, hk, hp⟩
  | v :: vs, .done r, p', K, w, w', hp, hi, hk, hs => by cases hs
  | v :: vs, .call c next, p', K, w, w', hp, hi, hk, hs => by
    obtain ⟨⟨r, w₁⟩, hx, hs⟩ := Option.bind_eq_some_iff.1 hs
    obtain ⟨⟨hi₁, -⟩, K', -, hk', hn⟩ := hp v w r w₁ hi hk (hall c v w) hx
    exact Safe.alone hall hn hi₁ hk' hs

/-- The shared state keeps the invariant, and every process is safe from what it knows. -/
structure Ok (R : Contract C A E V W) (Q : Except E α → W → Prop) (s : Pool C A E α W) : Prop where
  inv : R.inv s.shared
  safe : ∀ i p, s.proc i = some p → ∃ K, R.Stable K ∧ K s.shared ∧ R.Safe Q K p

/-- One step of a pool whose jobs are safe. -/
theorem Ok.step {jobs : J → Program C A E α} (hown : ∀ w w', R.guar w w' → R.rely w w')
    (hj : ∀ j, R.Safe Q (fun _ => True) (jobs j)) {s s' : Pool C A E α W} {a : PoolAct J V}
    (h : Ok R Q s) (hm : Pool.Meets R.allowed s a)
    (hs : Pool.step R.exec jobs s a = some s') :
    Ok R Q s' ∧ (s'.shared = s.shared ∨ R.guar s.shared s'.shared) := by
  -- a process other than the one that acts knows what is stable
  have hput : ∀ {w i p}, (∀ K, R.Stable K → K s.shared → K w) → R.inv w →
      (∀ q, p = some q → ∃ K, R.Stable K ∧ K w ∧ R.Safe Q K q) → Ok R Q (s.put w i p) := by
    intro w i p hw hi hp
    refine ⟨hi, fun k q hq => ?_⟩
    simp only [Pool.put] at hq
    split_ifs at hq with hk
    · exact hp q hq
    · obtain ⟨K, hst, hk, hsafe⟩ := h.safe k q hq
      exact ⟨K, hst, hw K hst hk, hsafe⟩
  cases a with
  | start i j =>
    simp only [Pool.step] at hs
    split at hs
    · cases hs
    · cases hs
      refine ⟨hput (fun K _ hk => hk) h.inv fun q hq => ?_, Or.inl rfl⟩
      cases hq
      exact ⟨_, .true, trivial, hj j⟩
  | step i v =>
    simp only [Pool.step] at hs
    split at hs
    next c next hc =>
      obtain ⟨⟨r, w'⟩, hx, hs⟩ := Option.map_eq_some_iff.1 hs
      cases hs
      obtain ⟨K, -, hk, hsafe⟩ := h.safe i _ hc
      simp only [Pool.Meets, hc] at hm
      obtain ⟨⟨hi', hg⟩, K', hK', hk', hn⟩ := hsafe v _ r w' h.inv hk hm hx
      refine ⟨hput (fun K hK hk => hK _ _ h.inv hi' (hown _ _ hg) hk) hi' fun q hq => ?_, Or.inr hg⟩
      cases hq
      exact ⟨K', hK', hk', hn⟩
    next => cases hs
  | kill i =>
    cases hs
    refine ⟨hput (fun K _ hk => hk) h.inv fun q hq => ?_, Or.inl rfl⟩
    cases hq

/-- **Pools of safe programs keep the invariant**, and what relates the state before and after
    each of their calls relates the state before and after a run. -/
theorem Ok.run {jobs : J → Program C A E α} (hown : ∀ w w', R.guar w w' → R.rely w w')
    (hj : ∀ j, R.Safe Q (fun _ => True) (jobs j)) {T : W → W → Prop} (hrefl : ∀ w, T w w)
    (hstep : ∀ u w w', R.inv w → R.inv w' → T u w → R.guar w w' → T u w') {s s' : Pool C A E α W}
    (h : Run (Pool.step R.exec jobs) (Pool.Meets R.allowed) s s') (hs : Ok R Q s) :
    Ok R Q s' ∧ T s.shared s'.shared := by
  refine h.invariant (I := fun t => Ok R Q t ∧ T s.shared t.shared) ?_ ⟨hs, hrefl _⟩
  rintro t a t' ⟨ht, hT⟩ hm hst
  obtain ⟨ht', heq | hg⟩ := ht.step hown hj hm hst
  · exact ⟨ht', by rw [heq]; exact hT⟩
  · exact ⟨ht', hstep _ _ _ ht.inv ht'.inv hT hg⟩

/-- A shared state with no process at work. -/
theorem Ok.idle {w : W} (hw : R.inv w) : Ok R Q (⟨w, fun _ => none⟩ : Pool C A E α W) :=
  ⟨hw, fun _ _ h => by cases h⟩

end Contract

end Echolet
