/-
  Pages of a list whose items carry positions.

  * `takePage fits` takes items while they fit and says whether one was left behind;
  * `pageOf fits xs` is the page with the position to resume after, `after c xs` what a
    walk resumed at `c` still has to see;
  * on a list in position order a page with a resume position `n` is exactly the items up
    to `n` (`pageOf_covers`, `after_pageOf`) and one without is the whole list
    (`pageOf_all`); a page that admits any first item is empty only when nothing is left
    (`pageOf_nonempty`);
  * a page whose items fit as long as a property of prefixes holds is the longest prefix
    with that property (`pageOf_longest`).
-/
import Mathlib.Data.List.Pairwise
import Mathlib.Data.List.Infix
import Mathlib.Tactic.Common

namespace Echolet

variable {α : Type}

/-- Take items while they fit; the flag says that one was left behind. -/
def takePage (fits : List α → α → Bool) : List α → List α → List α × Bool
  | acc, [] => (acc, false)
  | acc, x :: xs => if fits acc x then takePage fits (acc ++ [x]) xs else (acc, true)

theorem takePage_split (fits : List α → α → Bool) : ∀ (acc xs : List α), ∃ ys zs, xs = ys ++ zs ∧
    (takePage fits acc xs).1 = acc ++ ys ∧ ((takePage fits acc xs).2 = true ↔ zs ≠ [])
  | acc, [] => ⟨[], [], by simp [takePage]⟩
  | acc, x :: xs => by
    unfold takePage
    split_ifs with h
    · obtain ⟨ys, zs, rfl, h1, h2⟩ := takePage_split fits (acc ++ [x]) xs
      exact ⟨x :: ys, zs, rfl, by rw [h1]; simp, h2⟩
    · exact ⟨[], x :: xs, by simp⟩

variable {fits : List α → α → Bool}

/-- A property that every item taken preserves holds of the page. -/
theorem takePage_induction {P : List α → Prop}
    (hP : ∀ acc x, P acc → fits acc x = true → P (acc ++ [x])) :
    ∀ {acc xs : List α}, P acc → P (takePage fits acc xs).1
  | acc, [], h => h
  | acc, x :: xs, h => by
    unfold takePage
    split_ifs with hx
    · exact takePage_induction hP (hP acc x h hx)
    · exact h

/-- Items that fit as long as a property of prefixes holds are taken as far as it holds. -/
theorem takePage_longest {P : List α → Prop} (hP : ∀ acc x, fits acc x = true ↔ P (acc ++ [x]))
    (hdown : ∀ {as bs}, as <+: bs → P bs → P as) : ∀ {acc xs ys : List α}, ys <+: xs →
      P (acc ++ ys) → acc ++ ys <+: (takePage fits acc xs).1
  | acc, xs, [], _, _ => by
    obtain ⟨zs, -, -, h1, -⟩ := takePage_split fits acc xs
    rw [h1, List.append_nil]
    exact List.prefix_append acc zs
  | acc, [], y :: ys, h, _ => absurd h.length_le (by simp)
  | acc, x :: xs, y :: ys, h, hy => by
    obtain ⟨rfl, hys⟩ := List.cons_prefix_cons.1 h
    rw [List.append_cons] at hy ⊢
    have hx : fits acc y = true := (hP acc y).2 (hdown (List.prefix_append _ ys) hy)
    rw [takePage, if_pos hx]
    exact takePage_longest hP hdown hys hy

theorem takePage_nonempty (hf : ∀ x, fits [] x = true) {xs : List α} (h : xs ≠ []) :
    (takePage fits [] xs).1 ≠ [] := by
  obtain ⟨x, xs, rfl⟩ := List.exists_cons_of_ne_nil h
  obtain ⟨ys, zs, -, h1, -⟩ := takePage_split fits ([] ++ [x]) xs
  rw [takePage, if_pos (hf x), h1]
  simp

/-! ## Positioned lists -/

/-- The items after a position. -/
def after (c : ℕ) (xs : List (ℕ × α)) : List (ℕ × α) := xs.filter fun x => c < x.1

theorem mem_after {c : ℕ} {xs : List (ℕ × α)} {x : ℕ × α} : x ∈ after c xs ↔ x ∈ xs ∧ c < x.1 := by
  simp [after]

/-- Positions increase along the list. -/
abbrev Ordered (xs : List (ℕ × α)) : Prop := xs.Pairwise fun a b => a.1 < b.1

theorem Ordered.after {xs : List (ℕ × α)} (h : Ordered xs) (c : ℕ) : Ordered (after c xs) :=
  h.sublist List.filter_sublist

theorem after_after {c d : ℕ} (h : c ≤ d) (xs : List (ℕ × α)) : after d (after c xs) = after d xs := by
  rw [after, after, after, List.filter_filter]
  refine List.filter_congr fun x _ => ?_
  rw [← Bool.decide_and, decide_eq_decide]; omega

/-- The position of the last item of a page. -/
def lastPosition (xs : List (ℕ × α)) : ℕ := (xs.getLast?.map (·.1)).getD 0

structure Page (α : Type) where
  items : List (ℕ × α)
  next : Option ℕ

/-- The page taken from a list, with the position to resume after if an item was left. -/
def pageOf (fits : List (ℕ × α) → ℕ × α → Bool) (xs : List (ℕ × α)) : Page α :=
  let t := takePage fits [] xs
  ⟨t.1, if t.2 then some (lastPosition t.1) else none⟩

section
variable {fits : List (ℕ × α) → ℕ × α → Bool} {xs : List (ℕ × α)}

theorem pageOf_start : (pageOf fits xs).items <+: xs := by
  obtain ⟨ys, zs, rfl, h1, -⟩ := takePage_split fits [] xs
  exact ⟨zs, by rw [pageOf, h1]; rfl⟩

theorem mem_of_mem_pageOf {x : ℕ × α} (h : x ∈ (pageOf fits xs).items) : x ∈ xs :=
  pageOf_start.subset h

theorem pageOf_ordered (hs : Ordered xs) : Ordered (pageOf fits xs).items :=
  hs.sublist pageOf_start.sublist

/-- A page without a resume position is everything. -/
theorem pageOf_all (h : (pageOf fits xs).next = none) : (pageOf fits xs).items = xs := by
  obtain ⟨ys, zs, rfl, h1, h2⟩ := takePage_split fits [] xs
  simp only [pageOf] at h ⊢
  rw [h1, List.nil_append]
  by_cases hz : zs = []
  · simp [hz]
  · rw [if_pos (h2.2 hz)] at h; cases h

theorem pageOf_next {n : ℕ} (h : (pageOf fits xs).next = some n) :
    lastPosition (pageOf fits xs).items = n := by
  simp only [pageOf] at h ⊢
  split_ifs at h
  exact Option.some.inj h

/-- A page of items that fit as long as a property of prefixes holds has it, and no longer
    prefix does. -/
theorem pageOf_longest (xs : List (ℕ × α)) {P : List (ℕ × α) → Prop} (hnil : P [])
    (hP : ∀ acc x, fits acc x = true ↔ P (acc ++ [x]))
    (hdown : ∀ {as bs}, as <+: bs → P bs → P as) : P (pageOf fits xs).items ∧
      ∀ ys, ys <+: xs → P ys → ys <+: (pageOf fits xs).items := by
  refine ⟨takePage_induction (fun acc x _ hx => (hP acc x).1 hx) hnil, fun ys hys hy => ?_⟩
  have h : [] ++ ys <+: (takePage fits [] xs).1 :=
    takePage_longest hP hdown hys (by rwa [List.nil_append])
  rwa [List.nil_append] at h

theorem pageOf_nonempty (hf : ∀ x, fits [] x = true) (h : xs ≠ []) : (pageOf fits xs).items ≠ [] :=
  takePage_nonempty hf h

/-- **Items up to a page and items beyond it.** -/
theorem pageOf_split (hf : ∀ x, fits [] x = true) (hs : Ordered xs) {n : ℕ}
    (h : (pageOf fits xs).next = some n) :
    ∃ ys v zs, xs = ys ++ (n, v) :: zs ∧ zs ≠ [] ∧ (pageOf fits xs).items = ys ++ [(n, v)] ∧
      (∀ x ∈ ys, x.1 < n) ∧ ∀ x ∈ zs, n < x.1 := by
  obtain ⟨ys, zs, hx, h1, h2⟩ := takePage_split fits [] xs
  simp only [pageOf] at h ⊢
  rw [List.nil_append] at h1
  by_cases ht : (takePage fits [] xs).2 = true
  · rw [if_pos ht, h1, Option.some.injEq] at h
    have hz := h2.1 ht
    have hy : ys ≠ [] := by
      rw [← h1]; exact takePage_nonempty hf (by rw [hx]; simp [hz])
    obtain ⟨ys, ⟨p, v⟩, rfl⟩ := (List.eq_nil_or_concat' ys).resolve_left hy
    have hp : p = n := by simpa [lastPosition] using h
    subst hp
    rw [hx, Ordered, List.append_assoc, List.singleton_append, List.pairwise_append] at hs
    obtain ⟨-, hs, hlt⟩ := hs
    exact ⟨ys, v, zs, by simp [hx], hz, h1, fun x hx => hlt x hx (p, v) (by simp),
      (List.pairwise_cons.1 hs).1⟩
  · rw [if_neg ht] at h; cases h

theorem pageOf_covers (hf : ∀ x, fits [] x = true) (hs : Ordered xs) {n : ℕ} {x : ℕ × α}
    (h : (pageOf fits xs).next = some n) (hx : x ∈ xs) (hn : x.1 ≤ n) :
    x ∈ (pageOf fits xs).items := by
  obtain ⟨ys, v, zs, rfl, -, h1, -, hz⟩ := pageOf_split hf hs h
  rw [h1]
  rcases List.mem_append.1 hx with hx | hx
  · exact List.mem_append_left _ hx
  · rcases List.mem_cons.1 hx with rfl | hx
    · simp
    · exact absurd (hz x hx) (by omega)

theorem pageOf_le_next (hf : ∀ x, fits [] x = true) (hs : Ordered xs) {n : ℕ} {x : ℕ × α}
    (h : (pageOf fits xs).next = some n) (hx : x ∈ (pageOf fits xs).items) : x.1 ≤ n := by
  obtain ⟨ys, v, zs, -, -, h1, hy, -⟩ := pageOf_split hf hs h
  rw [h1, List.mem_append, List.mem_singleton] at hx
  rcases hx with hx | rfl
  · exact (hy x hx).le
  · exact le_rfl

/-- The resume position is the position of an item of the page. -/
theorem pageOf_next_mem (hf : ∀ x, fits [] x = true) (hs : Ordered xs) {n : ℕ}
    (h : (pageOf fits xs).next = some n) : ∃ v, (n, v) ∈ (pageOf fits xs).items := by
  obtain ⟨ys, v, zs, -, -, h1, -, -⟩ := pageOf_split hf hs h
  exact ⟨v, by rw [h1]; simp⟩

/-- What is left after a page is what lies beyond its resume position. -/
theorem after_pageOf (hf : ∀ x, fits [] x = true) (hs : Ordered xs) {n : ℕ}
    (h : (pageOf fits xs).next = some n) : xs = (pageOf fits xs).items ++ after n xs := by
  obtain ⟨ys, v, zs, hx, -, h1, hy, hz⟩ := pageOf_split hf hs h
  rw [h1]
  conv_lhs => rw [hx]
  have ha : after n xs = zs := by
    rw [hx, after, List.filter_append, List.filter_cons_of_neg (by simp),
      List.filter_eq_nil_iff.2 fun x hx => by simpa using (hy x hx).le,
      List.filter_eq_self.2 fun x hx => by simpa using hz x hx]
    rfl
  rw [ha]; simp

theorem pageOf_rest (hf : ∀ x, fits [] x = true) (hs : Ordered xs) {n : ℕ}
    (h : (pageOf fits xs).next = some n) : after n xs ≠ [] := by
  obtain ⟨ys, v, zs, rfl, hz, -, -, hzn⟩ := pageOf_split hf hs h
  obtain ⟨z, hz⟩ := List.exists_mem_of_ne_nil _ hz
  exact List.ne_nil_of_mem (mem_after.2 ⟨by simp [hz], hzn z hz⟩)

end

end Echolet
