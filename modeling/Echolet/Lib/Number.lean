/-
  Finite doubles and their text.

  A `Number` is a sign and a magnitude, so that there are two zeros.  `Number.round` is the
  rounding of a magnitude to the nearest double, ties to even, and `none` where it overflows;
  `Number.text` is the shortest text that is read back as the number, without the sign of a
  zero.  Whole numbers up to `2 ^ 53` are doubles (`round_natCast`) and are written in full
  (`text_ofInt`).
-/
import Mathlib.Data.NNRat.Defs
import Mathlib.Data.NNRat.Floor
import Mathlib.Algebra.Order.Floor.Ring
import Mathlib.Data.List.DropRight
import Mathlib.Data.Rat.Floor
import Mathlib.Tactic.NormNum
import Echolet.Lib.Json

namespace Echolet

open scoped NNRat

structure Number where
  negative : Bool
  magnitude : ℚ≥0
  deriving DecidableEq

namespace Number

def value (x : Number) : ℚ := if x.negative then -x.magnitude else x.magnitude

def ofNat (n : ℕ) : Number := ⟨false, n⟩

def ofInt (n : ℤ) : Number := ⟨decide (n < 0), n.natAbs⟩

/-- The zero that is written with a sign where a number is. -/
def negativeZero : Number := ⟨true, 0⟩

/-- The number without the sign of a zero. -/
def unsignedZero (x : Number) : Number := if x.magnitude = 0 then ⟨false, 0⟩ else x

/-- Whole numbers up to `2 ^ 53`, of either sign. -/
def Whole (x : Number) : Prop := ∃ m : ℕ, m ≤ 2 ^ 53 ∧ x.magnitude = m

/-! ## Rounding -/

/-- The binary exponent of the leading bit of `num / den`. -/
def leading (num den : ℕ) : ℤ :=
  if den ≤ num then Nat.log2 (num / den) else -(Nat.log2 ((den + num - 1) / num - 1) + 1)

/-- The quotient rounded to the nearest whole number, ties to even. -/
def nearest (num den : ℕ) : ℕ :=
  let q := num / den
  let r := num % den
  if 2 * r < den then q else if den < 2 * r then q + 1 else q + q % 2

/-- The exponent of the last bit of a double near a magnitude. -/
def lastBit (q : ℚ≥0) : ℤ := max (-1074) (leading q.num q.den - 52)

/-- A positive magnitude rounded at its last bit. -/
def rounded (q : ℚ≥0) : ℚ≥0 :=
  let e := lastBit q
  if 0 ≤ e then nearest q.num (q.den * 2 ^ e.toNat) * 2 ^ e.toNat
  else nearest (q.num * 2 ^ (-e).toNat) q.den / 2 ^ (-e).toNat

/-- The nearest double, `none` where that is above the largest. -/
def round (q : ℚ≥0) : Option ℚ≥0 :=
  if q = 0 then some 0 else if rounded q < 2 ^ 1024 then some (rounded q) else none

theorem nearest_mul (n : ℕ) {d : ℕ} (hd : 0 < d) : nearest (n * d) d = n := by
  have hr : n * d % d = 0 := Nat.mul_mod_left n d
  have hq : n * d / d = n := Nat.mul_div_cancel n hd
  simp only [nearest, hr, hq, mul_zero]
  rw [if_pos hd]

theorem rounded_natCast {n : ℕ} (h0 : n ≠ 0) (h : n < 2 ^ 53) : rounded n = n := by
  have hlog : Nat.log2 n < 53 := (Nat.log2_lt h0).2 h
  have hlead : leading n 1 = Nat.log2 n := by
    have hpos : 1 ≤ n := Nat.pos_of_ne_zero h0
    rw [leading, if_pos hpos, Nat.div_one]
  have he : lastBit n = max (-1074) (Nat.log2 n - 52 : ℤ) := by
    rw [lastBit, NNRat.num_natCast, NNRat.den_natCast, hlead]
  simp only [rounded, NNRat.num_natCast, NNRat.den_natCast]
  -- the last bit stands for one or less
  by_cases hpos : 0 ≤ lastBit n
  · have h0 : lastBit n = 0 := by omega
    have hs := nearest_mul n Nat.one_pos
    rw [Nat.mul_one] at hs
    simp only [h0, le_refl, if_true, Int.toNat_zero, pow_zero, mul_one, hs]
  · have hs := nearest_mul (n * 2 ^ (-lastBit n).toNat) Nat.one_pos
    rw [Nat.mul_one] at hs
    have h2 : (2 : ℚ≥0) ^ (-lastBit n).toNat ≠ 0 := pow_ne_zero _ two_ne_zero
    rw [if_neg hpos, hs]
    push_cast
    rw [mul_div_assoc, div_self h2, mul_one]

theorem rounded_two_pow : rounded ((2 ^ 53 : ℕ) : ℚ≥0) = ((2 ^ 53 : ℕ) : ℚ≥0) := by
  have hlog : Nat.log2 (2 ^ 53) = 53 := Nat.log2_two_pow
  have hlead : leading (2 ^ 53) 1 = 53 := by
    rw [leading, if_pos Nat.one_le_two_pow, Nat.div_one, hlog]
    rfl
  have he : lastBit ((2 ^ 53 : ℕ) : ℚ≥0) = 1 := by
    rw [lastBit, NNRat.num_natCast, NNRat.den_natCast, hlead]
    rfl
  have hs := nearest_mul (2 ^ 52) (show 0 < 1 * 2 ^ 1 by norm_num)
  rw [show 2 ^ 52 * (1 * 2 ^ 1) = 2 ^ 53 by norm_num] at hs
  simp only [rounded, NNRat.num_natCast, NNRat.den_natCast, he]
  rw [if_pos (by norm_num), Int.toNat_one, hs]
  norm_num

/-- **Whole numbers up to `2 ^ 53` are doubles.** -/
theorem round_natCast {n : ℕ} (h : n ≤ 2 ^ 53) : round n = some (n : ℚ≥0) := by
  by_cases h0 : n = 0
  · subst h0; simp [round]
  have hlt : (n : ℚ≥0) < 2 ^ 1024 := calc
    (n : ℚ≥0) ≤ 2 ^ 53 := by exact_mod_cast h
    _ < 2 ^ 1024 := pow_lt_pow_right₀ one_lt_two (by norm_num)
  have hr : rounded n = n := by
    rcases Nat.lt_or_eq_of_le h with h | rfl
    · exact rounded_natCast h0 h
    · exact rounded_two_pow
  rw [round, if_neg (Nat.cast_ne_zero.2 h0), hr, if_pos hlt]

/-- The sum of two doubles, `none` beyond the largest. -/
def add (x y : Number) : Option Number :=
  let sum := x.value + y.value
  if sum = 0 then some ⟨x.negative && y.negative, 0⟩
  else (round (Rat.nnabs sum)).map fun magnitude => ⟨decide (sum < 0), magnitude⟩

/-! ## Text -/

/-- The decimal exponent of a positive magnitude: it is below `10 ^ magnitude10 q`. -/
def magnitude10 (q : ℚ≥0) : ℤ :=
  if q.den ≤ q.num then (decimal (q.num / q.den)).length
  else
    -- the zeros after the point
    1 - (decimal ((q.den - 1) / q.num)).length

def scale10 (q : ℚ≥0) (e : ℤ) : ℚ≥0 := if 0 ≤ e then q * 10 ^ e.toNat else q / 10 ^ (-e).toNat

/-- The closest numeral of `k` digits that is read back as `q`. -/
def numeral (q : ℚ≥0) (n : ℤ) (k : ℕ) : Option ℕ :=
  let scaled := scale10 q (k - n)
  let below := scaled.num / scaled.den
  let good (c : ℕ) : Bool := round (scale10 c (n - k)) = some q
  if good below ∧ (¬ good (below + 1) ∨ scaled - below ≤ below + 1 - scaled) then some below
  else if good (below + 1) then some (below + 1)
  else none

/-- The fewest digits that are read back as `q`, seventeen at most, and the place of the decimal
    point after the first of them. -/
def shortest (q : ℚ≥0) : Text × ℤ :=
  let n := magnitude10 q
  let found := (List.range 17).findSome? fun i => (numeral q n (i + 1)).map fun c => (c, i + 1)
  match found with
  | some (c, k) =>
    -- a power of ten has one digit more than was asked for
    ((decimal c).rdropWhile (· = '0'), n + ((decimal c).length - k))
  | none => (decimal 0, n)

/-- Digits with the decimal point after `n` of them, or with an exponent. -/
def place (digits : Text) (n : ℤ) : Text :=
  let k : ℤ := digits.length
  if k ≤ n ∧ n ≤ 21 then digits ++ List.replicate (n - k).toNat '0'
  else if 0 < n ∧ n ≤ 21 then digits.take n.toNat ++ '.' :: digits.drop n.toNat
  else if -6 < n ∧ n ≤ 0 then '0' :: '.' :: List.replicate (-n).toNat '0' ++ digits
  else
    let mantissa := if k = 1 then digits else digits.take 1 ++ '.' :: digits.drop 1
    let sign := if 0 < n then '+' else '-'
    mantissa ++ 'e' :: sign :: decimal (n - 1).natAbs

/-- Whole numbers up to `2 ^ 53` have no shorter text than all their digits. -/
def magnitudeText (q : ℚ≥0) : Text :=
  if q.den = 1 ∧ q.num ≤ 2 ^ 53 then decimal q.num
  else place (shortest q).1 (shortest q).2

/-- A sign, but none for zero. -/
def signed (negative : Bool) (q : ℚ≥0) : Text :=
  if negative = true ∧ q ≠ 0 then '-' :: magnitudeText q else magnitudeText q

/-- `Number.prototype.toString`. -/
def text (x : Number) : Text := signed x.negative x.magnitude

theorem magnitudeText_natCast {n : ℕ} (h : n ≤ 2 ^ 53) : magnitudeText n = decimal n := by
  rw [magnitudeText, NNRat.num_natCast, NNRat.den_natCast, if_pos ⟨rfl, h⟩]

/-- **Whole numbers up to `2 ^ 53` are written in full.** -/
theorem text_ofInt {n : ℤ} (h : n.natAbs ≤ 2 ^ 53) : text (ofInt n) = Json.renderInt n := by
  change signed (decide (n < 0)) (n.natAbs : ℚ≥0) = _
  cases n with
  | ofNat n =>
    have hs : ¬ (decide (Int.ofNat n < 0) = true ∧ ((Int.ofNat n).natAbs : ℚ≥0) ≠ 0) := by
      simp
    rw [signed, if_neg hs, magnitudeText_natCast h]
    rfl
  | negSucc n =>
    have hs : decide (Int.negSucc n < 0) = true ∧ ((Int.negSucc n).natAbs : ℚ≥0) ≠ 0 :=
      ⟨by simp [Int.negSucc_lt_zero], Nat.cast_ne_zero.2 (Nat.succ_ne_zero n)⟩
    rw [signed, if_pos hs, magnitudeText_natCast h]
    rfl

theorem text_ofNat {n : ℕ} (h : n ≤ 2 ^ 53) : text (ofNat n) = decimal n :=
  text_ofInt (n := n) (by simpa using h)

/-! ## The characters of a text -/

/-- The characters of a numeral. -/
def Numeric (c : Char) : Prop := c.isDigit = true ∨ c ∈ ['-', '+', '.', 'e']

instance (c : Char) : Decidable (Numeric c) := inferInstanceAs (Decidable (_ ∨ _))

theorem numeric_decimal {n : ℕ} : ∀ c ∈ decimal n, Numeric c := fun _ h =>
  Or.inl (isDigit_of_mem_decimal h)

theorem numeric_shortest (q : ℚ≥0) : ∀ c ∈ (shortest q).1, Numeric c := by
  intro c hc
  simp only [shortest] at hc
  split at hc
  · exact numeric_decimal c ((List.rdropWhile_prefix _ _).subset hc)
  · exact numeric_decimal (n := 0) c hc

theorem numeric_place {digits : Text} (h : ∀ c ∈ digits, Numeric c) (n : ℤ) :
    ∀ c ∈ place digits n, Numeric c := by
  have hzeros : ∀ k, ∀ c ∈ List.replicate k '0', Numeric c := fun k c hc =>
    Or.inl (by rw [List.eq_of_mem_replicate hc]; rfl)
  have hpoint : ∀ k, ∀ c ∈ digits.take k ++ '.' :: digits.drop k, Numeric c := by
    intro k
    rw [List.forall_mem_append, List.forall_mem_cons]
    exact ⟨fun c hc => h c (List.mem_of_mem_take hc), Or.inr (by simp),
      fun c hc => h c (List.mem_of_mem_drop hc)⟩
  simp only [place]
  split_ifs
  · exact List.forall_mem_append.2 ⟨h, hzeros _⟩
  · exact hpoint _
  · rw [List.forall_mem_append, List.forall_mem_cons, List.forall_mem_cons]
    exact ⟨⟨Or.inl rfl, Or.inr (by simp), hzeros _⟩, h⟩
  all_goals
    rw [List.forall_mem_append, List.forall_mem_cons, List.forall_mem_cons]
  · exact ⟨h, Or.inr (by simp), Or.inr (by simp), numeric_decimal⟩
  · exact ⟨h, Or.inr (by simp), Or.inr (by simp), numeric_decimal⟩
  · exact ⟨hpoint 1, Or.inr (by simp), Or.inr (by simp), numeric_decimal⟩
  · exact ⟨hpoint 1, Or.inr (by simp), Or.inr (by simp), numeric_decimal⟩

theorem numeric_text (x : Number) : ∀ c ∈ x.text, Numeric c := by
  have hm : ∀ c ∈ magnitudeText x.magnitude, Numeric c := by
    rw [magnitudeText]
    split_ifs
    · exact numeric_decimal
    · exact numeric_place (numeric_shortest _) _
  rw [text, signed]
  split_ifs
  · exact List.forall_mem_cons.2 ⟨Or.inr (by simp), hm⟩
  · exact hm

theorem comma_notMem_text (x : Number) : ',' ∉ x.text := fun h =>
  absurd (numeric_text x _ h) (by decide)

end Number

end Echolet
