/-
  Unicode text as the list of its code points: its length in the two encodings, decimal
  numerals, and names joined by a separator.

  * `utf8Length` and `utf16Length` measure a text in bytes and in UTF-16 units, `utf16Units`
    are these units;
  * `decimal n` is the shortest decimal numeral, `padded w n` the one padded with zeros
    to `w` digits; `padded_lt_iff` says that padding makes text order the numeric order,
    `decimal_value` that a numeral without zeros before it is the shortest one;
  * `join_cases`: a separator that does not occur in the second name splits a joined
    name in one way, up to names that extend the first one by the separator;
    `intercalate_eq_iff` tells what a joined list shows of its parts.
-/
import Mathlib.Algebra.Order.BigOperators.Group.List
import Mathlib.Data.Char
import Mathlib.Data.List.Lex
import Mathlib.Data.Nat.Digits.Defs
import Mathlib.Tactic.Common
import Mathlib.Tactic.Ring

namespace Echolet

abbrev Text := List Char

def utf8Length (t : Text) : ℕ := (t.map Char.utf8Size).sum

def utf16Length (t : Text) : ℕ := (t.map fun c => if c.toNat < 0x10000 then 1 else 2).sum

/-- The UTF-16 units of a text. -/
def utf16Units (t : Text) : List ℕ := t.flatMap fun c =>
  if c.toNat < 0x10000 then [c.toNat]
  else [0xd800 + (c.toNat - 0x10000) / 0x400, 0xdc00 + (c.toNat - 0x10000) % 0x400]

@[simp] theorem utf8Length_nil : utf8Length [] = 0 := rfl

@[simp] theorem utf8Length_cons (c : Char) (t : Text) :
    utf8Length (c :: t) = c.utf8Size + utf8Length t := by simp [utf8Length]

@[simp] theorem utf8Length_append (s t : Text) :
    utf8Length (s ++ t) = utf8Length s + utf8Length t := by simp [utf8Length]

theorem utf16Length_le (t : Text) : utf16Length t ≤ utf8Length t := by
  refine List.sum_le_sum fun c _ => ?_
  have h : c.toNat = c.val.toNat := rfl
  have hpos := Char.utf8Size_pos c
  split_ifs with hc
  · exact hpos
  · simp only [Char.utf8Size, UInt32.le_iff_toNat_le] at *
    norm_num at *
    split_ifs <;> omega

/-! ## Decimal numerals -/

def decimal (n : ℕ) : Text := Nat.toDigits 10 n

theorem isDigit_of_mem_decimal {n : ℕ} {c : Char} (h : c ∈ decimal n) : c.isDigit = true :=
  Nat.isDigit_of_mem_toDigits (by norm_num) le_rfl h

theorem decimal_ne_nil (n : ℕ) : decimal n ≠ [] := Nat.toDigits_ne_nil

theorem decimal_length_le {n k : ℕ} (hk : 0 < k) (h : n < 10 ^ k) : (decimal n).length ≤ k :=
  (Nat.length_toDigits_le_iff (by norm_num) hk).2 h

/-- Read a numeral: a non-empty text of digits. -/
def parseDecimal (t : Text) : Option ℕ :=
  if t ≠ [] ∧ t.all Char.isDigit then some (Nat.ofDigitChars 10 t 0) else none

@[simp] theorem parseDecimal_decimal (n : ℕ) : parseDecimal (decimal n) = some n := by
  rw [parseDecimal, if_pos ⟨decimal_ne_nil n, List.all_eq_true.2 fun _ => isDigit_of_mem_decimal⟩]
  exact congrArg some Nat.ofDigitChars_ten_toDigits

theorem decimal_inj {m n : ℕ} (h : decimal m = decimal n) : m = n := by
  have := congrArg parseDecimal h; simpa using this

theorem toNat_of_isDigit {c : Char} (h : c.isDigit = true) : 48 ≤ c.toNat ∧ c.toNat ≤ 57 := by
  simp only [Char.isDigit, Bool.and_eq_true, decide_eq_true_eq, ge_iff_le,
    UInt32.le_iff_toNat_le] at h
  exact h

theorem utf8Length_digits {t : Text} (h : ∀ c ∈ t, c.isDigit = true) : utf8Length t = t.length := by
  induction t with
  | nil => rfl
  | cons c t ih =>
    have hc : c.utf8Size = 1 := by
      rw [Char.utf8Size_eq_one_iff]
      have h1 := (toNat_of_isDigit (h c (by simp))).2
      rw [UInt32.le_iff_toNat_le]
      exact h1.trans (by decide)
    rw [utf8Length_cons, hc, ih fun c hc => h c (by simp [hc]), List.length_cons, Nat.add_comm]

/-- The numeral of `n` padded with zeros to `w` digits. -/
def padded (w n : ℕ) : Text := List.replicate (w - (decimal n).length) '0' ++ decimal n

theorem isDigit_of_mem_padded {w n : ℕ} {c : Char} (h : c ∈ padded w n) : c.isDigit = true := by
  rcases List.mem_append.1 h with h | h
  · rw [List.eq_of_mem_replicate h]; rfl
  · exact isDigit_of_mem_decimal h

theorem padded_ne_nil (w n : ℕ) : padded w n ≠ [] := by simp [padded, decimal_ne_nil]

/-- The number a text of digits denotes. -/
def value (t : Text) : ℕ := Nat.ofDigitChars 10 t 0

theorem value_cons (c : Char) (t : Text) :
    value (c :: t) = 10 ^ t.length * (c.toNat - 48) + value t := by
  rw [value, Nat.ofDigitChars_cons, Nat.ofDigitChars_eq_ofDigitChars_zero]
  simp [value]

theorem value_padded (w n : ℕ) : value (padded w n) = n := by
  rw [value, padded, Nat.ofDigitChars_append, Nat.ofDigitChars_replicate_zero, Nat.mul_zero]
  exact Nat.ofDigitChars_ten_toDigits

@[simp] theorem parseDecimal_padded (w n : ℕ) : parseDecimal (padded w n) = some n := by
  rw [parseDecimal, if_pos ⟨padded_ne_nil w n, List.all_eq_true.2 fun _ => isDigit_of_mem_padded⟩]
  exact congrArg some (value_padded w n)

theorem padded_length {w n : ℕ} (hw : 0 < w) (h : n < 10 ^ w) : (padded w n).length = w := by
  have := decimal_length_le hw h
  simp only [padded, List.length_append, List.length_replicate]; omega

theorem value_lt : ∀ {t : Text}, (∀ c ∈ t, c.isDigit = true) → value t < 10 ^ t.length
  | [], _ => by simp [value]
  | c :: t, h => by
    have hlt := value_lt fun c hc => h c (List.mem_cons_of_mem _ hc)
    have hc := toNat_of_isDigit (h c (by simp))
    rw [value_cons, List.length_cons, pow_succ]
    calc 10 ^ t.length * (c.toNat - 48) + value t
        < 10 ^ t.length * (c.toNat - 48) + 10 ^ t.length := Nat.add_lt_add_left hlt _
      _ ≤ 10 ^ t.length * 9 + 10 ^ t.length :=
          Nat.add_le_add_right (Nat.mul_le_mul_left _ (by omega)) _
      _ = 10 ^ t.length * 10 := by ring

/-- Leading digit first, then the rest. -/
theorem lead_lt_iff {K x y u v : ℕ} (hu : u < K) (hv : v < K) :
    K * x + u < K * y + v ↔ x < y ∨ x = y ∧ u < v := by
  have key : ∀ {x y u v : ℕ}, u < K → x < y → K * x + u < K * y + v := fun {x y u v} hu hxy =>
    calc K * x + u < K * (x + 1) := by rw [Nat.mul_succ]; exact Nat.add_lt_add_left hu _
      _ ≤ K * y := Nat.mul_le_mul_left _ hxy
      _ ≤ K * y + v := Nat.le_add_right _ _
  constructor
  · intro h
    rcases Nat.lt_trichotomy x y with hxy | rfl | hxy
    · exact Or.inl hxy
    · exact Or.inr ⟨rfl, Nat.lt_of_add_lt_add_left h⟩
    · exact absurd h (key hv hxy).asymm
  · rintro (hxy | ⟨rfl, h⟩)
    · exact key hu hxy
    · exact Nat.add_lt_add_left h _

theorem digits_lt_iff : ∀ {s t : Text}, s.length = t.length → (∀ c ∈ s, c.isDigit = true) →
    (∀ c ∈ t, c.isDigit = true) → (s < t ↔ value s < value t)
  | [], [], _, _, _ => by simp [value]
  | c :: s, d :: t, hl, hs, ht => by
    have hl' : s.length = t.length := Nat.succ.inj hl
    have hs' := fun x hx => hs x (List.mem_cons_of_mem c hx)
    have ht' := fun x hx => ht x (List.mem_cons_of_mem d hx)
    have hsl := value_lt hs'
    rw [hl'] at hsl
    have hc := toNat_of_isDigit (hs c (by simp))
    have hd := toNat_of_isDigit (ht d (by simp))
    have hlt : c < d ↔ c.toNat - 48 < d.toNat - 48 := by
      rw [Char.lt_def, UInt32.lt_iff_toNat_lt]
      change c.toNat < d.toNat ↔ _
      omega
    have heq : c = d ↔ c.toNat - 48 = d.toNat - 48 := by
      rw [← Char.toNat_inj]; omega
    rw [List.cons_lt_cons_iff, digits_lt_iff hl' hs' ht', hlt, heq, value_cons, value_cons, hl',
      lead_lt_iff hsl (value_lt ht')]

/-- **Padding makes text order the numeric order.** -/
theorem padded_lt_iff {w m n : ℕ} (hw : 0 < w) (hm : m < 10 ^ w) (hn : n < 10 ^ w) :
    padded w m < padded w n ↔ m < n := by
  rw [digits_lt_iff (by rw [padded_length hw hm, padded_length hw hn])
    (fun _ => isDigit_of_mem_padded) (fun _ => isDigit_of_mem_padded), value_padded, value_padded]

/-- A decimal numeral begins with zero only where it is zero. -/
theorem decimal_head {m : ℕ} (h : (decimal m).head? = some '0') : decimal m = ['0'] := by
  cases hd : decimal m with
  | nil => exact absurd hd (decimal_ne_nil m)
  | cons c t =>
    rw [hd] at h
    cases h
    cases ht : t with
    | nil => rfl
    | cons c' t' =>
      have hdig : ∀ c ∈ t, c.isDigit = true := fun c hc =>
        isDigit_of_mem_decimal (n := m) (by rw [hd]; exact List.mem_cons_of_mem _ hc)
      have hval : m = value t := by
        have hv : value (decimal m) = m := Nat.ofDigitChars_ten_toDigits
        rw [hd, value_cons] at hv
        have hz : '0'.toNat = 48 := rfl
        rw [hz] at hv
        omega
      have hlen := decimal_length_le (n := m) (k := t.length) (by rw [ht]; simp)
        (by rw [hval]; exact value_lt hdig)
      rw [hd, List.length_cons] at hlen
      omega

/-- A text of digits is the numeral of its value, padded to its length. -/
theorem padded_value {t : Text} (hd : ∀ c ∈ t, c.isDigit = true) (hne : t ≠ []) :
    padded t.length (value t) = t := by
  have hl : (padded t.length (value t)).length = t.length :=
    padded_length (List.length_pos_iff.2 hne) (value_lt hd)
  have hp : ∀ c ∈ padded t.length (value t), c.isDigit = true := fun _ => isDigit_of_mem_padded
  refine le_antisymm (not_lt.1 fun h => ?_) (not_lt.1 fun h => ?_)
  · rw [digits_lt_iff hl.symm hd hp, value_padded] at h
    exact lt_irrefl _ h
  · rw [digits_lt_iff hl hp hd, value_padded] at h
    exact lt_irrefl _ h

/-- A numeral that does not begin with zero is the one its value is written as. -/
theorem decimal_value {t : Text} (hd : ∀ c ∈ t, c.isDigit = true) (hne : t ≠ [])
    (h0 : t.head? ≠ some '0') : decimal (value t) = t := by
  have h := padded_value hd hne
  rw [padded] at h
  cases hk : t.length - (decimal (value t)).length with
  | zero => simpa [hk] using h
  | succ k =>
    rw [hk, List.replicate_succ] at h
    rw [← h] at h0
    exact absurd rfl h0

/-! ## Joined names -/

/-- A joined name whose second part is free of the separator: another way of splitting it
    either is the same or puts the first separator inside the first part. -/
theorem join_cases {α : Type} {a b a' b' : List α} {s : α} (hb' : s ∉ b')
    (h : a ++ s :: b = a' ++ s :: b') :
    a = a' ∧ b = b' ∨ ∃ x, a' = a ++ s :: x ∧ b = x ++ s :: b' := by
  rcases List.append_eq_append_iff.1 h with ⟨x, rfl, hx⟩ | ⟨x, rfl, hx⟩
  · cases x with
    | nil => left; simpa using hx
    | cons y x =>
      simp only [List.cons_append, List.cons.injEq] at hx
      obtain ⟨rfl, rfl⟩ := hx
      exact Or.inr ⟨x, rfl, rfl⟩
  · cases x with
    | nil => left; simpa [eq_comm] using hx
    | cons y x =>
      simp only [List.cons_append, List.cons.injEq] at hx
      exact absurd (by rw [hx.2]; simp) hb'

theorem join_inj {α : Type} {a b a' b' : List α} {s : α} (hb : s ∉ b) (hb' : s ∉ b')
    (h : a ++ s :: b = a' ++ s :: b') : a = a' ∧ b = b' := by
  rcases join_cases hb' h with h | ⟨x, -, rfl⟩
  · exact h
  · simp at hb

/-- First parts free of the separator are read off a joined name as well. -/
theorem join_inj_left {α : Type} {a b a' b' : List α} {s : α} (ha : s ∉ a) (ha' : s ∉ a')
    (h : a ++ s :: b = a' ++ s :: b') : a = a' ∧ b = b' := by
  rcases List.append_eq_append_iff.1 h with ⟨x, rfl, hx⟩ | ⟨x, rfl, hx⟩
  · cases x with
    | nil => simpa using hx
    | cons y x =>
      simp only [List.cons_append, List.cons.injEq] at hx
      exact absurd (by rw [hx.1]; simp) ha'
  · cases x with
    | nil => simpa [eq_comm] using hx
    | cons y x =>
      simp only [List.cons_append, List.cons.injEq] at hx
      exact absurd (by rw [hx.1]; simp) ha

/-- Fields behind a first part, each after the separator. -/
def joined {α : Type} (s : α) (a : List α) (fields : List (List α)) : List α :=
  fields.foldl (fun a f => a ++ s :: f) a

/-- **Fields free of the separator are read off a joined name**, whatever stands in front. -/
theorem joined_inj {α : Type} {s : α} : ∀ {a a' : List α} {fs fs' : List (List α)},
    (∀ f ∈ fs, s ∉ f) → (∀ f ∈ fs', s ∉ f) → fs.length = fs'.length →
    joined s a fs = joined s a' fs' → a = a' ∧ fs = fs'
  | a, a', [], [], _, _, _, h => ⟨h, rfl⟩
  | a, a', f :: fs, f' :: fs', hf, hf', hl, h => by
    change joined s (a ++ s :: f) fs = joined s (a' ++ s :: f') fs' at h
    obtain ⟨ha, rfl⟩ := joined_inj (fun g hg => hf g (List.mem_cons_of_mem _ hg))
      (fun g hg => hf' g (List.mem_cons_of_mem _ hg)) (Nat.succ.inj hl) h
    obtain ⟨rfl, rfl⟩ := join_inj (hf f (by simp)) (hf' f' (by simp)) ha
    exact ⟨rfl, rfl⟩

/-- A list of parts cut at every separator; of no part at all the cut is the empty text's. -/
def pieces {α : Type} [BEq α] (s : α) : List (List α) → List (List α)
  | [] => [[]]
  | [t] => t.splitOn s
  | t :: t' :: ts => t.splitOn s ++ pieces s (t' :: ts)

theorem splitOn_intercalate_eq {α : Type} [BEq α] [LawfulBEq α] (s : α) (ts : List (List α)) :
    ([s].intercalate ts).splitOn s = pieces s ts := by
  induction ts using pieces.induct with
  | case1 => rfl
  | case2 t => rw [List.intercalate_singleton, pieces]
  | case3 t t' ts ih =>
    rw [List.intercalate_cons_cons, List.append_assoc, List.singleton_append,
      List.splitOn_append_cons_self, ih, pieces]

/-- **Joined lists are equal exactly where their pieces are.** -/
theorem intercalate_eq_iff {α : Type} [BEq α] [LawfulBEq α] {s : α} {ts ts' : List (List α)} :
    [s].intercalate ts = [s].intercalate ts' ↔ pieces s ts = pieces s ts' := by
  rw [← splitOn_intercalate_eq, ← splitOn_intercalate_eq]
  constructor
  · exact congrArg _
  · intro h
    have hj := congrArg ([s].intercalate) h
    rwa [List.intercalate_splitOn, List.intercalate_splitOn] at hj

/-- Parts free of the separator are their own pieces. -/
theorem pieces_of_notMem {α : Type} [BEq α] [LawfulBEq α] {s : α} {ts : List (List α)}
    (h : ∀ t ∈ ts, s ∉ t) (hne : ts ≠ []) : pieces s ts = ts := by
  rw [← splitOn_intercalate_eq, List.splitOn_intercalate s h hne]

/-- The names that begin with a first part and the separator. -/
theorem isPrefixOf_join {α : Type} [DecidableEq α] {m k : List α} {s : α} :
    (m ++ [s]).isPrefixOf k = true ↔ ∃ x, k = m ++ s :: x := by
  rw [List.isPrefixOf_iff_prefix]
  constructor
  · rintro ⟨x, rfl⟩; exact ⟨x, by simp⟩
  · rintro ⟨x, rfl⟩; exact ⟨x, by simp⟩

/-- Texts that begin alike compare as what follows. -/
theorem append_lt_append_left_iff {s t : Text} : ∀ l : Text, l ++ s < l ++ t ↔ s < t
  | [] => Iff.rfl
  | c :: l => by
    rw [List.cons_append, List.cons_append, List.cons_lt_cons_iff, append_lt_append_left_iff l]
    simp

/-- Texts with first parts of one length compare as these parts, then as what follows. -/
theorem append_lt_append_iff {b b' : Text} : ∀ {a a' : Text}, a.length = a'.length →
    (a ++ b < a' ++ b' ↔ a < a' ∨ a = a' ∧ b < b')
  | [], [], _ => by simp
  | c :: a, d :: a', h => by
    have ih : a ++ b < a' ++ b' ↔ a < a' ∨ a = a' ∧ b < b' := append_lt_append_iff (Nat.succ.inj h)
    rw [List.cons_append, List.cons_append, List.cons_lt_cons_iff, List.cons_lt_cons_iff, ih]
    constructor
    · rintro (hc | ⟨rfl, ha | ⟨rfl, hb⟩⟩)
      · exact Or.inl (Or.inl hc)
      · exact Or.inl (Or.inr ⟨rfl, ha⟩)
      · exact Or.inr ⟨rfl, hb⟩
    · rintro ((hc | ⟨rfl, ha⟩) | ⟨he, hb⟩)
      · exact Or.inl hc
      · exact Or.inr ⟨rfl, Or.inl ha⟩
      · cases he; exact Or.inr ⟨rfl, Or.inr ⟨rfl, hb⟩⟩

end Echolet
