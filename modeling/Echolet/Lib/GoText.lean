/-
  Texts that Go writes say what was written.

  * `parseQuoted_quote`: a quoted text is read back, so it also says where it ends
    (`Json.quote_inj`);
  * `Json.renderMembers_inj`: the members of an object of strings and integers are read off
    its text;
  * `Writer`: two programs that write JSON, and where documents of one text begin and end.
-/
import Echolet.Lib.Document

namespace Echolet

open Document

/-! ## Strings -/

/-- A character is read off what Go makes of it in a string. -/
theorem parseString_escape (c : Char) (r : Text) :
    parseString (Json.escape c ++ r) = (parseString r).map fun p => (unitsOf c.toNat ++ p.1, p.2) := by
  unfold Json.escape
  split_ifs with h1 h2 h3 h4 h5 h6 h7 h8
  · subst h1; exact parseString_short rfl (by decide) (by decide) r
  · subst h2; exact parseString_short rfl (by decide) (by decide) r
  · rw [h3]; exact parseString_short rfl (by decide) (by decide) r
  · rw [h4]; exact parseString_short rfl (by decide) (by decide) r
  · rw [h5]; exact parseString_short rfl (by decide) (by decide) r
  · rw [h6]; exact parseString_short rfl (by decide) (by decide) r
  · rw [h7]; exact parseString_short rfl (by decide) (by decide) r
  · refine parseString_hex4 ?_ r
    rcases h8 with h | rfl | rfl | rfl | h | h
    · omega
    · decide
    · decide
    · decide
    · omega
    · omega
  · rw [not_or] at h8
    exact parseString_plain h1 h2 h8.1 r

/-- The units of a text are read off its quoted form. -/
theorem parseQuoted_quote (t r : Text) : parseQuoted (Json.quote t ++ r) = some (utf16Units t, r) := by
  have h : ∀ t : Text, parseString (t.flatMap Json.escape ++ '"' :: r) = some (utf16Units t, r) := by
    intro t
    induction t with
    | nil =>
      rw [List.flatMap_nil, List.nil_append, parseString.eq_def]
      rfl
    | cons c t ih =>
      rw [List.flatMap_cons, List.append_assoc, parseString_escape, ih, Option.map_some,
        utf16Units_eq, utf16Units_eq, List.map_cons, List.flatMap_cons]
  simp only [Json.quote, parseQuoted, List.cons_append, List.append_assoc, List.nil_append]
  exact h t

theorem utf16Units_injective : Function.Injective utf16Units := by
  intro s t h
  have hc := codePoints_utf16Units s
  rw [h, codePoints_utf16Units] at hc
  exact (List.map_injective_iff.2 (fun a b hab => Char.ext (UInt32.toNat_inj.1 hab)) hc).symm

/-! ## Objects of strings and integers -/

namespace Json

/-- A quoted text says where it ends. -/
theorem quote_inj {t t' r r' : Text} (h : quote t ++ r = quote t' ++ r') : t = t' ∧ r = r' := by
  have hp := parseQuoted_quote t r
  rw [h, parseQuoted_quote, Option.some.injEq, Prod.mk.injEq] at hp
  exact ⟨(utf16Units_injective hp.1).symm, hp.2.symm⟩

/-- An integer says where it ends, before what may follow a value. -/
theorem renderInt_inj {n n' : ℤ} {r r' : Text} (hr : Follow r) (hr' : Follow r')
    (h : renderInt n ++ r = renderInt n' ++ r') : n = n' ∧ r = r' := by
  have hdec : ∀ {m m' : ℕ}, decimal m ++ r = decimal m' ++ r' → m = m' ∧ r = r' := by
    intro m m' he
    have hd : ∀ m, ∀ c ∈ decimal m, c.isDigit = true := fun _ _ => isDigit_of_mem_decimal
    obtain ⟨h1, h2⟩ := span_digits (hd m) hr
    obtain ⟨h1', h2'⟩ := span_digits (hd m') hr'
    rw [he] at h1 h2
    exact ⟨decimal_inj (h1.symm.trans h1'), h2.symm.trans h2'⟩
  have hsign : ∀ {m : ℕ} {s s' : Text}, decimal m ++ s ≠ '-' :: s' := by
    intro m s s' he
    obtain ⟨c, t, hm⟩ := List.exists_cons_of_ne_nil (decimal_ne_nil m)
    have hc : c.isDigit = true := isDigit_of_mem_decimal (n := m) (by rw [hm]; simp)
    rw [hm] at he
    obtain ⟨rfl, -⟩ := List.cons.inj he
    exact absurd hc (by decide)
  cases n with
  | ofNat m =>
    cases n' with
    | ofNat m' =>
      obtain ⟨rfl, hrr⟩ := hdec h
      exact ⟨rfl, hrr⟩
    | negSucc m' => exact absurd h hsign
  | negSucc m =>
    cases n' with
    | ofNat m' => exact absurd h.symm hsign
    | negSucc m' =>
      obtain ⟨hm, hrr⟩ := hdec (List.cons.inj h).2
      exact ⟨by rw [Nat.succ.inj hm], hrr⟩

/-- Strings and integers. -/
def Scalar : Json → Prop
  | .int _ | .str _ => True
  | _ => False

theorem render_scalar_inj {j j' : Json} (hj : j.Scalar) (hj' : j'.Scalar) {r r' : Text}
    (hr : Follow r) (hr' : Follow r') (h : j.render ++ r = j'.render ++ r') : j = j' ∧ r = r' := by
  have hquote : ∀ {n : ℤ} {t s s' : Text}, renderInt n ++ s ≠ quote t ++ s' := by
    intro n t s s' he
    cases n with
    | negSucc m => exact absurd (List.cons.inj he).1 (by decide)
    | ofNat m =>
      obtain ⟨c, u, hm⟩ := List.exists_cons_of_ne_nil (decimal_ne_nil m)
      have hc : c.isDigit = true := isDigit_of_mem_decimal (n := m) (by rw [hm]; simp)
      rw [renderInt, hm] at he
      obtain ⟨rfl, -⟩ := List.cons.inj he
      exact absurd hc (by decide)
  cases j with
  | null | bool | arr | obj => exact hj.elim
  | int n =>
    cases j' with
    | null | bool | arr | obj => exact hj'.elim
    | int n' =>
      obtain ⟨rfl, hrr⟩ := renderInt_inj hr hr' h
      exact ⟨rfl, hrr⟩
    | str t' => exact absurd h hquote
  | str t =>
    cases j' with
    | null | bool | arr | obj => exact hj'.elim
    | int n' => exact absurd h.symm hquote
    | str t' =>
      obtain ⟨rfl, hrr⟩ := quote_inj h
      exact ⟨rfl, hrr⟩

/-- What follows the first of some members. -/
theorem renderMembers_cons (k : Text) (x : Json) (ms : List (Text × Json)) (r : Text) :
    ∃ s, renderMembers ((k, x) :: ms) ++ '\x7d' :: r = quote k ++ ':' :: (x.render ++ s) ∧ Follow s ∧
      s = if ms = [] then '\x7d' :: r else ',' :: (renderMembers ms ++ '\x7d' :: r) := by
  cases ms with
  | nil =>
    exact ⟨'\x7d' :: r, by simp [renderMembers], follow_cons (Or.inr (Or.inr rfl)) r, rfl⟩
  | cons m ms =>
    exact ⟨',' :: (renderMembers (m :: ms) ++ '\x7d' :: r), by simp [renderMembers],
      follow_cons (Or.inl rfl) _, rfl⟩

/-- Members with strings and integers are read off their text. -/
theorem renderMembers_inj : ∀ {ms ms' : List (Text × Json)} {r r' : Text},
    (∀ m ∈ ms, m.2.Scalar) → (∀ m ∈ ms', m.2.Scalar) →
    renderMembers ms ++ '\x7d' :: r = renderMembers ms' ++ '\x7d' :: r' → ms = ms'
  | [], [], r, r', _, _, _ => rfl
  | [], (k, x) :: ms', r, r', _, _, h => by
    obtain ⟨s, hs, -⟩ := renderMembers_cons k x ms' r'
    rw [hs] at h
    exact absurd (List.cons.inj h).1 (by decide)
  | (k, x) :: ms, [], r, r', _, _, h => by
    obtain ⟨s, hs, -⟩ := renderMembers_cons k x ms r
    rw [hs] at h
    exact absurd (List.cons.inj h).1 (by decide)
  | (k, x) :: ms, (k', x') :: ms', r, r', hm, hm', h => by
    obtain ⟨s, hs, hf, he⟩ := renderMembers_cons k x ms r
    obtain ⟨s', hs', hf', he'⟩ := renderMembers_cons k' x' ms' r'
    rw [hs, hs'] at h
    obtain ⟨rfl, hv⟩ := quote_inj h
    obtain ⟨rfl, ht⟩ := render_scalar_inj (hm (k, x) (by simp)) (hm' (k, x') (by simp)) hf hf'
      (List.cons.inj hv).2
    have htail : ms = ms' := by
      rw [he, he'] at ht
      split_ifs at ht with h1 h2 h2
      · rw [h1, h2]
      · exact absurd (List.cons.inj ht).1 (by decide)
      · exact absurd (List.cons.inj ht).1 (by decide)
      · exact renderMembers_inj (fun m hmem => hm m (List.mem_cons_of_mem _ hmem))
          (fun m hmem => hm' m (List.mem_cons_of_mem _ hmem)) (List.cons.inj ht).2
    rw [htail]

end Json

/-! ## Two programs that write JSON -/

/-- How a program writes strings and numbers. -/
structure Writer (σ : Type) where
  quote : σ → Text
  numeral : Number → Text
  units : σ → List ℕ
  reads : ∀ s r, parseQuoted (quote s ++ r) = some (units s, r)
  numeral_comma : ∀ n, ',' ∉ numeral n

/-- `json.Marshal` of a document as `json.Unmarshal` makes it. -/
def goWriter : Writer Text :=
  ⟨Json.quote, Number.text, utf16Units, parseQuoted_quote, Number.comma_notMem_text⟩

namespace Writer

variable {σ τ : Type} (w : Writer σ) (v : Writer τ)

def write (d : Document σ) : Text := Document.write w.quote w.numeral d

def members (ms : List (σ × Document σ)) : Text := writeMembers w.quote w.numeral ms

/-- The two texts of the documents end alike where they begin a text alike. -/
def EndAlike (d : Document σ) (d' : Document τ) : Prop :=
  ∀ r r', w.write d ++ r = v.write d' ++ r' → r = r'

variable {w v}

theorem quote_inj {s : σ} {t : τ} {r r' : Text} (h : w.quote s ++ r = v.quote t ++ r') :
    w.units s = v.units t ∧ r = r' := by
  have hp := w.reads s r
  rw [h, v.reads, Option.some.injEq, Prod.mk.injEq] at hp
  exact ⟨hp.1.symm, hp.2.symm⟩

/-- The first of the members that are left. -/
theorem members_inj {k : σ} {k' : τ} {x : Document σ} {x' : Document τ}
    {ms : List (σ × Document σ)} {ms' : List (τ × Document τ)} {r r' : Text}
    (h : w.members ((k, x) :: ms) ++ r = v.members ((k', x') :: ms') ++ r') :
    w.units k = v.units k' ∧ w.write x ++ (w.members ms ++ r) = v.write x' ++ (v.members ms' ++ r') := by
  simp only [members, writeMembers, List.cons_append, List.append_assoc, List.cons.injEq,
    true_and] at h
  obtain ⟨hk, hx⟩ := quote_inj h
  exact ⟨hk, (List.cons.inj hx).2⟩

/-- The first member of an object. -/
theorem obj_inj {m : σ × Document σ} {m' : τ × Document τ} {ms : List (σ × Document σ)}
    {ms' : List (τ × Document τ)} {r r' : Text}
    (h : w.write (.obj (m :: ms)) ++ r = v.write (.obj (m' :: ms')) ++ r') :
    w.members (m :: ms) ++ r = v.members (m' :: ms') ++ r' := by
  obtain ⟨k, x⟩ := m
  obtain ⟨k', x'⟩ := m'
  simp only [write, Document.write, members, writeMembers, List.cons_append, List.cons.injEq,
    true_and] at h ⊢
  exact h

theorem endAlike_str (s : σ) (t : τ) : EndAlike w v (.str s) (.str t) := fun _ _ h =>
  (quote_inj h).2

/-- A number ends where the next member begins. -/
theorem number_inj {n n' : Number} {m : σ × Document σ} {m' : τ × Document τ}
    {ms : List (σ × Document σ)} {ms' : List (τ × Document τ)} {r r' : Text}
    (h : w.write (.number n) ++ (w.members (m :: ms) ++ r) =
      v.write (.number n') ++ (v.members (m' :: ms') ++ r')) :
    w.members (m :: ms) ++ r = v.members (m' :: ms') ++ r' := by
  obtain ⟨k, x⟩ := m
  obtain ⟨k', x'⟩ := m'
  simp only [members, writeMembers, List.cons_append] at h ⊢
  exact congrArg _ (join_inj_left (w.numeral_comma n) (v.numeral_comma n') h).2

theorem endAlike_members {ms : List (σ × Document σ)} {ms' : List (τ × Document τ)}
    (h : List.Forall₂ (fun m m' => EndAlike w v m.2 m'.2) ms ms') {r r' : Text}
    (he : w.members ms ++ r = v.members ms' ++ r') : r = r' := by
  induction h with
  | nil => exact (List.cons.inj he).2
  | cons hx _ ih => exact ih (hx _ _ (members_inj he).2)

theorem endAlike_obj {m : σ × Document σ} {m' : τ × Document τ} {ms : List (σ × Document σ)}
    {ms' : List (τ × Document τ)}
    (h : List.Forall₂ (fun m m' => EndAlike w v m.2 m'.2) (m :: ms) (m' :: ms')) :
    EndAlike w v (.obj (m :: ms)) (.obj (m' :: ms')) := fun _ _ he =>
  endAlike_members h (obj_inj he)

theorem endAlike_arr {xs : List (Document σ)} {xs' : List (Document τ)}
    (h : List.Forall₂ (EndAlike w v) xs xs') : EndAlike w v (.arr xs) (.arr xs') := by
  have hrest : ∀ {xs xs'}, List.Forall₂ (EndAlike w v) xs xs' → ∀ {r r' : Text},
      writeElems w.quote w.numeral xs ++ r = writeElems v.quote v.numeral xs' ++ r' → r = r' := by
    intro xs xs' h r r' he
    induction h with
    | nil => exact (List.cons.inj he).2
    | cons hx _ ih =>
      simp only [writeElems, List.cons_append, List.append_assoc, List.cons.injEq, true_and] at he
      exact ih (hx _ _ he)
  intro r r' he
  cases h with
  | nil =>
    simp only [write, Document.write, List.cons_append, List.cons.injEq, true_and] at he
    exact he
  | cons hx hxs =>
    simp only [write, Document.write, List.cons_append, List.append_assoc, List.cons.injEq,
      true_and] at he
    exact hrest hxs (hx _ _ he)

end Writer

end Echolet
