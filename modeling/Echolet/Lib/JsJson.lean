/-
  Two programs that write one document: `encoding/json`, with a pass over its text that takes
  back the escapes of the line separators, and `JSON.stringify`.

  * `jsJSON_eq`: the pass makes of the encoder's text the one `JSON.stringify` writes, but that
    a zero keeps its sign;
  * `jsJSON_eq_stringify_iff`: so the two write one text exactly if no zero of the document is
    negative and no string of it has a lone surrogate.
-/
import Echolet.Lib.JsText

namespace Echolet

namespace Document

/-! ## The encoder -/

/-- What a character of a string becomes where HTML is not escaped. -/
def goEscape (c : Char) : Text :=
  if c = '"' ∨ c = '\\' then ['\\', c]
  else if c.toNat = 8 then ['\\', 'b'] else if c.toNat = 12 then ['\\', 'f']
  else if c.toNat = 10 then ['\\', 'n'] else if c.toNat = 13 then ['\\', 'r']
  else if c.toNat = 9 then ['\\', 't']
  else if c.toNat < 0x20 ∨ c.toNat = 0x2028 ∨ c.toNat = 0x2029 then '\\' :: 'u' :: Json.hex4 c.toNat
  else [c]

def goQuote (t : Text) : Text := '"' :: t.flatMap goEscape ++ ['"']

/-- A number with its sign, that of a zero too. -/
def goNumeral (x : Number) : Text :=
  if x.negative then '-' :: Number.magnitudeText x.magnitude else Number.magnitudeText x.magnitude

/-- The line separators, unescaped again. -/
def unescapeSeparators : Text → Text
  | '\\' :: 'u' :: '2' :: '0' :: '2' :: '8' :: t => '\u2028' :: unescapeSeparators t
  | '\\' :: 'u' :: '2' :: '0' :: '2' :: '9' :: t => '\u2029' :: unescapeSeparators t
  | '\\' :: c :: t => '\\' :: c :: unescapeSeparators t
  | c :: t => c :: unescapeSeparators t
  | [] => []

mutual
/-- The text of the encoder.  An object is asked for its own, and gives that of its members after
    the pass. -/
def encode : Document Text → Text
  | null => ['n', 'u', 'l', 'l']
  | bool true => ['t', 'r', 'u', 'e']
  | bool false => ['f', 'a', 'l', 's', 'e']
  | number n => goNumeral n
  | infinite _ => []
  | str s => goQuote s
  | arr [] => ['[', ']']
  | arr (x :: xs) => '[' :: encode x ++ encodeElems xs
  | obj [] => ['\x7b', '\x7d']
  | obj ((k, x) :: ms) => '\x7b' :: unescapeSeparators (goQuote k) ++
      ':' :: unescapeSeparators (encode x) ++ encodeMembers ms

def encodeElems : List (Document Text) → Text
  | [] => [']']
  | x :: xs => ',' :: encode x ++ encodeElems xs

def encodeMembers : List (Text × Document Text) → Text
  | [] => ['\x7d']
  | (k, x) :: ms => ',' :: unescapeSeparators (goQuote k) ++
      ':' :: unescapeSeparators (encode x) ++ encodeMembers ms
end

def jsJSON (d : Document Text) : Text := unescapeSeparators (encode d)

/-! ## What the pass leaves alone -/

/-- The pass goes over a text and leaves it. -/
def Passes (t : Text) : Prop := ∀ r, unescapeSeparators (t ++ r) = t ++ unescapeSeparators r

theorem Passes.append {s t : Text} (hs : Passes s) (ht : Passes t) : Passes (s ++ t) := fun r => by
  rw [List.append_assoc, hs, ht, List.append_assoc]

theorem unescape_cons {c : Char} (h : c ≠ '\\') (t : Text) :
    unescapeSeparators (c :: t) = c :: unescapeSeparators t := by
  rw [unescapeSeparators.eq_4] <;> simp_all

theorem passes_nil : Passes [] := fun _ => rfl

theorem Passes.cons {c : Char} {t : Text} (h : c ≠ '\\') (ht : Passes t) : Passes (c :: t) := fun r => by
  rw [List.cons_append, unescape_cons h, ht]
  rfl

theorem passes_plain : ∀ {t : Text}, '\\' ∉ t → Passes t
  | [], _ => passes_nil
  | c :: t, h => by
    rw [List.mem_cons, not_or] at h
    exact .cons (Ne.symm h.1) (passes_plain h.2)

/-- An escape of one letter. -/
theorem unescape_short {c : Char} (h : c ≠ 'u') (r : Text) :
    unescapeSeparators ('\\' :: c :: r) = '\\' :: c :: unescapeSeparators r := by
  rw [unescapeSeparators.eq_3] <;> simp_all

theorem hex4_low {n : ℕ} (h : n < 0x20) :
    Json.hex4 n = ['0', '0', Nat.digitChar (n / 16 % 16), Nat.digitChar (n % 16)] := by
  have h₃ : n / 4096 % 16 = 0 := by omega
  have h₂ : n / 256 % 16 = 0 := by omega
  rw [Json.hex4, h₃, h₂]
  rfl

theorem passes_hex4 {n : ℕ} (h : n < 0x20) : Passes ('\\' :: 'u' :: Json.hex4 n) := by
  have hdigit : ∀ d < 16, Nat.digitChar d ≠ '\\' := by decide
  intro r
  rw [hex4_low h]
  simp only [List.cons_append, List.nil_append]
  rw [unescapeSeparators.eq_3 _ _ (by simp) (by simp)]
  simp only [unescape_cons (show '0' ≠ '\\' by decide),
    unescape_cons (hdigit (n / 16 % 16) (Nat.mod_lt _ (by decide))),
    unescape_cons (hdigit (n % 16) (Nat.mod_lt _ (by decide)))]

theorem Char.eq_of_toNat {c : Char} {n : ℕ} (d : Char) (h : c.toNat = n) (hd : d.toNat = n) : c = d :=
  Char.toNat_inj.1 (h.trans hd.symm)

/-- A character that is written as it is, by both. -/
structure Unescaped (c : Char) : Prop where
  quote : c ≠ '"'
  backslash : c ≠ '\\'
  control : ¬ c.toNat < 0x20

theorem Unescaped.escapePoint {c : Char} (h : Unescaped c) : escapePoint c.toNat = [c] := by
  have hquote : c.toNat ≠ 0x22 := fun he => h.quote (Char.eq_of_toNat '"' he rfl)
  have hback : c.toNat ≠ 0x5c := fun he => h.backslash (Char.eq_of_toNat '\\' he rfl)
  have hcontrol := h.control
  rw [Document.escapePoint, if_neg hquote, if_neg hback, if_neg (by omega), if_neg (by omega),
    if_neg (by omega), if_neg (by omega), if_neg (by omega), if_neg, Char.ofNat_toNat]
  rw [Char.not_surrogate]
  simpa using hcontrol

/-- **The escapes of a character**: what the pass makes of those of the encoder, and that it
    leaves those of `JSON.stringify`. -/
theorem unescape_escapes (c : Char) : Passes (escapePoint c.toNat) ∧
    ∀ r, unescapeSeparators (goEscape c ++ r) = escapePoint c.toNat ++ unescapeSeparators r := by
  have hshort : ∀ {e : Char}, e ≠ 'u' → goEscape c = ['\\', e] → escapePoint c.toNat = ['\\', e] →
      Passes (escapePoint c.toNat) ∧
      ∀ r, unescapeSeparators (goEscape c ++ r) = escapePoint c.toNat ++ unescapeSeparators r := by
    intro e he hgo hjs
    rw [hgo, hjs]
    exact ⟨unescape_short he, unescape_short he⟩
  by_cases hquote : c = '"'
  · exact hshort (e := '"') (by decide) (by rw [hquote]; rfl) (by rw [hquote]; rfl)
  by_cases hback : c = '\\'
  · exact hshort (e := '\\') (by decide) (by rw [hback]; rfl) (by rw [hback]; rfl)
  have hplain : ¬ (c = '"' ∨ c = '\\') := not_or.2 ⟨hquote, hback⟩
  by_cases hcontrol : c.toNat < 0x20
  · by_cases hletter : c.toNat = 8 ∨ c.toNat = 12 ∨ c.toNat = 10 ∨ c.toNat = 13 ∨ c.toNat = 9
    · rcases hletter with h | h | h | h | h
      · exact hshort (e := 'b') (by decide) (by simp [goEscape, hplain, h]) (by simp [Document.escapePoint, h])
      · exact hshort (e := 'f') (by decide) (by simp [goEscape, hplain, h]) (by simp [Document.escapePoint, h])
      · exact hshort (e := 'n') (by decide) (by simp [goEscape, hplain, h]) (by simp [Document.escapePoint, h])
      · exact hshort (e := 'r') (by decide) (by simp [goEscape, hplain, h]) (by simp [Document.escapePoint, h])
      · exact hshort (e := 't') (by decide) (by simp [goEscape, hplain, h]) (by simp [Document.escapePoint, h])
    · simp only [not_or] at hletter
      have hgo : goEscape c = '\\' :: 'u' :: Json.hex4 c.toNat := by
        simp [goEscape, hplain, hletter, hcontrol]
      have hjs : escapePoint c.toNat = '\\' :: 'u' :: Json.hex4 c.toNat := by
        have h22 : c.toNat ≠ 0x22 := by omega
        have h5c : c.toNat ≠ 0x5c := by omega
        simp [Document.escapePoint, h22, h5c, hletter, hcontrol]
      rw [hgo, hjs]
      exact ⟨passes_hex4 hcontrol, passes_hex4 hcontrol⟩
  · have hun : Unescaped c := ⟨hquote, hback, hcontrol⟩
    rw [hun.escapePoint]
    refine ⟨.cons hback passes_nil, fun r => ?_⟩
    by_cases hseparator : c.toNat = 0x2028 ∨ c.toNat = 0x2029
    · rcases hseparator with h | h
      · rw [Char.eq_of_toNat '\u2028' h rfl]
        rfl
      · rw [Char.eq_of_toNat '\u2029' h rfl]
        rfl
    · have hgo : goEscape c = [c] := by
        rw [goEscape, if_neg hplain, if_neg (by omega), if_neg (by omega), if_neg (by omega),
          if_neg (by omega), if_neg (by omega), if_neg (by simp only [hcontrol, false_or]; exact hseparator)]
      rw [hgo, List.singleton_append, unescape_cons hback]
      rfl

theorem passes_quoteText (t : Text) : Passes (quoteText t) := by
  have hflat : ∀ t : Text, Passes (t.flatMap fun c => escapePoint c.toNat) := by
    intro t
    induction t with
    | nil => exact passes_nil
    | cons c t ih => exact (unescape_escapes c).1.append ih
  rw [quoteText_eq]
  exact (Passes.cons (by decide) (hflat t)).append (.cons (by decide) passes_nil)

/-- The text of a string after the pass. -/
theorem unescape_goQuote (t r : Text) :
    unescapeSeparators (goQuote t ++ r) = quoteText t ++ unescapeSeparators r := by
  have hflat : ∀ t r : Text, unescapeSeparators (t.flatMap goEscape ++ r) =
      (t.flatMap fun c => escapePoint c.toNat) ++ unescapeSeparators r := by
    intro t
    induction t with
    | nil => exact fun _ => rfl
    | cons c t ih =>
      intro r
      rw [List.flatMap_cons, List.append_assoc, (unescape_escapes c).2, ih, List.flatMap_cons,
        List.append_assoc]
  have hquote : '"' ≠ '\\' := by decide
  rw [goQuote, quoteText_eq, List.cons_append, List.cons_append, unescape_cons hquote,
    List.append_assoc, hflat, List.cons_append, unescape_cons hquote, List.nil_append,
    List.cons_append, List.cons_append, List.append_assoc, List.singleton_append]

theorem passes_goNumeral (x : Number) : Passes (goNumeral x) := by
  have hmagnitude : '\\' ∉ Number.magnitudeText x.magnitude := fun h => by
    have hn := Number.numeric_text ⟨false, x.magnitude⟩ '\\' (by
      rw [Number.text, Number.signed, if_neg (by simp)]
      exact h)
    exact absurd hn (by decide)
  unfold goNumeral
  split_ifs
  · exact .cons (by decide) (passes_plain hmagnitude)
  · exact passes_plain hmagnitude

/-! ## The text of a document -/

mutual
/-- The pass leaves what it has made. -/
theorem passes_write : ∀ d : Document Text, Passes (write quoteText goNumeral d)
  | null => passes_plain (by decide)
  | bool true => passes_plain (by decide)
  | bool false => passes_plain (by decide)
  | number n => passes_goNumeral n
  | infinite _ => passes_plain (t := ['n', 'u', 'l', 'l']) (by decide)
  | str s => passes_quoteText s
  | arr [] => passes_plain (by decide)
  | arr (x :: xs) => .append (.cons (by decide) (passes_write x)) (passes_writeElems xs)
  | obj [] => passes_plain (by decide)
  | obj ((k, x) :: ms) => .append (.append (.cons (by decide) (passes_quoteText k))
      (.cons (by decide) (passes_write x))) (passes_writeMembers ms)

theorem passes_writeElems : ∀ xs : List (Document Text), Passes (writeElems quoteText goNumeral xs)
  | [] => passes_plain (by decide)
  | x :: xs => .append (.cons (by decide) (passes_write x)) (passes_writeElems xs)

theorem passes_writeMembers : ∀ ms : List (Text × Document Text),
    Passes (writeMembers quoteText goNumeral ms)
  | [] => passes_plain (by decide)
  | (k, x) :: ms => .append (.append (.cons (by decide) (passes_quoteText k))
      (.cons (by decide) (passes_write x))) (passes_writeMembers ms)
end

theorem unescape_key (t : Text) : unescapeSeparators (goQuote t) = quoteText t := by
  have h := unescape_goQuote t []
  rwa [List.append_nil, unescapeSeparators, List.append_nil] at h

mutual
/-- **The pass over the text of the encoder.** -/
theorem unescape_encode : ∀ {d : Document Text}, Finite d → ∀ r,
    unescapeSeparators (encode d ++ r) = write quoteText goNumeral d ++ unescapeSeparators r
  | null, _, r => passes_plain (t := ['n', 'u', 'l', 'l']) (by decide) r
  | bool true, _, r => passes_plain (t := ['t', 'r', 'u', 'e']) (by decide) r
  | bool false, _, r => passes_plain (t := ['f', 'a', 'l', 's', 'e']) (by decide) r
  | number n, _, r => passes_goNumeral n r
  | infinite _, h, _ => h.elim
  | str s, _, r => unescape_goQuote s r
  | arr [], _, r => passes_plain (t := ['[', ']']) (by decide) r
  | arr (x :: xs), h, r => by
    rw [encode, write, List.cons_append, List.cons_append, unescape_cons (by decide),
      List.append_assoc, unescape_encode h.1, unescape_encodeElems h.2, List.cons_append,
      List.cons_append, List.append_assoc]
  | obj [], _, r => passes_plain (t := ['\x7b', '\x7d']) (by decide) r
  | obj ((k, x) :: ms), h, r => by
    have hx : unescapeSeparators (encode x) = write quoteText goNumeral x := by
      have hx := unescape_encode h.1 []
      rwa [List.append_nil, unescapeSeparators, List.append_nil] at hx
    rw [encode, write, unescape_key, hx]
    simp only [List.cons_append, List.append_assoc]
    rw [unescape_cons (by decide), passes_quoteText, unescape_cons (by decide), passes_write,
      unescape_encodeMembers h.2]

theorem unescape_encodeElems : ∀ {xs : List (Document Text)}, FiniteElems xs → ∀ r,
    unescapeSeparators (encodeElems xs ++ r) =
      writeElems quoteText goNumeral xs ++ unescapeSeparators r
  | [], _, r => passes_plain (t := [']']) (by decide) r
  | x :: xs, h, r => by
    rw [encodeElems, writeElems, List.cons_append, List.cons_append, unescape_cons (by decide),
      List.append_assoc, unescape_encode h.1, unescape_encodeElems h.2, List.cons_append,
      List.cons_append, List.append_assoc]

theorem unescape_encodeMembers : ∀ {ms : List (Text × Document Text)}, FiniteMembers ms → ∀ r,
    unescapeSeparators (encodeMembers ms ++ r) =
      writeMembers quoteText goNumeral ms ++ unescapeSeparators r
  | [], _, r => passes_plain (t := ['\x7d']) (by decide) r
  | (k, x) :: ms, h, r => by
    have hx : unescapeSeparators (encode x) = write quoteText goNumeral x := by
      have hx := unescape_encode h.1 []
      rwa [List.append_nil, unescapeSeparators, List.append_nil] at hx
    rw [encodeMembers, writeMembers, unescape_key, hx]
    simp only [List.cons_append, List.append_assoc]
    rw [unescape_cons (by decide), passes_quoteText, unescape_cons (by decide), passes_write,
      unescape_encodeMembers h.2]
end

/-- **After the pass** a document is written as `JSON.stringify` does it, its zeros with signs. -/
theorem jsJSON_eq {d : Document Text} (h : Finite d) : jsJSON d = write quoteText goNumeral d := by
  have hd := unescape_encode h []
  rwa [List.append_nil, unescapeSeparators, List.append_nil] at hd

/-! ## One text -/

section
variable {σ τ : Type}

mutual
theorem map_eq_map : ∀ {d : Document σ} {f f' : σ → τ} {g g' : Number → Number},
    map f g d = map f' g' d → (∀ s ∈ strings d, f s = f' s) ∧ ∀ n ∈ numbers d, g n = g' n
  | null, _, _, _, _, _ => ⟨List.forall_mem_nil _, List.forall_mem_nil _⟩
  | bool _, _, _, _, _, _ => ⟨List.forall_mem_nil _, List.forall_mem_nil _⟩
  | infinite _, _, _, _, _, _ => ⟨List.forall_mem_nil _, List.forall_mem_nil _⟩
  | number n, _, _, _, _, h => by
    simp only [map, number.injEq] at h
    exact ⟨List.forall_mem_nil _, List.forall_mem_singleton.2 h⟩
  | str s, _, _, _, _, h => by
    simp only [map, str.injEq] at h
    exact ⟨List.forall_mem_singleton.2 h, List.forall_mem_nil _⟩
  | arr xs, _, _, _, _, h => by
    simp only [map, arr.injEq] at h
    exact mapElems_eq_map h
  | obj ms, _, _, _, _, h => by
    simp only [map, obj.injEq] at h
    exact mapMembers_eq_map h

theorem mapElems_eq_map : ∀ {xs : List (Document σ)} {f f' : σ → τ} {g g' : Number → Number},
    mapElems f g xs = mapElems f' g' xs →
      (∀ s ∈ stringsOfElems xs, f s = f' s) ∧ ∀ n ∈ numbersOfElems xs, g n = g' n
  | [], _, _, _, _, _ => ⟨List.forall_mem_nil _, List.forall_mem_nil _⟩
  | x :: xs, _, _, _, _, h => by
    simp only [mapElems, List.cons.injEq] at h
    have hx := map_eq_map h.1
    have hxs := mapElems_eq_map h.2
    exact ⟨List.forall_mem_append.2 ⟨hx.1, hxs.1⟩, List.forall_mem_append.2 ⟨hx.2, hxs.2⟩⟩

theorem mapMembers_eq_map : ∀ {ms : List (σ × Document σ)} {f f' : σ → τ} {g g' : Number → Number},
    mapMembers f g ms = mapMembers f' g' ms →
      (∀ s ∈ stringsOfMembers ms, f s = f' s) ∧ ∀ n ∈ numbersOfMembers ms, g n = g' n
  | [], _, _, _, _, _ => ⟨List.forall_mem_nil _, List.forall_mem_nil _⟩
  | (k, x) :: ms, _, _, _, _, h => by
    simp only [mapMembers, List.cons.injEq, Prod.mk.injEq] at h
    have hx := map_eq_map h.1.2
    have hms := mapMembers_eq_map h.2
    exact ⟨List.forall_mem_append.2 ⟨List.forall_mem_cons.2 ⟨h.1.1, hx.1⟩, hms.1⟩,
      List.forall_mem_append.2 ⟨hx.2, hms.2⟩⟩
end

end

/-- A string without a lone surrogate: its text says what it is. -/
def WellFormedUnits (us : List ℕ) : Prop := utf16Units (toText us) = us

instance (us : List ℕ) : Decidable (WellFormedUnits us) :=
  inferInstanceAs (Decidable (utf16Units (toText us) = us))

/-- A whole number is read back with the sign it was written with. -/
theorem parseNumber_goNumeral {x : Number} (hx : x.Whole) {r : Text} (hr : Follow r) :
    parseNumber (goNumeral x ++ r) = some (.number x, r) := by
  obtain ⟨m, hm, hmag⟩ := hx
  obtain ⟨negative, magnitude⟩ := x
  obtain rfl : magnitude = m := hmag
  have hp := parseNumber_decimal hm hr
  unfold goNumeral
  simp only [Number.magnitudeText_natCast hm]
  cases negative with
  | true => exact hp.2
  | false => exact hp.1

/-- A whole number is read back without the sign of a zero. -/
theorem parseNumber_text {x : Number} (hx : x.Whole) {r : Text} (hr : Follow r) :
    parseNumber (x.text ++ r) = some (.number x.unsignedZero, r) := by
  obtain ⟨m, hm, hmag⟩ := hx
  obtain ⟨negative, magnitude⟩ := x
  obtain rfl : magnitude = m := hmag
  have hp := parseNumber_decimal hm hr
  rw [Number.text, Number.signed, Number.magnitudeText_natCast hm]
  by_cases h : negative = true ∧ (m : ℚ≥0) ≠ 0
  · rw [if_pos h, hp.2, Number.unsignedZero, if_neg h.2, h.1]
  · rw [if_neg h, hp.1, Number.unsignedZero]
    split_ifs with hzero
    · have hm0 : (m : ℚ≥0) = 0 := hzero
      rw [hm0]
    · have hnegative : negative = false := by
        simpa [hzero] using h
      rw [hnegative]

theorem goNumeral_eq {x : Number} (h : x ≠ Number.negativeZero) : x.text = goNumeral x := by
  obtain ⟨negative, magnitude⟩ := x
  unfold Number.text Number.signed goNumeral
  cases negative with
  | false => simp
  | true =>
    have hne : magnitude ≠ 0 := fun hzero => h (by rw [hzero]; rfl)
    simp [hne]

mutual
theorem finite_map {σ τ : Type} {f : σ → τ} {g : Number → Number} : ∀ {d : Document σ}, Finite d →
    Finite (map f g d)
  | null, _ => trivial
  | bool _, _ => trivial
  | number _, _ => trivial
  | str _, _ => trivial
  | infinite _, h => h.elim
  | arr _, h => finite_mapElems h
  | obj _, h => finite_mapMembers h

theorem finite_mapElems {σ τ : Type} {f : σ → τ} {g : Number → Number} :
    ∀ {xs : List (Document σ)}, FiniteElems xs → FiniteElems (mapElems f g xs)
  | [], _ => trivial
  | _ :: _, h => ⟨finite_map h.1, finite_mapElems h.2⟩

theorem finite_mapMembers {σ τ : Type} {f : σ → τ} {g : Number → Number} :
    ∀ {ms : List (σ × Document σ)}, FiniteMembers ms → FiniteMembers (mapMembers f g ms)
  | [], _ => trivial
  | _ :: _, h => ⟨finite_map h.1, finite_mapMembers h.2⟩
end

mutual
theorem map_map {ρ σ τ : Type} {f : ρ → σ} {f' : σ → τ} {g g' : Number → Number} :
    ∀ d : Document ρ, map f' g' (map f g d) = map (fun s => f' (f s)) (fun n => g' (g n)) d
  | null | bool _ | infinite _ | number _ | str _ => rfl
  | arr xs => congrArg arr (mapElems_mapElems xs)
  | obj ms => congrArg obj (mapMembers_mapMembers ms)

theorem mapElems_mapElems {ρ σ τ : Type} {f : ρ → σ} {f' : σ → τ} {g g' : Number → Number} :
    ∀ xs : List (Document ρ),
      mapElems f' g' (mapElems f g xs) = mapElems (fun s => f' (f s)) (fun n => g' (g n)) xs
  | [] => rfl
  | x :: xs => congrArg₂ List.cons (map_map x) (mapElems_mapElems xs)

theorem mapMembers_mapMembers {ρ σ τ : Type} {f : ρ → σ} {f' : σ → τ} {g g' : Number → Number} :
    ∀ ms : List (ρ × Document ρ),
      mapMembers f' g' (mapMembers f g ms) = mapMembers (fun s => f' (f s)) (fun n => g' (g n)) ms
  | [] => rfl
  | (k, x) :: ms => congrArg₂ List.cons (congrArg (Prod.mk (f' (f k))) (map_map x)) (mapMembers_mapMembers ms)
end

section
variable {σ : Type} {units : σ → List ℕ}

/-- **Two programs write one text** for a document exactly if no zero of it is negative and no
    string of it has a lone surrogate. -/
theorem jsJSON_eq_stringify_iff (hu : ∀ s, ∀ u ∈ units s, u < 0x10000) {d : Document σ}
    (hf : Finite d) (hw : ∀ n ∈ numbers d, n.Whole) :
    jsJSON (map (fun s => toText (units s)) id d) = write (fun s => quoteUnits (units s)) Number.text d ↔
      (∀ s ∈ strings d, WellFormedUnits (units s)) ∧ ∀ n ∈ numbers d, n ≠ Number.negativeZero := by
  have hgo : jsJSON (map (fun s => toText (units s)) id d) =
      write (fun s => quoteText (toText (units s))) goNumeral d := by
    rw [jsJSON_eq (finite_map hf)]
    exact write_map (fun _ _ => rfl) fun _ _ => rfl
  rw [hgo]
  constructor
  · intro h
    -- both are read back
    have hread : parse (write (fun s => quoteText (toText (units s))) goNumeral d) =
        some (map (fun s => utf16Units (toText (units s))) id d) :=
      parse_write hf ⟨fun s _ r => parseQuoted_quoteUnits utf16Units_lt r,
        fun n hn r hr => parseNumber_goNumeral (hw n hn) hr⟩
    have hread' : parse (write (fun s => quoteUnits (units s)) Number.text d) =
        some (map units Number.unsignedZero d) :=
      parse_write hf ⟨fun s _ r => parseQuoted_quoteUnits (hu s) r,
        fun n hn r hr => parseNumber_text (hw n hn) hr⟩
    rw [h, hread', Option.some.injEq] at hread
    obtain ⟨hs, hn⟩ := map_eq_map hread
    refine ⟨fun s hm => (hs s hm).symm, fun n hm hzero => ?_⟩
    have hsame := hn n hm
    rw [hzero] at hsame
    exact absurd hsame (by decide)
  · rintro ⟨hs, hn⟩
    have hone : write (fun s => quoteUnits (units s)) Number.text (map id id d) =
        write (fun s => quoteText (toText (units s))) goNumeral d := by
      refine write_map (fun s hm => ?_) fun n hm => goNumeral_eq (hn n hm)
      rw [quoteText, (hs s hm : utf16Units (toText (units s)) = units s)]
      rfl
    rw [← hone, map_eq_self (f := id) (g := id) (fun _ _ => rfl) fun _ _ => rfl]

end

end Document

end Echolet
