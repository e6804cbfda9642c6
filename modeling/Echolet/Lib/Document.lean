/-
  JSON documents as a program holds them and their texts.

  Strings are lists of UTF-16 units, which `codePoints` reads, or texts; numbers are doubles.

  * `Document.write` writes a document without spaces, its strings and numbers as it is told;
    `stringify` is `JSON.stringify`;
  * `parse` reads a text by the JSON grammar, strings as UTF-16 units;
  * `parse_write`: what was written is read back, up to what writing leaves of the strings and
    the numbers;
  * `parse_lt`: whatever is read, its strings are made of UTF-16 units.
-/
import Echolet.Lib.Number

namespace Echolet

/-! ## UTF-16 -/

def isHighSurrogate (u : ℕ) : Bool := decide (0xd800 ≤ u ∧ u < 0xdc00)

def isLowSurrogate (u : ℕ) : Bool := decide (0xdc00 ≤ u ∧ u < 0xe000)

def isSurrogate (u : ℕ) : Bool := decide (0xd800 ≤ u ∧ u < 0xe000)

/-- The code points of UTF-16 units; a surrogate without its other half stands for itself. -/
def codePoints : List ℕ → List ℕ
  | [] => []
  | [u] => [u]
  | u :: v :: us =>
    if isHighSurrogate u = true ∧ isLowSurrogate v = true then
      (0x10000 + (u - 0xd800) * 0x400 + (v - 0xdc00)) :: codePoints us
    else u :: codePoints (v :: us)

/-- The text of UTF-16 units, with U+FFFD for a lone surrogate. -/
def toText (us : List ℕ) : Text :=
  (codePoints us).map fun n => if isSurrogate n = true then '\uFFFD' else Char.ofNat n

/-- The UTF-16 units of a code point. -/
def unitsOf (n : ℕ) : List ℕ :=
  if n < 0x10000 then [n] else [0xd800 + (n - 0x10000) / 0x400, 0xdc00 + (n - 0x10000) % 0x400]

theorem utf16Units_eq (t : Text) : utf16Units t = (t.map Char.toNat).flatMap unitsOf := by
  rw [List.flatMap_map]; rfl

theorem utf16Units_lt {t : Text} : ∀ u ∈ utf16Units t, u < 0x10000 := by
  intro u hu
  obtain ⟨c, -, hc⟩ := List.mem_flatMap.1 hu
  have hv : c.toNat < 0xd800 ∨ 0xdfff < c.toNat ∧ c.toNat < 0x110000 := c.valid
  split_ifs at hc with hlow
  · rw [List.mem_singleton] at hc
    omega
  · simp only [List.mem_cons, List.not_mem_nil, or_false] at hc
    omega

theorem Char.not_surrogate (c : Char) : isSurrogate c.toNat = false := by
  have hv : c.toNat < 0xd800 ∨ 0xdfff < c.toNat ∧ c.toNat < 0x110000 := c.valid
  rw [isSurrogate, decide_eq_false_iff_not]
  omega

theorem codePoints_cons {u : ℕ} (h : isHighSurrogate u = false) (us : List ℕ) :
    codePoints (u :: us) = u :: codePoints us := by
  cases us with
  | nil => rfl
  | cons v us =>
    rw [codePoints, h]
    exact if_neg fun hb => Bool.false_ne_true hb.1

/-- A character is read off its units. -/
theorem codePoints_unitsOf {n : ℕ} (h : isSurrogate n = false) (hn : n < 0x110000) (us : List ℕ) :
    codePoints (unitsOf n ++ us) = n :: codePoints us := by
  rw [isSurrogate, decide_eq_false_iff_not] at h
  unfold unitsOf
  split_ifs with hlow
  · refine codePoints_cons ?_ us
    rw [isHighSurrogate, decide_eq_false_iff_not]
    omega
  · have hpair : isHighSurrogate (0xd800 + (n - 0x10000) / 0x400) = true ∧
        isLowSurrogate (0xdc00 + (n - 0x10000) % 0x400) = true := by
      simp only [isHighSurrogate, isLowSurrogate, decide_eq_true_eq]
      omega
    have hn : 0x10000 + (0xd800 + (n - 0x10000) / 0x400 - 0xd800) * 0x400 +
        (0xdc00 + (n - 0x10000) % 0x400 - 0xdc00) = n := by omega
    rw [List.cons_append, List.cons_append, List.nil_append, codePoints, if_pos hpair, hn]

theorem codePoints_utf16Units (t : Text) : codePoints (utf16Units t) = t.map Char.toNat := by
  induction t with
  | nil => rfl
  | cons c t ih =>
    have hn : c.toNat < 0x110000 := by
      have hv : c.toNat < 0xd800 ∨ 0xdfff < c.toNat ∧ c.toNat < 0x110000 := c.valid
      omega
    rw [utf16Units_eq] at ih ⊢
    rw [List.map_cons, List.flatMap_cons, codePoints_unitsOf (Char.not_surrogate c) hn, ih]

@[simp] theorem toText_utf16Units (t : Text) : toText (utf16Units t) = t := by
  rw [toText, codePoints_utf16Units, List.map_map]
  refine (List.map_congr_left fun c _ => ?_).trans (List.map_id t)
  rw [Function.comp, Char.not_surrogate, if_neg Bool.false_ne_true]
  exact Char.ofNat_toNat c

/-- Units are the units of their code points. -/
theorem flatMap_codePoints {us : List ℕ} (h : ∀ u ∈ us, u < 0x10000) :
    (codePoints us).flatMap unitsOf = us := by
  induction us using codePoints.induct with
  | case1 => rfl
  | case2 u =>
    have hu := h u (by simp)
    simp [codePoints, unitsOf, hu]
  | case3 u v us hb ih =>
    rw [codePoints, if_pos hb, List.flatMap_cons, ih fun w hw => h w (by simp [hw])]
    simp only [isHighSurrogate, isLowSurrogate, decide_eq_true_eq] at hb
    have hhigh : 0xd800 + (0x10000 + (u - 0xd800) * 0x400 + (v - 0xdc00) - 0x10000) / 0x400 = u := by
      omega
    have hlow : 0xdc00 + (0x10000 + (u - 0xd800) * 0x400 + (v - 0xdc00) - 0x10000) % 0x400 = v := by
      omega
    rw [unitsOf, if_neg (by omega), hhigh, hlow]
    rfl
  | case4 u v us hb ih =>
    have hu := h u (by simp)
    rw [codePoints, if_neg hb, List.flatMap_cons, ih fun w hw => h w (List.mem_cons_of_mem u hw),
      unitsOf, if_pos hu]
    rfl

theorem codePoints_lt {us : List ℕ} (h : ∀ u ∈ us, u < 0x10000) :
    ∀ n ∈ codePoints us, n < 0x110000 := by
  induction us using codePoints.induct with
  | case1 => simp [codePoints]
  | case2 u =>
    have hu := h u (by simp)
    simp only [codePoints, List.mem_singleton, forall_eq]
    omega
  | case3 u v us hb ih =>
    rw [codePoints, if_pos hb]
    simp only [isHighSurrogate, isLowSurrogate, decide_eq_true_eq] at hb
    intro n hn
    rw [List.mem_cons] at hn
    rcases hn with hn | hn
    · omega
    · exact ih (fun w hw => h w (by simp [hw])) n hn
  | case4 u v us hb ih =>
    rw [codePoints, if_neg hb]
    intro n hn
    rcases List.mem_cons.1 hn with rfl | hn
    · have hu := h n (by simp)
      omega
    · exact ih (fun w hw => h w (List.mem_cons_of_mem u hw)) n hn

/-- Code points that are no lone surrogates make a text. -/
theorem utf16Units_toText {us : List ℕ} (h : ∀ u ∈ us, u < 0x10000)
    (hs : ∀ n ∈ codePoints us, isSurrogate n = false) : utf16Units (toText us) = us := by
  have hmap : (toText us).map Char.toNat = codePoints us := by
    rw [toText, List.map_map]
    refine (List.map_congr_left fun n hn => ?_).trans (List.map_id _)
    have hns := hs n hn
    have hnl := codePoints_lt h n hn
    rw [Function.comp, hns, if_neg Bool.false_ne_true]
    rw [isSurrogate, decide_eq_false_iff_not] at hns
    have hvalid : n.isValidChar := by
      show n < 0xd800 ∨ 0xdfff < n ∧ n < 0x110000
      omega
    rw [Char.ofNat, dif_pos hvalid]
    rfl
  rw [utf16Units_eq, hmap, flatMap_codePoints h]

/-! ## Documents -/

/-- A document with strings of one kind.  A numeral above every double is read as `infinite`. -/
inductive Document (σ : Type) where
  | null
  | bool (b : Bool)
  | number (n : Number)
  | infinite (negative : Bool)
  | str (s : σ)
  | arr (xs : List (Document σ))
  | obj (ms : List (σ × Document σ))

namespace Document

section
variable {σ τ : Type}

mutual
/-- The same document with other strings and numbers. -/
def map (f : σ → τ) (g : Number → Number) : Document σ → Document τ
  | null => null
  | bool b => bool b
  | number n => number (g n)
  | infinite b => infinite b
  | str s => str (f s)
  | arr xs => arr (mapElems f g xs)
  | obj ms => obj (mapMembers f g ms)

def mapElems (f : σ → τ) (g : Number → Number) : List (Document σ) → List (Document τ)
  | [] => []
  | x :: xs => map f g x :: mapElems f g xs

def mapMembers (f : σ → τ) (g : Number → Number) :
    List (σ × Document σ) → List (τ × Document τ)
  | [] => []
  | (k, x) :: ms => (f k, map f g x) :: mapMembers f g ms
end

mutual
/-- The strings of a document, the names of members included. -/
def strings : Document σ → List σ
  | str s => [s]
  | arr xs => stringsOfElems xs
  | obj ms => stringsOfMembers ms
  | _ => []

def stringsOfElems : List (Document σ) → List σ
  | [] => []
  | x :: xs => strings x ++ stringsOfElems xs

def stringsOfMembers : List (σ × Document σ) → List σ
  | [] => []
  | (k, x) :: ms => k :: strings x ++ stringsOfMembers ms
end

mutual
def numbers : Document σ → List Number
  | number n => [n]
  | arr xs => numbersOfElems xs
  | obj ms => numbersOfMembers ms
  | _ => []

def numbersOfElems : List (Document σ) → List Number
  | [] => []
  | x :: xs => numbers x ++ numbersOfElems xs

def numbersOfMembers : List (σ × Document σ) → List Number
  | [] => []
  | (_, x) :: ms => numbers x ++ numbersOfMembers ms
end

mutual
/-- No number is infinite. -/
def Finite : Document σ → Prop
  | infinite _ => False
  | arr xs => FiniteElems xs
  | obj ms => FiniteMembers ms
  | _ => True

def FiniteElems : List (Document σ) → Prop
  | [] => True
  | x :: xs => Finite x ∧ FiniteElems xs

def FiniteMembers : List (σ × Document σ) → Prop
  | [] => True
  | (_, x) :: ms => Finite x ∧ FiniteMembers ms
end

/-! ## Writing -/

section
variable (quote : σ → Text) (numeral : Number → Text)

mutual
/-- The text of a document; an infinite number has none. -/
def write : Document σ → Text
  | null => ['n', 'u', 'l', 'l']
  | bool true => ['t', 'r', 'u', 'e']
  | bool false => ['f', 'a', 'l', 's', 'e']
  | number n => numeral n
  | infinite _ => ['n', 'u', 'l', 'l']
  | str s => quote s
  | arr [] => ['[', ']']
  | arr (x :: xs) => '[' :: write x ++ writeElems xs
  | obj [] => ['{', '}']
  | obj ((k, x) :: ms) => '{' :: quote k ++ ':' :: write x ++ writeMembers ms

/-- The rest of an array. -/
def writeElems : List (Document σ) → Text
  | [] => [']']
  | x :: xs => ',' :: write x ++ writeElems xs

/-- The rest of an object. -/
def writeMembers : List (σ × Document σ) → Text
  | [] => ['}']
  | (k, x) :: ms => ',' :: quote k ++ ':' :: write x ++ writeMembers ms
end

end

end

/-- What a code point of a string becomes: `QuoteJSONString`. -/
def escapePoint (n : ℕ) : Text :=
  if n = 0x22 then ['\\', '"'] else if n = 0x5c then ['\\', '\\']
  else if n = 8 then ['\\', 'b'] else if n = 9 then ['\\', 't']
  else if n = 10 then ['\\', 'n'] else if n = 12 then ['\\', 'f']
  else if n = 13 then ['\\', 'r']
  else if n < 0x20 ∨ isSurrogate n = true then '\\' :: 'u' :: Json.hex4 n
  else [Char.ofNat n]

def quoteUnits (us : List ℕ) : Text := '"' :: (codePoints us).flatMap escapePoint ++ ['"']

/-- `JSON.stringify`. -/
def stringify : Document (List ℕ) → Text := write quoteUnits Number.text

/-! ## Reading -/

def isSpace (c : Char) : Bool := decide (c ∈ [' ', '\t', '\n', '\r'])

def skipSpace (s : Text) : Text := s.dropWhile isSpace

def hexValue (c : Char) : Option ℕ :=
  if '0' ≤ c ∧ c ≤ '9' then some (c.toNat - 48)
  else if 'a' ≤ c ∧ c ≤ 'f' then some (c.toNat - 87)
  else if 'A' ≤ c ∧ c ≤ 'F' then some (c.toNat - 55)
  else none

/-- The unit of a `\u` escape. -/
def hexUnit (a b c d : Char) : Option ℕ := do
  let a ← hexValue a
  let b ← hexValue b
  let c ← hexValue c
  let d ← hexValue d
  return a * 4096 + b * 256 + c * 16 + d

/-- The unit of the other escapes. -/
def escapedUnit (c : Char) : Option ℕ :=
  if c = '"' then some 0x22 else if c = '\\' then some 0x5c else if c = '/' then some 0x2f
  else if c = 'b' then some 8 else if c = 'f' then some 12 else if c = 'n' then some 10
  else if c = 'r' then some 13 else if c = 't' then some 9
  else none

/-- The units of a string, behind its opening quote, and what follows the closing one. -/
def parseString : Text → Option (List ℕ × Text)
  | [] => none
  | c :: s =>
    if c = '"' then some ([], s)
    else if c = '\\' then
      match s with
      | [] => none
      | e :: s =>
        if e = 'u' then
          match s with
          | a :: b :: c :: d :: s => do
            let u ← hexUnit a b c d
            let (us, r) ← parseString s
            return (u :: us, r)
          | _ => none
        else do
          let u ← escapedUnit e
          let (us, r) ← parseString s
          return (u :: us, r)
    else if c.toNat < 0x20 then none
    else do
      let (us, r) ← parseString s
      return (unitsOf c.toNat ++ us, r)

def parseQuoted : Text → Option (List ℕ × Text)
  | '"' :: s => parseString s
  | _ => none

/-- The digits behind a point, if there is one. -/
def parseFraction : Text → Option (Text × Text)
  | '.' :: s =>
    let digits := s.takeWhile Char.isDigit
    if digits = [] then none else some (digits, s.dropWhile Char.isDigit)
  | s => some ([], s)

/-- The power of ten of a numeral. -/
def parseExponent : Text → Option (ℤ × Text)
  | [] => some (0, [])
  | c :: s =>
    if c = 'e' ∨ c = 'E' then
      let negative := s.head? = some '-'
      let s := if s.head? = some '-' ∨ s.head? = some '+' then s.tail else s
      let digits := s.takeWhile Char.isDigit
      if digits = [] then none
      else some (if negative then -(value digits : ℤ) else value digits,
        s.dropWhile Char.isDigit)
    else some (0, c :: s)

/-- A numeral, rounded to a double. -/
def parseNumber (s : Text) : Option (Document (List ℕ) × Text) := do
  let negative : Bool := s.head? = some '-'
  let s := if s.head? = some '-' then s.tail else s
  let whole := s.takeWhile Char.isDigit
  if whole = [] ∨ whole.head? = some '0' ∧ whole ≠ ['0'] then none
  else
    let (fraction, s) ← parseFraction (s.dropWhile Char.isDigit)
    let (exponent, s) ← parseExponent s
    match Number.round (Number.scale10 (value (whole ++ fraction)) (exponent - fraction.length)) with
    | some magnitude => return (.number ⟨negative, magnitude⟩, s)
    | none => return (.infinite negative, s)

/-- The name of a member with its colon. -/
def parseKey (s : Text) : Option (List ℕ × Text) := do
  let (k, s) ← parseQuoted (skipSpace s)
  match skipSpace s with
  | ':' :: s => return (k, s)
  | _ => none

/-- What stands behind the first letter of a literal. -/
def literal (rest : Text) (d : Document (List ℕ)) (s : Text) : Option (Document (List ℕ) × Text) :=
  if rest.isPrefixOf s = true then some (d, s.drop rest.length) else none

mutual
/-- The value a text begins with, in so many steps. -/
def parseValue : ℕ → Text → Option (Document (List ℕ) × Text)
  | 0, _ => none
  | n + 1, s =>
    match skipSpace s with
    | [] => none
    | c :: s =>
      if c = '{' then
        if (skipSpace s).head? = some '}' then some (obj [], (skipSpace s).tail)
        else do
          let (k, s) ← parseKey s
          let (x, s) ← parseValue n s
          let (ms, s) ← parseMembers n s
          return (obj ((k, x) :: ms), s)
      else if c = '[' then
        if (skipSpace s).head? = some ']' then some (arr [], (skipSpace s).tail)
        else do
          let (x, s) ← parseValue n s
          let (xs, s) ← parseElems n s
          return (arr (x :: xs), s)
      else if c = '"' then (parseString s).map fun (us, r) => (str us, r)
      else if c = 't' then literal ['r', 'u', 'e'] (bool true) s
      else if c = 'f' then literal ['a', 'l', 's', 'e'] (bool false) s
      else if c = 'n' then literal ['u', 'l', 'l'] null s
      else parseNumber (c :: s)

def parseElems : ℕ → Text → Option (List (Document (List ℕ)) × Text)
  | 0, _ => none
  | n + 1, s =>
    match skipSpace s with
    | [] => none
    | c :: s =>
      if c = ']' then some ([], s)
      else if c = ',' then do
        let (x, s) ← parseValue n s
        let (xs, s) ← parseElems n s
        return (x :: xs, s)
      else none

def parseMembers : ℕ → Text → Option (List (List ℕ × Document (List ℕ)) × Text)
  | 0, _ => none
  | n + 1, s =>
    match skipSpace s with
    | [] => none
    | c :: s =>
      if c = '}' then some ([], s)
      else if c = ',' then do
        let (k, s) ← parseKey s
        let (x, s) ← parseValue n s
        let (ms, s) ← parseMembers n s
        return ((k, x) :: ms, s)
      else none
end

/-- The document of a whole text.  Every step takes a character, so there are enough of them. -/
def parse (s : Text) : Option (Document (List ℕ)) :=
  match parseValue s.length s with
  | some (d, r) => if skipSpace r = [] then some d else none
  | none => none

/-! ## Round trip -/

theorem hexValue_digitChar {d : ℕ} (h : d < 16) : hexValue (Nat.digitChar d) = some d := by
  have hall : ∀ d < 16, hexValue (Nat.digitChar d) = some d := by decide
  exact hall d h

theorem parseString_short {e : Char} {u : ℕ} (he : escapedUnit e = some u) (hne : e ≠ 'u')
    (hu : u < 0x10000) (r : Text) :
    parseString ('\\' :: e :: r) = (parseString r).map fun p => (unitsOf u ++ p.1, p.2) := by
  rw [parseString.eq_def]
  simp only [if_true, if_neg hne, he, Option.bind_eq_bind, Option.bind_some, unitsOf, if_pos hu]
  cases parseString r <;> rfl

theorem parseString_plain {c : Char} (hq : c ≠ '"') (hb : c ≠ '\\') (hc : ¬ c.toNat < 0x20)
    (r : Text) :
    parseString (c :: r) = (parseString r).map fun p => (unitsOf c.toNat ++ p.1, p.2) := by
  rw [parseString.eq_def]
  simp only [if_neg hq, if_neg hb, if_neg hc]
  cases parseString r <;> rfl

theorem parseString_hex4 {n : ℕ} (h : n < 0x10000) (r : Text) :
    parseString ('\\' :: 'u' :: Json.hex4 n ++ r) =
      (parseString r).map fun p => (unitsOf n ++ p.1, p.2) := by
  have hhex : hexUnit (Nat.digitChar (n / 4096 % 16)) (Nat.digitChar (n / 256 % 16))
      (Nat.digitChar (n / 16 % 16)) (Nat.digitChar (n % 16)) = some n := by
    simp only [hexUnit, hexValue_digitChar (Nat.mod_lt _ (show 0 < 16 by decide)),
      Option.bind_eq_bind, Option.bind_some, Option.pure_def, Option.some.injEq]
    omega
  rw [List.cons_append, List.cons_append, Json.hex4, parseString.eq_def]
  simp only [List.cons_append, List.nil_append, if_true, hhex,
    Option.bind_eq_bind, Option.bind_some, unitsOf, if_pos h]
  cases parseString r <;> rfl

/-- A code point is read off what it becomes in a string. -/
theorem parseString_escapePoint {n : ℕ} (h : n < 0x110000) (r : Text) :
    parseString (escapePoint n ++ r) = (parseString r).map fun p => (unitsOf n ++ p.1, p.2) := by
  unfold escapePoint
  split_ifs with h1 h2 h3 h4 h5 h6 h7 h8
  · subst h1; exact parseString_short rfl (by decide) (by decide) r
  · subst h2; exact parseString_short rfl (by decide) (by decide) r
  · subst h3; exact parseString_short rfl (by decide) (by decide) r
  · subst h4; exact parseString_short rfl (by decide) (by decide) r
  · subst h5; exact parseString_short rfl (by decide) (by decide) r
  · subst h6; exact parseString_short rfl (by decide) (by decide) r
  · subst h7; exact parseString_short rfl (by decide) (by decide) r
  · refine parseString_hex4 ?_ r
    simp only [isSurrogate, decide_eq_true_eq] at h8
    omega
  · rw [not_or, Bool.not_eq_true] at h8
    have hvalid : n.isValidChar := by
      have hs := h8.2
      rw [isSurrogate, decide_eq_false_iff_not] at hs
      show n < 0xd800 ∨ 0xdfff < n ∧ n < 0x110000
      omega
    have hn : (Char.ofNat n).toNat = n := by
      rw [Char.ofNat, dif_pos hvalid]; rfl
    have hne : ∀ c : Char, n ≠ c.toNat → Char.ofNat n ≠ c := by
      rintro c hc rfl
      exact hc hn.symm
    have hp := parseString_plain (hne '"' h1) (hne '\\' h2) (by rw [hn]; exact h8.1) r
    rw [hn] at hp
    exact hp

theorem parseString_escapePoints (r : Text) : ∀ {ns : List ℕ}, (∀ n ∈ ns, n < 0x110000) →
    parseString (ns.flatMap escapePoint ++ '"' :: r) = some (ns.flatMap unitsOf, r)
  | [], _ => by
    rw [List.flatMap_nil, List.nil_append, parseString.eq_def]
    simp only [if_true, List.flatMap_nil]
  | n :: ns, h => by
    rw [List.flatMap_cons, List.append_assoc, parseString_escapePoint (h n (by simp)),
      parseString_escapePoints r fun m hm => h m (List.mem_cons_of_mem n hm), Option.map_some,
      List.flatMap_cons]

/-- **The units of a string are read back.** -/
theorem parseQuoted_quoteUnits {us : List ℕ} (h : ∀ u ∈ us, u < 0x10000) (r : Text) :
    parseQuoted (quoteUnits us ++ r) = some (us, r) := by
  have hp := parseString_escapePoints r (codePoints_lt h)
  rw [flatMap_codePoints h] at hp
  simp only [quoteUnits, parseQuoted, List.cons_append, List.append_assoc, List.nil_append]
  exact hp

/-- What may follow a value. -/
def Follow (r : Text) : Prop := ∀ c s, r = c :: s → c = ',' ∨ c = ']' ∨ c = '}'

theorem follow_nil : Follow [] := fun _ _ h => by cases h

theorem follow_cons {c : Char} (h : c = ',' ∨ c = ']' ∨ c = '}') (s : Text) : Follow (c :: s) := by
  intro c' s' he
  cases he
  exact h

/-- The digits of a numeral are all that is taken. -/
theorem span_digits {digits r : Text} (hd : ∀ c ∈ digits, c.isDigit = true) (hr : Follow r) :
    (digits ++ r).takeWhile Char.isDigit = digits ∧ (digits ++ r).dropWhile Char.isDigit = r := by
  have hnone : r.takeWhile Char.isDigit = [] ∧ r.dropWhile Char.isDigit = r := by
    cases r with
    | nil => exact ⟨rfl, rfl⟩
    | cons c r =>
      have hc : c.isDigit = false := by
        rcases hr c r rfl with rfl | rfl | rfl <;> rfl
      simp [hc]
  rw [List.takeWhile_append_of_pos hd, List.dropWhile_append_of_pos hd, hnone.1, hnone.2,
    List.append_nil]
  exact ⟨rfl, rfl⟩

/-- The rest of a number after its sign. -/
theorem parseNumber_decimal {m : ℕ} (hm : m ≤ 2 ^ 53) {r : Text} (hr : Follow r) :
    parseNumber (decimal m ++ r) = some (.number ⟨false, m⟩, r) ∧
      parseNumber ('-' :: decimal m ++ r) = some (.number ⟨true, m⟩, r) := by
  have hdig : ∀ c ∈ decimal m, c.isDigit = true := fun c hc => isDigit_of_mem_decimal hc
  obtain ⟨htake, hdrop⟩ := span_digits hdig hr
  have hwhole : ¬ (decimal m = [] ∨ (decimal m).head? = some '0' ∧ decimal m ≠ ['0']) := by
    rintro (he | ⟨hh, hne⟩)
    · exact decimal_ne_nil m he
    · exact hne (decimal_head hh)
  have hfrac : parseFraction r = some ([], r) := by
    cases r with
    | nil => rfl
    | cons c r => rcases hr c r rfl with rfl | rfl | rfl <;> rfl
  have hexp : parseExponent r = some (0, r) := by
    cases r with
    | nil => rfl
    | cons c r => rcases hr c r rfl with rfl | rfl | rfl <;> rfl
  have hval : value (decimal m ++ []) = m := by
    rw [List.append_nil]
    exact Nat.ofDigitChars_ten_toDigits
  have hround : Number.round (Number.scale10 (m : ℚ≥0) 0) = some (m : ℚ≥0) := by
    rw [Number.scale10, if_pos le_rfl, Int.toNat_zero, pow_zero, mul_one]
    exact Number.round_natCast hm
  have hhead : (decimal m ++ r).head? ≠ some '-' := by
    cases hd : decimal m with
    | nil => exact absurd hd (decimal_ne_nil m)
    | cons c t =>
      intro he
      cases he
      exact absurd (hdig '-' (by rw [hd]; simp)) (by decide)
  constructor
  · simp only [parseNumber, hhead, if_false, htake, hdrop, if_neg hwhole, hfrac, hexp, hval,
      Option.bind_eq_bind, Option.bind_some, List.length_nil, Nat.cast_zero, sub_zero, hround,
      Option.pure_def, decide_false]
  · simp only [parseNumber, List.cons_append, List.head?_cons, List.tail_cons, if_true, htake,
      hdrop, if_neg hwhole, hfrac, hexp, hval, Option.bind_eq_bind, Option.bind_some,
      List.length_nil, Nat.cast_zero, sub_zero, hround, Option.pure_def, decide_true]

theorem parseNumber_head {s : Text} {p : Document (List ℕ) × Text} (h : parseNumber s = some p) :
    ∃ c t, s = c :: t ∧ (c = '-' ∨ c.isDigit = true) := by
  cases s with
  | nil => cases h
  | cons c t =>
    refine ⟨c, t, rfl, ?_⟩
    by_contra hn
    rw [not_or, Bool.not_eq_true] at hn
    have hhead : (c :: t).head? ≠ some '-' := fun he => hn.1 (Option.some.inj he)
    simp only [parseNumber, hhead, if_false, List.takeWhile_cons, hn.2, Bool.false_eq_true,
      true_or, if_true] at h
    cases h

theorem parseQuoted_head {s : Text} {p : List ℕ × Text} (h : parseQuoted s = some p) :
    ∃ t, s = '"' :: t ∧ parseString t = some p := by
  unfold parseQuoted at h
  split at h
  next t => exact ⟨t, rfl, h⟩
  next => cases h

theorem skipSpace_cons {c : Char} (h : isSpace c = false) (s : Text) :
    skipSpace (c :: s) = c :: s := by
  rw [skipSpace, List.dropWhile_cons, h]
  exact if_neg Bool.false_ne_true

section
variable {σ : Type} {quote : σ → Text} {units : σ → List ℕ} {numeral : Number → Text}
  {sign : Number → Number}

/-- The strings and numbers of a document are read back from their texts. -/
structure Readable (quote : σ → Text) (units : σ → List ℕ) (numeral : Number → Text)
    (sign : Number → Number) (ss : List σ) (ns : List Number) : Prop where
  strings : ∀ s ∈ ss, ∀ r, parseQuoted (quote s ++ r) = some (units s, r)
  numbers : ∀ n ∈ ns, ∀ r, Follow r → parseNumber (numeral n ++ r) = some (.number (sign n), r)

theorem Readable.mono {ss ss' : List σ} {ns ns' : List Number}
    (h : Readable quote units numeral sign ss ns) (hs : ss' ⊆ ss) (hn : ns' ⊆ ns) :
    Readable quote units numeral sign ss' ns' :=
  ⟨fun s hm => h.strings s (hs hm), fun n hm => h.numbers n (hn hm)⟩

/-- The name of a member is read with its colon. -/
theorem parseKey_quote {k : σ} {r : Text}
    (h : ∀ r, parseQuoted (quote k ++ r) = some (units k, r)) :
    parseKey (quote k ++ ':' :: r) = some (units k, r) := by
  obtain ⟨t, ht, -⟩ := parseQuoted_head (h (':' :: r))
  have hskip : skipSpace (quote k ++ ':' :: r) = quote k ++ ':' :: r := by
    rw [ht]
    exact skipSpace_cons rfl t
  have hcolon : skipSpace (':' :: r) = ':' :: r := skipSpace_cons rfl r
  simp only [parseKey, hskip, h, Option.bind_eq_bind, Option.bind_some, hcolon, Option.pure_def]

theorem parseKey_head {s : Text} {p : List ℕ × Text} (h : parseKey s = some p) :
    (skipSpace s).head? = some '"' := by
  simp only [parseKey, Option.bind_eq_bind, Option.bind_eq_some_iff] at h
  obtain ⟨q, hq, -⟩ := h
  obtain ⟨t, ht, -⟩ := parseQuoted_head hq
  rw [ht]
  rfl

/-- No value begins with the end of an array. -/
theorem parseValue_head {n : ℕ} {s : Text} {p : Document (List ℕ) × Text}
    (h : parseValue n s = some p) : (skipSpace s).head? ≠ some ']' := by
  cases n with
  | zero => simp only [parseValue] at h; cases h
  | succ n =>
    intro he
    unfold parseValue at h
    cases hs : skipSpace s with
    | nil => rw [hs] at he; cases he
    | cons c t =>
      rw [hs] at he h
      cases he
      obtain ⟨c', t', hc, hd⟩ := parseNumber_head (p := p) (by simpa using h)
      cases hc
      rcases hd with hd | hd <;> exact absurd hd (by decide)

theorem parseValue_number {n : ℕ} {s : Text} {p : Document (List ℕ) × Text}
    (h : parseNumber s = some p) : parseValue (n + 1) s = some p := by
  obtain ⟨c, t, rfl, hc⟩ := parseNumber_head h
  have hne : ∀ d : Char, d ≠ '-' → d.isDigit = false → c ≠ d := by
    rintro d h1 h2 rfl
    rcases hc with hc | hc
    · exact h1 hc
    · rw [h2] at hc; cases hc
  have hspace : isSpace c = false := by
    rw [isSpace, decide_eq_false_iff_not]
    simp only [List.mem_cons, List.not_mem_nil, or_false]
    rintro (rfl | rfl | rfl | rfl) <;> rcases hc with hc | hc <;> exact absurd hc (by decide)
  rw [parseValue, skipSpace_cons hspace]
  simp only [if_neg (hne '{' (by decide) rfl), if_neg (hne '[' (by decide) rfl),
    if_neg (hne '"' (by decide) rfl), if_neg (hne 't' (by decide) rfl),
    if_neg (hne 'f' (by decide) rfl), if_neg (hne 'n' (by decide) rfl)]
  exact h

theorem follow_writeElems (xs : List (Document σ)) (r : Text) :
    Follow (writeElems quote numeral xs ++ r) := by
  cases xs with
  | nil => exact follow_cons (by decide) _
  | cons x xs => rw [writeElems]; exact follow_cons (by decide) _

theorem follow_writeMembers (ms : List (σ × Document σ)) (r : Text) :
    Follow (writeMembers quote numeral ms ++ r) := by
  cases ms with
  | nil => exact follow_cons (by decide) _
  | cons m ms => rw [writeMembers]; exact follow_cons (by decide) _

/-- Every value has a text. -/
theorem write_ne_nil {d : Document σ}
    (hd : Readable quote units numeral sign (strings d) (numbers d)) :
    write quote numeral d ≠ [] := by
  intro h
  cases d with
  | null => cases h
  | bool b => cases b <;> cases h
  | number n =>
    obtain ⟨c, t, he, -⟩ := parseNumber_head (hd.numbers n (by simp [numbers]) [] follow_nil)
    rw [List.append_nil] at he
    rw [write, he] at h
    cases h
  | infinite b => cases h
  | str s =>
    obtain ⟨t, he, -⟩ := parseQuoted_head (hd.strings s (by simp [strings]) [])
    rw [List.append_nil] at he
    rw [write, he] at h
    cases h
  | arr xs => cases xs <;> cases h
  | obj ms => cases ms <;> cases h

mutual
/-- A written value is read back, in as many steps as it has characters. -/
theorem parseValue_write : ∀ (d : Document σ) (n : ℕ) (r : Text), Finite d →
    Readable quote units numeral sign (strings d) (numbers d) →
    (write quote numeral d).length ≤ n → Follow r →
    parseValue n (write quote numeral d ++ r) = some (map units sign d, r)
  | d, 0, r, _, hd, hn, _ =>
    absurd (List.eq_nil_of_length_eq_zero (Nat.le_zero.1 hn)) (write_ne_nil hd)
  | .null, n + 1, r, _, _, _, _ => by
    simp [write, parseValue, skipSpace_cons, isSpace, literal, map]
  | .bool true, n + 1, r, _, _, _, _ => by
    simp [write, parseValue, skipSpace_cons, isSpace, literal, map]
  | .bool false, n + 1, r, _, _, _, _ => by
    simp [write, parseValue, skipSpace_cons, isSpace, literal, map]
  | .number m, n + 1, r, _, hd, _, hr => by
    rw [write, map]
    exact parseValue_number (hd.numbers m (by simp [numbers]) r hr)
  | .infinite b, n + 1, r, hf, _, _, _ => hf.elim
  | .str s, n + 1, r, _, hd, _, _ => by
    obtain ⟨t, ht, hp⟩ := parseQuoted_head (hd.strings s (by simp [strings]) r)
    rw [write, map, ht, parseValue, skipSpace_cons rfl]
    simp [hp]
  | .arr [], n + 1, r, _, _, _, _ => by
    simp [write, parseValue, skipSpace_cons, isSpace, map, mapElems]
  | .arr (x :: xs), n + 1, r, hf, hd, hn, _ => by
    simp only [write, List.length_cons, List.length_append] at hn
    have hx := parseValue_write x n (writeElems quote numeral xs ++ r) hf.1
      (hd.mono (by simp [strings, stringsOfElems]) (by simp [numbers, numbersOfElems]))
      (by omega) (follow_writeElems xs r)
    have hxs := parseElems_write xs n r hf.2
      (hd.mono (by simp [strings, stringsOfElems]) (by simp [numbers, numbersOfElems])) (by omega)
    rw [write]
    simp only [List.cons_append, List.append_assoc]
    rw [parseValue, skipSpace_cons rfl]
    simp only [Char.reduceEq, if_false, if_true, if_neg (parseValue_head hx), hx, hxs,
      Option.bind_eq_bind, Option.bind_some, Option.pure_def, map, mapElems]
  | .obj [], n + 1, r, _, _, _, _ => by
    simp [write, parseValue, skipSpace_cons, isSpace, map, mapMembers]
  | .obj ((k, x) :: ms), n + 1, r, hf, hd, hn, _ => by
    simp only [write, List.length_cons, List.length_append, List.cons_append] at hn
    have hk := parseKey_quote (r := write quote numeral x ++ (writeMembers quote numeral ms ++ r))
      (hd.strings k (by simp [strings, stringsOfMembers]))
    have hx := parseValue_write x n (writeMembers quote numeral ms ++ r) hf.1
      (hd.mono (by simp [strings, stringsOfMembers]) (by simp [numbers, numbersOfMembers]))
      (by omega) (follow_writeMembers ms r)
    have hms := parseMembers_write ms n r hf.2
      (hd.mono (by simp [strings, stringsOfMembers]) (by simp [numbers, numbersOfMembers]))
      (by omega)
    have hne : (skipSpace (quote k ++ ':' :: (write quote numeral x ++
        (writeMembers quote numeral ms ++ r)))).head? ≠ some '}' := by
      rw [parseKey_head hk]
      decide
    rw [write]
    simp only [List.cons_append, List.append_assoc]
    rw [parseValue, skipSpace_cons rfl]
    simp only [if_true, if_neg hne, hk, hx, hms, Option.bind_eq_bind, Option.bind_some,
      Option.pure_def, map, mapMembers]

theorem parseElems_write : ∀ (xs : List (Document σ)) (n : ℕ) (r : Text), FiniteElems xs →
    Readable quote units numeral sign (stringsOfElems xs) (numbersOfElems xs) →
    (writeElems quote numeral xs).length ≤ n →
    parseElems n (writeElems quote numeral xs ++ r) = some (mapElems units sign xs, r)
  | [], 0, r, _, _, hn => by simp [writeElems] at hn
  | _ :: _, 0, r, _, _, hn => by simp [writeElems] at hn
  | [], n + 1, r, _, _, _ => by
    simp [writeElems, parseElems, skipSpace_cons, isSpace, mapElems]
  | x :: xs, n + 1, r, hf, hd, hn => by
    simp only [writeElems, List.length_cons, List.length_append, List.cons_append] at hn
    have hx := parseValue_write x n (writeElems quote numeral xs ++ r) hf.1
      (hd.mono (by simp [stringsOfElems]) (by simp [numbersOfElems]))
      (by omega) (follow_writeElems xs r)
    have hxs := parseElems_write xs n r hf.2
      (hd.mono (by simp [stringsOfElems]) (by simp [numbersOfElems])) (by omega)
    rw [writeElems]
    simp only [List.cons_append, List.append_assoc]
    rw [parseElems, skipSpace_cons rfl]
    simp only [Char.reduceEq, if_false, if_true, hx, hxs, Option.bind_eq_bind, Option.bind_some,
      Option.pure_def, mapElems]

theorem parseMembers_write : ∀ (ms : List (σ × Document σ)) (n : ℕ) (r : Text), FiniteMembers ms →
    Readable quote units numeral sign (stringsOfMembers ms) (numbersOfMembers ms) →
    (writeMembers quote numeral ms).length ≤ n →
    parseMembers n (writeMembers quote numeral ms ++ r) = some (mapMembers units sign ms, r)
  | [], 0, r, _, _, hn => by simp [writeMembers] at hn
  | _ :: _, 0, r, _, _, hn => by simp [writeMembers] at hn
  | [], n + 1, r, _, _, _ => by
    simp [writeMembers, parseMembers, skipSpace_cons, isSpace, mapMembers]
  | (k, x) :: ms, n + 1, r, hf, hd, hn => by
    simp only [writeMembers, List.length_cons, List.length_append, List.cons_append] at hn
    have hk := parseKey_quote (r := write quote numeral x ++ (writeMembers quote numeral ms ++ r))
      (hd.strings k (by simp [stringsOfMembers]))
    have hx := parseValue_write x n (writeMembers quote numeral ms ++ r) hf.1
      (hd.mono (by simp [stringsOfMembers]) (by simp [numbersOfMembers]))
      (by omega) (follow_writeMembers ms r)
    have hms := parseMembers_write ms n r hf.2
      (hd.mono (by simp [stringsOfMembers]) (by simp [numbersOfMembers])) (by omega)
    rw [writeMembers]
    simp only [List.cons_append, List.append_assoc]
    rw [parseMembers, skipSpace_cons rfl]
    simp only [Char.reduceEq, if_false, if_true, hk, hx, hms, Option.bind_eq_bind,
      Option.bind_some, Option.pure_def, mapMembers]
end

/-- **What was written is read back**, up to what writing leaves of strings and numbers. -/
theorem parse_write {d : Document σ} (hf : Finite d)
    (hd : Readable quote units numeral sign (strings d) (numbers d)) :
    parse (write quote numeral d) = some (map units sign d) := by
  have h := parseValue_write d _ [] hf hd le_rfl follow_nil
  rw [List.append_nil] at h
  rw [parse, h]
  exact if_pos rfl

end

/-! ## The texts of `JSON.stringify` -/

section
variable {σ τ : Type} {f : σ → τ} {g : Number → Number}

mutual
theorem map_eq_self : ∀ {d : Document σ} {f : σ → σ}, (∀ s ∈ strings d, f s = s) →
    (∀ n ∈ numbers d, g n = n) → map f g d = d
  | .null, _, _, _ | .bool _, _, _, _ | .infinite _, _, _, _ => by rw [map]
  | .number n, _, _, hg => by rw [map, hg n (by simp [numbers])]
  | .str s, _, hs, _ => by rw [map, hs s (by simp [strings])]
  | .arr xs, _, hs, hg => by rw [map, mapElems_eq_self hs hg]
  | .obj ms, _, hs, hg => by rw [map, mapMembers_eq_self hs hg]

theorem mapElems_eq_self : ∀ {xs : List (Document σ)} {f : σ → σ},
    (∀ s ∈ stringsOfElems xs, f s = s) → (∀ n ∈ numbersOfElems xs, g n = n) →
    mapElems f g xs = xs
  | [], _, _, _ => by rw [mapElems]
  | x :: xs, _, hs, hg => by
    rw [mapElems, map_eq_self (fun s h => hs s (by simp [stringsOfElems, h]))
      (fun n h => hg n (by simp [numbersOfElems, h])),
      mapElems_eq_self (fun s h => hs s (by simp [stringsOfElems, h]))
      (fun n h => hg n (by simp [numbersOfElems, h]))]

theorem mapMembers_eq_self : ∀ {ms : List (σ × Document σ)} {f : σ → σ},
    (∀ s ∈ stringsOfMembers ms, f s = s) → (∀ n ∈ numbersOfMembers ms, g n = n) →
    mapMembers f g ms = ms
  | [], _, _, _ => by rw [mapMembers]
  | (k, x) :: ms, _, hs, hg => by
    rw [mapMembers, hs k (by simp [stringsOfMembers]),
      map_eq_self (fun s h => hs s (by simp [stringsOfMembers, h]))
      (fun n h => hg n (by simp [numbersOfMembers, h])),
      mapMembers_eq_self (fun s h => hs s (by simp [stringsOfMembers, h]))
      (fun n h => hg n (by simp [numbersOfMembers, h]))]
end

section
variable {quote : σ → Text} {quote' : τ → Text} {numeral numeral' : Number → Text}

mutual
/-- Writing a changed document in another way. -/
theorem write_map : ∀ {d : Document σ}, (∀ s ∈ strings d, quote' (f s) = quote s) →
    (∀ n ∈ numbers d, numeral' (g n) = numeral n) →
    write quote' numeral' (map f g d) = write quote numeral d
  | .null, _, _ | .infinite _, _, _ | .bool true, _, _ | .bool false, _, _ => by simp [map, write]
  | .number n, _, hg => by simp only [map, write, hg n (by simp [numbers])]
  | .str s, hs, _ => by simp only [map, write, hs s (by simp [strings])]
  | .arr [], _, _ => by simp only [map, mapElems, write]
  | .arr (x :: xs), hs, hg => by
    rw [map, mapElems, write, write, write_map (fun s h => hs s (by simp [strings, stringsOfElems, h]))
      (fun n h => hg n (by simp [numbers, numbersOfElems, h])),
      writeElems_map (fun s h => hs s (by simp [strings, stringsOfElems, h]))
      (fun n h => hg n (by simp [numbers, numbersOfElems, h]))]
  | .obj [], _, _ => by simp only [map, mapMembers, write]
  | .obj ((k, x) :: ms), hs, hg => by
    rw [map, mapMembers, write, write, hs k (by simp [strings, stringsOfMembers]),
      write_map (fun s h => hs s (by simp [strings, stringsOfMembers, h]))
      (fun n h => hg n (by simp [numbers, numbersOfMembers, h])),
      writeMembers_map (fun s h => hs s (by simp [strings, stringsOfMembers, h]))
      (fun n h => hg n (by simp [numbers, numbersOfMembers, h]))]

theorem writeElems_map : ∀ {xs : List (Document σ)}, (∀ s ∈ stringsOfElems xs, quote' (f s) = quote s) →
    (∀ n ∈ numbersOfElems xs, numeral' (g n) = numeral n) →
    writeElems quote' numeral' (mapElems f g xs) = writeElems quote numeral xs
  | [], _, _ => by simp only [mapElems, writeElems]
  | x :: xs, hs, hg => by
    rw [mapElems, writeElems, writeElems, write_map (fun s h => hs s (by simp [stringsOfElems, h]))
      (fun n h => hg n (by simp [numbersOfElems, h])),
      writeElems_map (fun s h => hs s (by simp [stringsOfElems, h]))
      (fun n h => hg n (by simp [numbersOfElems, h]))]

theorem writeMembers_map : ∀ {ms : List (σ × Document σ)},
    (∀ s ∈ stringsOfMembers ms, quote' (f s) = quote s) →
    (∀ n ∈ numbersOfMembers ms, numeral' (g n) = numeral n) →
    writeMembers quote' numeral' (mapMembers f g ms) = writeMembers quote numeral ms
  | [], _, _ => by simp only [mapMembers, writeMembers]
  | (k, x) :: ms, hs, hg => by
    rw [mapMembers, writeMembers, writeMembers, hs k (by simp [stringsOfMembers]),
      write_map (fun s h => hs s (by simp [stringsOfMembers, h]))
      (fun n h => hg n (by simp [numbersOfMembers, h])),
      writeMembers_map (fun s h => hs s (by simp [stringsOfMembers, h]))
      (fun n h => hg n (by simp [numbersOfMembers, h]))]
end

end

end

/-- Strings of UTF-16 units and whole numbers up to `2 ^ 53`. -/
structure Plain (ss : List (List ℕ)) (ns : List Number) : Prop where
  units : ∀ us ∈ ss, ∀ u ∈ us, u < 0x10000
  whole : ∀ n ∈ ns, n.Whole

/-- **`JSON.parse` undoes `JSON.stringify`**, up to the sign of zeros. -/
theorem parse_stringify {d : Document (List ℕ)} (hf : Finite d) (hd : Plain (strings d) (numbers d)) :
    parse (stringify d) = some (map id Number.unsignedZero d) := by
  refine parse_write hf ⟨fun us hs r => parseQuoted_quoteUnits (hd.units us hs) r, ?_⟩
  intro n hn r hr
  obtain ⟨m, hm, hnm⟩ := hd.whole n hn
  obtain ⟨negative, magnitude⟩ := n
  obtain rfl : magnitude = m := hnm
  have hp := parseNumber_decimal hm hr
  rw [Number.text, Number.signed, Number.magnitudeText_natCast hm]
  by_cases h : negative = true ∧ (m : ℚ≥0) ≠ 0
  · rw [if_pos h, hp.2, Number.unsignedZero, if_neg h.2, h.1]
  · rw [if_neg h, hp.1]
    by_cases h0 : (m : ℚ≥0) = 0
    · rw [Number.unsignedZero, if_pos h0, h0]
    · have hneg : negative = false := by
        cases negative with
        | false => rfl
        | true => exact absurd ⟨rfl, h0⟩ h
      rw [Number.unsignedZero, if_neg h0, hneg]

/-! ## What is read -/

theorem hexValue_lt {c : Char} {d : ℕ} (h : hexValue c = some d) : d < 16 := by
  unfold hexValue at h
  split_ifs at h with h₀ h₁ h₂
  · have hle : c.toNat ≤ 57 := h₀.2
    cases h
    omega
  · have hle : c.toNat ≤ 102 := h₁.2
    cases h
    omega
  · have hle : c.toNat ≤ 70 := h₂.2
    cases h
    omega

theorem hexUnit_lt {a b c d : Char} {u : ℕ} (h : hexUnit a b c d = some u) : u < 0x10000 := by
  simp only [hexUnit, Option.bind_eq_bind, Option.bind_eq_some_iff, Option.pure_def,
    Option.some.injEq] at h
  obtain ⟨a', ha, b', hb, c', hc, d', hd, rfl⟩ := h
  have ha := hexValue_lt ha
  have hb := hexValue_lt hb
  have hc := hexValue_lt hc
  have hd := hexValue_lt hd
  omega

theorem escapedUnit_lt {c : Char} {u : ℕ} (h : escapedUnit c = some u) : u < 0x10000 := by
  unfold escapedUnit at h
  split_ifs at h <;> cases h <;> decide

/-- A string is read as UTF-16 units. -/
theorem parseString_lt {s r : Text} {us : List ℕ} (h : parseString s = some (us, r)) :
    ∀ u ∈ us, u < 0x10000 := by
  induction s using parseString.induct generalizing us r with
  | case1 => cases h
  | case2 s =>
    unfold parseString at h
    cases h
    exact List.forall_mem_nil _
  | case3 => cases h
  | case4 a b c d s hne ih =>
    unfold parseString at h
    simp only [if_neg hne, if_true, Option.bind_eq_bind, Option.bind_eq_some_iff, Option.pure_def,
      Option.some.injEq, Prod.mk.injEq] at h
    obtain ⟨u, hu, ⟨us', r'⟩, hrest, rfl, -⟩ := h
    exact List.forall_mem_cons.2 ⟨hexUnit_lt hu, ih hrest⟩
  | case5 s hshort hne =>
    unfold parseString at h
    simp only [if_neg hne, if_true] at h
    cases h
  | case6 e s hplain hne ih =>
    unfold parseString at h
    simp only [if_neg hne, if_true, if_neg hplain, Option.bind_eq_bind, Option.bind_eq_some_iff,
      Option.pure_def, Option.some.injEq, Prod.mk.injEq] at h
    obtain ⟨u, hu, ⟨us', r'⟩, hrest, rfl, -⟩ := h
    exact List.forall_mem_cons.2 ⟨escapedUnit_lt hu, ih hrest⟩
  | case7 c s hquote hback hlow =>
    unfold parseString at h
    simp only [if_neg hquote, if_neg hback, if_pos hlow] at h
    cases h
  | case8 c s hquote hback hlow ih =>
    unfold parseString at h
    simp only [if_neg hquote, if_neg hback, if_neg hlow, Option.bind_eq_bind,
      Option.bind_eq_some_iff, Option.pure_def, Option.some.injEq, Prod.mk.injEq] at h
    obtain ⟨⟨us', r'⟩, hrest, rfl, -⟩ := h
    refine List.forall_mem_append.2 ⟨fun u hu => ?_, ih hrest⟩
    refine utf16Units_lt (t := [c]) u ?_
    rw [utf16Units_eq]
    exact List.mem_flatMap.2 ⟨c.toNat, List.mem_singleton_self _, hu⟩

theorem parseKey_lt {s r : Text} {k : List ℕ} (h : parseKey s = some (k, r)) :
    ∀ u ∈ k, u < 0x10000 := by
  simp only [parseKey, Option.bind_eq_bind, Option.bind_eq_some_iff] at h
  obtain ⟨⟨k', s'⟩, hk, h⟩ := h
  obtain ⟨t, -, ht⟩ := parseQuoted_head hk
  split at h
  · cases h
    exact parseString_lt ht
  · cases h

theorem parseNumber_strings {s r : Text} {d : Document (List ℕ)} (h : parseNumber s = some (d, r)) :
    strings d = [] := by
  simp only [parseNumber, Option.bind_eq_bind] at h
  split_ifs at h
  all_goals
    obtain ⟨⟨fraction, s₁⟩, -, h⟩ := Option.bind_eq_some_iff.1 h
    obtain ⟨⟨exponent, s₂⟩, -, h⟩ := Option.bind_eq_some_iff.1 h
    split at h <;> cases h <;> rfl

theorem literal_strings {rest s r : Text} {d d' : Document (List ℕ)}
    (h : literal rest d s = some (d', r)) : d' = d := by
  unfold literal at h
  split_ifs at h
  cases h
  rfl

/-- Every string of what is read, name or value, is made of UTF-16 units. -/
theorem parseValue_lt : ∀ n : ℕ,
    (∀ s d r, parseValue n s = some (d, r) → ∀ us ∈ strings d, ∀ u ∈ us, u < 0x10000) ∧
    (∀ s xs r, parseElems n s = some (xs, r) → ∀ us ∈ stringsOfElems xs, ∀ u ∈ us, u < 0x10000) ∧
    (∀ s ms r, parseMembers n s = some (ms, r) →
      ∀ us ∈ stringsOfMembers ms, ∀ u ∈ us, u < 0x10000) := by
  intro n
  induction n with
  | zero =>
    refine ⟨fun s d r h => ?_, fun s xs r h => ?_, fun s ms r h => ?_⟩
    · simp only [parseValue] at h
      cases h
    · simp only [parseElems] at h
      cases h
    · simp only [parseMembers] at h
      cases h
  | succ n ih =>
    obtain ⟨ihv, ihe, ihm⟩ := ih
    refine ⟨fun s d r h => ?_, fun s xs r h => ?_, fun s ms r h => ?_⟩
    · unfold parseValue at h
      split at h
      · cases h
      next c t _ =>
        split_ifs at h
        · cases h
          exact List.forall_mem_nil _
        · simp only [Option.bind_eq_bind, Option.bind_eq_some_iff, Option.pure_def,
            Option.some.injEq, Prod.mk.injEq] at h
          obtain ⟨⟨k, s₁⟩, hk, ⟨x, s₂⟩, hx, ⟨ms, s₃⟩, hms, rfl, -⟩ := h
          exact List.forall_mem_cons.2 ⟨parseKey_lt hk,
            List.forall_mem_append.2 ⟨ihv _ _ _ hx, ihm _ _ _ hms⟩⟩
        · cases h
          exact List.forall_mem_nil _
        · simp only [Option.bind_eq_bind, Option.bind_eq_some_iff, Option.pure_def,
            Option.some.injEq, Prod.mk.injEq] at h
          obtain ⟨⟨x, s₁⟩, hx, ⟨xs, s₂⟩, hxs, rfl, -⟩ := h
          exact List.forall_mem_append.2 ⟨ihv _ _ _ hx, ihe _ _ _ hxs⟩
        · obtain ⟨⟨us, r'⟩, hus, h⟩ := Option.map_eq_some_iff.1 h
          cases h
          exact List.forall_mem_singleton.2 (parseString_lt hus)
        · rw [literal_strings h]
          exact List.forall_mem_nil _
        · rw [literal_strings h]
          exact List.forall_mem_nil _
        · rw [literal_strings h]
          exact List.forall_mem_nil _
        · rw [parseNumber_strings h]
          exact List.forall_mem_nil _
    · unfold parseElems at h
      split at h
      · cases h
      next c t _ =>
        split_ifs at h
        · cases h
          exact List.forall_mem_nil _
        · simp only [Option.bind_eq_bind, Option.bind_eq_some_iff, Option.pure_def,
            Option.some.injEq, Prod.mk.injEq] at h
          obtain ⟨⟨x, s₁⟩, hx, ⟨xs, s₂⟩, hxs, rfl, -⟩ := h
          exact List.forall_mem_append.2 ⟨ihv _ _ _ hx, ihe _ _ _ hxs⟩
    · unfold parseMembers at h
      split at h
      · cases h
      next c t _ =>
        split_ifs at h
        · cases h
          exact List.forall_mem_nil _
        · simp only [Option.bind_eq_bind, Option.bind_eq_some_iff, Option.pure_def,
            Option.some.injEq, Prod.mk.injEq] at h
          obtain ⟨⟨k, s₁⟩, hk, ⟨x, s₂⟩, hx, ⟨ms, s₃⟩, hms, rfl, -⟩ := h
          exact List.forall_mem_cons.2 ⟨parseKey_lt hk,
            List.forall_mem_append.2 ⟨ihv _ _ _ hx, ihm _ _ _ hms⟩⟩

theorem parse_lt {s : Text} {d : Document (List ℕ)} (h : parse s = some d) :
    ∀ us ∈ strings d, ∀ u ∈ us, u < 0x10000 := by
  unfold parse at h
  split at h
  · next d' r hv =>
    split_ifs at h
    cases h
    exact (parseValue_lt _).1 _ _ _ hv
  · cases h

end Document

end Echolet
