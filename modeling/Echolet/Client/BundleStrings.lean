/-
  Strings of a bundle: the checks of the client and of the relay.

  The client looks at UTF-16 units, the relay at the text it has read, in which a lone surrogate
  is U+FFFD.

  * `encodedBytes_eq`: the client's arithmetic on the last characters of a base64 text is the
    relay's decoding of it;
  * `uuid_eq`: the UUIDs of the client are those of the relay, but the greatest.
-/
import Echolet.Client.BundleSchema

namespace Echolet

open Document

/-! ## Strings -/

theorem codePoints_ascii : ∀ {us : List ℕ}, (∀ u ∈ us, u < 128) → codePoints us = us
  | [], _ => rfl
  | u :: us, h => by
    rw [List.forall_mem_cons] at h
    have hhigh : isHighSurrogate u = false := by
      rw [isHighSurrogate, decide_eq_false_iff_not]
      omega
    rw [codePoints_cons hhigh, codePoints_ascii h.2]

/-- A unit of the text that stands for itself. -/
theorem toText_ascii {us : List ℕ} (h : ∀ u ∈ us, u < 128) : toText us = us.map Char.ofNat := by
  rw [toText, codePoints_ascii h]
  refine List.map_congr_left fun u hu => if_neg ?_
  rw [isSurrogate, decide_eq_true_eq]
  have hlt := h u hu
  omega

/-- A text without U+FFFD is the text of its own units only. -/
theorem eq_ofText {s : Utf16} (h : '\uFFFD' ∉ s.text) : s = .ofText s.text := by
  have hpoints : ∀ n ∈ codePoints s.units, isSurrogate n = false := by
    intro n hn
    by_contra hsurrogate
    refine h (List.mem_map.2 ⟨n, hn, if_pos ?_⟩)
    simpa using hsurrogate
  obtain ⟨units, hlt⟩ := s
  rw [Utf16.ofText, Utf16.mk.injEq]
  exact (utf16Units_toText hlt hpoints).symm

@[simp] theorem text_ofText (t : Text) : (Utf16.ofText t).text = t := toText_utf16Units t

theorem text_eq_iff {s : Utf16} {t : Text} (h : '\uFFFD' ∉ t) : s.text = t ↔ s = .ofText t := by
  constructor
  · rintro rfl
    exact eq_ofText h
  · rintro rfl
    exact text_ofText t

theorem toNat_ofNat {u : ℕ} (h : u < 128) : (Char.ofNat u).toNat = u := by
  have hvalid : u.isValidChar := Or.inl (by omega)
  rw [Char.ofNat, dif_pos hvalid]
  rfl

/-- The characters of a string are its units, if either are ASCII. -/
theorem forall_text {q : ℕ → Prop} (hq : ∀ n, q n → n < 128) {s : Utf16} :
    (∀ c ∈ s.text, q c.toNat) ↔ ∀ u ∈ s.units, q u := by
  constructor
  · intro h u hu
    have hfine : '\uFFFD' ∉ s.text := fun hm => absurd (hq _ (h _ hm)) (by decide)
    have hunits : s.units = utf16Units s.text := congrArg Utf16.units (eq_ofText hfine)
    rw [hunits, utf16Units] at hu
    obtain ⟨c, hc, hu⟩ := List.mem_flatMap.1 hu
    have hlt := hq _ (h c hc)
    rw [if_pos (by omega), List.mem_singleton] at hu
    exact hu ▸ h c hc
  · intro h c hc
    rw [Utf16.text, toText_ascii fun u hu => hq u (h u hu)] at hc
    obtain ⟨u, hu, rfl⟩ := List.mem_map.1 hc
    rw [toNat_ofNat (hq u (h u hu))]
    exact h u hu

/-- Go counts the units of the text it has read. -/
theorem utf16Length_text (s : Utf16) : utf16Length s.text = s.units.length := by
  have hchar : ∀ n < 0x110000, (if (if isSurrogate n = true then '\uFFFD' else Char.ofNat n).toNat <
      0x10000 then 1 else 2) = (unitsOf n).length := by
    intro n hn
    unfold unitsOf
    by_cases hs : isSurrogate n = true
    · rw [if_pos hs]
      rw [isSurrogate, decide_eq_true_eq] at hs
      rw [if_pos (by decide), if_pos (by omega)]
      rfl
    · rw [if_neg hs]
      rw [isSurrogate, decide_eq_true_eq] at hs
      have hvalid : n.isValidChar := by
        show n < 0xd800 ∨ 0xdfff < n ∧ n < 0x110000
        omega
      have hnat : (Char.ofNat n).toNat = n := by
        rw [Char.ofNat, dif_pos hvalid]
        rfl
      rw [hnat]
      split_ifs <;> rfl
  have hsum : utf16Length s.text = ((codePoints s.units).map fun n => (unitsOf n).length).sum := by
    rw [Utf16.text, toText, utf16Length, List.map_map]
    exact congrArg List.sum (List.map_congr_left fun n hn => hchar n (codePoints_lt s.units_lt n hn))
  rw [hsum, ← List.length_flatMap, flatMap_codePoints s.units_lt]

namespace SignalBundle

/-! ## Base64 -/

theorem alphabet_lt : ∀ u ∈ alphabet, u < 128 := by decide

/-- The alphabet of the client is that of the relay. -/
theorem base64Value_eq (c : Char) : base64Value c =
    if c.toNat ∈ alphabet then some (alphabet.idxOf c.toNat) else none := by
  have hascii : ∀ n < 128, base64Value (Char.ofNat n) =
      if n ∈ alphabet then some (alphabet.idxOf n) else none := by decide +kernel
  by_cases h : c.toNat < 128
  · have hc := hascii c.toNat h
    rwa [Char.ofNat_toNat] at hc
  · rw [if_neg fun hm => h (alphabet_lt _ hm)]
    have hle : ∀ d : Char, d.toNat < 128 → ¬ c ≤ d := fun d hd hcd => by
      have hcd : c.toNat ≤ d.toNat := hcd
      omega
    have hne : ∀ d : Char, d.toNat < 128 → c ≠ d := fun d hd hcd => h (hcd ▸ hd)
    rw [base64Value, if_neg fun hb => hle 'Z' (by decide) hb.2,
      if_neg fun hb => hle 'z' (by decide) hb.2, if_neg fun hb => hle '9' (by decide) hb.2,
      if_neg (hne '-' (by decide)), if_neg (hne '_' (by decide))]

/-- The value of a character, where it has one. -/
def sextet (c : Char) : ℕ := alphabet.idxOf c.toNat

theorem sextet_lt {c : Char} (h : c.toNat ∈ alphabet) : sextet c < 64 :=
  (List.idxOf_lt_length_of_mem h).trans_eq (by decide)

theorem base64Value_eq_some {c : Char} {x : ℕ} :
    base64Value c = some x ↔ c.toNat ∈ alphabet ∧ sextet c = x := by
  rw [base64Value_eq]
  split_ifs with h
  · simp [h, sextet]
  · simp [h]

/-- The texts that are decoded: no character alone at the end, and no bit left over there. -/
theorem decodeBase64_isSome (t : Text) : (decodeBase64 t).isSome = true ↔
    t.length % 4 ≠ 1 ∧ (∀ c ∈ t, c.toNat ∈ alphabet) ∧
      (t.length % 4 = 2 → sextet (t.getLastD 'A') % 16 = 0) ∧
      (t.length % 4 = 3 → sextet (t.getLastD 'A') % 4 = 0) := by
  induction t using decodeBase64.induct with
  | case1 => simp [decodeBase64]
  | case2 => simp [decodeBase64]
  | case3 a b =>
    by_cases ha : a.toNat ∈ alphabet
    · by_cases hb : b.toNat ∈ alphabet
      · simp [decodeBase64, base64Value_eq, ha, hb, sextet]
      · simp [decodeBase64, base64Value_eq, ha, hb]
    · simp [decodeBase64, base64Value_eq, ha]
  | case4 a b c =>
    by_cases ha : a.toNat ∈ alphabet
    · by_cases hb : b.toNat ∈ alphabet
      · by_cases hc : c.toNat ∈ alphabet
        · simp [decodeBase64, base64Value_eq, ha, hb, hc, sextet]
        · simp [decodeBase64, base64Value_eq, ha, hb, hc]
      · simp [decodeBase64, base64Value_eq, ha, hb]
    · simp [decodeBase64, base64Value_eq, ha]
  | case5 a b c d t ih =>
    have hlen : (a :: b :: c :: d :: t).length % 4 = t.length % 4 := by
      simp only [List.length_cons]
      omega
    have hlast : t.length % 4 ≠ 0 → (a :: b :: c :: d :: t).getLastD 'A' = t.getLastD 'A' := by
      intro h
      cases t with
      | nil => exact absurd rfl h
      | cons e t => simp [List.getLastD]
    have hdecode : (decodeBase64 (a :: b :: c :: d :: t)).isSome = true ↔
        (a.toNat ∈ alphabet ∧ b.toNat ∈ alphabet ∧ c.toNat ∈ alphabet ∧ d.toNat ∈ alphabet) ∧
          (decodeBase64 t).isSome = true := by
      simp only [decodeBase64, Option.isSome_iff_exists, Option.bind_eq_bind,
        Option.bind_eq_some_iff, base64Value_eq_some]
      constructor
      · rintro ⟨_, _, ⟨ha, -⟩, _, ⟨hb, -⟩, _, ⟨hc, -⟩, _, ⟨hd, -⟩, rest, hrest, -⟩
        exact ⟨⟨ha, hb, hc, hd⟩, rest, hrest⟩
      · rintro ⟨⟨ha, hb, hc, hd⟩, rest, hrest⟩
        exact ⟨_, _, ⟨ha, rfl⟩, _, ⟨hb, rfl⟩, _, ⟨hc, rfl⟩, _, ⟨hd, rfl⟩, rest, hrest, rfl⟩
    rw [hdecode, ih, hlen]
    simp only [List.forall_mem_cons]
    constructor
    · rintro ⟨⟨ha, hb, hc, hd⟩, h1, hall, h2, h3⟩
      exact ⟨h1, ⟨ha, hb, hc, hd, hall⟩, fun h => hlast (by omega) ▸ h2 h,
        fun h => hlast (by omega) ▸ h3 h⟩
    · rintro ⟨h1, ⟨ha, hb, hc, hd, hall⟩, h2, h3⟩
      exact ⟨⟨ha, hb, hc, hd⟩, h1, hall, fun h => hlast (by omega) ▸ h2 h,
        fun h => hlast (by omega) ▸ h3 h⟩

/-- The first of the bytes. -/
theorem head_decodeBase64 {t : Text} {bytes : List ℕ} (h : decodeBase64 t = some bytes) :
    bytes.head? = if t = [] then none else
      some (4 * sextet (t.getD 0 'A') + sextet (t.getD 1 'A') / 16) := by
  cases t using decodeBase64.fun_cases with
  | case1 =>
    cases h
    rfl
  | case2 => cases h
  | case3 a b =>
    simp only [decodeBase64, Option.bind_eq_bind, Option.bind_eq_some_iff, base64Value_eq_some] at h
    obtain ⟨x, ⟨-, rfl⟩, y, ⟨-, rfl⟩, h⟩ := h
    split_ifs at h
    cases h
    rfl
  | case4 a b c =>
    simp only [decodeBase64, Option.bind_eq_bind, Option.bind_eq_some_iff, base64Value_eq_some] at h
    obtain ⟨x, ⟨-, rfl⟩, y, ⟨-, rfl⟩, z, -, h⟩ := h
    split_ifs at h
    cases h
    rfl
  | case5 a b c d t =>
    simp only [decodeBase64, Option.bind_eq_bind, Option.bind_eq_some_iff, base64Value_eq_some] at h
    obtain ⟨x, ⟨-, rfl⟩, y, ⟨-, rfl⟩, z, -, w, -, rest, -, h⟩ := h
    cases h
    rfl

theorem lead_eq {x y : ℕ} (hy : y < 64) : x <<< 2 ||| y >>> 4 = 4 * x + y / 16 := by
  have hshift : y >>> 4 = y / 16 := Nat.shiftRight_eq_div_pow y 4
  have hlt : y / 16 < 2 ^ 2 := by omega
  rw [hshift, ← Nat.shiftLeft_add_eq_or_of_lt hlt, Nat.shiftLeft_eq]
  omega

/-- The bits behind the last byte. -/
theorem unusedBits_iff {n x : ℕ} (l : ℕ) (hl : l = (n * 8 + 5) / 6) :
    x &&& (1 <<< ((6 - n * 8 % 6) % 6) - 1) = 0 ↔
      (l % 4 = 2 → x % 16 = 0) ∧ (l % 4 = 3 → x % 4 = 0) := by
  have hn : n % 3 < 3 := Nat.mod_lt n (by decide)
  have hmask : x &&& (1 <<< ((6 - n * 8 % 6) % 6) - 1) = x % 2 ^ ((6 - n * 8 % 6) % 6) := by
    rw [Nat.one_shiftLeft, Nat.and_two_pow_sub_one_eq_mod]
  rw [hmask]
  obtain h | h | h : n % 3 = 0 ∨ n % 3 = 1 ∨ n % 3 = 2 := by omega
  · have hbits : (6 - n * 8 % 6) % 6 = 0 := by omega
    rw [hbits]
    omega
  · have hbits : (6 - n * 8 % 6) % 6 = 4 := by omega
    rw [hbits]
    omega
  · have hbits : (6 - n * 8 % 6) % 6 = 2 := by omega
    rw [hbits]
    omega

/-- The lengths that decode to `n` bytes. -/
theorem encodedLength_iff {l n : ℕ} : l * 3 / 4 = n ∧ l % 4 ≠ 1 ↔ l = (n * 8 + 5) / 6 := by
  constructor
  · rintro ⟨rfl, h1⟩
    obtain h | h | h : l % 4 = 0 ∨ l % 4 = 2 ∨ l % 4 = 3 := by omega
    all_goals
      have hl := Nat.div_add_mod l 4
      rw [h] at hl
      generalize l / 4 = k at hl
      omega
  · rintro rfl
    obtain h | h | h : n % 3 = 0 ∨ n % 3 = 1 ∨ n % 3 = 2 := by omega
    all_goals
      have hn := Nat.div_add_mod n 3
      rw [h] at hn
      generalize n / 3 = k at hn
      omega

theorem b64Text_iff {t : Text} {n : ℕ} (hn : 0 < n) {lead : Option ℕ} : b64Text t n lead = true ↔
    t.length = (n * 8 + 5) / 6 ∧ (∀ c ∈ t, c.toNat ∈ alphabet) ∧
      ((t.length % 4 = 2 → sextet (t.getLastD 'A') % 16 = 0) ∧
        (t.length % 4 = 3 → sextet (t.getLastD 'A') % 4 = 0)) ∧
      ∀ m ∈ lead, 4 * sextet (t.getD 0 'A') + sextet (t.getD 1 'A') / 16 = m := by
  have hlead : ∀ {bytes}, decodeBase64 t = some bytes → bytes.length = n →
      ((lead = none ∨ bytes.head? = lead) ↔
        ∀ m ∈ lead, 4 * sextet (t.getD 0 'A') + sextet (t.getD 1 'A') / 16 = m) := by
    intro bytes hb hl
    have hne : t ≠ [] := by
      rintro rfl
      cases hb
      exact absurd hl hn.ne
    rw [head_decodeBase64 hb, if_neg hne]
    cases lead with
    | none => simp
    | some m => simp
  have hdecode := decodeBase64_isSome t
  cases hb : decodeBase64 t with
  | none =>
    rw [hb] at hdecode
    simp only [Option.isSome_none, Bool.false_eq_true, false_iff] at hdecode
    simp only [b64Text, hb, Bool.false_eq_true, false_iff]
    rintro ⟨hl, hall, hbits, -⟩
    exact hdecode ⟨(encodedLength_iff.2 hl).2, hall, hbits⟩
  | some bytes =>
    rw [hb] at hdecode
    obtain ⟨h1, hall, hbits⟩ := hdecode.1 rfl
    have hbytes := length_decodeBase64 hb
    simp only [b64Text, hb, decide_eq_true_eq]
    constructor
    · rintro ⟨hl, hfirst⟩
      exact ⟨encodedLength_iff.1 ⟨hbytes ▸ hl, h1⟩, hall, hbits, (hlead hb hl).1 hfirst⟩
    · rintro ⟨hl, -, -, hfirst⟩
      have hl : bytes.length = n := hbytes.trans (encodedLength_iff.2 hl).1
      exact ⟨hl, (hlead hb hl).2 hfirst⟩

/-- **Encoded bytes**: what the client finds by arithmetic the relay finds by decoding. -/
theorem encodedBytes_eq {n : ℕ} (hn : 0 < n) (lead : Option ℕ) (s : Utf16) :
    encodedBytes n lead s = b64Text s.text n lead := by
  rw [Bool.eq_iff_iff, b64Text_iff hn]
  simp only [encodedBytes, Bool.and_eq_true, decide_eq_true_eq, List.all_eq_true, Option.all_eq_true]
  by_cases hall : ∀ u ∈ s.units, u ∈ alphabet
  · have ht : s.text = s.units.map Char.ofNat := toText_ascii fun u hu => alphabet_lt u (hall u hu)
    have hmem := (forall_text alphabet_lt).2 hall
    have hlength : s.text.length = s.units.length := by rw [ht, List.length_map]
    have hget : ∀ i < s.units.length,
        alphabet.idxOf (s.units.getD i 0) = sextet (s.text.getD i 'A') := by
      intro i hi
      have hu := hall _ (List.getElem_mem hi)
      rw [ht, List.getD_eq_getElem _ _ hi, List.getD_eq_getElem _ _ (by rwa [List.length_map]),
        List.getElem_map, sextet, toNat_ofNat (alphabet_lt _ hu)]
    have hlast : 0 < s.units.length → sextet (s.text.getLastD 'A') =
        alphabet.idxOf (s.units.getD (s.units.length - 1) 0) := by
      intro hpos
      rw [hget _ (by omega), ← hlength, List.getLastD_eq_getLast?, List.getLast?_eq_getElem?,
        List.getD_eq_getElem?_getD]
    have hfirst : 1 < s.units.length →
        alphabet.idxOf (s.units.getD 0 0) <<< 2 ||| alphabet.idxOf (s.units.getD 1 0) >>> 4 =
          4 * sextet (s.text.getD 0 'A') + sextet (s.text.getD 1 'A') / 16 := by
      intro htwo
      have hsecond : s.text.getD 1 'A' ∈ s.text := by
        rw [List.getD_eq_getElem _ _ (by omega)]
        exact List.getElem_mem _
      rw [hget 0 (by omega), hget 1 htwo, lead_eq (sextet_lt (hmem _ hsecond))]
    rw [hlength]
    constructor
    · rintro ⟨⟨⟨⟨hl, -⟩, -⟩, hbits⟩, hlead⟩
      have htwo : 1 < s.units.length := by omega
      rw [unusedBits_iff _ hl, ← hlast (by omega)] at hbits
      rw [hfirst htwo] at hlead
      exact ⟨hl, hmem, hbits, hlead⟩
    · rintro ⟨hl, -, hbits, hlead⟩
      have htwo : 1 < s.units.length := by omega
      have hne : s.units ≠ [] := fun h => by simp [h] at htwo
      rw [unusedBits_iff _ hl, ← hlast (by omega), hfirst htwo]
      exact ⟨⟨⟨⟨hl, hne⟩, hall⟩, hbits⟩, hlead⟩
  · refine iff_of_false (fun h => hall h.1.1.2) fun h => hall ((forall_text alphabet_lt).1 h.2.1)

/-! ## UUIDs -/

theorem matchesAll_all {q : Char → Bool} : ∀ (ps : List (Char → Bool)) (t : Text),
    (matchesAll ps t && t.all q) = matchesAll (ps.map fun p c => p c && q c) t
  | [], [] => rfl
  | [], _ :: _ => rfl
  | _ :: _, [] => rfl
  | p :: ps, c :: t => by
    have ih := matchesAll_all (q := q) ps t
    rw [List.map_cons, matchesAll, matchesAll, ← ih, List.all_cons]
    cases p c <;> cases q c <;> simp

theorem isHex_and_isLowerUnit (c : Char) : (isHex c && isLowerUnit c.toNat) = isLowerHex c := by
  have hle : ∀ a b : Char, a ≤ b ↔ a.toNat ≤ b.toNat := fun _ _ => Iff.rfl
  rw [Bool.eq_iff_iff]
  simp only [isHex, isLowerHex, isLowerUnit, Bool.and_eq_true, decide_eq_true_eq, hle]
  have h0 : '0'.toNat = 48 := rfl
  have h9 : '9'.toNat = 57 := rfl
  have ha : 'a'.toNat = 97 := rfl
  have hf : 'f'.toNat = 102 := rfl
  have hA : 'A'.toNat = 65 := rfl
  have hF : 'F'.toNat = 70 := rfl
  omega

/-- The groups of the client without the upper case are those of the relay. -/
theorem map_uuidGroups :
    (uuidGroups.map fun p c => p c && isLowerUnit c.toNat) = uuidV2Groups := by
  have hhex : (fun c => isHex c && isLowerUnit c.toNat) = isLowerHex := funext isHex_and_isLowerUnit
  have hdash : (fun c => decide (c = '-') && isLowerUnit c.toNat) = fun c => decide (c = '-') := by
    funext c
    by_cases h : c = '-'
    · rw [h]
      rfl
    · simp [h]
  have hversion : (fun c : Char => decide ('1' ≤ c ∧ c ≤ '8') && isLowerUnit c.toNat) =
      fun c => decide ('1' ≤ c ∧ c ≤ '8') := by
    funext c
    by_cases h : '1' ≤ c ∧ c ≤ '8'
    · have h1 : 49 ≤ c.toNat := h.1
      have h8 : c.toNat ≤ 56 := h.2
      have hunit : isLowerUnit c.toNat = true := by
        rw [isLowerUnit, decide_eq_true_eq]
        omega
      rw [hunit, Bool.and_true]
    · simp [h]
  have hvariant : (fun c => decide (c ∈ ['8', '9', 'a', 'b', 'A', 'B']) && isLowerUnit c.toNat) =
      fun c => decide (c ∈ ['8', '9', 'a', 'b']) := by
    funext c
    by_cases h : c ∈ ['8', '9', 'a', 'b', 'A', 'B']
    · simp only [List.mem_cons, List.not_mem_nil, or_false] at h
      rcases h with rfl | rfl | rfl | rfl | rfl | rfl <;> decide
    · simp_all
  simp only [uuidGroups, uuidV2Groups, List.map_append, List.map_replicate, List.map_cons,
    List.map_nil, hhex, hdash, hversion, hvariant]

/-- **UUIDs**: those of the client are those of the relay, but the greatest. -/
theorem uuid_eq (s : Utf16) : uuid s = (uuidV2 s.text && decide (s.text ≠ maxUUID)) := by
  have hlower : (s.text.all fun c => isLowerUnit c.toNat) = s.units.all isLowerUnit := by
    rw [Bool.eq_iff_iff, List.all_eq_true, List.all_eq_true]
    refine forall_text (q := fun u => isLowerUnit u = true) fun n hn => ?_
    rw [isLowerUnit, decide_eq_true_eq] at hn
    omega
  have hclient : (clientMailboxUUID s.text && s.text.all fun c => isLowerUnit c.toNat) =
      (matchesAll uuidV2Groups s.text || decide (s.text = nilUUID)) := by
    by_cases hnil : s.text = nilUUID
    · rw [hnil]
      decide
    · rw [clientMailboxUUID, decide_eq_false hnil, Bool.or_false, Bool.or_false, matchesAll_all,
        map_uuidGroups]
  have hmax : (matchesAll uuidV2Groups s.text || decide (s.text = nilUUID)) =
      (uuidV2 s.text && decide (s.text ≠ maxUUID)) := by
    by_cases h : s.text = maxUUID
    · rw [h]
      decide
    · rw [uuidV2, decide_eq_false h, Bool.or_false, decide_eq_true h, Bool.and_true]
  by_cases hempty : s.units = []
  · have htext : s.text = [] := by
      rw [Utf16.text, hempty]
      rfl
    rw [uuid, htext, hempty]
    decide
  · rw [uuid, decide_eq_true hempty, Bool.and_true, ← hlower, hclient, hmax]

end SignalBundle

end Echolet
