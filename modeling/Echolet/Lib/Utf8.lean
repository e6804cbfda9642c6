/-
  Reading bytes as UTF-8, one byte at a time.

  Between two characters a `Utf8State` owes nothing; otherwise it knows how many bytes are
  owed, in which range the next one has to be, and the bits so far.  A byte that does not fit
  makes a U+FFFD of what came before it and is read anew.

  * `decodeUtf8_utf8Bytes`: the bytes of a text are read as this text;
  * `decode_chunks_iff`: bytes read in chunks are the same text exactly if no cut falls inside a
    character, because a cut there makes two characters of one.
-/
import Echolet.Lib.Sha256

namespace Echolet

structure Utf8State where
  needed : ℕ
  lower : ℕ
  upper : ℕ
  point : ℕ
  deriving DecidableEq

namespace Utf8State

/-- Between two characters. -/
def start : Utf8State := ⟨0, 0x80, 0xbf, 0⟩

/-- The first byte of a character: what it gives at once, and what it owes. -/
def first (b : ℕ) : Text × Utf8State :=
  if b ≤ 0x7f then ([Char.ofNat b], start)
  else if 0xc2 ≤ b ∧ b ≤ 0xdf then ([], ⟨1, 0x80, 0xbf, b - 0xc0⟩)
  else if 0xe0 ≤ b ∧ b ≤ 0xef then
    ([], ⟨2, if b = 0xe0 then 0xa0 else 0x80, if b = 0xed then 0x9f else 0xbf, b - 0xe0⟩)
  else if 0xf0 ≤ b ∧ b ≤ 0xf4 then
    ([], ⟨3, if b = 0xf0 then 0x90 else 0x80, if b = 0xf4 then 0x8f else 0xbf, b - 0xf0⟩)
  else (['\uFFFD'], start)

def step (s : Utf8State) (b : ℕ) : Text × Utf8State :=
  if s.needed = 0 then first b
  else if s.lower ≤ b ∧ b ≤ s.upper then
    let point := s.point * 64 + (b - 0x80)
    if s.needed = 1 then ([Char.ofNat point], start) else ([], ⟨s.needed - 1, 0x80, 0xbf, point⟩)
  else ('\uFFFD' :: (first b).1, (first b).2)

def decode : Utf8State → List ℕ → Text
  | s, [] => if s.needed = 0 then [] else ['\uFFFD']
  | s, b :: bs => (step s b).1 ++ decode (step s b).2 bs

end Utf8State

def decodeUtf8 (bytes : List ℕ) : Text := Utf8State.start.decode bytes

namespace Utf8State

theorem decode_first (b : ℕ) (bs : List ℕ) :
    start.decode (b :: bs) = (first b).1 ++ (first b).2.decode bs := rfl

/-- A byte that is owed and not the last one. -/
theorem decode_owed {n lower upper point b : ℕ} (bs : List ℕ) (hl : lower ≤ b) (hu : b ≤ upper) :
    decode ⟨n + 2, lower, upper, point⟩ (b :: bs) =
      decode ⟨n + 1, 0x80, 0xbf, point * 64 + (b - 0x80)⟩ bs := by
  rw [decode, step, if_neg (Nat.succ_ne_zero _), if_pos ⟨hl, hu⟩]
  rfl

/-- The last byte of a character. -/
theorem decode_last {lower upper point b : ℕ} (bs : List ℕ) (hl : lower ≤ b) (hu : b ≤ upper) :
    decode ⟨1, lower, upper, point⟩ (b :: bs) =
      Char.ofNat (point * 64 + (b - 0x80)) :: start.decode bs := by
  rw [decode, step, if_neg (Nat.succ_ne_zero _), if_pos ⟨hl, hu⟩]
  rfl

/-- The bytes of a character are read as this character. -/
theorem decode_utf8EncodeChar (c : Char) (bs : List ℕ) :
    start.decode ((String.utf8EncodeChar c).map UInt8.toNat ++ bs) = c :: start.decode bs := by
  have hc : Char.ofNat c.val.toNat = c := Char.ofNat_toNat c
  have hv : c.val.toNat < 0xd800 ∨ 0xdfff < c.val.toNat ∧ c.val.toNat < 0x110000 := c.valid
  have hbyte : ∀ {n : ℕ}, n < 256 → (UInt8.ofNat n).toNat = n := fun h =>
    UInt8.toNat_ofNat_of_lt' h
  unfold String.utf8EncodeChar
  generalize c.val.toNat = v at hc hv
  simp only
  split_ifs with h1 h2 h3
  · rw [List.map_singleton, hbyte (by omega), List.singleton_append, decode_first, first,
      if_pos h1, hc]
    rfl
  · simp only [List.map_cons, List.map_nil, List.cons_append, List.nil_append]
    rw [hbyte (by omega), hbyte (by omega), decode_first, first, if_neg (by omega),
      if_pos (by omega)]
    refine (decode_last bs (by omega) (by omega)).trans ?_
    rw [show (v / 64 % 0x20 + 0xc0 - 0xc0) * 64 + (v % 0x40 + 0x80 - 0x80) = v by omega, hc]
  · simp only [List.map_cons, List.map_nil, List.cons_append, List.nil_append]
    rw [hbyte (by omega), hbyte (by omega), hbyte (by omega), decode_first, first,
      if_neg (by omega), if_neg (by omega), if_pos (by omega)]
    refine (decode_owed _ ?_ ?_).trans ?_
    · split_ifs <;> omega
    · split_ifs <;> omega
    · refine (decode_last bs (by omega) (by omega)).trans ?_
      rw [show ((v / 4096 % 0x10 + 0xe0 - 0xe0) * 64 + (v / 64 % 0x40 + 0x80 - 0x80)) * 64 +
        (v % 0x40 + 0x80 - 0x80) = v by omega, hc]
  · simp only [List.map_cons, List.map_nil, List.cons_append, List.nil_append]
    rw [hbyte (by omega), hbyte (by omega), hbyte (by omega), hbyte (by omega), decode_first, first,
      if_neg (by omega), if_neg (by omega), if_neg (by omega), if_pos (by omega)]
    refine (decode_owed _ ?_ ?_).trans ?_
    · split_ifs <;> omega
    · split_ifs <;> omega
    · refine (decode_owed _ (by omega) (by omega)).trans ?_
      refine (decode_last bs (by omega) (by omega)).trans ?_
      rw [show (((v / 262144 % 0x08 + 0xf0 - 0xf0) * 64 + (v / 4096 % 0x40 + 0x80 - 0x80)) * 64 +
        (v / 64 % 0x40 + 0x80 - 0x80)) * 64 + (v % 0x40 + 0x80 - 0x80) = v by omega, hc]

end Utf8State

/-- **The bytes of a text are read as this text.** -/
theorem decodeUtf8_utf8Bytes (t : Text) : decodeUtf8 (utf8Bytes t) = t := by
  induction t with
  | nil => rfl
  | cons c t ih =>
    rw [utf8Bytes, List.flatMap_cons, decodeUtf8, Utf8State.decode_utf8EncodeChar]
    exact congrArg _ ih

/-! ## Chunks -/

theorem decodeUtf8_utf8Bytes_append (t : Text) (bytes : List ℕ) :
    decodeUtf8 (utf8Bytes t ++ bytes) = t ++ decodeUtf8 bytes := by
  induction t with
  | nil => rfl
  | cons c t ih =>
    rw [utf8Bytes, List.flatMap_cons, List.append_assoc, decodeUtf8, Utf8State.decode_utf8EncodeChar]
    exact congrArg _ ih

/-- The bytes of some text. -/
def IsUtf8 (bytes : List ℕ) : Prop := utf8Bytes (decodeUtf8 bytes) = bytes

instance (bytes : List ℕ) : Decidable (IsUtf8 bytes) := inferInstanceAs (Decidable (_ = _))

theorem isUtf8_utf8Bytes (t : Text) : IsUtf8 (utf8Bytes t) := by
  rw [IsUtf8, decodeUtf8_utf8Bytes]

theorem IsUtf8.decode_append {bytes : List ℕ} (h : IsUtf8 bytes) (rest : List ℕ) :
    decodeUtf8 (bytes ++ rest) = decodeUtf8 bytes ++ decodeUtf8 rest := by
  conv_lhs => rw [← h]
  exact decodeUtf8_utf8Bytes_append _ rest

theorem IsUtf8.of_append {bytes rest : List ℕ} (h : IsUtf8 bytes) (h' : IsUtf8 (bytes ++ rest)) :
    IsUtf8 rest := by
  rw [IsUtf8, h.decode_append, utf8Bytes_append, h] at h'
  exact List.append_cancel_left h'

namespace Utf8State

/-- A byte that is owed is none that a character begins with. -/
def Owing (s : Utf8State) : Prop := 0x80 ≤ s.lower ∧ s.upper ≤ 0xbf

theorem first_owing (b : ℕ) : (first b).2.Owing := by
  unfold first Owing start
  split_ifs <;> simp

theorem step_owing (s : Utf8State) (b : ℕ) : (s.step b).2.Owing := by
  unfold step
  split_ifs
  · exact first_owing b
  · simp [Owing, start]
  · simp [Owing]
  · exact first_owing b

theorem first_tail {b : ℕ} (hl : 0x80 ≤ b) (hu : b ≤ 0xbf) : first b = (['\uFFFD'], start) := by
  rw [first, if_neg (by omega), if_neg (by omega), if_neg (by omega), if_neg (by omega)]

/-- What is owed when the bytes begin costs one character at most. -/
theorem decode_length_le (bs : List ℕ) {s : Utf8State} (hs : s.Owing) :
    (s.decode bs).length ≤ (start.decode bs).length + if s.needed = 0 then 0 else 1 := by
  induction bs generalizing s with
  | nil =>
    rw [decode, decode]
    split_ifs <;> simp
  | cons b bs ih =>
    rw [decode_first, decode, step]
    by_cases hneeded : s.needed = 0
    · simp [hneeded]
    · rw [if_neg hneeded, if_neg hneeded]
      by_cases hfits : s.lower ≤ b ∧ b ≤ s.upper
      · have htail := first_tail (hs.1.trans hfits.1) (hfits.2.trans hs.2)
        rw [if_pos hfits, htail]
        split_ifs with hone
        · simp
        · have hrest := ih (s := ⟨s.needed - 1, 0x80, 0xbf, s.point * 64 + (b - 0x80)⟩) ⟨le_rfl, le_rfl⟩
          have howed : (if s.needed - 1 = 0 then 0 else 1) ≤ 1 := by split_ifs <;> simp
          have hbound := hrest.trans (Nat.add_le_add_left howed _)
          simp only [List.nil_append, List.length_append, List.length_cons, List.length_nil]
          omega
      · rw [if_neg hfits]
        simp only [List.length_append, List.length_cons]
        omega

/-- Reading in two parts takes no fewer characters. -/
theorem decode_append_le (as bs : List ℕ) {s : Utf8State} (hs : s.Owing) :
    (s.decode (as ++ bs)).length ≤ (s.decode as).length + (start.decode bs).length := by
  induction as generalizing s with
  | nil =>
    refine (decode_length_le bs hs).trans ?_
    rw [decode]
    split_ifs
    · simp
    · simp [Nat.add_comm]
  | cons a as ih =>
    rw [List.cons_append, decode, decode, List.length_append, List.length_append, Nat.add_assoc]
    exact Nat.add_le_add_left (ih (step_owing s a)) _

/-- A byte gives a character or owes one. -/
theorem step_gives (s : Utf8State) (b : ℕ) : (s.step b).1 ≠ [] ∨ (s.step b).2.needed ≠ 0 := by
  have hfirst : (first b).1 ≠ [] ∨ (first b).2.needed ≠ 0 := by
    unfold first
    split_ifs <;> simp
  unfold step
  split_ifs with h0 hfits h1
  · exact hfirst
  · exact Or.inl (List.cons_ne_nil _ _)
  · exact Or.inr (show s.needed - 1 ≠ 0 by omega)
  · exact Or.inl (List.cons_ne_nil _ _)

theorem decode_ne_nil : ∀ (bs : List ℕ) {s : Utf8State}, s.needed ≠ 0 → s.decode bs ≠ []
  | [], s, h => by simp [decode, h]
  | b :: bs, s, _ => by
    rw [decode]
    rcases step_gives s b with hout | howes
    · simp [hout]
    · simp [decode_ne_nil bs howes]

theorem decode_tails (ds bs : List ℕ) (h : ∀ d ∈ ds, 0x80 ≤ d ∧ d ≤ 0xbf) :
    start.decode (ds ++ bs) = List.replicate ds.length '\uFFFD' ++ start.decode bs := by
  induction ds with
  | nil => rfl
  | cons d ds ih =>
    rw [List.forall_mem_cons] at h
    rw [List.cons_append, decode_first, first_tail h.1.1 h.1.2, ih h.2]
    rfl

/-- Behind the first byte of a character stand bytes that no character begins with. -/
theorem tail_utf8EncodeChar (c : Char) :
    ∀ b ∈ ((String.utf8EncodeChar c).map UInt8.toNat).tail, 0x80 ≤ b ∧ b ≤ 0xbf := by
  have hbyte : ∀ {n : ℕ}, n < 64 → (UInt8.ofNat (n + 0x80)).toNat = n + 0x80 := fun h =>
    UInt8.toNat_ofNat_of_lt' (show _ + 0x80 < 256 by omega)
  unfold String.utf8EncodeChar
  generalize c.val.toNat = v
  simp only
  intro b hb
  split_ifs at hb
  all_goals
    simp only [List.map_cons, List.map_nil, List.tail_cons, List.mem_cons, List.not_mem_nil,
      or_false] at hb
  · rw [hbyte (Nat.mod_lt _ (by decide))] at hb
    omega
  · rw [hbyte (Nat.mod_lt _ (by decide)), hbyte (Nat.mod_lt _ (by decide))] at hb
    omega
  · rw [hbyte (Nat.mod_lt _ (by decide)), hbyte (Nat.mod_lt _ (by decide)),
      hbyte (Nat.mod_lt _ (by decide))] at hb
    omega

end Utf8State

/-- A cut through the bytes of a text stands between characters, or makes one character more. -/
theorem utf8Bytes_cut (t : Text) : ∀ {as bs : List ℕ}, as ++ bs = utf8Bytes t →
    IsUtf8 as ∨ t.length < (decodeUtf8 as).length + (decodeUtf8 bs).length := by
  induction t with
  | nil =>
    intro as bs h
    obtain ⟨rfl, -⟩ := List.append_eq_nil_iff.1 h
    exact Or.inl rfl
  | cons c t ih =>
    intro as bs h
    have hone : (String.utf8EncodeChar c).map UInt8.toNat = utf8Bytes [c] := by simp [utf8Bytes]
    rw [utf8Bytes, List.flatMap_cons] at h
    rcases List.append_eq_append_iff.1 h with ⟨ds, hchar, hbs⟩ | ⟨as', rfl, hrest⟩
    · -- the cut falls into the first character, or at one of its ends
      cases as with
      | nil => exact Or.inl rfl
      | cons a as =>
        cases ds with
        | nil =>
          rw [List.append_nil, hone] at hchar
          rw [← hchar]
          exact Or.inl (isUtf8_utf8Bytes _)
        | cons d ds =>
          right
          have htails : ∀ b ∈ d :: ds, 0x80 ≤ b ∧ b ≤ 0xbf := fun b hb =>
            Utf8State.tail_utf8EncodeChar c b (by rw [hchar]; exact List.mem_append_right _ hb)
          have hfirst : decodeUtf8 (a :: as) ≠ [] := by
            rw [decodeUtf8, Utf8State.decode]
            rcases Utf8State.step_gives .start a with hout | howes
            · simp [hout]
            · simp [Utf8State.decode_ne_nil as howes]
          have hsecond : decodeUtf8 bs = List.replicate (ds.length + 1) '\uFFFD' ++ t := by
            rw [hbs, decodeUtf8, Utf8State.decode_tails _ _ htails]
            exact congrArg _ (decodeUtf8_utf8Bytes t)
          have hpos := List.length_pos_of_ne_nil hfirst
          rw [hsecond, List.length_append, List.length_replicate, List.length_cons]
          omega
    · rcases ih hrest.symm with hvalid | hmore
      · left
        rw [hone, ← hvalid, ← utf8Bytes_append]
        exact isUtf8_utf8Bytes _
      · right
        rw [hone, decodeUtf8_utf8Bytes_append, List.length_append, List.length_singleton,
          List.length_cons]
        omega

theorem decode_chunks_le (chunks : List (List ℕ)) :
    (decodeUtf8 chunks.flatten).length ≤ (chunks.flatMap decodeUtf8).length := by
  induction chunks with
  | nil => exact Nat.zero_le _
  | cons chunk chunks ih =>
    rw [List.flatten_cons, List.flatMap_cons, List.length_append]
    have happend := Utf8State.decode_append_le chunk chunks.flatten (s := .start) ⟨le_rfl, le_rfl⟩
    exact happend.trans (Nat.add_le_add_left ih _)

theorem decode_chunks {chunks : List (List ℕ)} (h : ∀ chunk ∈ chunks, IsUtf8 chunk) :
    chunks.flatMap decodeUtf8 = decodeUtf8 chunks.flatten := by
  induction chunks with
  | nil => rfl
  | cons chunk chunks ih =>
    rw [List.forall_mem_cons] at h
    rw [List.flatMap_cons, List.flatten_cons, h.1.decode_append, ih h.2]

/-- **Reading in chunks.**  Bytes of a text that are read chunk by chunk give this text exactly if
    every chunk is the bytes of a text. -/
theorem decode_chunks_iff {chunks : List (List ℕ)} (h : IsUtf8 chunks.flatten) :
    chunks.flatMap decodeUtf8 = decodeUtf8 chunks.flatten ↔ ∀ chunk ∈ chunks, IsUtf8 chunk := by
  refine ⟨fun hsame => ?_, decode_chunks⟩
  induction chunks with
  | nil => intro chunk hmem; cases hmem
  | cons chunk chunks ih =>
    have hcut := utf8Bytes_cut (decodeUtf8 (chunk ++ chunks.flatten)) h.symm
    rw [List.flatMap_cons, List.flatten_cons] at hsame
    rcases hcut with hvalid | hmore
    · rw [hvalid.decode_append] at hsame
      exact List.forall_mem_cons.2 ⟨hvalid, ih (hvalid.of_append h) (List.append_cancel_left hsame)⟩
    · have hle := decode_chunks_le chunks
      have hlength := congrArg List.length hsame
      rw [List.length_append] at hlength
      omega

end Echolet
