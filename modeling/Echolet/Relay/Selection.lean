/-
  What `GetEnvelopeBatchFrom` selects.

  `entriesAfter` are the index entries after a cursor that address a live envelope, and
  `WithinBounds` is the bound on a page.  `Selects` says what a batch should be: the longest
  prefix of those entries within the bounds, with `hasMore` and the cursor that go with it.

  * `page_selection`: the batch of every call is so selected, and its cursor is read back as
    the last position returned, if that has at most `maxMailboxCursorDigits` digits;
  * `far_page_cursor`: beyond them the cursor of a page is refused;
  * `cursor_codec`: a token that is accepted is the one its position is written as, unless it is
    padded with zeros.
-/
import Echolet.Relay.Walk

namespace Echolet

/-- The index entries after a position that address a live envelope, in position order. -/
def entriesAfter (db : Db) (now : ℕ) (mailboxID : Text) (resumeAfter : ℕ) :
    List (ℕ × MailboxEnvelope) :=
  after resumeAfter (visible db now mailboxID)

/-- An entry with its position is among them if the index names at that position an envelope
    that is stored and has not passed its declared expiry. -/
theorem mem_entriesAfter {db : Db} {now : ℕ} {m : Text} {c p : ℕ} {e : MailboxEnvelope} :
    (p, e) ∈ entriesAfter db now m c ↔ c < p ∧ ∃ i, (db.order m).peek (seconds now) p = some i ∧
      (∃ x, db.envelope.peek (seconds now) (mailboxEnvelopeKey m i.value) = some ⟨e, x⟩) ∧
      (now : ℤ) < e.expiresAtMs := by
  rw [entriesAfter, mem_after, mem_visible, and_comm]

/-- The bounds of a page: the count, and the bytes where there is more than one envelope. -/
def WithinBounds (limit byteBudget : ℤ) (items : List (ℕ × MailboxEnvelope)) : Prop :=
  (items.length : ℤ) ≤ limit ∧ (1 < items.length → (items.map pageBytes).sum ≤ byteBudget)

/-- What a batch should be, given the entries it is selected from. -/
structure Selects (limit byteBudget : ℤ) (entries : List (ℕ × MailboxEnvelope))
    (batch : EnvelopeBatch) : Prop where
  isPrefix : batch.items <+: entries
  within : WithinBounds limit byteBudget batch.items
  longest : ∀ ys, ys <+: entries → WithinBounds limit byteBudget ys → ys <+: batch.items
  hasMore : batch.hasMore = true ↔ ∃ x ∈ entries, ∀ y ∈ batch.items, y.1 < x.1
  nextCursor : batch.nextCursor ≠ [] ↔ batch.hasMore = true

/-! ## The bounds -/

theorem pageBytes_nonneg (x : ℕ × MailboxEnvelope) : 0 ≤ pageBytes x := by
  rw [pageBytes, envelopeSeparatorBytes]; omega

theorem sum_pageBytes_nonneg (xs : List (ℕ × MailboxEnvelope)) : 0 ≤ (xs.map pageBytes).sum := by
  induction xs with
  | nil => simp
  | cons x xs ih =>
    have := pageBytes_nonneg x
    rw [List.map_cons, List.sum_cons]; omega

/-- A shorter page is within the bounds of a longer one. -/
theorem WithinBounds.prefix {limit byteBudget : ℤ} {as bs : List (ℕ × MailboxEnvelope)}
    (h : as <+: bs) (hb : WithinBounds limit byteBudget bs) : WithinBounds limit byteBudget as := by
  obtain ⟨cs, rfl⟩ := h
  obtain ⟨hl, hs⟩ := hb
  rw [List.length_append] at hl hs
  rw [List.map_append, List.sum_append] at hs
  have := sum_pageBytes_nonneg cs
  exact ⟨by push_cast at hl; omega, fun h1 => by have := hs (by omega); omega⟩

/-- The test of the loop is the bound on the page with one more envelope. -/
theorem fitsPage_iff {limit byteBudget : ℤ} (hb : 0 < byteBudget)
    (acc : List (ℕ × MailboxEnvelope)) (x : ℕ × MailboxEnvelope) :
    fitsPage limit byteBudget acc x = true ↔ WithinBounds limit byteBudget (acc ++ [x]) := by
  have hlen : (acc ++ [x]).length = acc.length + 1 := by simp
  have hsum : ((acc ++ [x]).map pageBytes).sum = (acc.map pageBytes).sum + pageBytes x := by simp
  rw [fitsPage, decide_eq_true_eq, WithinBounds, hlen, hsum]
  constructor
  · rintro ⟨h1, h2⟩
    refine ⟨by push_cast; omega, fun h3 => ?_⟩
    rcases h2 with h2 | rfl | h2
    · omega
    · simp at h3
    · exact h2
  · rintro ⟨h1, h2⟩
    refine ⟨by push_cast at h1; omega, ?_⟩
    by_cases ha : acc = []
    · exact Or.inr (Or.inl ha)
    · have := List.length_pos_iff.2 ha
      exact Or.inr (Or.inr (h2 (by omega)))

/-! ## The selection -/

theorem entriesAfter_ordered (db : Db) (now : ℕ) (m : Text) (c : ℕ) :
    Ordered (entriesAfter db now m c) := (visible_ordered db now m).after c

/-- A batch read after a position is selected from the entries after it. -/
theorem readBatch_selects {limit byteBudget : ℤ} (hl : 1 ≤ limit) (hb : 0 < byteBudget) (db : Db)
    (now : ℕ) (m : Text) (c : ℕ) :
    Selects limit byteBudget (entriesAfter db now m c) (readBatch db now m limit byteBudget c) := by
  have hf := fitsPage_first (show 0 < limit by omega) byteBudget
  have hs := entriesAfter_ordered db now m c
  obtain ⟨hw, hlong⟩ := pageOf_longest (entriesAfter db now m c)
    (P := WithinBounds limit byteBudget) ⟨by simpa using (show 0 ≤ limit by omega), by simp⟩
    (fitsPage_iff hb) WithinBounds.prefix
  rw [readBatch_eq]
  refine ⟨pageOf_start, hw, hlong, ?_, ?_⟩
  · simp only [entriesAfter] at hs ⊢
    cases hn : (pageOf (fitsPage limit byteBudget) (after c (visible db now m))).next with
    | none =>
      rw [pageOf_all hn]
      refine ⟨fun h => by simp at h, ?_⟩
      rintro ⟨x, hx, hall⟩
      exact absurd (hall x hx) (lt_irrefl _)
    | some n =>
      refine ⟨fun _ => ?_, fun _ => rfl⟩
      obtain ⟨x, hx⟩ := List.exists_mem_of_ne_nil _ (pageOf_rest hf hs hn)
      obtain ⟨hx, hnx⟩ := mem_after.1 hx
      exact ⟨x, hx, fun y hy => (pageOf_le_next hf hs hn hy).trans_lt hnx⟩
  · simp only
    cases (pageOf (fitsPage limit byteBudget) (after c (visible db now m))).next with
    | none => simp
    | some n => simp [encodeMailboxCursor, decimal_ne_nil]

/-- The cursor of a batch is the token of the last position returned. -/
theorem readBatch_nextCursor {db : Db} {now : ℕ} {m : Text} {limit byteBudget : ℤ} {c : ℕ}
    (hl : 1 ≤ limit) (h : (readBatch db now m limit byteBudget c).hasMore = true) :
    ∃ p e, (readBatch db now m limit byteBudget c).items.getLast? = some (p, e) ∧
      (readBatch db now m limit byteBudget c).nextCursor = encodeMailboxCursor p := by
  have hf := fitsPage_first (show 0 < limit by omega) byteBudget
  have hs := entriesAfter_ordered db now m c
  rw [readBatch_eq] at h ⊢
  simp only [entriesAfter] at hs
  obtain ⟨n, hn⟩ := Option.isSome_iff_exists.1 h
  obtain ⟨ys, e, zs, -, -, h1, -⟩ := pageOf_split hf hs hn
  exact ⟨n, e, by simp [h1], by simp [hn]⟩

/-! ## The calls -/

/-- **A call selects the longest page within its bounds**, and its cursor is read back as the
    last position returned as far as tokens go. -/
theorem page_selection (db : Db) (now : ℕ) (m cursor : Text) (limit byteBudget : ℤ) {c : ℕ}
    (hc : decodeMailboxCursor cursor = some c) (hl : 1 ≤ limit) (hb : 0 < byteBudget) :
    ∃ batch, (getEnvelopeBatchFrom db now m limit byteBudget cursor).1 = some batch ∧
      Selects limit byteBudget (entriesAfter (ensureMailboxOrdering db now m) now m c) batch ∧
      (batch.hasMore = true → ∃ p e, batch.items.getLast? = some (p, e) ∧
        batch.nextCursor = encodeMailboxCursor p ∧
        (p < 10 ^ maxMailboxCursorDigits → decodeMailboxCursor batch.nextCursor = some p)) := by
  have hlim : ¬ limit ≤ 0 := by omega
  refine ⟨readBatch (ensureMailboxOrdering db now m) now m limit byteBudget c, ?_,
    readBatch_selects hl hb _ now m c, fun hmore => ?_⟩
  · rw [getEnvelopeBatchFrom, hc]
    simp only [if_neg hlim]
  · obtain ⟨p, e, hlast, hnext⟩ := readBatch_nextCursor hl hmore
    refine ⟨p, e, hlast, hnext, fun hp => ?_⟩
    rw [hnext, decodeMailboxCursor_encodeMailboxCursor, if_pos hp]

/-- A mailbox whose next position has `digits` zeros, with two envelopes stored from there. -/
def farDb (digits : ℕ) : Db :=
  let db : Db := { Db.init with
    sequence := Function.update (fun _ => none) ['m'] (some (10 ^ digits)) }
  let store (db : Db) (n : Char) : Db :=
    (saveEnvelope defaultConfig.retentionCap db 0 (note ['m'] ['a'] n)).2
  store (store db '0') '1'

/-- A first page of one envelope, at a position of fifteen digits. -/
theorem page_selection_far : ∃ batch,
    (getEnvelopeBatchFrom (farDb 14) 0 ['m'] 1 1000 []).1 = some batch ∧
      Selects 1 1000 (entriesAfter (ensureMailboxOrdering (farDb 14) 0 ['m']) 0 ['m'] 0) batch ∧
      (batch.hasMore = true → ∃ p e, batch.items.getLast? = some (p, e) ∧
        batch.nextCursor = encodeMailboxCursor p ∧
        (p < 10 ^ maxMailboxCursorDigits → decodeMailboxCursor batch.nextCursor = some p)) :=
  page_selection (farDb 14) 0 ['m'] [] 1 1000 (by rfl) (by norm_num) (by norm_num)

/-- One digit more: the page has a cursor and the relay refuses it. -/
theorem far_page_cursor : ∃ batch e, (getEnvelopeBatchFrom (farDb 15) 0 ['m'] 1 1000 []).1 =
    some batch ∧ batch.items = [(10 ^ 15, e)] ∧ batch.hasMore = true ∧
      decodeMailboxCursor batch.nextCursor = none := by
  refine ⟨⟨[(10 ^ 15, note ['m'] ['a'] '0')], true, encodeMailboxCursor (10 ^ 15)⟩,
    note ['m'] ['a'] '0', ?_, rfl, rfl, ?_⟩
  · decide +kernel
  · rw [decodeMailboxCursor_encodeMailboxCursor]
    decide

/-! ## The tokens -/

/-- A token of digits that begins with a zero it does not need. -/
def ZeroPadded (cursor : Text) : Prop :=
  (cursor.length ≤ maxMailboxCursorDigits ∧ ∀ c ∈ cursor, c.isDigit = true) ∧
    cursor.head? = some '0' ∧ 2 ≤ cursor.length

/-- The non-empty tokens that are accepted, and the positions they name. -/
theorem decodeMailboxCursor_iff {cursor : Text} (hne : cursor ≠ []) {n : ℕ} :
    decodeMailboxCursor cursor = some n ↔ (cursor.length ≤ maxMailboxCursorDigits ∧
      ∀ c ∈ cursor, c.isDigit = true) ∧ n = value cursor := by
  rw [decodeMailboxCursor, if_neg hne, parseDecimal]
  by_cases hd : ∀ c ∈ cursor, c.isDigit = true
  · rw [utf8Length_digits hd,
      if_pos (⟨hne, List.all_eq_true.2 hd⟩ : cursor ≠ [] ∧ cursor.all Char.isDigit = true)]
    by_cases hl : maxMailboxCursorDigits < cursor.length
    · rw [if_pos hl]
      exact ⟨fun h => (by cases h), fun h => absurd h.1.1 (not_le.2 hl)⟩
    · rw [if_neg hl, Option.some.injEq]
      exact ⟨fun h => ⟨⟨not_lt.1 hl, hd⟩, h.symm⟩, fun h => h.2.symm⟩
  · have hall : ¬ (cursor ≠ [] ∧ cursor.all Char.isDigit = true) :=
      fun h => hd (List.all_eq_true.1 h.2)
    rw [if_neg hall, ite_self]
    exact ⟨fun h => (by cases h), fun h => absurd h.1.2 hd⟩

/-- A token that is accepted is the one its position is written as, unless it is padded. -/
theorem encodeMailboxCursor_decode {cursor : Text} (hne : cursor ≠ []) {n : ℕ}
    (h : decodeMailboxCursor cursor = some n) :
    encodeMailboxCursor n = cursor ↔ ¬ ZeroPadded cursor := by
  obtain ⟨hok, rfl⟩ := (decodeMailboxCursor_iff hne).1 h
  constructor
  · rintro he ⟨-, h0, hl⟩
    have hz : decimal (value cursor) = ['0'] := decimal_head (by rw [← h0]; exact congrArg _ he)
    have he' : ['0'] = cursor := hz.symm.trans he
    rw [← he'] at hl
    exact absurd hl (by decide)
  · intro hz
    by_cases h0 : cursor.head? = some '0'
    · have hl : cursor.length < 2 := not_le.1 fun hl => hz ⟨hok, h0, hl⟩
      have hs : cursor = ['0'] := by
        match cursor, h0, hl with
        | [c], h0, _ => exact congrArg (fun c => [c]) (Option.some.inj h0)
      rw [hs]
      decide
    · exact decimal_value hok.2 hne h0

/-- **The codec of the positions.**  A position of at most fifteen digits is read back.  A token
    that is accepted is written back exactly where it is not padded with zeros: of two tokens
    that name one position at least one is padded, and a padded one is never the only one. -/
theorem cursor_codec (n : ℕ) (s : Text) :
    (n < 10 ^ 15 → decodeMailboxCursor (encodeMailboxCursor n) = some n) ∧
    (s ≠ [] →
      ((∀ p, decodeMailboxCursor s = some p → encodeMailboxCursor p = s) ↔ ¬ ZeroPadded s) ∧
      ((∀ s' ≠ [], ∀ p, ¬ ZeroPadded s' → decodeMailboxCursor s = some p →
        decodeMailboxCursor s' = some p → s = s') ↔ ¬ ZeroPadded s)) := by
  have hpad : s ≠ [] → ZeroPadded s → decodeMailboxCursor s = some (value s) :=
    fun hne hz => (decodeMailboxCursor_iff hne).2 ⟨hz.1, rfl⟩
  refine ⟨fun hn => ?_, fun hne => ⟨⟨fun h hz => ?_, fun hz p hp => ?_⟩,
    ⟨fun h hz => ?_, fun hz s' hne' p hz' hp hp' => ?_⟩⟩⟩
  · rw [decodeMailboxCursor_encodeMailboxCursor]
    exact if_pos hn
  · exact (encodeMailboxCursor_decode hne (hpad hne hz)).1 (h _ (hpad hne hz)) hz
  · exact (encodeMailboxCursor_decode hne hp).2 hz
  · -- the token its position is written as is another one
    have hlt : value s < 10 ^ maxMailboxCursorDigits :=
      (value_lt hz.1.2).trans_le (Nat.pow_le_pow_right (by norm_num) hz.1.1)
    have hd : decodeMailboxCursor (encodeMailboxCursor (value s)) = some (value s) := by
      rw [decodeMailboxCursor_encodeMailboxCursor, if_pos hlt]
    have hc := (encodeMailboxCursor_decode (decimal_ne_nil _) hd).1 rfl
    have hs := h _ (decimal_ne_nil _) _ hc (hpad hne hz) hd
    rw [hs] at hz
    exact hc hz
  · rw [← (encodeMailboxCursor_decode hne hp).2 hz, (encodeMailboxCursor_decode hne' hp').2 hz']

/-- `007` is accepted as position seven, which is written `7`. -/
theorem cursor_codec_padded : ¬ ∀ s ≠ [], ∀ n, decodeMailboxCursor s = some n →
    encodeMailboxCursor n = s := by
  intro h
  exact absurd (h ['0', '0', '7'] (by simp) 7 (by decide)) (by decide)

end Echolet
