/-
  Text that is pasted into the input row, chunk by chunk.

  The row takes a chunk of the terminal as one key, so what several chunks leave there is compared
  with what they leave as one.

  * `insert_text`: what a text does with the row;
  * `paste_row`: chunks that are inserted leave what their texts leave, one after another;
  * `paste_same_iff`: this is what one chunk leaves exactly if the whole fits into the row, or no
    part of it does.
-/
import Echolet.Tui.ComposeRow

namespace Echolet.Tui

namespace Shell

/-! ## A chunk of the terminal -/

/-- One step of the loop, where it is enabled. -/
def follow (p : Platform) (s : Shell) (e : Event) : Shell := (s.step p e).getD s

/-- A chunk with all its keys and what is waited for, before the next event. -/
def takeChunk (p : Platform) (s : Shell) (chunk : List ℕ) : Shell :=
  let s := s.follow p (.data chunk)
  let s := s.keys.foldl (fun s _ => s.follow p .key) s
  (List.range s.waiting).foldl (fun s _ => s.follow p .resume) s

def paste (p : Platform) (s : Shell) (chunks : List (List ℕ)) : Shell := chunks.foldl (takeChunk p) s

/-- The input row without the moment it was seen. -/
def row (s : Shell) : Option (InputField × JsString × ℕ) := s.state.input.map InputState.core

/-- The shell waits for keys, and an open row takes them. -/
structure Typing (s : Shell) (row : InputField × JsString × ℕ) : Prop where
  running : s.running = true
  keys : s.keys = []
  waiting : s.waiting = 0
  modal : s.state.modal = none
  row : s.row = some row

end Shell

/-- The text of a chunk. -/
def chunkText (chunk : List ℕ) : JsString := utf16Units (decodeUtf8 chunk)

/-- The row takes this chunk as text. -/
def Typed (p : Platform) (chunk : List ℕ) : Prop :=
  inputKey p (decodeKey p (chunkText chunk)) = some (.inputInsert (chunkText chunk))

/-- The row has room for this chunk. -/
def Fits (row : InputField × JsString × ℕ) (chunk : List ℕ) : Prop :=
  utf8BytesOf (row.2.1 ++ paintable (chunkText chunk)) ≤ row.2.2

instance (row : InputField × JsString × ℕ) (chunk : List ℕ) : Decidable (Fits row chunk) :=
  inferInstanceAs (Decidable (_ ≤ _))

/-- What `input-insert` makes of the row. -/
def inserted (row : InputField × JsString × ℕ) (chunk : List ℕ) : InputField × JsString × ℕ :=
  if paintable (chunkText chunk) = [] ∨ ¬ Fits row chunk then row
  else (row.1, row.2.1 ++ paintable (chunkText chunk), row.2.2)

/-! ## What is text -/

theorem head_unitsOf_pair {u v : ℕ} (hu : isHighSurrogate u = true) (hv : isLowSurrogate v = true) :
    (unitsOf (0x10000 + (u - 0xd800) * 0x400 + (v - 0xdc00))).head? = some u := by
  simp only [isHighSurrogate, isLowSurrogate, decide_eq_true_eq] at hu hv
  have hhigh : 0xd800 + (0x10000 + (u - 0xd800) * 0x400 + (v - 0xdc00) - 0x10000) / 0x400 = u := by
    omega
  rw [unitsOf, if_neg (by omega), hhigh]
  rfl

/-- The first unit of a text, through its first code point. -/
theorem head_codePoints {u : ℕ} {us : JsString} (h : u < 0x10000) :
    (((codePoints (u :: us)).head?.map unitsOf).getD []).head? = some u := by
  have hone : (unitsOf u).head? = some u := by rw [unitsOf, if_pos h]; rfl
  cases us with
  | nil => exact hone
  | cons v us =>
    rw [codePoints]
    split_ifs with hpair
    · rw [List.head?_cons, Option.map_some, Option.getD_some, head_unitsOf_pair hpair.1 hpair.2]
    · rw [List.head?_cons, Option.map_some, Option.getD_some, hone]

/-- A key that is no special one is a control key by its first unit. -/
theorem decodeKey_ctrl (p : Platform) {u : ℕ} {us : JsString} (h : u < 0x10000)
    (hspecial : u :: us ≠ [3] ∧ u :: us ≠ [27] ∧ u :: us ≠ [13] ∧ u :: us ≠ [10]) :
    (decodeKey p (u :: us)).ctrl = decide (0 < u ∧ u < 27) := by
  unfold decodeKey
  rw [if_neg hspecial.1, if_neg (show u :: us ≠ [esc] from hspecial.2.1),
    if_neg (not_or.2 hspecial.2.2)]
  simp only [@head_codePoints u us h]
  split_ifs with hctrl
  · exact (decide_eq_true hctrl).symm
  · exact (decide_eq_false hctrl).symm

theorem ctrlIntent_not_insert {p : Platform} {key : KeyEvent} {raw : JsString} :
    ctrlIntent p key ≠ some (.inputInsert raw) := fun h => by cases ctrlIntent_quit h

/-- Whether a key is text is a matter of its first unit, but for the deletion key alone. -/
theorem inputKey_insert_iff {p : Platform} {text : JsString} (h : Units text) :
    inputKey p (decodeKey p text) = some (.inputInsert text) ↔
      ∃ u us, text = u :: us ∧ (u = 0 ∨ 27 < u) ∧ text ≠ [127] := by
  cases text with
  | nil => simp [inputKey, decodeKey, codePoints, esc]
  | cons u us =>
    have hu : u < 0x10000 := h u List.mem_cons_self
    have hplain : ∀ key : KeyEvent, key.ctrl = false → key.sequence = u :: us →
        (inputKey p key = some (.inputInsert (u :: us)) ↔
          u ≠ 27 ∧ u :: us ≠ [13] ∧ u :: us ≠ [10] ∧ u :: us ≠ [127]) := by
      intro key hctrl hsequence
      unfold inputKey
      rw [hctrl, hsequence, if_neg Bool.false_ne_true, List.head?_cons]
      split_ifs with hesc hcancel hreturn hdelete hempty
      · simp [Option.some.inj hesc, esc]
      · simp [Option.some.inj hesc, esc]
      · rcases hreturn with hreturn | hreturn <;> simp [hreturn]
      · simp [hdelete]
      · cases hempty
      · simp only [not_or] at hreturn
        have hne : u ≠ 27 := fun heq => hesc (by rw [heq]; rfl)
        simp [hne, hreturn, hdelete]
    constructor
    · intro hinsert
      refine ⟨u, us, rfl, ?_⟩
      by_cases hspecial : u :: us ≠ [3] ∧ u :: us ≠ [27] ∧ u :: us ≠ [13] ∧ u :: us ≠ [10]
      · have hctrl := decodeKey_ctrl p hu hspecial
        by_cases hrange : 0 < u ∧ u < 27
        · unfold inputKey at hinsert
          rw [hctrl, decide_eq_true hrange, if_pos rfl] at hinsert
          exact absurd hinsert ctrlIntent_not_insert
        · rw [hplain _ (hctrl.trans (decide_eq_false hrange)) (decodeKey_sequence p _)] at hinsert
          exact ⟨by omega, hinsert.2.2.2⟩
      · exfalso
        simp only [ne_eq, not_and_or, not_not] at hspecial
        rcases hspecial with hkey | hkey | hkey | hkey
        all_goals
          rw [hkey] at hinsert
          simp [inputKey, decodeKey, esc] at hinsert
        exact ctrlIntent_not_insert hinsert
    · rintro ⟨v, vs, heq, hrange, hdelete⟩
      cases heq
      have hspecial : u :: us ≠ [3] ∧ u :: us ≠ [27] ∧ u :: us ≠ [13] ∧ u :: us ≠ [10] := by
        refine ⟨?_, ?_, ?_, ?_⟩ <;> (intro hkey; cases hkey; omega)
      have hctrl := decodeKey_ctrl p hu hspecial
      rw [hplain _ (hctrl.trans (decide_eq_false (by omega))) (decodeKey_sequence p _)]
      exact ⟨by omega, hspecial.2.2.1, hspecial.2.2.2, hdelete⟩

/-! ## What a text does with the row -/

namespace Shell

variable {p : Platform} {s : Shell} {row : InputField × JsString × ℕ}

theorem Typing.paint (h : Typing s row) : Typing s.paint row := by
  have hrow : s.paint.row = some row := (paint_keeps s).core.trans h.row
  unfold Shell.paint at hrow ⊢
  simp only at hrow ⊢
  split_ifs at hrow ⊢
  · exact ⟨h.running, h.keys, h.waiting, h.modal, hrow⟩
  · exact ⟨h.running, h.keys, h.waiting, by simp [h.modal], hrow⟩

/-- **What a text does with the row.** -/
theorem insert_text (h : Typing s row) {chunk : List ℕ} (htext : Typed p chunk) :
    Typing (s.handleKey p (chunkText chunk)) (inserted row chunk) := by
  obtain ⟨input, hinput, hcore⟩ := Option.map_eq_some_iff.1 h.row
  have hkey : mapKey p (decodeKey p (chunkText chunk)) s.state = some (.inputInsert (chunkText chunk)) := by
    unfold mapKey
    rw [h.modal, hinput]
    exact htext
  -- the reducer asks for nothing, so the key ends with its second frame
  have hstep : (reduce s.state (.inputInsert (chunkText chunk))).effects = [] ∧
      Typing (s.take (reduce s.state (.inputInsert (chunkText chunk)))) (inserted row chunk) := by
    subst hcore
    simp only [reduce, hinput, h.modal, Option.isSome_none, Bool.false_eq_true, false_or, inserted, Fits,
      InputState.core, not_le]
    split_ifs with hrefused
    · exact ⟨rfl, h.running, h.keys, h.waiting, h.modal, h.row⟩
    · exact ⟨rfl, h.running, h.keys, h.waiting, rfl, rfl⟩
  unfold handleKey
  simp only [hkey, hstep.1, resume]
  have hpainted := hstep.2.paint
  rw [if_pos hpainted.running]
  exact hpainted.paint

theorem takeChunk_text (h : Typing s row) {chunk : List ℕ} (htext : chunk = [] ∨ Typed p chunk) :
    Typing (s.takeChunk p chunk) (inserted row chunk) := by
  obtain ⟨input, hinput, -⟩ := Option.map_eq_some_iff.1 h.row
  have hdata : s.follow p (.data chunk) = { s with keys := [chunkText chunk] } := by
    simp [follow, step, h.keys, h.waiting, readChunk, h.running, hinput, chunkText]
  have hkey : ({ s with keys := [chunkText chunk] } : Shell).follow p .key =
      { s with keys := [] }.handleKey p (chunkText chunk) := by
    simp [follow, step, h.running]
  have hsame : ({ s with keys := [] } : Shell) = s := by rw [← h.keys]
  have htyping : Typing (s.handleKey p (chunkText chunk)) (inserted row chunk) := by
    rcases htext with rfl | htext
    · have hnone : mapKey p (decodeKey p (chunkText [])) s.state = none := by
        unfold mapKey
        rw [h.modal, hinput]
        rfl
      have hrow : inserted row [] = row := if_pos (Or.inl rfl)
      rw [handleKey, hnone, hrow]
      exact h
    · exact insert_text h htext
  rw [takeChunk, hdata]
  simp only [List.foldl_cons, List.foldl_nil, hkey, hsame]
  rw [htyping.waiting]
  exact htyping

/-- Chunks of text, one after another. -/
theorem paste_row {chunks : List (List ℕ)} (h : Typing s row)
    (htext : ∀ chunk ∈ chunks, chunk = [] ∨ Typed p chunk) :
    Typing (s.paste p chunks) (chunks.foldl inserted row) := by
  induction chunks generalizing s row with
  | nil => exact h
  | cons chunk chunks ih =>
    rw [List.forall_mem_cons] at htext
    exact ih (takeChunk_text h htext.1) htext.2

end Shell

/-! ## Chunks and the whole -/

theorem head_not_low (t : Text) {u : ℕ} {us : JsString} (h : utf16Units t = u :: us) :
    isLowSurrogate u = false := by
  cases t with
  | nil => cases h
  | cons c t =>
    have hv : c.toNat < 0xd800 ∨ 0xdfff < c.toNat ∧ c.toNat < 0x110000 := c.valid
    rw [utf16Units_eq, List.map_cons, List.flatMap_cons, unitsOf] at h
    simp only [isLowSurrogate, decide_eq_false_iff_not]
    split_ifs at h
    · cases h
      omega
    · cases h
      omega

/-- A text behind a string does not complete a half that stands there. -/
theorem codePoints_append_text (b : JsString) (t : Text) :
    codePoints (b ++ utf16Units t) = codePoints b ++ t.map Char.toNat := by
  induction b using codePoints.induct with
  | case1 => exact codePoints_utf16Units t
  | case2 u =>
    cases ht : utf16Units t with
    | nil =>
      have hnil : t.map Char.toNat = [] := by rw [← codePoints_utf16Units, ht]; rfl
      rw [hnil]
      rfl
    | cons v us =>
      have hlow := head_not_low t ht
      show codePoints (u :: v :: us) = u :: t.map Char.toNat
      rw [← codePoints_utf16Units, ht, codePoints, hlow]
      exact if_neg fun h => Bool.false_ne_true h.2
  | case3 u v us hpair ih =>
    show codePoints (u :: v :: (us ++ utf16Units t)) = _
    rw [codePoints, if_pos hpair, codePoints, if_pos hpair, ih]
    rfl
  | case4 u v us hpair ih =>
    show codePoints (u :: v :: (us ++ utf16Units t)) = _
    rw [codePoints, if_neg hpair, codePoints, if_neg hpair]
    exact congrArg (u :: ·) ih

theorem utf8BytesOf_append_text (b : JsString) (t : Text) :
    utf8BytesOf (b ++ utf16Units t) = utf8BytesOf b + utf8BytesOf (utf16Units t) := by
  simp only [utf8BytesOf, codePoints_append_text, codePoints_utf16Units, List.map_append, List.sum_append]

/-- What is painted of a chunk. -/
def paintedText (chunk : List ℕ) : Text := (decodeUtf8 chunk).filter fun c => !steersTheDisplay c.toNat

theorem paintable_chunkText (chunk : List ℕ) :
    paintable (chunkText chunk) = utf16Units (paintedText chunk) := by
  rw [paintable, chunkText, codePoints_utf16Units, utf16Units_eq, paintedText, List.filter_map]
  rfl

theorem utf16Units_append (s t : Text) : utf16Units (s ++ t) = utf16Units s ++ utf16Units t := by
  simp only [utf16Units_eq, List.map_append, List.flatMap_append]

theorem utf16Units_eq_nil {t : Text} : utf16Units t = [] ↔ t = [] := by
  refine ⟨fun h => ?_, fun h => by rw [h]; rfl⟩
  have hpoints := codePoints_utf16Units t
  rw [h] at hpoints
  exact List.map_eq_nil_iff.1 hpoints.symm

variable {row : InputField × JsString × ℕ} {chunks : List (List ℕ)}

theorem fits_iff {chunk : List ℕ} : Fits row chunk ↔
    utf8BytesOf row.2.1 + utf8BytesOf (utf16Units (paintedText chunk)) ≤ row.2.2 := by
  rw [Fits, paintable_chunkText, utf8BytesOf_append_text]

/-- What is left of a row by chunks that all fit. -/
theorem foldl_inserted_all (hfits : utf8BytesOf row.2.1 +
    utf8BytesOf (utf16Units (chunks.flatMap paintedText)) ≤ row.2.2) :
    chunks.foldl inserted row =
      (row.1, row.2.1 ++ utf16Units (chunks.flatMap paintedText), row.2.2) := by
  induction chunks generalizing row with
  | nil => simp [utf16Units]
  | cons chunk chunks ih =>
    rw [List.flatMap_cons, utf16Units_append, utf8BytesOf_append_text] at hfits
    have hone : Fits row chunk := fits_iff.2 (by omega)
    have hstep : inserted row chunk = (row.1, row.2.1 ++ utf16Units (paintedText chunk), row.2.2) := by
      unfold inserted
      rw [paintable_chunkText]
      split_ifs with hempty
      · rcases hempty with hempty | hempty
        · rw [hempty, List.append_nil]
        · exact absurd hone hempty
      · rfl
    rw [List.foldl_cons, hstep, ih, List.flatMap_cons, utf16Units_append, List.append_assoc]
    show utf8BytesOf (row.2.1 ++ utf16Units (paintedText chunk)) + _ ≤ row.2.2
    rw [utf8BytesOf_append_text]
    omega

/-- A row only grows. -/
theorem foldl_inserted_begins (chunks : List (List ℕ)) (row : InputField × JsString × ℕ) :
    row.2.1 <+: (chunks.foldl inserted row).2.1 := by
  induction chunks generalizing row with
  | nil => exact List.prefix_refl _
  | cons chunk chunks ih =>
    refine List.IsPrefix.trans ?_ (ih (inserted row chunk))
    unfold inserted
    split_ifs
    · exact List.prefix_refl _
    · exact List.prefix_append _ _

theorem foldl_inserted_eq_self : chunks.foldl inserted row = row ↔
    ∀ chunk ∈ chunks, paintable (chunkText chunk) = [] ∨ ¬ Fits row chunk := by
  induction chunks with
  | nil => simp
  | cons chunk chunks ih =>
    rw [List.forall_mem_cons, List.foldl_cons]
    by_cases hrefused : paintable (chunkText chunk) = [] ∨ ¬ Fits row chunk
    · have hstep : inserted row chunk = row := if_pos hrefused
      rw [hstep, ih]
      exact (and_iff_right hrefused).symm
    · refine ⟨fun hsame => ?_, fun h => absurd h.1 hrefused⟩
      exfalso
      have hstep : inserted row chunk = (row.1, row.2.1 ++ paintable (chunkText chunk), row.2.2) :=
        if_neg hrefused
      have hbegins := (foldl_inserted_begins chunks (inserted row chunk)).length_le
      rw [hsame, hstep, List.length_append] at hbegins
      have hpos := List.length_pos_of_ne_nil (not_or.1 hrefused).1
      omega

/-- The parts of a text are no longer than the text. -/
theorem painted_le {chunk : List ℕ} (h : chunk ∈ chunks) :
    utf8BytesOf (utf16Units (paintedText chunk)) ≤
      utf8BytesOf (utf16Units (chunks.flatMap paintedText)) := by
  obtain ⟨before, after, rfl⟩ := List.append_of_mem h
  rw [List.flatMap_append, List.flatMap_cons, utf16Units_append, utf16Units_append,
    ← utf16Units_append, utf8BytesOf_append_text, utf16Units_append, utf8BytesOf_append_text]
  omega

theorem paintedText_flatten (h : ∀ chunk ∈ chunks, IsUtf8 chunk) :
    paintedText chunks.flatten = chunks.flatMap paintedText := by
  rw [paintedText, ← decode_chunks h, List.filter_flatMap]
  rfl

/-- **Chunks and the whole.**  Both leave the same row exactly if the whole fits, or no part does. -/
theorem foldl_inserted_whole (h : ∀ chunk ∈ chunks, IsUtf8 chunk) :
    chunks.foldl inserted row = inserted row chunks.flatten ↔ Fits row chunks.flatten ∨
      ∀ chunk ∈ chunks, paintable (chunkText chunk) = [] ∨ ¬ Fits row chunk := by
  by_cases hfits : Fits row chunks.flatten
  · have hbound := fits_iff.1 hfits
    rw [paintedText_flatten h] at hbound
    have hwhole : inserted row chunks.flatten = chunks.foldl inserted row := by
      rw [foldl_inserted_all hbound]
      unfold inserted
      rw [paintable_chunkText, paintedText_flatten h]
      split_ifs with hempty
      · rcases hempty with hempty | hempty
        · rw [hempty, List.append_nil]
        · exact absurd hfits hempty
      · rfl
    exact iff_of_true hwhole.symm (Or.inl hfits)
  · have hwhole : inserted row chunks.flatten = row := if_pos (Or.inr hfits)
    rw [hwhole, foldl_inserted_eq_self]
    simp [hfits]

/-- Texts that are inserted are inserted as one. -/
theorem typed_flatten {p : Platform} (h : ∀ chunk ∈ chunks, IsUtf8 chunk)
    (htext : ∀ chunk ∈ chunks, chunk = [] ∨ Typed p chunk) :
    chunks.flatten = [] ∨ Typed p chunks.flatten := by
  induction chunks with
  | nil => exact Or.inl rfl
  | cons chunk chunks ih =>
    rw [List.forall_mem_cons] at h htext
    rcases htext.1 with rfl | htyped
    · exact ih h.2 htext.2
    · right
      obtain ⟨u, us, hchunk, hfirst, hdelete⟩ := (inputKey_insert_iff (units_utf16Units _)).1 htyped
      rw [hchunk] at hdelete
      have hwhole : chunkText (chunk ++ chunks.flatten) = u :: (us ++ chunkText chunks.flatten) := by
        rw [chunkText, h.1.decode_append, utf16Units_append, hchunk]
        rfl
      refine (inputKey_insert_iff (units_utf16Units _)).2
        ⟨u, us ++ chunkText chunks.flatten, hwhole, hfirst, fun hsame => ?_⟩
      rw [← chunkText, List.flatten_cons, hwhole, List.cons.injEq, List.append_eq_nil_iff] at hsame
      exact hdelete (by rw [hsame.1, hsame.2.1])

namespace Shell

/-- The row has room for all of it, or for no part. -/
def AllOrNone (row : InputField × JsString × ℕ) (chunks : List (List ℕ)) : Prop :=
  Fits row chunks.flatten ∨ ∀ chunk ∈ chunks, paintable (chunkText chunk) = [] ∨ ¬ Fits row chunk

/-- **Pasting**: chunks of text leave what they leave as one chunk, exactly if the row has room for
    all of it or for no part. -/
theorem paste_same_iff {p : Platform} {s : Shell} (hs : Typing s row)
    (h : ∀ chunk ∈ chunks, IsUtf8 chunk) (htext : ∀ chunk ∈ chunks, chunk = [] ∨ Typed p chunk) :
    (s.paste p chunks).row = (s.paste p [chunks.flatten]).row ↔ AllOrNone row chunks := by
  have hwhole : ∀ chunk ∈ [chunks.flatten], chunk = [] ∨ Typed p chunk := by
    intro chunk hmem
    rw [List.mem_singleton.1 hmem]
    exact typed_flatten h htext
  rw [(paste_row hs htext).row, (paste_row hs hwhole).row, Option.some.injEq]
  exact foldl_inserted_whole h

end Shell

end Echolet.Tui
