/-
  Texts on the screen (`text.ts`).

  * `clipLine`, `padOrClip` and `labelled` count a width in code points; `padOrClip_width`;
  * a text is `Fine` when no unit of it steers the display, and then no code point of it does
    (`Fine.quiet`); what passed `paintable` is fine (`paintable_fine`).
-/
import Mathlib.Data.List.Chain
import Echolet.Tui.Keys

namespace Echolet.Tui

/-- Code points joined to a string. -/
def join (points : List ℕ) : JsString := points.flatMap unitsOf

def clipLine (text : JsString) (width : ℕ) : JsString :=
  if (codePoints text).length ≤ width then text else join ((codePoints text).take width)

def padOrClip (text : JsString) (width : ℕ) : JsString :=
  if width ≤ (codePoints text).length then join ((codePoints text).take width)
  else text ++ List.replicate (width - (codePoints text).length) 32

/-- `label` in a fixed gutter, then `value`. -/
def labelled (label : String) (value : JsString) : JsString := padOrClip (js label) 16 ++ value

/-- The first `T` is a blank. -/
def withBlank : Text → Text
  | [] => []
  | 'T' :: t => ' ' :: t
  | c :: t => c :: withBlank t

/-- Slices of this length, one after the other; the last one may be shorter. -/
def slices (n : ℕ) (points : List ℕ) : List (List ℕ) :=
  (List.range ((points.length + n - 1) / n)).map fun k => (points.drop (k * n)).take n

def formatInstant : Option ℕ → JsString
  | none => js "never"
  | some atMs => utf16Units (withBlank ((toISOString atMs).take 19)) ++ js "Z"

/-! ## Joining -/

/-- Points that stay apart when they are joined. -/
def Apart (p q : ℕ) : Prop := ¬ (isHighSurrogate p = true ∧ isLowSurrogate q = true)

theorem codePoints_head {u : ℕ} {us : List ℕ} (h : isLowSurrogate u = false) :
    ∃ p ps, codePoints (u :: us) = p :: ps ∧ isLowSurrogate p = false := by
  cases us with
  | nil => exact ⟨u, [], rfl, h⟩
  | cons v us =>
    rw [codePoints]
    split_ifs
    · refine ⟨_, _, rfl, ?_⟩
      rw [isLowSurrogate, decide_eq_false_iff_not]
      omega
    · exact ⟨u, _, rfl, h⟩

/-- No two code points of a string are the halves of one. -/
theorem codePoints_apart (us : JsString) : (codePoints us).IsChain Apart := by
  induction us using codePoints.induct with
  | case1 => exact List.isChain_nil
  | case2 u => exact List.isChain_singleton u
  | case3 u v us hpair ih =>
    rw [codePoints, if_pos hpair]
    refine List.isChain_cons.2 ⟨fun q _ hsplit => ?_, ih⟩
    have hhigh := hsplit.1
    rw [isHighSurrogate, decide_eq_true_eq] at hhigh
    omega
  | case4 u v us hpair ih =>
    rw [codePoints, if_neg hpair]
    refine List.isChain_cons.2 ⟨fun q hq hsplit => ?_, ih⟩
    cases hv : isLowSurrogate v with
    | true => exact hpair ⟨hsplit.1, hv⟩
    | false =>
      obtain ⟨p, ps, hps, hlow⟩ := @codePoints_head v us hv
      rw [hps, List.head?_cons, Option.mem_def, Option.some.injEq] at hq
      rw [hq, hsplit.2] at hlow
      cases hlow

/-- The units of a high half stand before what is no low half. -/
theorem codePoints_join_cons {p : ℕ} (hp : p < 0x110000) {ps : List ℕ}
    (hps : ∀ q ∈ ps, q < 0x110000) (h : ∀ q ∈ ps.head?, Apart p q) : codePoints (unitsOf p ++ join ps) = p :: codePoints (join ps) := by
  by_cases hs : isSurrogate p = true
  · rw [isSurrogate, decide_eq_true_eq] at hs
    rw [unitsOf, if_pos (by omega), List.singleton_append]
    by_cases hhigh : isHighSurrogate p = true
    · cases ps with
      | nil => rfl
      | cons q ps =>
        have hq : isLowSurrogate q = false := by
          by_contra hlow
          exact h q rfl ⟨hhigh, by simpa using hlow⟩
        -- the first unit of `q` is `q`, or a high half
        have hfirst : ∃ u us, join (q :: ps) = u :: us ∧ isLowSurrogate u = false := by
          rw [join, List.flatMap_cons, unitsOf]
          split_ifs with hbmp
          · exact ⟨q, _, rfl, hq⟩
          · have hlt := hps q List.mem_cons_self
            refine ⟨_, _, rfl, ?_⟩
            rw [isLowSurrogate, decide_eq_false_iff_not]
            omega
        obtain ⟨u, us, hus, hlow⟩ := hfirst
        rw [hus, codePoints, if_neg fun hboth => by rw [hlow] at hboth; cases hboth.2]
    · exact codePoints_cons (by simpa using hhigh) _
  · exact codePoints_unitsOf (by simpa using hs) hp _

theorem codePoints_join : ∀ {ps : List ℕ}, (∀ p ∈ ps, p < 0x110000) → ps.IsChain Apart →
    codePoints (join ps) = ps
  | [], _, _ => rfl
  | p :: ps, hp, hc => by
    obtain ⟨hhead, hc⟩ := List.isChain_cons.1 hc
    have hps : ∀ q ∈ ps, q < 0x110000 := fun q hq => hp q (List.mem_cons_of_mem p hq)
    have ih := codePoints_join hps hc
    show codePoints (unitsOf p ++ join ps) = _
    rw [codePoints_join_cons (hp p List.mem_cons_self) hps hhead, ih]

/-! ## Fine texts -/

/-- No unit of a text steers the display. -/
def Fine (text : JsString) : Prop := ∀ u ∈ text, u < 0x10000 ∧ steersTheDisplay u = false

instance (text : JsString) : Decidable (Fine text) :=
  inferInstanceAs (Decidable (∀ u ∈ text, u < 0x10000 ∧ steersTheDisplay u = false))

/-- A string of UTF-16 units. -/
def Units (text : JsString) : Prop := ∀ u ∈ text, u < 0x10000

theorem units_unitsOf {n : ℕ} (h : n < 0x110000) : Units (unitsOf n) := by
  intro u hu
  rw [unitsOf] at hu
  split_ifs at hu with hbmp
  · rw [List.mem_singleton.1 hu]
    exact hbmp
  · have hhigh : (n - 0x10000) / 0x400 < 0x400 := Nat.div_lt_of_lt_mul (by omega)
    have hlow : (n - 0x10000) % 0x400 < 0x400 := Nat.mod_lt _ (by decide)
    rcases List.mem_cons.1 hu with hu | hu
    · omega
    · rw [List.mem_singleton] at hu
      omega

theorem units_join {points : List ℕ} (h : ∀ n ∈ points, n < 0x110000) : Units (join points) := by
  intro u hu
  obtain ⟨n, hn, hu⟩ := List.mem_flatMap.1 hu
  exact units_unitsOf (h n hn) u hu

theorem units_utf16Units (t : Text) : Units (utf16Units t) := by
  intro u hu
  rw [utf16Units_eq] at hu
  refine units_join (fun n hn => ?_) u hu
  obtain ⟨c, -, rfl⟩ := List.mem_map.1 hn
  have hv : c.toNat < 0xd800 ∨ 0xdfff < c.toNat ∧ c.toNat < 0x110000 := c.valid
  omega

theorem Units.append {s t : JsString} (hs : Units s) (ht : Units t) : Units (s ++ t) := by
  intro u hu
  rcases List.mem_append.1 hu with hu | hu
  · exact hs u hu
  · exact ht u hu

theorem Units.take {text : JsString} (h : Units text) (width : ℕ) :
    Units (join ((codePoints text).take width)) :=
  units_join fun p hp => codePoints_lt h p (List.mem_of_mem_take hp)

theorem Units.clipLine {text : JsString} (h : Units text) (width : ℕ) :
    Units (clipLine text width) := by
  unfold Tui.clipLine
  split_ifs
  · exact h
  · exact h.take width

theorem Units.padOrClip {text : JsString} (h : Units text) (width : ℕ) :
    Units (padOrClip text width) := by
  unfold Tui.padOrClip
  split_ifs
  · exact h.take width
  · refine h.append fun u hu => ?_
    rw [List.eq_of_mem_replicate hu]
    decide

theorem Fine.units {text : JsString} (h : Fine text) : Units text := fun u hu => (h u hu).1

theorem fine_nil : Fine [] := fun u hu => by cases hu

theorem Fine.append {s t : JsString} (hs : Fine s) (ht : Fine t) : Fine (s ++ t) := by
  intro u hu
  rcases List.mem_append.1 hu with hu | hu
  · exact hs u hu
  · exact ht u hu

theorem fine_append_iff {s t : JsString} : Fine (s ++ t) ↔ Fine s ∧ Fine t := by
  refine ⟨fun h => ⟨fun u hu => ?_, fun u hu => ?_⟩, fun h => h.1.append h.2⟩
  · exact h u (List.mem_append_left t hu)
  · exact h u (List.mem_append_right s hu)

theorem Fine.of_subset {s t : JsString} (hs : Fine s) (h : t ⊆ s) : Fine t := fun u hu => hs u (h hu)

theorem fine_replicate (n : ℕ) : Fine (List.replicate n 32) := by
  intro u hu
  rw [List.eq_of_mem_replicate hu]
  decide

/-- Above the units no point steers. -/
theorem steers_of_le {n : ℕ} (h : 0x10000 ≤ n) : steersTheDisplay n = false := by
  simp only [steersTheDisplay, Bool.or_eq_false_iff, decide_eq_false_iff_not, beq_eq_false_iff_ne]
  omega

/-- **No code point of a fine text steers the display.** -/
theorem Fine.quiet {text : JsString} (h : Fine text) :
    ∀ n ∈ codePoints text, steersTheDisplay n = false := by
  intro n hn
  by_cases hbmp : n < 0x10000
  · have hmem : n ∈ (codePoints text).flatMap unitsOf := by
      refine List.mem_flatMap.2 ⟨n, hn, ?_⟩
      rw [unitsOf, if_pos hbmp]
      exact List.mem_singleton_self n
    rw [flatMap_codePoints h.units] at hmem
    exact (h n hmem).2
  · exact steers_of_le (by omega)

/-- Some code points of a fine text, joined. -/
theorem Fine.join {text : JsString} (h : Fine text) {points : List ℕ}
    (hpoints : points ⊆ codePoints text) : Fine (join points) := by
  refine h.of_subset fun u hu => ?_
  obtain ⟨n, hn, hu⟩ := List.mem_flatMap.1 hu
  rw [← flatMap_codePoints h.units]
  exact List.mem_flatMap.2 ⟨n, hpoints hn, hu⟩

theorem Fine.clipLine {text : JsString} (h : Fine text) (width : ℕ) : Fine (clipLine text width) := by
  unfold Tui.clipLine
  split_ifs
  · exact h
  · exact h.join (List.take_subset _ _)

theorem Fine.padOrClip {text : JsString} (h : Fine text) (width : ℕ) :
    Fine (padOrClip text width) := by
  unfold Tui.padOrClip
  split_ifs
  · exact h.join (List.take_subset _ _)
  · exact h.append (fine_replicate _)

theorem Fine.labelled {label : String} {value : JsString} (hl : Fine (js label)) (hv : Fine value) :
    Fine (labelled label value) := (hl.padOrClip 16).append hv

/-- No half of a pair steers. -/
theorem half_quiet {u : ℕ} (h : 0xd800 ≤ u ∧ u < 0xe000) : steersTheDisplay u = false := by
  simp only [steersTheDisplay, Bool.or_eq_false_iff, decide_eq_false_iff_not, beq_eq_false_iff_ne]
  omega

/-- What passed the filter is fine. -/
theorem paintable_fine {text : JsString} (h : Units text) : Fine (paintable text) := by
  intro u hu
  obtain ⟨n, hn, hu⟩ := List.mem_flatMap.1 hu
  obtain ⟨hn, hquiet⟩ := List.mem_filter.1 hn
  have hlt := codePoints_lt h n hn
  rw [unitsOf] at hu
  split_ifs at hu with hbmp
  · rw [List.mem_singleton.1 hu]
    exact ⟨hbmp, Bool.not_eq_true' _ ▸ hquiet⟩
  · have hhigh : (n - 0x10000) / 0x400 < 0x400 := Nat.div_lt_of_lt_mul (by omega)
    have hlow : (n - 0x10000) % 0x400 < 0x400 := Nat.mod_lt _ (by decide)
    have hhalf : 0xd800 ≤ u ∧ u < 0xe000 := by
      rcases List.mem_cons.1 hu with hu | hu
      · omega
      · rw [List.mem_singleton] at hu
        omega
    exact ⟨by omega, half_quiet hhalf⟩

/-- Printable ASCII. -/
def Printable (t : Text) : Prop := ∀ c ∈ t, 0x20 ≤ c.toNat ∧ c.toNat < 0x7f

theorem Printable.append {s t : Text} (hs : Printable s) (ht : Printable t) : Printable (s ++ t) := by
  intro c hc
  rcases List.mem_append.1 hc with hc | hc
  · exact hs c hc
  · exact ht c hc

theorem Printable.cons {c : Char} {t : Text} (hc : 0x20 ≤ c.toNat ∧ c.toNat < 0x7f) (ht : Printable t) :
    Printable (c :: t) := by
  intro d hd
  rcases List.mem_cons.1 hd with rfl | hd
  · exact hc
  · exact ht d hd

theorem printable_nil : Printable [] := fun c hc => by cases hc

theorem Printable.of_subset {s t : Text} (hs : Printable s) (h : t ⊆ s) : Printable t :=
  fun c hc => hs c (h hc)

theorem printable_digits {t : Text} (h : ∀ c ∈ t, c.isDigit = true) : Printable t := by
  intro c hc
  have hrange := toNat_of_isDigit (h c hc)
  omega

theorem printable_decimal (n : ℕ) : Printable (decimal n) :=
  printable_digits fun _ hc => isDigit_of_mem_decimal hc

theorem printable_padded (w n : ℕ) : Printable (padded w n) :=
  printable_digits fun _ hc => isDigit_of_mem_padded hc

theorem printable_zeros (n : ℕ) : Printable (List.replicate n '0') :=
  printable_digits fun c hc => by rw [List.eq_of_mem_replicate hc]; rfl

theorem Printable.fine {t : Text} (h : Printable t) : Fine (utf16Units t) := by
  intro u hu
  rw [utf16Units_eq] at hu
  obtain ⟨n, hn, hu⟩ := List.mem_flatMap.1 hu
  obtain ⟨c, hc, rfl⟩ := List.mem_map.1 hn
  have hrange := h c hc
  rw [unitsOf, if_pos (by omega), List.mem_singleton] at hu
  rw [hu]
  refine ⟨by omega, ?_⟩
  simp only [steersTheDisplay, Bool.or_eq_false_iff, decide_eq_false_iff_not, beq_eq_false_iff_ne]
  omega

theorem fine_decimal (n : ℕ) : Fine (utf16Units (decimal n)) := (printable_decimal n).fine

/-- The digits of a number, its point, its sign and its exponent. -/
theorem printable_place {digits : Text} (h : Printable digits) (n : ℤ) :
    Printable (Number.place digits n) := by
  have htake : ∀ k, Printable (digits.take k) := fun k => h.of_subset (List.take_subset _ _)
  have hdrop : ∀ k, Printable (digits.drop k) := fun k => h.of_subset (List.drop_subset _ _)
  unfold Number.place
  simp only
  split_ifs
  · exact h.append (printable_zeros _)
  · exact (htake _).append (.cons (by decide) (hdrop _))
  · exact .append (.cons (by decide) (.cons (by decide) (printable_zeros _))) h
  · exact .append h (.cons (by decide) (.cons (by decide) (printable_decimal _)))
  · exact .append h (.cons (by decide) (.cons (by decide) (printable_decimal _)))
  · exact .append ((htake _).append (.cons (by decide) (hdrop _)))
      (.cons (by decide) (.cons (by decide) (printable_decimal _)))
  · exact .append ((htake _).append (.cons (by decide) (hdrop _)))
      (.cons (by decide) (.cons (by decide) (printable_decimal _)))

theorem printable_magnitudeText (q : ℚ≥0) : Printable (Number.magnitudeText q) := by
  unfold Number.magnitudeText
  split_ifs
  · exact printable_decimal _
  · refine printable_place ?_ _
    unfold Number.shortest
    simp only
    split
    · exact (printable_decimal _).of_subset (List.rdropWhile_prefix _ _).subset
    · exact printable_decimal 0

theorem fine_number (x : Number) : Fine (utf16Units x.text) := by
  refine Printable.fine ?_
  show Printable (Number.signed x.negative x.magnitude)
  unfold Number.signed
  split_ifs
  · exact .cons (by decide) (printable_magnitudeText _)
  · exact printable_magnitudeText _

theorem printable_toISOString (ms : ℕ) : Printable (toISOString ms) := by
  have hyear : ∀ year : ℕ, Printable (if year ≤ 9999 then padded 4 year else '+' :: padded 6 year) := by
    intro year
    split_ifs
    · exact printable_padded _ _
    · exact .cons (by decide) (printable_padded _ _)
  have hthen : ∀ {s t : Text} {c : Char}, Printable s → 0x20 ≤ c.toNat ∧ c.toNat < 0x7f →
      Printable t → Printable (s ++ c :: t) := fun hs hc ht => hs.append (.cons hc ht)
  unfold toISOString
  refine hthen (hthen (hthen (hthen (hthen (hthen (hthen (hyear _) ?_ ?_) ?_ ?_) ?_ ?_) ?_ ?_) ?_ ?_)
    ?_ ?_) ?_ printable_nil
  all_goals
    first
      | exact printable_padded _ _
      | decide

theorem withBlank_printable : ∀ {t : Text}, Printable t → Printable (withBlank t)
  | [], h => h
  | c :: t, h => by
    have htail : Printable t := h.of_subset (List.subset_cons_self c t)
    unfold withBlank
    split
    · exact printable_nil
    · next heq =>
      cases heq
      exact .cons (by decide) htail
    · next heq =>
      cases heq
      exact .cons (h _ List.mem_cons_self) (withBlank_printable htail)

theorem fine_instant (atMs : Option ℕ) : Fine (formatInstant atMs) := by
  cases atMs with
  | none => decide
  | some ms =>
    have hiso : Printable ((toISOString ms).take 19) :=
      (printable_toISOString ms).of_subset (List.take_subset _ _)
    exact (withBlank_printable hiso).fine.append (by decide)

/-! ## Widths -/

theorem join_replicate (n : ℕ) : join (List.replicate n 32) = List.replicate n 32 := by
  induction n with
  | zero => rfl
  | succ n ih =>
    rw [List.replicate_succ, join, List.flatMap_cons]
    exact congrArg _ ih

theorem codePoints_append_blank {text : JsString} (h : Units text) (n : ℕ) :
    codePoints (text ++ List.replicate n 32) = codePoints text ++ List.replicate n 32 := by
  have hjoin : text ++ List.replicate n 32 = join (codePoints text ++ List.replicate n 32) := by
    rw [join, List.flatMap_append, flatMap_codePoints h]
    exact congrArg _ (join_replicate n).symm
  rw [hjoin]
  refine codePoints_join (fun p hp => ?_) (List.isChain_append.2 ⟨codePoints_apart text, ?_, ?_⟩)
  · rcases List.mem_append.1 hp with hp | hp
    · exact codePoints_lt h p hp
    · rw [List.eq_of_mem_replicate hp]
      decide
  · exact List.isChain_replicate_of_rel n (by rintro ⟨h, -⟩; cases h)
  · intro p _ q hq
    rw [List.eq_of_mem_replicate (List.mem_of_mem_head? hq)]
    rintro ⟨-, h⟩
    cases h

theorem codePoints_padOrClip {text : JsString} (h : Units text) (width : ℕ) :
    codePoints (padOrClip text width) = (codePoints text).take width ++
      List.replicate (width - (codePoints text).length) 32 := by
  unfold padOrClip
  split_ifs with hlong
  · rw [codePoints_join (fun p hp => codePoints_lt h p (List.mem_of_mem_take hp))
      ((codePoints_apart text).take width), Nat.sub_eq_zero_of_le hlong, List.replicate_zero,
      List.append_nil]
  · rw [codePoints_append_blank h, List.take_of_length_le (by omega)]

/-- **A line of exactly this width.** -/
theorem padOrClip_width {text : JsString} (h : Units text) (width : ℕ) :
    (codePoints (padOrClip text width)).length = width := by
  rw [codePoints_padOrClip h, List.length_append, List.length_take, List.length_replicate]
  omega

end Echolet.Tui
