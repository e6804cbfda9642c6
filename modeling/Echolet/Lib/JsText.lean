/-
  The texts `JSON.stringify` writes for objects of texts and integers, and their lengths.

  * `quoteText` is the text of a string, two bytes longer than its escapes (`escapedBytes`);
  * `flatText` is the text of a flat object, whose bytes `utf8Length_flatText` counts.
-/
import Echolet.Lib.Document

namespace Echolet

/-- `JSON.stringify` of a text. -/
def quoteText (t : Text) : Text := Document.quoteUnits (utf16Units t)

/-- The bytes of the escapes of a text. -/
def escapedBytes (t : Text) : ℕ := (t.map fun c => utf8Length (Document.escapePoint c.toNat)).sum

theorem quoteText_eq (t : Text) :
    quoteText t = '"' :: t.flatMap (fun c => Document.escapePoint c.toNat) ++ ['"'] := by
  rw [quoteText, Document.quoteUnits, codePoints_utf16Units, List.flatMap_map]

theorem utf8Length_flatMap (f : Char → Text) (t : Text) :
    utf8Length (t.flatMap f) = (t.map fun c => utf8Length (f c)).sum := by
  induction t with
  | nil => rfl
  | cons c t ih => rw [List.flatMap_cons, utf8Length_append, ih, List.map_cons, List.sum_cons]

theorem utf8Length_quoteText (t : Text) : utf8Length (quoteText t) = 2 + escapedBytes t := by
  rw [quoteText_eq, List.cons_append, utf8Length_cons, utf8Length_append, utf8Length_flatMap]
  change 1 + (escapedBytes t + 1) = _
  omega

/-- A character that is written as it is. -/
def Verbatim (c : Char) : Prop := 0x20 ≤ c.toNat ∧ c.toNat < 0x80 ∧ c ≠ '"' ∧ c ≠ '\\'

instance (c : Char) : Decidable (Verbatim c) := inferInstanceAs (Decidable (_ ∧ _))

theorem escapePoint_verbatim {c : Char} (h : Verbatim c) : Document.escapePoint c.toNat = [c] := by
  obtain ⟨hlow, hhigh, hquote, hback⟩ := h
  have hne : ∀ d : Char, c ≠ d → c.toNat ≠ d.toNat := fun d hd he => hd (Char.toNat_inj.1 he)
  have h1 : c.toNat ≠ 0x22 := hne '"' hquote
  have h2 : c.toNat ≠ 0x5c := hne '\\' hback
  rw [Document.escapePoint, if_neg h1, if_neg h2, if_neg (by omega), if_neg (by omega),
    if_neg (by omega), if_neg (by omega), if_neg (by omega), if_neg, Char.ofNat_toNat]
  rw [Char.not_surrogate]
  simp only [Bool.false_eq_true, or_false]
  omega

theorem utf8Size_of_ascii {c : Char} (h : c.toNat < 0x80) : c.utf8Size = 1 := by
  rw [Char.utf8Size_eq_one_iff, UInt32.le_iff_toNat_le]
  exact Nat.le_of_lt_succ h

theorem escapedBytes_verbatim {t : Text} (h : ∀ c ∈ t, Verbatim c) : escapedBytes t = t.length := by
  induction t with
  | nil => rfl
  | cons c t ih =>
    have hc := h c List.mem_cons_self
    rw [escapedBytes, List.map_cons, List.sum_cons, escapePoint_verbatim hc, utf8Length_cons,
      utf8Size_of_ascii hc.2.1, List.length_cons]
    have ht := ih fun d hd => h d (List.mem_cons_of_mem _ hd)
    rw [escapedBytes] at ht
    rw [ht]
    exact Nat.add_comm 1 _

/-- No character is written in more than six bytes. -/
theorem escapePoint_le (c : Char) : utf8Length (Document.escapePoint c.toNat) ≤ 6 := by
  have hdigit : ∀ d < 16, (Nat.digitChar d).utf8Size = 1 := by decide
  have hhex : ∀ d : ℕ, utf8Length (Json.hex4 d) = 4 := by
    intro d
    simp only [Json.hex4, utf8Length_cons, utf8Length_nil,
      hdigit _ (Nat.mod_lt _ (by decide : 0 < 16))]
  unfold Document.escapePoint
  rw [Char.ofNat_toNat]
  have hc := c.utf8Size_le_four
  split_ifs
  any_goals decide
  · change 1 + (1 + utf8Length (Json.hex4 c.toNat)) ≤ 6
    rw [hhex]
  · rw [utf8Length_cons, utf8Length_nil]
    omega

theorem escapedBytes_le (t : Text) : escapedBytes t ≤ 6 * t.length := by
  induction t with
  | nil => exact Nat.zero_le _
  | cons c t ih =>
    rw [escapedBytes, List.map_cons, List.sum_cons, List.length_cons]
    have hc := escapePoint_le c
    rw [escapedBytes] at ih
    omega

/-! ## Flat objects -/

/-- The text of a text or an integer. -/
def scalarText : Json → Text
  | .str t => quoteText t
  | x => x.render

def flatMembers : List (Text × Json) → Text
  | [] => []
  | [(k, x)] => quoteText k ++ ':' :: scalarText x
  | (k, x) :: m :: ms => quoteText k ++ ':' :: scalarText x ++ ',' :: flatMembers (m :: ms)

/-- `JSON.stringify` of an object of texts and integers. -/
def flatText (ms : List (Text × Json)) : Text := '{' :: flatMembers ms ++ ['}']

/-- The bytes of a member, with the comma or the brace behind it. -/
def memberBytes (m : Text × Json) : ℕ := 4 + escapedBytes m.1 + utf8Length (scalarText m.2)

theorem utf8Length_flatMembers : ∀ {ms : List (Text × Json)}, ms ≠ [] →
    utf8Length (flatMembers ms) + 1 = (ms.map memberBytes).sum
  | [], h => absurd rfl h
  | [(k, x)], _ => by
    rw [flatMembers, utf8Length_append, utf8Length_quoteText, utf8Length_cons]
    simp only [List.map_cons, List.map_nil, List.sum_cons, List.sum_nil, memberBytes]
    change 2 + escapedBytes k + (1 + utf8Length (scalarText x)) + 1 = _
    omega
  | (k, x) :: m :: ms, _ => by
    have ih := utf8Length_flatMembers (List.cons_ne_nil m ms)
    rw [flatMembers, utf8Length_append, utf8Length_append, utf8Length_quoteText, utf8Length_cons,
      utf8Length_cons, List.map_cons, List.sum_cons, ← ih, memberBytes]
    change 2 + escapedBytes k + (1 + utf8Length (scalarText x)) + (1 + _) + 1 =
      4 + escapedBytes k + utf8Length (scalarText x) + _
    omega

theorem utf8Length_flatText {ms : List (Text × Json)} (h : ms ≠ []) :
    utf8Length (flatText ms) = 1 + (ms.map memberBytes).sum := by
  rw [flatText, List.cons_append, utf8Length_cons, utf8Length_append, ← utf8Length_flatMembers h]
  change 1 + (utf8Length (flatMembers ms) + 1) = _
  rfl

end Echolet
