/-
  JSON documents and their text as Go's `encoding/json` writes it.

  `Json.render` writes a document without spaces, members in the given order, and escapes
  strings as `json.Marshal` does: `"` and `\` and the named controls with a backslash,
  every other control and `<`, `>`, `&`, U+2028 and U+2029 as six bytes.  Integers are the
  only numbers.
-/
import Echolet.Lib.Text

namespace Echolet

inductive Json where
  | null
  | bool (b : Bool)
  | int (n : ℤ)
  | str (t : Text)
  | arr (xs : List Json)
  | obj (ms : List (Text × Json))

namespace Json

/-- The four hexadecimal digits of a `\u` escape. -/
def hex4 (n : ℕ) : Text :=
  [Nat.digitChar (n / 4096 % 16), Nat.digitChar (n / 256 % 16), Nat.digitChar (n / 16 % 16),
    Nat.digitChar (n % 16)]

/-- What a character of a string becomes. -/
def escape (c : Char) : Text :=
  if c = '"' then ['\\', '"'] else if c = '\\' then ['\\', '\\']
  else if c.toNat = 8 then ['\\', 'b'] else if c.toNat = 9 then ['\\', 't']
  else if c.toNat = 10 then ['\\', 'n'] else if c.toNat = 12 then ['\\', 'f']
  else if c.toNat = 13 then ['\\', 'r']
  else if c.toNat < 0x20 ∨ c = '<' ∨ c = '>' ∨ c = '&' ∨ c.toNat = 0x2028 ∨ c.toNat = 0x2029 then
    '\\' :: 'u' :: hex4 c.toNat
  else [c]

def quote (t : Text) : Text := '"' :: t.flatMap escape ++ ['"']

def renderInt : ℤ → Text
  | .ofNat n => decimal n
  | .negSucc n => '-' :: decimal (n + 1)

mutual
def render : Json → Text
  | null => ['n', 'u', 'l', 'l']
  | bool true => ['t', 'r', 'u', 'e']
  | bool false => ['f', 'a', 'l', 's', 'e']
  | int n => renderInt n
  | str t => quote t
  | arr xs => '[' :: renderElems xs ++ [']']
  | obj ms => '{' :: renderMembers ms ++ ['}']

def renderElems : List Json → Text
  | [] => []
  | [x] => render x
  | x :: y :: xs => render x ++ ',' :: renderElems (y :: xs)

def renderMembers : List (Text × Json) → Text
  | [] => []
  | [(k, x)] => quote k ++ ':' :: render x
  | (k, x) :: m :: ms => quote k ++ ':' :: render x ++ ',' :: renderMembers (m :: ms)
end

/-- A member of an object document. -/
def member (k : Text) : Json → Option Json
  | obj ms => (ms.find? fun m => m.1 = k).map (·.2)
  | _ => none

/-- One field of an object schema. -/
structure Field where
  name : Text
  optional : Bool
  accepts : Json → Bool

/-- A strict object schema: every field is accepted, and there are no other members. -/
def strictObject (fs : List Field) (j : Json) : Bool :=
  match j with
  | obj ms => ms.all (fun m => fs.any fun f => f.name = m.1) &&
      fs.all fun f => match member f.name (obj ms) with
        | some x => f.accepts x
        | none => f.optional
  | _ => false

/-- The members of an object lie along the fields of a schema: one accepted member for each
    field in turn, optional fields possibly left out. -/
inductive Along : List Field → List (Text × Json) → Prop
  | nil : Along [] []
  | cons {f fs x ms} : f.accepts x = true → Along fs ms → Along (f :: fs) ((f.name, x) :: ms)
  | skip {f fs ms} : f.optional = true → Along fs ms → Along (f :: fs) ms

theorem Along.name_mem {fs : List Field} {ms : List (Text × Json)} (h : Along fs ms) :
    ∀ m ∈ ms, m.1 ∈ fs.map (·.name) := by
  induction h with
  | nil => simp
  | cons _ _ ih =>
    intro m hm
    rcases List.mem_cons.1 hm with rfl | hm
    · simp
    · exact List.mem_cons_of_mem _ (ih m hm)
  | skip _ _ ih => exact fun m hm => List.mem_cons_of_mem _ (ih m hm)

theorem member_cons_ne {k k' : Text} (x : Json) (ms : List (Text × Json)) (h : k' ≠ k) :
    member k (obj ((k', x) :: ms)) = member k (obj ms) := by
  simp [member, h]

/-- The last member of an object, if no other has its name. -/
theorem member_last {k : Text} (x : Json) {ms : List (Text × Json)} (h : k ∉ ms.map (·.1)) :
    member k (obj (ms ++ [(k, x)])) = some x := by
  have hn : ms.find? (fun m => m.1 = k) = none := by
    rw [List.find?_eq_none]
    exact fun m hm he => h (List.mem_map.2 ⟨m, hm, of_decide_eq_true he⟩)
  rw [member, List.find?_append, hn]
  simp

theorem Along.field {fs : List Field} {ms : List (Text × Json)} (h : Along fs ms)
    (hn : (fs.map (·.name)).Nodup) :
    ∀ f ∈ fs, (∃ x, member f.name (obj ms) = some x ∧ f.accepts x = true) ∨
      member f.name (obj ms) = none ∧ f.optional = true := by
  induction h with
  | nil => simp
  | @cons g gs x ms hx _ ih =>
    obtain ⟨hg, hn⟩ := List.nodup_cons.1 hn
    intro f hf
    rcases List.mem_cons.1 hf with rfl | hf
    · exact Or.inl ⟨x, by simp [member], hx⟩
    · rw [member_cons_ne]
      · exact ih hn f hf
      · exact fun he => hg (List.mem_map.2 ⟨f, hf, he.symm⟩)
  | @skip g gs ms ho h ih =>
    obtain ⟨hg, hn⟩ := List.nodup_cons.1 hn
    intro f hf
    rcases List.mem_cons.1 hf with rfl | hf
    · refine Or.inr ⟨?_, ho⟩
      rw [member, Option.map_eq_none_iff, List.find?_eq_none]
      intro m hm he
      have hname : m.1 = f.name := of_decide_eq_true he
      exact hg (show f.name ∈ _ from hname ▸ h.name_mem m hm)
    · exact ih hn f hf

/-- Members along a schema's fields pass it. -/
theorem strictObject_of_along {fs : List Field} {ms : List (Text × Json)}
    (hn : (fs.map (·.name)).Nodup) (h : Along fs ms) : strictObject fs (obj ms) = true := by
  simp only [strictObject, Bool.and_eq_true, List.all_eq_true, List.any_eq_true,
    decide_eq_true_eq]
  refine ⟨fun m hm => ?_, fun f hf => ?_⟩
  · obtain ⟨f, hf, hfm⟩ := List.mem_map.1 (h.name_mem m hm)
    exact ⟨f, hf, hfm⟩
  · rcases h.field hn f hf with ⟨x, hx, ha⟩ | ⟨hx, ho⟩
    · rw [hx]; exact ha
    · rw [hx]; exact ho

/-- A member that a schema's field refuses fails the object. -/
theorem strictObject_refuses {fs : List Field} {j x : Json} {f : Field} (hf : f ∈ fs)
    (hx : member f.name j = some x) (ha : f.accepts x = false) : strictObject fs j = false := by
  cases j with
  | obj ms =>
    rw [Bool.eq_false_iff]
    intro h
    simp only [strictObject, Bool.and_eq_true, List.all_eq_true] at h
    have := h.2 f hf
    rw [hx] at this
    simp [ha] at this
  | _ => rfl

/-- The size of an array's text: its elements and one comma between any two. -/
theorem utf8Length_renderElems : ∀ xs : List Json,
    utf8Length (renderElems xs) = (xs.map fun x => utf8Length (render x)).sum + (xs.length - 1)
  | [] => rfl
  | [x] => by simp [renderElems]
  | x :: y :: xs => by
    rw [renderElems, utf8Length_append, utf8Length_cons, utf8Length_renderElems (y :: xs)]
    simp only [List.map_cons, List.sum_cons, List.length_cons]
    have : Char.utf8Size ',' = 1 := rfl
    omega

/-- A member takes its own size at least. -/
theorem utf8Length_member_le {k : Text} {x : Json} : ∀ {ms : List (Text × Json)}, (k, x) ∈ ms →
    utf8Length (render x) ≤ utf8Length (renderMembers ms)
  | [], h => by cases h
  | [(k', y)], h => by
    cases List.mem_singleton.1 h
    simp only [renderMembers, utf8Length_append, utf8Length_cons]; omega
  | (k', y) :: m :: ms, h => by
    simp only [renderMembers, utf8Length_append, utf8Length_cons]
    rcases List.mem_cons.1 h with h | h
    · cases h; omega
    · have := utf8Length_member_le h; omega

theorem utf8Length_escape_lt : utf8Length (escape '<') = 6 := by decide

theorem utf8Length_quote (t : Text) :
    utf8Length (quote t) = (t.map fun c => utf8Length (escape c)).sum + 2 := by
  have h : ∀ t : Text, utf8Length (t.flatMap escape) = (t.map fun c => utf8Length (escape c)).sum := by
    intro t
    induction t with
    | nil => rfl
    | cons c t ih => simp [ih]
  have hq : Char.utf8Size '"' = 1 := rfl
  simp only [quote, List.cons_append, utf8Length_cons, utf8Length_append, h, hq, utf8Length_nil]
  omega

end Json

end Echolet
