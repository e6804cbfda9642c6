/-
  The texts under the two signatures of a published bundle, as the relay makes them of the
  published document.

  * `readOrdered` is the document with its members in the order they were sent in;
  * `legacyText` is what the identity signs in the device record, `tupleText` what the device
    signs in the bundle;
  * `readOrdered_eq` and `readOrdered_of_single` say what a document is that can be read at all.
-/
import Echolet.Lib.JsJson
import Echolet.Relay.CanonicalJson
import Echolet.Relay.PreKeyBundle

namespace Echolet

open Document

/-- The text Go reads for a string: U+FFFD for a lone surrogate. -/
def Utf16.text (s : Utf16) : Text := toText s.units

namespace SignalBundle

/-- A document as the decoder of the relay has it. -/
def seen (d : Document Utf16) : Document Text := d.map Utf16.text id

mutual
/-- `readOrdered`: no arrays, no member twice, and no numeral above every double, which is none
    for the decoder. -/
def readOrdered : Document Utf16 → Option (Document Text)
  | .null => some .null
  | .bool b => some (.bool b)
  | .number n => some (.number n)
  | .infinite _ => none
  | .str s => some (.str s.text)
  | .arr _ => none
  | .obj ms => (readMembers [] ms).map .obj

def readMembers (names : List Text) :
    List (Utf16 × Document Utf16) → Option (List (Text × Document Text))
  | [] => some []
  | (k, x) :: ms =>
    if names.contains k.text then none
    else do
      let value ← readOrdered x
      let rest ← readMembers (k.text :: names) ms
      return (k.text, value) :: rest
end

mutual
/-- What the checks look at.  Neither an array nor an infinite number is read. -/
def value : Document Text → Value
  | .null => .null
  | .bool b => .bool b
  | .number n => .number n.value
  | .infinite _ => .null
  | .str t => .str t
  | .arr _ => .null
  | .obj ms => .obj (valueMembers ms)

def valueMembers : List (Text × Document Text) → List (String × Value)
  | [] => []
  | (k, x) :: ms => (String.ofList k, value x) :: valueMembers ms
end

/-- `orderedObject.get` -/
def get (o : List (Text × Document Text)) (key : String) : Document Text :=
  ((o.find? fun m => m.1 = key.toList).map (·.2)).getD .null

/-- The members of what is known to be an object. -/
def members {σ : Type} : Document σ → List (σ × Document σ)
  | .obj ms => ms
  | _ => []

/-- The record without its signature, sorted at the top only. -/
def legacy (dr : List (Text × Document Text)) : Document Text :=
  .obj (sortMembers utf8Bytes (dr.filter fun m => m.1 ≠ "signature".toList))

def tuple (root : List (Text × Document Text)) : Document Text :=
  let dr := members (get root "device_record")
  let caps := members (get dr "capabilities")
  let sp := members (get root "signed_prekey")
  let kp := members (get root "kyber_prekey")
  let op := members (get root "one_time_prekey")
  .arr [.str "echolet.signal.prekey_bundle.v2".toList, get root "bundle_id", get root "suite",
    .arr [get dr "type", get dr "version", get dr "identity_id", get dr "device_id",
      get dr "device_pubkey", get dr "device_label",
      .arr [get caps "mailbox_poll", get caps "receipts", get caps "attachments"],
      get dr "created_at_ms", get dr "signature"],
    get root "created_at_ms", get root "expires_at_ms", get root "registration_id",
    get root "signal_identity_key",
    .arr [get sp "key_id", get sp "public_key", get sp "signature"],
    .arr [get kp "key_id", get kp "public_key", get kp "signature"],
    .arr [get op "key_id", get op "public_key"]]

/-- The text over which the identity's signature of the record is checked. -/
def legacyText (o : Document Text) : Text :=
  jsJSON (legacy (members (get (members o) "device_record")))

/-- The text over which the device's signature of the bundle is checked. -/
def tupleText (o : Document Text) : Text := jsJSON (tuple (members o))

/-! ## What can be read -/

mutual
/-- No array, no infinite number and no member twice. -/
def Single : Document Utf16 → Prop
  | .infinite _ => False
  | .arr _ => False
  | .obj ms => (ms.map fun m => m.1.text).Nodup ∧ SingleMembers ms
  | _ => True

def SingleMembers : List (Utf16 × Document Utf16) → Prop
  | [] => True
  | (_, x) :: ms => Single x ∧ SingleMembers ms
end

mutual
/-- **What is read is the document itself.** -/
theorem readOrdered_eq : ∀ {d : Document Utf16} {o : Document Text}, readOrdered d = some o →
    Single d ∧ o = seen d
  | .null, _, h | .bool _, _, h | .number _, _, h | .str _, _, h => by
    cases h
    exact ⟨trivial, rfl⟩
  | .infinite _, _, h => by cases h
  | .arr _, _, h => by cases h
  | .obj ms, _, h => by
    obtain ⟨ms', hms, rfl⟩ := Option.map_eq_some_iff.1 h
    obtain ⟨hnodup, -, hsingle, rfl⟩ := readMembers_eq hms
    exact ⟨⟨hnodup, hsingle⟩, rfl⟩

theorem readMembers_eq : ∀ {ms : List (Utf16 × Document Utf16)} {names : List Text}
    {ms' : List (Text × Document Text)}, readMembers names ms = some ms' →
    (ms.map fun m => m.1.text).Nodup ∧ (∀ m ∈ ms, m.1.text ∉ names) ∧ SingleMembers ms ∧
      ms' = mapMembers Utf16.text id ms
  | [], _, _, h => by
    cases h
    exact ⟨List.nodup_nil, List.forall_mem_nil _, trivial, rfl⟩
  | (k, x) :: ms, names, _, h => by
    rw [readMembers] at h
    split_ifs at h with hk
    rw [List.contains_iff_mem] at hk
    simp only [Option.bind_eq_bind, Option.bind_eq_some_iff] at h
    obtain ⟨v, hv, rest, hrest, h⟩ := h
    cases h
    obtain ⟨hsingle, rfl⟩ := readOrdered_eq hv
    obtain ⟨hnodup, hnew, hsingles, rfl⟩ := readMembers_eq hrest
    refine ⟨List.nodup_cons.2 ⟨?_, hnodup⟩, List.forall_mem_cons.2 ⟨hk, fun m hm hmem => ?_⟩,
      ⟨hsingle, hsingles⟩, rfl⟩
    · rintro hmem
      obtain ⟨m, hm, he⟩ := List.mem_map.1 hmem
      exact hnew m hm (he ▸ List.mem_cons_self)
    · exact hnew m hm (List.mem_cons_of_mem _ hmem)
end

mutual
/-- Without a member twice a document is read as it stands. -/
theorem readOrdered_of_single : ∀ {d : Document Utf16}, Single d → readOrdered d = some (seen d)
  | .null, _ | .bool _, _ | .number _, _ | .str _, _ => rfl
  | .infinite _, h | .arr _, h => h.elim
  | .obj ms, h => by
    rw [readOrdered, readMembers_of_single h.2 h.1 fun _ _ => List.not_mem_nil]
    rfl

theorem readMembers_of_single : ∀ {ms : List (Utf16 × Document Utf16)} {names : List Text},
    SingleMembers ms → (ms.map fun m => m.1.text).Nodup → (∀ m ∈ ms, m.1.text ∉ names) →
    readMembers names ms = some (mapMembers Utf16.text id ms)
  | [], _, _, _, _ => rfl
  | (k, x) :: ms, names, h, hnodup, hnew => by
    rw [List.map_cons, List.nodup_cons] at hnodup
    rw [List.forall_mem_cons] at hnew
    have hrest : ∀ m ∈ ms, m.1.text ∉ k.text :: names := by
      intro m hm hmem
      rcases List.mem_cons.1 hmem with he | hmem
      · exact hnodup.1 (List.mem_map.2 ⟨m, hm, he⟩)
      · exact hnew.2 m hm hmem
    have hk : ¬(names.contains k.text = true) := fun hc => hnew.1 (List.contains_iff_mem.1 hc)
    rw [readMembers, if_neg hk, readOrdered_of_single h.1, readMembers_of_single h.2 hnodup.2 hrest]
    rfl
end

end SignalBundle

end Echolet
