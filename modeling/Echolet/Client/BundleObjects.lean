/-
  Published bundles: the relay's schema checks and the client's schema.

  * `object_iff`: an object passes both if its members do;
  * `bundle_iff`: of a document without a member twice the relay reads a bundle exactly if the
    client accepts it, but for a bundle without a one-time key, which only the client accepts, and
    for the greatest UUID, which only the relay does.
-/
import Echolet.Client.BundleStrings

namespace Echolet

open Document

namespace SignalBundle

/-! ## Members -/

/-- A document as the checks of the relay see it. -/
def relayed (d : Document Utf16) : Value := value (seen d)

/-- A name without U+FFFD. -/
def PlainName (key : String) : Prop := '\uFFFD' ∉ key.toList

theorem plainName_ofList {l : List Char} (h : '\uFFFD' ∉ l) : PlainName (String.ofList l) := by
  rwa [PlainName, String.toList_ofList]

theorem ofList_text_eq_iff {k : Utf16} {key : String} (h : PlainName key) :
    String.ofList k.text = key ↔ k = .ofText key.toList := by
  rw [← text_eq_iff h]
  constructor
  · rintro rfl
    rw [String.toList_ofList]
  · intro he
    rw [he, String.ofList_toList]

theorem find_valueMembers {key : String} (h : PlainName key) : ∀ ms : List (Utf16 × Document Utf16),
    ((valueMembers (mapMembers Utf16.text id ms)).find? fun p => p.1 = key).map (·.2) =
      (property ms key).map relayed
  | [] => rfl
  | (k, x) :: ms => by
    have ih := find_valueMembers h ms
    rw [mapMembers, valueMembers, property]
    by_cases hk : k = .ofText key.toList
    · rw [List.find?_cons_of_pos (by simpa using (ofList_text_eq_iff h).2 hk),
        List.find?_cons_of_pos (by simpa using hk)]
      rfl
    · rw [List.find?_cons_of_neg (by simpa using mt (ofList_text_eq_iff h).1 hk),
        List.find?_cons_of_neg (by simpa using hk), ih, property]

theorem getMember_eq {key : String} (h : PlainName key) (ms : List (Utf16 × Document Utf16)) :
    getMember (valueMembers (mapMembers Utf16.text id ms)) key =
      ((property ms key).map relayed).getD .null := by
  rw [getMember, find_valueMembers h]

theorem mem_names_iff {key : String} (h : PlainName key) (ms : List (Utf16 × Document Utf16)) :
    key ∈ (valueMembers (mapMembers Utf16.text id ms)).map (·.1) ↔ (property ms key).isSome = true := by
  have hfind := congrArg Option.isSome (find_valueMembers h ms)
  rw [Option.isSome_map, Option.isSome_map] at hfind
  rw [← hfind, List.find?_isSome, List.mem_map]
  simp

theorem map_fst_valueMembers : ∀ ms : List (Utf16 × Document Utf16),
    (valueMembers (mapMembers Utf16.text id ms)).map (·.1) = ms.map fun m => String.ofList m.1.text
  | [] => rfl
  | (k, x) :: ms => by
    rw [mapMembers, valueMembers, List.map_cons, map_fst_valueMembers ms, List.map_cons]

/-- The members an object may have and those it must have. -/
theorem objectMembers_eq_some {ms : List (Utf16 × Document Utf16)} {req opt : List String}
    {root : List (String × Value)} (hplain : ∀ key ∈ req ++ opt, PlainName key) :
    objectMembers (relayed (.obj ms)) req opt = some root ↔
      root = valueMembers (mapMembers Utf16.text id ms) ∧
        (∀ m ∈ ms, m.1 ∈ (req ++ opt).map fun key => Utf16.ofText key.toList) ∧
        ∀ key ∈ req, (property ms key).isSome = true := by
  have hallowed : (∀ p ∈ valueMembers (mapMembers Utf16.text id ms), p.1 ∈ req ++ opt) ↔
      ∀ m ∈ ms, m.1 ∈ (req ++ opt).map fun key => Utf16.ofText key.toList := by
    rw [← List.forall_mem_map (f := Prod.fst) (P := (· ∈ req ++ opt)), map_fst_valueMembers, List.forall_mem_map]
    refine forall₂_congr fun m _ => ?_
    rw [List.mem_map]
    constructor
    · intro h
      exact ⟨_, h, ((ofList_text_eq_iff (hplain _ h)).1 rfl).symm⟩
    · rintro ⟨key, hkey, he⟩
      rwa [(ofList_text_eq_iff (hplain key hkey)).2 he.symm]
  have hrequired : (∀ key ∈ req, key ∈ (valueMembers (mapMembers Utf16.text id ms)).map (·.1)) ↔
      ∀ key ∈ req, (property ms key).isSome = true :=
    forall₂_congr fun key hkey => mem_names_iff (hplain key (List.mem_append_left _ hkey)) ms
  have hobj : relayed (.obj ms) = .obj (valueMembers (mapMembers Utf16.text id ms)) := rfl
  rw [hobj, objectMembers, ← hallowed, ← hrequired]
  constructor
  · intro h
    split_ifs at h with hc
    cases h
    exact ⟨rfl, hc⟩
  · rintro ⟨rfl, hc⟩
    exact if_pos hc

theorem objectMembers_isSome {d : Document Utf16} {req opt : List String}
    (h : (objectMembers (relayed d) req opt).isSome = true) : ∃ ms, d = .obj ms := by
  cases d with
  | obj ms => exact ⟨ms, rfl⟩
  | null | bool | number | infinite | str | arr => cases h

theorem strict_iff {d : Document Utf16} {shape : List (String × (Option (Document Utf16) → Bool))} :
    strict shape d = true ↔ ∃ ms, d = .obj ms ∧
      (∀ m ∈ ms, m.1 ∈ shape.map fun p => Utf16.ofText p.1.toList) ∧
        ∀ p ∈ shape, p.2 (property ms p.1) = true := by
  cases d with
  | obj ms =>
    simp only [strict, Bool.and_eq_true, List.all_eq_true, decide_eq_true_eq]
    constructor
    · rintro ⟨hchecks, hnames⟩
      exact ⟨ms, rfl, hnames, hchecks⟩
    · rintro ⟨ms', he, hnames, hchecks⟩
      cases he
      exact ⟨hchecks, hnames⟩
  | null | bool | number | infinite | str | arr => simp [strict]

/-- The check of one member of a schema. -/
theorem strict_at {shape : List (String × (Option (Document Utf16) → Bool))}
    {ms : List (Utf16 × Document Utf16)} (h : strict shape (.obj ms) = true) {key : String}
    {check : Option (Document Utf16) → Bool} (hp : (key, check) ∈ shape) :
    check (property ms key) = true := by
  obtain ⟨_, he, -, hchecks⟩ := strict_iff.1 h
  cases he
  exact hchecks _ hp

theorem required_iff {schema : Document Utf16 → Bool} {x : Option (Document Utf16)} :
    required schema x = true ↔ ∃ d, x = some d ∧ schema d = true := by
  cases x <;> simp [required]

/-! ## Members of a kind -/

theorem string_iff {check : Utf16 → Bool} {d : Document Utf16} :
    string check d = true ↔ ∃ s, d = .str s ∧ check s = true := by
  cases d <;> simp [string]

theorem text_relayed {d : Document Utf16} {t : Text} :
    Echolet.text (relayed d) = some t ↔ ∃ s, d = .str s ∧ s.text = t := by
  cases d <;> simp [relayed, seen, Document.map, value, Echolet.text]

theorem validUUID_isSome (d : Document Utf16) :
    (validUUID (relayed d)).isSome = true ↔ ∃ s, d = .str s ∧ uuidV2 s.text = true := by
  simp only [Option.isSome_iff_exists, validUUID, Option.filter_eq_some_iff, text_relayed]
  constructor
  · rintro ⟨_, ⟨s, rfl, rfl⟩, h⟩
    exact ⟨s, rfl, h⟩
  · rintro ⟨s, rfl, h⟩
    exact ⟨_, ⟨s, rfl, rfl⟩, h⟩

theorem uuid_relayed (d : Document Utf16) :
    (∃ t, validUUID (relayed d) = some t ∧ t ≠ maxUUID) ↔ string uuid d = true := by
  simp only [validUUID, Option.filter_eq_some_iff, text_relayed, string_iff, uuid_eq,
    Bool.and_eq_true, decide_eq_true_eq]
  constructor
  · rintro ⟨_, ⟨⟨s, rfl, rfl⟩, h⟩, hmax⟩
    exact ⟨s, rfl, h, hmax⟩
  · rintro ⟨s, rfl, h, hmax⟩
    exact ⟨_, ⟨⟨s, rfl, rfl⟩, h⟩, hmax⟩

theorem b64_isSome {n : ℕ} (hn : 0 < n) (lead : Option ℕ) (d : Document Utf16) :
    (b64 (relayed d) n lead).isSome = true ↔ string (encodedBytes n lead) d = true := by
  simp only [Option.isSome_iff_exists, b64, Option.filter_eq_some_iff, text_relayed, string_iff,
    encodedBytes_eq hn]
  constructor
  · rintro ⟨_, ⟨s, rfl, rfl⟩, h⟩
    exact ⟨s, rfl, h⟩
  · rintro ⟨s, rfl, h⟩
    exact ⟨_, ⟨s, rfl, rfl⟩, h⟩

/-- A rational that is a natural number. -/
theorem eq_natCast {q : ℚ} (h0 : 0 ≤ q) (hden : q.den = 1) : q = (q.num.toNat : ℕ) := by
  have hnum : (q.num : ℚ) = q := Rat.coe_int_num_of_den_eq_one hden
  have hnonneg : 0 ≤ q.num := Rat.num_nonneg.2 h0
  have hcast : ((q.num.toNat : ℤ) : ℚ) = q.num := by rw [Int.toNat_of_nonneg hnonneg]
  rw [← hnum, ← hcast]
  norm_cast

theorem number_relayed {d : Document Utf16} {max n : ℕ} :
    Echolet.number (relayed d) max = some n ↔ n ≤ max ∧ ∃ x, d = .number x ∧ x.value = n := by
  cases d with
  | number x =>
    have hx : relayed (.number x) = .number x.value := rfl
    rw [hx, Echolet.number]
    constructor
    · intro h
      split_ifs at h with hq
      obtain ⟨h0, hmax, hden⟩ := hq
      cases h
      have hvalue := eq_natCast h0 hden
      rw [hvalue] at hmax
      exact ⟨by exact_mod_cast hmax, x, rfl, hvalue⟩
    · rintro ⟨hmax, y, hy, hvalue⟩
      cases hy
      rw [hvalue, if_pos ⟨n.cast_nonneg, by exact_mod_cast hmax, rfl⟩]
      rfl
  | null | bool | infinite | str | arr | obj =>
    simp [relayed, seen, Document.map, value, Echolet.number]

theorem int_iff {min max : ℕ} {d : Document Utf16} : int min max d = true ↔
    ∃ n, (min ≤ n ∧ n ≤ max) ∧ ∃ x, d = .number x ∧ x.value = n := by
  cases d with
  | number x =>
    simp only [int, decide_eq_true_eq]
    constructor
    · rintro ⟨hden, hmin, hmax⟩
      have hvalue := eq_natCast (min.cast_nonneg.trans hmin) hden
      rw [hvalue] at hmin hmax
      exact ⟨_, ⟨by exact_mod_cast hmin, by exact_mod_cast hmax⟩, x, rfl, hvalue⟩
    · rintro ⟨n, ⟨hmin, hmax⟩, y, hy, hvalue⟩
      cases hy
      rw [hvalue]
      exact ⟨rfl, by exact_mod_cast hmin, by exact_mod_cast hmax⟩
  | null | bool | infinite | str | arr | obj => simp [int]

theorem number_isSome (max : ℕ) (d : Document Utf16) :
    (Echolet.number (relayed d) max).isSome = true ↔ int 0 max d = true := by
  simp only [Option.isSome_iff_exists, number_relayed, int_iff, Nat.zero_le, true_and]

theorem literalNumber_iff {n : ℕ} {d : Document Utf16} :
    literalNumber n d = true ↔ ∃ x, d = .number x ∧ x.value = n := by
  cases d <;> simp [literalNumber]

theorem literal_iff {t : String} (ht : PlainName t) {d : Document Utf16} :
    literal t d = true ↔ Echolet.text (relayed d) = some t.toList := by
  rw [literal, string_iff, text_relayed]
  refine exists_congr fun s => and_congr_right fun _ => ?_
  rw [decide_eq_true_eq, text_eq_iff ht]

/-! ## Objects of the schema -/

/-- The members of an object as the checks of the relay see them. -/
def relayedMembers (ms : List (Utf16 × Document Utf16)) : List (String × Value) :=
  valueMembers (mapMembers Utf16.text id ms)

/-- A member that must be there passes one check exactly if it passes the other. -/
theorem required_property {key : String} (hkey : PlainName key) (ms : List (Utf16 × Document Utf16))
    {P : Value → Prop} {schema : Document Utf16 → Bool}
    (h : ∀ d, property ms key = some d → (P (relayed d) ↔ schema d = true)) :
    required schema (property ms key) = true ↔
      (property ms key).isSome = true ∧ P (getMember (relayedMembers ms) key) := by
  rw [relayedMembers, getMember_eq hkey]
  cases hx : property ms key with
  | none => simp [required]
  | some d => simp [required, h d hx]

/-- **An object** passes the checks of its members exactly if it passes the schema. -/
theorem object_iff {req opt : List String} (hplain : ∀ key ∈ req ++ opt, PlainName key)
    {shape : List (String × (Option (Document Utf16) → Bool))}
    (hshape : ∀ k, k ∈ (shape.map fun p => Utf16.ofText p.1.toList) ↔
      k ∈ (req ++ opt).map fun key => Utf16.ofText key.toList)
    {P : List (String × Value) → Prop} {d : Document Utf16}
    (h : ∀ ms, d = .obj ms → (∀ m ∈ ms, m.1 ∈ (req ++ opt).map fun key => Utf16.ofText key.toList) →
      ((∀ p ∈ shape, p.2 (property ms p.1) = true) ↔
        (∀ key ∈ req, (property ms key).isSome = true) ∧ P (relayedMembers ms))) :
    (∃ root, objectMembers (relayed d) req opt = some root ∧ P root) ↔ strict shape d = true := by
  simp only [strict_iff, hshape]
  constructor
  · rintro ⟨root, hroot, hP⟩
    obtain ⟨ms, rfl⟩ := objectMembers_isSome (Option.isSome_iff_exists.2 ⟨root, hroot⟩)
    obtain ⟨rfl, hnames, hreq⟩ := (objectMembers_eq_some hplain).1 hroot
    exact ⟨ms, rfl, hnames, (h ms rfl hnames).2 ⟨hreq, hP⟩⟩
  · rintro ⟨ms, rfl, hnames, hchecks⟩
    obtain ⟨hreq, hP⟩ := (h ms rfl hnames).1 hchecks
    exact ⟨_, (objectMembers_eq_some hplain).2 ⟨rfl, hnames, hreq⟩, hP⟩

theorem plainName_keyId : PlainName "key_id" := plainName_ofList (by decide)

theorem plainName_publicKey : PlainName "public_key" := plainName_ofList (by decide)

theorem plainName_signature : PlainName "signature" := plainName_ofList (by decide)

theorem plainName_type : PlainName "type" := plainName_ofList (by decide)

theorem plainName_version : PlainName "version" := plainName_ofList (by decide)

theorem plainName_createdAt : PlainName "created_at_ms" := plainName_ofList (by decide)

theorem plainName_expiresAt : PlainName "expires_at_ms" := plainName_ofList (by decide)

theorem plainName_deviceRecord : PlainName "device_record" := plainName_ofList (by decide)

theorem plainName_identityId : PlainName "identity_id" := plainName_ofList (by decide)

theorem plainName_deviceId : PlainName "device_id" := plainName_ofList (by decide)

theorem plainName_devicePubkey : PlainName "device_pubkey" := plainName_ofList (by decide)

theorem plainName_bundleId : PlainName "bundle_id" := plainName_ofList (by decide)

theorem required_number {key : String} (hkey : PlainName key) (max : ℕ)
    {ms : List (Utf16 × Document Utf16)} :
    required (int 0 max) (property ms key) = true ↔ (property ms key).isSome = true ∧
      (Echolet.number (getMember (relayedMembers ms) key) max).isSome = true :=
  required_property hkey ms (P := fun v => (Echolet.number v max).isSome = true)
    fun d _ => number_isSome max d

theorem required_b64 {key : String} (hkey : PlainName key) {n : ℕ} (hn : 0 < n) (lead : Option ℕ)
    {ms : List (Utf16 × Document Utf16)} :
    required (string (encodedBytes n lead)) (property ms key) = true ↔
      (property ms key).isSome = true ∧
      (b64 (getMember (relayedMembers ms) key) n lead).isSome = true :=
  required_property hkey ms (P := fun v => (b64 v n lead).isSome = true) fun d _ => b64_isSome hn lead d

theorem required_literal {key t : String} (hkey : PlainName key) (ht : PlainName t)
    {ms : List (Utf16 × Document Utf16)} :
    required (literal t) (property ms key) = true ↔ (property ms key).isSome = true ∧
      Echolet.text (getMember (relayedMembers ms) key) = some t.toList :=
  required_property hkey ms (P := fun v => Echolet.text v = some t.toList) fun _ _ => (literal_iff ht).symm

theorem required_literalNumber {key : String} (hkey : PlainName key) {n : ℕ} (hn : n ≤ maxSafeInteger)
    {ms : List (Utf16 × Document Utf16)} :
    required (literalNumber n) (property ms key) = true ↔ (property ms key).isSome = true ∧
      Echolet.number (getMember (relayedMembers ms) key) maxSafeInteger = some n :=
  required_property hkey ms (P := fun v => Echolet.number v maxSafeInteger = some n) fun _ _ => by
    rw [number_relayed, literalNumber_iff]
    exact and_iff_right hn

theorem required_uuid {key : String} (hkey : PlainName key) {ms : List (Utf16 × Document Utf16)} :
    required (string uuid) (property ms key) = true ↔ (property ms key).isSome = true ∧
      ∃ t, validUUID (getMember (relayedMembers ms) key) = some t ∧ t ≠ maxUUID :=
  required_property hkey ms (P := fun v => ∃ t, validUUID v = some t ∧ t ≠ maxUUID)
    fun d _ => uuid_relayed d

theorem registrationId_iff (d : Document Utf16) :
    (∃ n, Echolet.number (relayed d) 16380 = some n ∧ n ≠ 0) ↔ int 1 16380 d = true := by
  simp only [number_relayed, int_iff, Nat.one_le_iff_ne_zero]
  refine exists_congr fun n => ?_
  tauto

theorem signedKey_isSome {n : ℕ} (hn : 0 < n) (lead : ℕ) (d : Document Utf16) :
    (checkSignedKey (relayed d) n lead).isSome = true ↔
      signedKey (string (encodedBytes n (some lead))) d = true := by
  have hplain : ∀ key ∈ ["key_id", "public_key", "signature"] ++ [], PlainName key := by
    simp only [List.append_nil, List.forall_mem_cons]
    exact ⟨plainName_keyId, plainName_publicKey, plainName_signature, List.forall_mem_nil _⟩
  rw [signedKey, ← object_iff hplain (fun _ => Iff.rfl) (P := fun root =>
    (Echolet.number (getMember root "key_id") 4294967295).isSome = true ∧
    (b64 (getMember root "public_key") n (some lead)).isSome = true ∧
    (b64 (getMember root "signature") 64 none).isSome = true)]
  · simp only [checkSignedKey, Option.isSome_iff_exists, Option.bind_eq_bind, Option.bind_eq_some_iff,
      exists_const, Option.pure_def, exists_and_right, and_true]
  · rintro ms - -
    simp only [List.forall_mem_cons, keyId, signature, required_number plainName_keyId,
      required_b64 plainName_publicKey hn, required_b64 plainName_signature (show 0 < 64 by decide)]
    tauto

theorem oneTimeKey_isSome (d : Document Utf16) :
    (∃ op, objectMembers (relayed d) ["key_id", "public_key"] [] = some op ∧
      (Echolet.number (getMember op "key_id") 4294967295).isSome = true ∧
      (b64 (getMember op "public_key") 33 (some 5)).isSome = true) ↔ oneTimeKey d = true := by
  have hplain : ∀ key ∈ ["key_id", "public_key"] ++ [], PlainName key := by
    simp only [List.append_nil, List.forall_mem_cons]
    exact ⟨plainName_keyId, plainName_publicKey, List.forall_mem_nil _⟩
  refine object_iff hplain (fun _ => Iff.rfl) fun ms _ _ => ?_
  simp only [List.forall_mem_cons, keyId, ecKey, required_number plainName_keyId,
    required_b64 plainName_publicKey (show 0 < 33 by decide)]
  tauto

/-! ## The device record -/

theorem property_of_mem {ms : List (Utf16 × Document Utf16)}
    (h : (ms.map fun m => m.1.text).Nodup) {m : Utf16 × Document Utf16} (hm : m ∈ ms) {key : String}
    (hkey : m.1 = .ofText key.toList) : property ms key = some m.2 := by
  induction ms with
  | nil => cases hm
  | cons m' ms ih =>
    rw [List.map_cons, List.nodup_cons] at h
    rw [property]
    by_cases hhead : m'.1 = .ofText key.toList
    · rw [List.find?_cons_of_pos (by simpa using hhead)]
      rcases List.mem_cons.1 hm with rfl | hm
      · rfl
      · refine absurd (List.mem_map.2 ⟨m, hm, ?_⟩) h.1
        rw [hhead, hkey]
    · rcases List.mem_cons.1 hm with rfl | hm
      · exact absurd hkey hhead
      · rw [List.find?_cons_of_neg (by simpa using hhead)]
        exact ih h.2 hm

/-- A member of an object that a schema accepts. -/
theorem strict_mem {shape : List (String × (Option (Document Utf16) → Bool))}
    {ms : List (Utf16 × Document Utf16)} (hnodup : (ms.map fun m => m.1.text).Nodup)
    (hs : strict shape (.obj ms) = true) {m : Utf16 × Document Utf16} (hm : m ∈ ms) :
    ∃ p ∈ shape, m.1 = .ofText p.1.toList ∧ property ms p.1 = some m.2 ∧ p.2 (some m.2) = true := by
  obtain ⟨_, he, hallowed, hchecks⟩ := strict_iff.1 hs
  cases he
  obtain ⟨p, hp, hkey⟩ := List.mem_map.1 (hallowed m hm)
  have hproperty := property_of_mem hnodup hm hkey.symm
  refine ⟨p, hp, hkey.symm, hproperty, ?_⟩
  rw [← hproperty]
  exact hchecks p hp

theorem mem_of_property {ms : List (Utf16 × Document Utf16)} {key : String} {d : Document Utf16}
    (h : property ms key = some d) : (.ofText key.toList, d) ∈ ms := by
  obtain ⟨m, hm, rfl⟩ := Option.map_eq_some_iff.1 h
  have hkey : m.1 = .ofText key.toList := by simpa using List.find?_some hm
  rw [← hkey]
  exact List.mem_of_find?_eq_some hm

theorem single_of_mem : ∀ {ms : List (Utf16 × Document Utf16)}, SingleMembers ms → ∀ m ∈ ms, Single m.2
  | [], _ => List.forall_mem_nil _
  | _ :: _, h => List.forall_mem_cons.2 ⟨h.1, single_of_mem h.2⟩

theorem singleMembers_of {ms : List (Utf16 × Document Utf16)} (h : ∀ m ∈ ms, Single m.2) :
    SingleMembers ms := by
  induction ms with
  | nil => trivial
  | cons m ms ih =>
    rw [List.forall_mem_cons] at h
    exact ⟨h.1, ih h.2⟩

theorem readCapabilities_isSome : ∀ ms : List (Utf16 × Document Utf16),
    (readCapabilities (relayedMembers ms)).isSome = true ↔ ∀ m ∈ ms, boolean m.2 = true
  | [] => by simp [relayedMembers, mapMembers, valueMembers, readCapabilities]
  | (k, d) :: ms => by
    have ih := readCapabilities_isSome ms
    rw [List.forall_mem_cons, ← ih, relayedMembers, mapMembers, valueMembers]
    cases d <;> simp [Document.map, value, readCapabilities, boolean, relayedMembers]

theorem optional_iff {ms : List (Utf16 × Document Utf16)} (h : (ms.map fun m => m.1.text).Nodup)
    {schema : Document Utf16 → Bool} {key : String} : optional schema (property ms key) = true ↔
      ∀ m ∈ ms, m.1 = .ofText key.toList → schema m.2 = true := by
  constructor
  · intro hschema m hm hkey
    rwa [property_of_mem h hm hkey] at hschema
  · intro hall
    cases hx : property ms key with
    | none => rfl
    | some d => exact hall _ (mem_of_property hx) rfl

theorem capabilities_isSome {d : Document Utf16} (hd : Single d) :
    (∃ caps, objectMembers (relayed d) [] ["mailbox_poll", "receipts", "attachments"] = some caps ∧
      (readCapabilities caps).isSome = true) ↔ capabilities d = true := by
  have hplain : ∀ key ∈ [] ++ ["mailbox_poll", "receipts", "attachments"], PlainName key := by
    simp only [List.nil_append, List.forall_mem_cons]
    exact ⟨plainName_ofList (by decide), plainName_ofList (by decide), plainName_ofList (by decide),
      List.forall_mem_nil _⟩
  refine object_iff hplain (fun _ => Iff.rfl) ?_
  rintro ms rfl hnames
  simp only [readCapabilities_isSome, List.forall_mem_cons, optional_iff hd.1]
  constructor
  · rintro ⟨hpoll, hreceipts, hattachments, -⟩
    refine ⟨List.forall_mem_nil _, fun m hm => ?_⟩
    have hname := hnames m hm
    simp only [List.nil_append, List.map_cons, List.map_nil, List.mem_cons, List.not_mem_nil,
      or_false] at hname
    rcases hname with h | h | h
    · exact hpoll m hm h
    · exact hreceipts m hm h
    · exact hattachments m hm h
  · rintro ⟨-, hall⟩
    exact ⟨fun m hm _ => hall m hm, fun m hm _ => hall m hm, fun m hm _ => hall m hm,
      List.forall_mem_nil _⟩

theorem plainName_deviceLabel : PlainName "device_label" := plainName_ofList (by decide)

theorem readDeviceLabel_isSome (ms : List (Utf16 × Document Utf16)) :
    (readDeviceLabel (relayedMembers ms)).isSome = true ↔
      optional (string fun s => decide (s.units.length ≤ 256)) (property ms "device_label") = true := by
  have hfind := find_valueMembers plainName_deviceLabel ms
  unfold readDeviceLabel relayedMembers
  cases hx : property ms "device_label" with
  | none =>
    rw [hx, Option.map_none, Option.map_eq_none_iff] at hfind
    rw [hfind]
    simp [optional]
  | some d =>
    rw [hx, Option.map_some, Option.map_eq_some_iff] at hfind
    obtain ⟨p, hp, hvalue⟩ := hfind
    rw [hp]
    simp only [hvalue, optional, Option.all_some, string_iff, Option.isSome_map,
      Option.isSome_iff_exists, Option.filter_eq_some_iff, text_relayed, decide_eq_true_eq]
    constructor
    · rintro ⟨_, ⟨s, rfl, rfl⟩, hlength⟩
      exact ⟨s, rfl, utf16Length_text s ▸ hlength⟩
    · rintro ⟨s, rfl, hlength⟩
      exact ⟨_, ⟨s, rfl, rfl⟩, (utf16Length_text s).symm ▸ hlength⟩

/-- The checks of the record on its members; the greatest UUID is not counted. -/
def DeviceChecks (dr : List (String × Value)) : Prop :=
  Echolet.text (getMember dr "type") = some "device_record".toList ∧
  Echolet.number (getMember dr "version") maxSafeInteger = some 1 ∧
  (b64 (getMember dr "identity_id") 32 none).isSome = true ∧
  (b64 (getMember dr "device_pubkey") 32 none).isSome = true ∧
  (b64 (getMember dr "signature") 64 none).isSome = true ∧
  (∃ t, validUUID (getMember dr "device_id") = some t ∧ t ≠ maxUUID) ∧
  (Echolet.number (getMember dr "created_at_ms") maxSafeInteger).isSome = true ∧
  (readDeviceLabel dr).isSome = true ∧
  ∃ caps, objectMembers (getMember dr "capabilities") []
    ["mailbox_poll", "receipts", "attachments"] = some caps ∧ (readCapabilities caps).isSome = true

theorem readDeviceRecord_iff (v : Value) :
    (∃ dr, readDeviceRecord v = some dr ∧ dr.deviceId ≠ maxUUID) ↔
      ∃ dr, objectMembers v ["type", "version", "identity_id", "device_id", "device_pubkey",
        "capabilities", "created_at_ms", "signature"] ["device_label"] = some dr ∧ DeviceChecks dr := by
  simp only [readDeviceRecord, Option.bind_eq_bind, Option.bind_eq_some_iff, DeviceChecks,
    Option.filter_eq_some_iff, decide_eq_true_eq, Option.isSome_iff_exists]
  constructor
  · rintro ⟨_, ⟨dr, hdr, _, ⟨htype, rfl⟩, _, ⟨hversion, rfl⟩, _, hidentity, _, hpubkey, _, hsignature, _,
      hid, _, hcreated, _, hlabel, caps, hcaps, _, hcapabilities, h⟩, hmax⟩
    cases h
    exact ⟨dr, hdr, htype, hversion, ⟨_, hidentity⟩, ⟨_, hpubkey⟩, ⟨_, hsignature⟩, ⟨_, hid, hmax⟩,
      ⟨_, hcreated⟩, ⟨_, hlabel⟩, caps, hcaps, _, hcapabilities⟩
  · rintro ⟨dr, hdr, htype, hversion, ⟨_, hidentity⟩, ⟨_, hpubkey⟩, ⟨_, hsignature⟩, ⟨_, hid, hmax⟩,
      ⟨_, hcreated⟩, ⟨_, hlabel⟩, caps, hcaps, _, hcapabilities⟩
    exact ⟨_, ⟨dr, hdr, _, ⟨htype, rfl⟩, _, ⟨hversion, rfl⟩, _, hidentity, _, hpubkey, _, hsignature,
      _, hid, _, hcreated, _, hlabel, caps, hcaps, _, hcapabilities, rfl⟩, hmax⟩

/-- **The device record**: but for the greatest UUID the relay reads what the schema accepts. -/
theorem device_iff {d : Document Utf16} (hd : Single d) :
    (∃ dr, readDeviceRecord (relayed d) = some dr ∧ dr.deviceId ≠ maxUUID) ↔
      signedDevice d = true := by
  have hcaps : PlainName "capabilities" := plainName_ofList (by decide)
  have hplain : ∀ key ∈ ["type", "version", "identity_id", "device_id", "device_pubkey",
      "capabilities", "created_at_ms", "signature"] ++ ["device_label"], PlainName key := by
    simp only [List.cons_append, List.nil_append, List.forall_mem_cons]
    exact ⟨plainName_type, plainName_version, plainName_identityId, plainName_deviceId,
      plainName_devicePubkey, hcaps, plainName_createdAt, plainName_signature, plainName_deviceLabel,
      List.forall_mem_nil _⟩
  rw [readDeviceRecord_iff, signedDevice]
  refine object_iff hplain (fun k => ?_) ?_
  · -- the label stands in the middle of the schema
    have hperm := ((List.perm_append_singleton (Utf16.ofText "device_label".toList)
      (["capabilities", "created_at_ms", "signature"].map fun key => Utf16.ofText key.toList)).symm).append_left
      (["type", "version", "identity_id", "device_id", "device_pubkey"].map fun key =>
        Utf16.ofText key.toList)
    exact hperm.mem_iff
  rintro ms rfl -
  have hlabels := readDeviceLabel_isSome ms
  have hcapabilities := required_property hcaps ms (P := fun v => ∃ caps,
    objectMembers v [] ["mailbox_poll", "receipts", "attachments"] = some caps ∧
      (readCapabilities caps).isSome = true)
    fun d h => capabilities_isSome (single_of_mem hd.2 _ (mem_of_property h))
  simp only [List.forall_mem_cons, DeviceChecks, identity, timestamp, signature, hlabels, hcapabilities,
    required_literal plainName_type plainName_deviceRecord,
    required_literalNumber plainName_version (show 1 ≤ maxSafeInteger by decide),
    required_b64 plainName_identityId (show 0 < 32 by decide),
    required_b64 plainName_devicePubkey (show 0 < 32 by decide),
    required_b64 plainName_signature (show 0 < 64 by decide), required_uuid plainName_deviceId,
    required_number plainName_createdAt, maxSafeInteger]
  constructor
  · rintro ⟨⟨h₁, htype⟩, ⟨h₂, hversion⟩, ⟨h₃, hid⟩, ⟨h₄, huuid⟩, ⟨h₅, hkey⟩, hlabel, ⟨h₆, hcaps⟩,
      ⟨h₇, hcreated⟩, ⟨h₈, hsignature⟩, hnil⟩
    exact ⟨⟨h₁, h₂, h₃, h₄, h₅, h₆, h₇, h₈, List.forall_mem_nil _⟩,
      htype, hversion, hid, hkey, hsignature, huuid, hcreated, hlabel, hcaps⟩
  · rintro ⟨⟨h₁, h₂, h₃, h₄, h₅, h₆, h₇, h₈, -⟩,
      htype, hversion, hid, hkey, hsignature, huuid, hcreated, hlabel, hcaps⟩
    exact ⟨⟨h₁, htype⟩, ⟨h₂, hversion⟩, ⟨h₃, hid⟩, ⟨h₄, huuid⟩, ⟨h₅, hkey⟩, hlabel, ⟨h₆, hcaps⟩,
      ⟨h₇, hcreated⟩, ⟨h₈, hsignature⟩, List.forall_mem_nil _⟩

/-! ## The bundle -/

/-- The checks of the bundle on its members, but for the window. -/
def BundleChecks (root : List (String × Value)) : Prop :=
  Echolet.text (getMember root "type") = some "signal_prekey_bundle".toList ∧
  Echolet.number (getMember root "version") maxSafeInteger = some 2 ∧
  Echolet.text (getMember root "suite") = some "libsignal-pq-v1".toList ∧
  (∃ t, validUUID (getMember root "bundle_id") = some t ∧ t ≠ maxUUID) ∧
  (Echolet.number (getMember root "created_at_ms") maxSafeInteger).isSome = true ∧
  (Echolet.number (getMember root "expires_at_ms") maxSafeInteger).isSome = true ∧
  (∃ dr, readDeviceRecord (getMember root "device_record") = some dr ∧ dr.deviceId ≠ maxUUID) ∧
  (∃ n, Echolet.number (getMember root "registration_id") 16380 = some n ∧ n ≠ 0) ∧
  (b64 (getMember root "signal_identity_key") 33 (some 5)).isSome = true ∧
  (b64 (getMember root "signature") 64 none).isSome = true ∧
  (checkSignedKey (getMember root "signed_prekey") 33 5).isSome = true ∧
  (checkSignedKey (getMember root "kyber_prekey") 1569 8).isSome = true ∧
  ∃ op, objectMembers (getMember root "one_time_prekey") ["key_id", "public_key"] [] = some op ∧
    (Echolet.number (getMember op "key_id") 4294967295).isSome = true ∧
    (b64 (getMember op "public_key") 33 (some 5)).isSome = true

/-- The window of the bundle. -/
def WindowCheck (root : List (String × Value)) : Prop :=
  ∀ created expires, Echolet.number (getMember root "created_at_ms") maxSafeInteger = some created →
    Echolet.number (getMember root "expires_at_ms") maxSafeInteger = some expires →
      created < expires ∧ expires - created ≤ maxBundleWindowMs

theorem readBundle_iff (raw : List UInt8) (v : Value) :
    (∃ b, readBundle raw v = some b ∧ b.bundleId ≠ maxUUID ∧ b.deviceId ≠ maxUUID) ↔
      ∃ root, objectMembers v ["type", "version", "suite", "bundle_id", "created_at_ms",
        "expires_at_ms", "device_record", "registration_id", "signal_identity_key", "signed_prekey",
        "kyber_prekey", "one_time_prekey", "signature"] [] = some root ∧
        BundleChecks root ∧ WindowCheck root := by
  simp only [readBundle, Option.bind_eq_bind, Option.bind_eq_some_iff, BundleChecks, WindowCheck,
    Option.filter_eq_some_iff, decide_eq_true_eq, Option.isSome_iff_exists]
  constructor
  · rintro ⟨_, ⟨root, hroot, _, ⟨htype, rfl⟩, _, ⟨hversion, rfl⟩, _, ⟨hsuite, rfl⟩, _, hid, _, hcreated,
      _, ⟨hexpires, hwindow⟩, dr, hdr, _, ⟨hreg, hne⟩, _, hidentity, _, hsignature, _, hsp, _, hkp, op,
      hop, _, hkey, _, hpub, h⟩, hmax, hmax'⟩
    cases h
    refine ⟨root, hroot, ⟨htype, hversion, hsuite, ⟨_, hid, hmax⟩, ⟨_, hcreated⟩, ⟨_, hexpires⟩,
      ⟨dr, hdr, hmax'⟩, ⟨_, hreg, hne⟩, ⟨_, hidentity⟩, ⟨_, hsignature⟩, ⟨_, hsp⟩, ⟨_, hkp⟩, op, hop,
      ⟨_, hkey⟩, _, hpub⟩, fun created expires hc he => ?_⟩
    rw [hcreated, Option.some.injEq] at hc
    rw [hexpires, Option.some.injEq] at he
    exact hc ▸ he ▸ hwindow
  · rintro ⟨root, hroot, ⟨htype, hversion, hsuite, ⟨_, hid, hmax⟩, ⟨created, hcreated⟩,
      ⟨expires, hexpires⟩, ⟨dr, hdr, hmax'⟩, ⟨_, hreg, hne⟩, ⟨_, hidentity⟩, ⟨_, hsignature⟩, ⟨_, hsp⟩,
      ⟨_, hkp⟩, op, hop, ⟨_, hkey⟩, _, hpub⟩, hwindow⟩
    exact ⟨_, ⟨root, hroot, _, ⟨htype, rfl⟩, _, ⟨hversion, rfl⟩, _, ⟨hsuite, rfl⟩, _, hid, _, hcreated,
      _, ⟨hexpires, hwindow _ _ hcreated hexpires⟩, dr, hdr, _, ⟨hreg, hne⟩, _, hidentity, _, hsignature,
      _, hsp, _, hkp, op, hop, _, hkey, _, hpub, rfl⟩, hmax, hmax'⟩

theorem lifetime_iff {ms : List (Utf16 × Document Utf16)}
    (hcreated : required timestamp (property ms "created_at_ms") = true)
    (hexpires : required timestamp (property ms "expires_at_ms") = true) :
    lifetime (property ms "created_at_ms") (property ms "expires_at_ms") = true ↔
      WindowCheck (relayedMembers ms) := by
  obtain ⟨c, hc, hc'⟩ := required_iff.1 hcreated
  obtain ⟨e, he, he'⟩ := required_iff.1 hexpires
  obtain ⟨n, ⟨-, hn⟩, x, rfl, hx⟩ := int_iff.1 hc'
  obtain ⟨m, ⟨-, hm⟩, y, rfl, hy⟩ := int_iff.1 he'
  have hcn : Echolet.number (relayed (.number x)) maxSafeInteger = some n :=
    number_relayed.2 ⟨hn, x, rfl, hx⟩
  have hem : Echolet.number (relayed (.number y)) maxSafeInteger = some m :=
    number_relayed.2 ⟨hm, y, rfl, hy⟩
  rw [WindowCheck, relayedMembers, getMember_eq plainName_createdAt, getMember_eq plainName_expiresAt,
    hc, he]
  simp only [Option.map_some, Option.getD_some, hcn, hem, Option.some.injEq, lifetime, hx, hy,
    decide_eq_true_eq, maxBundleWindowMs]
  constructor
  · rintro ⟨hlt, hle⟩ _ _ rfl rfl
    have hlt : n < m := by exact_mod_cast hlt
    refine ⟨hlt, ?_⟩
    have hsub : ((m - n : ℕ) : ℚ) = (m : ℚ) - n := Nat.cast_sub hlt.le
    rw [← hsub] at hle
    exact_mod_cast hle
  · intro h
    obtain ⟨hlt, hle⟩ := h n m rfl rfl
    refine ⟨by exact_mod_cast hlt, ?_⟩
    have hsub : ((m - n : ℕ) : ℚ) = (m : ℚ) - n := Nat.cast_sub hlt.le
    rw [← hsub]
    exact_mod_cast hle

theorem required_nullable {x : Option (Document Utf16)} :
    required oneTimeKey x = true ↔ required (nullable oneTimeKey) x = true ∧ x ≠ some .null := by
  cases x with
  | none => simp [required]
  | some d => cases d <;> simp [required, nullable, oneTimeKey, strict]

/-- The schema of a bundle with a one-time key. -/
def offered : List (String × (Option (Document Utf16) → Bool)) :=
  [("type", required (literal "signal_prekey_bundle")), ("version", required (literalNumber 2)),
    ("suite", required (literal "libsignal-pq-v1")), ("bundle_id", required (string uuid)),
    ("created_at_ms", required timestamp), ("expires_at_ms", required timestamp),
    ("device_record", required signedDevice), ("registration_id", required (int 1 16380)),
    ("signal_identity_key", required ecKey), ("signed_prekey", required (signedKey ecKey)),
    ("kyber_prekey", required (signedKey (string (encodedBytes 1569 (some 0x08))))),
    ("one_time_prekey", required oneTimeKey), ("signature", required signature)]

theorem offered_iff {d : Document Utf16} (hd : Single d) :
    (∃ root, objectMembers (relayed d) ["type", "version", "suite", "bundle_id", "created_at_ms",
      "expires_at_ms", "device_record", "registration_id", "signal_identity_key", "signed_prekey",
      "kyber_prekey", "one_time_prekey", "signature"] [] = some root ∧ BundleChecks root) ↔
      strict offered d = true := by
  have hbundle : PlainName "signal_prekey_bundle" := plainName_ofList (by decide)
  have hpq : PlainName "libsignal-pq-v1" := plainName_ofList (by decide)
  have hsuite : PlainName "suite" := plainName_ofList (by decide)
  have hreg : PlainName "registration_id" := plainName_ofList (by decide)
  have hident : PlainName "signal_identity_key" := plainName_ofList (by decide)
  have hsp : PlainName "signed_prekey" := plainName_ofList (by decide)
  have hkp : PlainName "kyber_prekey" := plainName_ofList (by decide)
  have hop : PlainName "one_time_prekey" := plainName_ofList (by decide)
  refine object_iff ?_ (fun _ => Iff.rfl) ?_
  · simp only [List.append_nil, List.forall_mem_cons]
    exact ⟨plainName_type, plainName_version, hsuite, plainName_bundleId, plainName_createdAt,
      plainName_expiresAt, plainName_deviceRecord, hreg, hident, hsp, hkp, hop, plainName_signature,
      List.forall_mem_nil _⟩
  rintro ms rfl -
  have hdevice := required_property plainName_deviceRecord ms
    (P := fun v => ∃ dr, readDeviceRecord v = some dr ∧ dr.deviceId ≠ maxUUID)
    fun d h => device_iff (single_of_mem hd.2 _ (mem_of_property h))
  have hregistration := required_property hreg ms
    (P := fun v => ∃ n, Echolet.number v 16380 = some n ∧ n ≠ 0) fun d _ => registrationId_iff d
  have hsigned := required_property hsp ms
    (P := fun v => (checkSignedKey v 33 5).isSome = true) fun d _ => signedKey_isSome (by decide) 5 d
  have hkyber := required_property hkp ms
    (P := fun v => (checkSignedKey v 1569 8).isSome = true) fun d _ => signedKey_isSome (by decide) 8 d
  have honeTime := required_property hop ms
    (P := fun v => ∃ op, objectMembers v ["key_id", "public_key"] [] = some op ∧
      (Echolet.number (getMember op "key_id") 4294967295).isSome = true ∧
      (b64 (getMember op "public_key") 33 (some 5)).isSome = true) fun d _ => oneTimeKey_isSome d
  simp only [offered, List.forall_mem_cons, BundleChecks, timestamp, signature, ecKey, hdevice,
    hregistration, hsigned, hkyber, honeTime,
    required_literal plainName_type hbundle, required_literal hsuite hpq,
    required_literalNumber plainName_version (show 2 ≤ maxSafeInteger by decide),
    required_uuid plainName_bundleId, required_number plainName_createdAt,
    required_number plainName_expiresAt,
    required_b64 hident (show 0 < 33 by decide),
    required_b64 plainName_signature (show 0 < 64 by decide), maxSafeInteger]
  constructor
  · rintro ⟨⟨h₁, htype⟩, ⟨h₂, hversion⟩, ⟨h₃, hsuite⟩, ⟨h₄, hid⟩, ⟨h₅, hcreated⟩, ⟨h₆, hexpires⟩,
      ⟨h₇, hdevice⟩, ⟨h₈, hreg⟩, ⟨h₉, hident⟩, ⟨h₁₀, hsp⟩, ⟨h₁₁, hkp⟩, ⟨h₁₂, hop⟩, ⟨h₁₃, hsignature⟩, -⟩
    exact ⟨⟨h₁, h₂, h₃, h₄, h₅, h₆, h₇, h₈, h₉, h₁₀, h₁₁, h₁₂, h₁₃, List.forall_mem_nil _⟩,
      htype, hversion, hsuite, hid, hcreated, hexpires, hdevice, hreg, hident, hsignature, hsp, hkp, hop⟩
  · rintro ⟨⟨h₁, h₂, h₃, h₄, h₅, h₆, h₇, h₈, h₉, h₁₀, h₁₁, h₁₂, h₁₃, -⟩,
      htype, hversion, hsuite, hid, hcreated, hexpires, hdevice, hreg, hident, hsignature, hsp, hkp, hop⟩
    exact ⟨⟨h₁, htype⟩, ⟨h₂, hversion⟩, ⟨h₃, hsuite⟩, ⟨h₄, hid⟩, ⟨h₅, hcreated⟩, ⟨h₆, hexpires⟩,
      ⟨h₇, hdevice⟩, ⟨h₈, hreg⟩, ⟨h₉, hident⟩, ⟨h₁₀, hsp⟩, ⟨h₁₁, hkp⟩, ⟨h₁₂, hop⟩, ⟨h₁₃, hsignature⟩,
      List.forall_mem_nil _⟩

theorem objectMembers_root {d : Document Utf16} {req opt : List String} {root : List (String × Value)}
    (h : objectMembers (relayed d) req opt = some root) : root = relayedMembers (members d) := by
  obtain ⟨ms, rfl⟩ := objectMembers_isSome (Option.isSome_iff_exists.2 ⟨root, h⟩)
  have hobj : relayed (.obj ms) = .obj (relayedMembers ms) := rfl
  rw [hobj, objectMembers] at h
  split_ifs at h
  cases h
  rfl

/-- The schema, for a bundle with a one-time key. -/
theorem schema_iff (d : Document Utf16) :
    schema d = true ∧ property (members d) "one_time_prekey" ≠ some .null ↔
      strict offered d = true ∧ WindowCheck (relayedMembers (members d)) := by
  rw [schema, Bool.and_eq_true, strict_iff, strict_iff]
  simp only [offered, List.forall_mem_cons, required_nullable (x := property _ "one_time_prekey")]
  constructor
  · rintro ⟨⟨⟨ms, rfl, hnames, htype, hversion, hsuite, hid, hcreated, hexpires, hdevice, hreg, hident,
      hsp, hkp, hop, hsignature, hnil⟩, hwindow⟩, hnull⟩
    exact ⟨⟨ms, rfl, hnames, htype, hversion, hsuite, hid, hcreated, hexpires, hdevice, hreg, hident,
      hsp, hkp, ⟨hop, hnull⟩, hsignature, hnil⟩, (lifetime_iff hcreated hexpires).1 hwindow⟩
  · rintro ⟨⟨ms, rfl, hnames, htype, hversion, hsuite, hid, hcreated, hexpires, hdevice, hreg, hident,
      hsp, hkp, ⟨hop, hnull⟩, hsignature, hnil⟩, hwindow⟩
    exact ⟨⟨⟨ms, rfl, hnames, htype, hversion, hsuite, hid, hcreated, hexpires, hdevice, hreg, hident,
      hsp, hkp, hop, hsignature, hnil⟩, (lifetime_iff hcreated hexpires).2 hwindow⟩, hnull⟩

/-- **One schema**: what the relay reads of a document and what the client accepts. -/
theorem bundle_iff {d : Document Utf16} (hd : Single d) (raw : List UInt8) :
    (∃ b, readBundle raw (relayed d) = some b ∧ b.bundleId ≠ maxUUID ∧ b.deviceId ≠ maxUUID) ↔
      schema d = true ∧ property (members d) "one_time_prekey" ≠ some .null := by
  rw [readBundle_iff, schema_iff, ← offered_iff hd]
  constructor
  · rintro ⟨root, hroot, hchecks, hwindow⟩
    exact ⟨⟨root, hroot, hchecks⟩, objectMembers_root hroot ▸ hwindow⟩
  · rintro ⟨⟨root, hroot, hchecks⟩, hwindow⟩
    exact ⟨root, hroot, hchecks, (objectMembers_root hroot).symm ▸ hwindow⟩

/-! ## What `JSON.parse` makes of it -/

theorem setEntry_of_notMem {k : Utf16} {x : Document Utf16} :
    ∀ {es : List (Utf16 × Document Utf16)}, k ∉ es.map (·.1) → JsMap.setEntry k x es = es ++ [(k, x)]
  | [], _ => rfl
  | e :: es, h => by
    rw [List.map_cons, List.mem_cons, not_or] at h
    rw [JsMap.setEntry, if_neg (Ne.symm h.1), setEntry_of_notMem h.2, List.cons_append]

mutual
/-- Without a member twice a document is parsed as it stands. -/
theorem parsed_of_single : ∀ {d : Document Utf16}, Single d → parsed d = d
  | .null, _ | .bool _, _ | .number _, _ | .str _, _ => rfl
  | .infinite _, h | .arr _, h => h.elim
  | .obj ms, h => by
    rw [parsed, parsedMembers_of_single h.2 h.1 fun _ _ => List.not_mem_nil, List.nil_append]

theorem parsedMembers_of_single : ∀ {ms es : List (Utf16 × Document Utf16)}, SingleMembers ms →
    (ms.map fun m => m.1.text).Nodup → (∀ m ∈ ms, m.1 ∉ es.map (·.1)) → parsedMembers es ms = es ++ ms
  | [], es, _, _, _ => by rw [parsedMembers, List.append_nil]
  | (k, x) :: ms, es, h, hnodup, hnew => by
    rw [List.map_cons, List.nodup_cons] at hnodup
    rw [List.forall_mem_cons] at hnew
    have hrest : ∀ m ∈ ms, m.1 ∉ (es ++ [(k, x)]).map (·.1) := by
      intro m hm hmem
      rw [List.map_append, List.mem_append] at hmem
      rcases hmem with hmem | hmem
      · exact hnew.2 m hm hmem
      · have hkey : m.1 = k := by simpa using hmem
        exact hnodup.1 (List.mem_map.2 ⟨m, hm, by rw [hkey]⟩)
    rw [parsedMembers, parsed_of_single h.1, setEntry_of_notMem hnew.1,
      parsedMembers_of_single h.2 hnodup.2 hrest, List.append_assoc, List.singleton_append]
end

/-- **One schema**: of what the relay can read it takes a document for a bundle exactly if the
    client accepts it, but that the client alone accepts one without a one-time key and the relay
    alone one with the greatest UUID. -/
theorem one_schema {d : Document Utf16} {o : Document Text} (h : readOrdered d = some o)
    (raw : List UInt8) :
    (∃ b, readBundle raw (value o) = some b ∧ b.bundleId ≠ maxUUID ∧ b.deviceId ≠ maxUUID) ↔
      schema (parsed d) = true ∧ property (members (parsed d)) "one_time_prekey" ≠ some .null := by
  obtain ⟨hd, rfl⟩ := readOrdered_eq h
  rw [parsed_of_single hd]
  exact bundle_iff hd raw

/-- An object by the texts of its names. -/
def object (ms : List (String × Document Utf16)) : Document Utf16 :=
  .obj (ms.map fun m => (.ofText m.1.toList, m.2))

/-- Zero bytes behind a first one, which stands in two characters. -/
def zeroBytes (n : ℕ) (lead : List Char) : Document Utf16 :=
  .str (.ofText (lead ++ List.replicate ((n * 8 + 5) / 6 - lead.length) 'A'))

def literally (t : String) : Document Utf16 := .str (.ofText t.toList)

/-- A bundle of zero keys. -/
def zeroDocument (label : Utf16) (keyId : Number) : Document Utf16 :=
  object [("type", literally "signal_prekey_bundle"), ("version", .number (.ofNat 2)),
    ("suite", literally "libsignal-pq-v1"), ("bundle_id", .str (.ofText nilUUID)),
    ("created_at_ms", .number (.ofNat 5)), ("expires_at_ms", .number (.ofNat 6)),
    ("device_record", object [("type", literally "device_record"), ("version", .number (.ofNat 1)),
      ("identity_id", zeroBytes 32 []), ("device_id", .str (.ofText nilUUID)),
      ("device_pubkey", zeroBytes 32 []), ("device_label", .str label),
      ("capabilities", object [("receipts", .bool true)]), ("created_at_ms", .number (.ofNat 4)),
      ("signature", zeroBytes 64 [])]),
    ("registration_id", .number (.ofNat 7)), ("signal_identity_key", zeroBytes 33 ['B', 'Q']),
    ("signed_prekey", object [("key_id", .number keyId), ("public_key", zeroBytes 33 ['B', 'Q']),
      ("signature", zeroBytes 64 [])]),
    ("kyber_prekey", object [("key_id", .number keyId), ("public_key", zeroBytes 1569 ['C', 'A']),
      ("signature", zeroBytes 64 [])]),
    ("one_time_prekey", object [("key_id", .number keyId), ("public_key", zeroBytes 33 ['B', 'Q'])]),
    ("signature", zeroBytes 64 [])]

theorem one_schema_zero : ∃ o, readOrdered (zeroDocument (.ofText ['a']) (.ofNat 0)) = some o ∧
    ∃ b, readBundle [] (value o) = some b ∧ b.bundleId ≠ maxUUID ∧ b.deviceId ≠ maxUUID := by
  let o := (readOrdered (zeroDocument (.ofText ['a']) (.ofNat 0))).get (by decide +kernel)
  have ho : readOrdered (zeroDocument (.ofText ['a']) (.ofNat 0)) = some o := (Option.some_get _).symm
  refine ⟨o, ho, (one_schema ho []).2 ⟨by decide +kernel, fun h => ?_⟩⟩
  have hlength := congrArg (Option.map fun d => (members d).length) h
  exact absurd hlength (by decide +kernel)

end SignalBundle

end Echolet
