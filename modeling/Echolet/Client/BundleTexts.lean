/-
  Published bundles: what the two signatures of one are checked over.

  * `forall_of_signed`: whatever holds of the strings and numbers under the device's signature
    holds of those of the document;
  * `signed_texts`: for a bundle that both take, the relay and the client check the signatures over
    the same texts exactly if no string of it has a lone surrogate and no zero of it is negative.
-/
import Echolet.Client.BundleObjects
import Echolet.Client.MailboxAuth

namespace Echolet

open Document

namespace SignalBundle

/-! ## Strings and numbers of an object -/

section
variable {σ : Type} {W : σ → Prop} {N : Number → Prop}

/-- Something of all strings and all numbers of a document. -/
structure Throughout (W : σ → Prop) (N : Number → Prop) (d : Document σ) : Prop where
  strings : ∀ s ∈ strings d, W s
  numbers : ∀ n ∈ numbers d, N n

theorem throughout_obj {ms : List (σ × Document σ)} :
    Throughout W N (.obj ms) ↔ ∀ m ∈ ms, W m.1 ∧ Throughout W N m.2 := by
  induction ms with
  | nil => exact iff_of_true ⟨List.forall_mem_nil _, List.forall_mem_nil _⟩ (List.forall_mem_nil _)
  | cons m ms ih =>
    obtain ⟨k, x⟩ := m
    rw [List.forall_mem_cons, ← ih]
    constructor
    · rintro ⟨hs, hn⟩
      rw [Document.strings, stringsOfMembers, List.cons_append, List.forall_mem_cons,
        List.forall_mem_append] at hs
      rw [Document.numbers, numbersOfMembers, List.forall_mem_append] at hn
      exact ⟨⟨hs.1, hs.2.1, hn.1⟩, hs.2.2, hn.2⟩
    · rintro ⟨⟨hk, hx⟩, hms⟩
      refine ⟨?_, List.forall_mem_append.2 ⟨hx.numbers, hms.numbers⟩⟩
      rw [Document.strings, stringsOfMembers, List.cons_append, List.forall_mem_cons]
      exact ⟨hk, List.forall_mem_append.2 ⟨hx.strings, hms.strings⟩⟩

theorem throughout_arr {xs : List (Document σ)} :
    Throughout W N (.arr xs) ↔ ∀ x ∈ xs, Throughout W N x := by
  induction xs with
  | nil => exact iff_of_true ⟨List.forall_mem_nil _, List.forall_mem_nil _⟩ (List.forall_mem_nil _)
  | cons x xs ih =>
    rw [List.forall_mem_cons, ← ih]
    constructor
    · rintro ⟨hs, hn⟩
      rw [Document.strings, stringsOfElems, List.forall_mem_append] at hs
      rw [Document.numbers, numbersOfElems, List.forall_mem_append] at hn
      exact ⟨⟨hs.1, hn.1⟩, hs.2, hn.2⟩
    · rintro ⟨hx, hxs⟩
      exact ⟨List.forall_mem_append.2 ⟨hx.strings, hxs.strings⟩,
        List.forall_mem_append.2 ⟨hx.numbers, hxs.numbers⟩⟩

theorem throughout_str {s : σ} : Throughout W N (.str s) ↔ W s :=
  ⟨fun h => h.strings s (List.mem_singleton_self s),
    fun h => ⟨List.forall_mem_singleton.2 h, List.forall_mem_nil _⟩⟩

theorem throughout_number {n : Number} : Throughout W N (.number n : Document σ) ↔ N n :=
  ⟨fun h => h.numbers n (List.mem_singleton_self n),
    fun h => ⟨List.forall_mem_nil _, List.forall_mem_singleton.2 h⟩⟩

theorem throughout_null : Throughout W N (.null : Document σ) :=
  ⟨List.forall_mem_nil _, List.forall_mem_nil _⟩

theorem throughout_bool (b : Bool) : Throughout W N (.bool b : Document σ) :=
  ⟨List.forall_mem_nil _, List.forall_mem_nil _⟩

end

/-! ## From what is signed to the document -/

def AsciiName (key : String) : Prop := ∀ c ∈ key.toList, c.toNat < 128

theorem asciiName_ofList {l : List Char} (h : (l.all fun c => decide (c.toNat < 128)) = true) :
    AsciiName (String.ofList l) := by
  rw [AsciiName, String.toList_ofList]
  simpa using h

theorem AsciiName.units {key : String} (h : AsciiName key) :
    ∀ u ∈ (Utf16.ofText key.toList).units, u < 128 :=
  (forall_text (q := (· < 128)) fun _ h => h).1 (by rwa [text_ofText])

theorem whole_of_value {x : Number} {n : ℕ} (hx : x.value = n) (hn : n ≤ 2 ^ 53) : x.Whole := by
  refine ⟨n, hn, ?_⟩
  obtain ⟨negative, magnitude⟩ := x
  have hmagnitude : (0 : ℚ) ≤ magnitude := magnitude.2
  have hnat : (0 : ℚ) ≤ n := n.cast_nonneg
  have hcast : (magnitude : ℚ) = n := by
    cases negative with
    | false => exact hx
    | true =>
      have hx : -(magnitude : ℚ) = n := hx
      linarith
  exact_mod_cast hcast

section
variable {W : Utf16 → Prop} {N : Number → Prop}

/-- An object of a schema, from its members. -/
theorem throughout_strict {shape : List (String × (Option (Document Utf16) → Bool))}
    {ms : List (Utf16 × Document Utf16)} (hascii : ∀ s : Utf16, (∀ u ∈ s.units, u < 128) → W s)
    (hd : Single (.obj ms)) (hs : strict shape (.obj ms) = true)
    (hnames : ∀ p ∈ shape, AsciiName p.1)
    (h : ∀ p ∈ shape, ∀ d, property ms p.1 = some d → p.2 (some d) = true → Throughout W N d) :
    Throughout W N (.obj ms) := by
  refine throughout_obj.2 fun m hm => ?_
  obtain ⟨p, hp, hkey, hproperty, hcheck⟩ := strict_mem hd.1 hs hm
  exact ⟨hkey ▸ hascii _ (hnames p hp).units, h p hp _ hproperty hcheck⟩

theorem throughout_string {check : Utf16 → Bool} {d : Document Utf16}
    (hascii : ∀ s : Utf16, (∀ u ∈ s.units, u < 128) → W s)
    (hcheck : ∀ s, check s = true → ∀ u ∈ s.units, u < 128)
    (h : required (string check) (some d) = true) : Throughout W N d := by
  obtain ⟨_, he, h⟩ := required_iff.1 h
  cases he
  obtain ⟨s, rfl, hs⟩ := string_iff.1 h
  exact throughout_str.2 (hascii s (hcheck s hs))

theorem encodedBytes_ascii {n : ℕ} {lead : Option ℕ} {s : Utf16} (h : encodedBytes n lead s = true) :
    ∀ u ∈ s.units, u < 128 := by
  simp only [encodedBytes, Bool.and_eq_true, List.all_eq_true, decide_eq_true_eq] at h
  exact fun u hu => alphabet_lt u (h.1.1.2 u hu)

theorem uuid_ascii {s : Utf16} (h : uuid s = true) : ∀ u ∈ s.units, u < 128 := by
  simp only [uuid, Bool.and_eq_true, List.all_eq_true, isLowerUnit, decide_eq_true_eq] at h
  intro u hu
  have hlower := h.2 u hu
  omega

theorem throughout_literal {t : String} (ht : AsciiName t) {d : Document Utf16}
    (hascii : ∀ s : Utf16, (∀ u ∈ s.units, u < 128) → W s)
    (h : required (literal t) (some d) = true) : Throughout W N d := by
  refine throughout_string hascii (fun s hs => ?_) h
  rw [decide_eq_true_eq] at hs
  exact hs ▸ ht.units

theorem throughout_literalNumber {n : ℕ} (hn : n ≤ 2 ^ 53) (h0 : n ≠ 0) {d : Document Utf16}
    (hnonzero : ∀ x : Number, x.Whole → x.value ≠ 0 → N x)
    (h : required (literalNumber n) (some d) = true) : Throughout W N d := by
  obtain ⟨_, he, h⟩ := required_iff.1 h
  cases he
  obtain ⟨x, rfl, hx⟩ := literalNumber_iff.1 h
  exact throughout_number.2 (hnonzero x (whole_of_value hx hn) (hx ▸ Nat.cast_ne_zero.2 h0))

/-- A number that is signed. -/
theorem throughout_int {min max : ℕ} (hmax : max ≤ 2 ^ 53) {ms : List (Utf16 × Document Utf16)}
    {key : String} {d : Document Utf16}
    (hsigned : Throughout W (fun n => n.Whole → N n) (orNull ms key)) (hp : property ms key = some d)
    (h : required (int min max) (some d) = true) : Throughout W N d := by
  obtain ⟨_, he, h⟩ := required_iff.1 h
  cases he
  obtain ⟨n, ⟨-, hn⟩, x, rfl, hx⟩ := int_iff.1 h
  rw [orNull, hp, Option.getD_some, throughout_number] at hsigned
  exact throughout_number.2 (hsigned (whole_of_value hx (hn.trans hmax)))

/-- The capabilities are no strings and no numbers. -/
theorem throughout_capabilities {d : Document Utf16}
    (hascii : ∀ s : Utf16, (∀ u ∈ s.units, u < 128) → W s) (hd : Single d)
    (h : required capabilities (some d) = true) : Throughout W N d := by
  obtain ⟨_, he, h⟩ := required_iff.1 h
  cases he
  obtain ⟨ms, rfl, -⟩ := strict_iff.1 h
  have hboolean : ∀ d, optional boolean (some d) = true → Throughout W N d := by
    intro d h
    cases d with
    | bool b => exact throughout_bool b
    | null | number | infinite | str | arr | obj => cases h
  refine throughout_strict hascii hd h ?_ ?_
  · simp only [List.forall_mem_cons]
    exact ⟨asciiName_ofList (by decide), asciiName_ofList (by decide), asciiName_ofList (by decide),
      List.forall_mem_nil _⟩
  · simp only [List.forall_mem_cons]
    exact ⟨fun d _ => hboolean d, fun d _ => hboolean d, fun d _ => hboolean d, List.forall_mem_nil _⟩

theorem asciiName_keyId : AsciiName "key_id" := asciiName_ofList (by decide)

theorem asciiName_publicKey : AsciiName "public_key" := asciiName_ofList (by decide)

theorem asciiName_signature : AsciiName "signature" := asciiName_ofList (by decide)

theorem throughout_signedKey {n : ℕ} {lead : Option ℕ} {d : Document Utf16}
    (hascii : ∀ s : Utf16, (∀ u ∈ s.units, u < 128) → W s) (hd : Single d)
    (hsigned : Throughout W (fun n => n.Whole → N n) (orNull (members d) "key_id"))
    (h : required (signedKey (string (encodedBytes n lead))) (some d) = true) : Throughout W N d := by
  obtain ⟨_, he, h⟩ := required_iff.1 h
  cases he
  obtain ⟨ms, rfl, -⟩ := strict_iff.1 h
  refine throughout_strict hascii hd h ?_ ?_
  · simp only [List.forall_mem_cons]
    exact ⟨asciiName_keyId, asciiName_publicKey, asciiName_signature, List.forall_mem_nil _⟩
  · simp only [List.forall_mem_cons]
    exact ⟨fun d hp => throughout_int (by decide) hsigned hp,
      fun d _ => throughout_string hascii fun _ => encodedBytes_ascii,
      fun d _ => throughout_string hascii fun _ => encodedBytes_ascii, List.forall_mem_nil _⟩

theorem throughout_oneTimeKey {d : Document Utf16}
    (hascii : ∀ s : Utf16, (∀ u ∈ s.units, u < 128) → W s) (hd : Single d)
    (hsigned : Throughout W (fun n => n.Whole → N n) (oneTimePreKey d))
    (h : required oneTimeKey (some d) = true) : Throughout W N d := by
  obtain ⟨_, he, h⟩ := required_iff.1 h
  cases he
  obtain ⟨ms, rfl, -⟩ := strict_iff.1 h
  simp only [oneTimePreKey, throughout_arr, List.forall_mem_cons] at hsigned
  refine throughout_strict hascii hd h ?_ ?_
  · simp only [List.forall_mem_cons]
    exact ⟨asciiName_keyId, asciiName_publicKey, List.forall_mem_nil _⟩
  · simp only [List.forall_mem_cons]
    exact ⟨fun d hp => throughout_int (by decide) hsigned.1 hp,
      fun d _ => throughout_string hascii fun _ => encodedBytes_ascii, List.forall_mem_nil _⟩

/-- What the device signs of the record. -/
def signedRecord (device : List (Utf16 × Document Utf16)) : Document Utf16 :=
  let caps := within device "capabilities"
  .arr [orNull device "type", orNull device "version", orNull device "identity_id",
    orNull device "device_id", orNull device "device_pubkey", orNull device "device_label",
    .arr [orNull caps "mailbox_poll", orNull caps "receipts", orNull caps "attachments"],
    orNull device "created_at_ms", orNull device "signature"]

theorem asciiName_device : ∀ key ∈ ["type", "version", "identity_id", "device_id", "device_pubkey",
    "device_label", "capabilities", "created_at_ms", "signature"], AsciiName key := by
  simp only [List.forall_mem_cons]
  exact ⟨asciiName_ofList (by decide), asciiName_ofList (by decide), asciiName_ofList (by decide),
    asciiName_ofList (by decide), asciiName_ofList (by decide), asciiName_ofList (by decide),
    asciiName_ofList (by decide), asciiName_ofList (by decide), asciiName_signature,
    List.forall_mem_nil _⟩

theorem throughout_device {d : Document Utf16}
    (hascii : ∀ s : Utf16, (∀ u ∈ s.units, u < 128) → W s)
    (hnonzero : ∀ x : Number, x.Whole → x.value ≠ 0 → N x) (hd : Single d)
    (hsigned : Throughout W (fun n => n.Whole → N n) (signedRecord (members d)))
    (h : required signedDevice (some d) = true) : Throughout W N d := by
  obtain ⟨_, he, h⟩ := required_iff.1 h
  cases he
  obtain ⟨ms, rfl, -⟩ := strict_iff.1 h
  simp only [signedRecord, throughout_arr, List.forall_mem_cons] at hsigned
  obtain ⟨-, -, -, -, -, hlabel, -, hcreated, -⟩ := hsigned
  refine throughout_strict hascii hd h (fun p hp => asciiName_device p.1 ?_) ?_
  · exact List.mem_map_of_mem hp
  · simp only [List.forall_mem_cons]
    refine ⟨fun d _ => throughout_literal (asciiName_ofList (by decide)) hascii,
      fun d _ => throughout_literalNumber (by decide) (by decide) hnonzero,
      fun d _ => throughout_string hascii fun _ => encodedBytes_ascii,
      fun d _ => throughout_string hascii fun _ => uuid_ascii,
      fun d _ => throughout_string hascii fun _ => encodedBytes_ascii, fun d hp hl => ?_,
      fun d hp => throughout_capabilities hascii (single_of_mem hd.2 _ (mem_of_property hp)),
      fun d hp => throughout_int (by decide) hcreated hp,
      fun d _ => throughout_string hascii fun _ => encodedBytes_ascii, List.forall_mem_nil _⟩
    -- the label may be any string, and is signed
    rw [members, orNull, hp, Option.getD_some] at hlabel
    obtain ⟨s, rfl, -⟩ := string_iff.1 (show string _ d = true from hl)
    exact throughout_str.2 (throughout_str.1 hlabel)

theorem signed_eq (ms : List (Utf16 × Document Utf16)) : signed ms =
    .arr [.str (.ofText "echolet.signal.prekey_bundle.v2".toList), orNull ms "bundle_id",
      orNull ms "suite", signedRecord (within ms "device_record"), orNull ms "created_at_ms",
      orNull ms "expires_at_ms", orNull ms "registration_id", orNull ms "signal_identity_key",
      .arr [orNull (within ms "signed_prekey") "key_id", orNull (within ms "signed_prekey") "public_key",
        orNull (within ms "signed_prekey") "signature"],
      .arr [orNull (within ms "kyber_prekey") "key_id", orNull (within ms "kyber_prekey") "public_key",
        orNull (within ms "kyber_prekey") "signature"],
      oneTimePreKey (orNull ms "one_time_prekey")] := rfl

/-- **All of a bundle** but its names and what the schema fixes is under the device's signature. -/
theorem forall_of_signed {ms : List (Utf16 × Document Utf16)}
    (hascii : ∀ s : Utf16, (∀ u ∈ s.units, u < 128) → W s)
    (hnonzero : ∀ x : Number, x.Whole → x.value ≠ 0 → N x) (hd : Single (.obj ms))
    (hs : strict offered (.obj ms) = true)
    (hsigned : Throughout W (fun n => n.Whole → N n) (signed ms)) : Throughout W N (.obj ms) := by
  simp only [signed_eq, throughout_arr, List.forall_mem_cons] at hsigned
  obtain ⟨-, -, -, hdevice, hcreated, hexpires, hreg, -, ⟨hsp, -⟩, ⟨hkp, -⟩, hop, -⟩ := hsigned
  refine throughout_strict hascii hd hs ?_ ?_
  · simp only [offered, List.forall_mem_cons]
    exact ⟨asciiName_ofList (by decide), asciiName_ofList (by decide), asciiName_ofList (by decide),
      asciiName_ofList (by decide), asciiName_ofList (by decide), asciiName_ofList (by decide),
      asciiName_ofList (by decide), asciiName_ofList (by decide), asciiName_ofList (by decide),
      asciiName_ofList (by decide), asciiName_ofList (by decide), asciiName_ofList (by decide),
      asciiName_signature, List.forall_mem_nil _⟩
  · have hsingle : ∀ {key d}, property ms key = some d → Single d := fun hp =>
      single_of_mem hd.2 _ (mem_of_property hp)
    have horNull : ∀ {key d}, property ms key = some d → orNull ms key = d := fun hp => by
      rw [orNull, hp, Option.getD_some]
    have hwithin : ∀ {key d}, property ms key = some d → within ms key = members d := fun hp => by
      rw [within, horNull hp]
    simp only [offered, List.forall_mem_cons]
    exact ⟨fun d _ => throughout_literal (asciiName_ofList (by decide)) hascii,
      fun d _ => throughout_literalNumber (by decide) (by decide) hnonzero,
      fun d _ => throughout_literal (asciiName_ofList (by decide)) hascii,
      fun d _ => throughout_string hascii fun _ => uuid_ascii,
      fun d hp => throughout_int (by decide) hcreated hp,
      fun d hp => throughout_int (by decide) hexpires hp,
      fun d hp => throughout_device hascii hnonzero (hsingle hp) (hwithin hp ▸ hdevice),
      fun d hp => throughout_int (by decide) hreg hp,
      fun d _ => throughout_string hascii fun _ => encodedBytes_ascii,
      fun d hp => throughout_signedKey hascii (hsingle hp) (hwithin hp ▸ hsp),
      fun d hp => throughout_signedKey hascii (hsingle hp) (hwithin hp ▸ hkp),
      fun d hp => throughout_oneTimeKey hascii (hsingle hp) (horNull hp ▸ hop),
      fun d _ => throughout_string hascii fun _ => encodedBytes_ascii, List.forall_mem_nil _⟩

end

/-! ## Both programs look up the same members -/

section
variable {σ τ : Type} {f : σ → τ} {g : Number → Number}

theorem mapMembers_eq (ms : List (σ × Document σ)) :
    mapMembers f g ms = ms.map fun m => (f m.1, m.2.map f g) := by
  induction ms with
  | nil => rfl
  | cons m ms ih => rw [mapMembers, ih, List.map_cons]

theorem members_map (d : Document σ) : members (d.map f g) = mapMembers f g (members d) := by
  cases d <;> rfl

theorem mapElems_eq (xs : List (Document σ)) : mapElems f g xs = xs.map fun x => x.map f g := by
  induction xs with
  | nil => rfl
  | cons x xs ih => rw [mapElems, ih, List.map_cons]

end

theorem get_seen {key : String} (h : PlainName key) (ms : List (Utf16 × Document Utf16)) :
    get (mapMembers Utf16.text id ms) key = seen (orNull ms key) := by
  have hpredicate : ((fun m : Text × Document Text => decide (m.1 = key.toList)) ∘
      fun m : Utf16 × Document Utf16 => (m.1.text, m.2.map Utf16.text id)) =
      fun m => decide (m.1 = .ofText key.toList) := by
    funext m
    exact decide_eq_decide.2 (text_eq_iff h)
  rw [get, mapMembers_eq, List.find?_map, orNull, property]
  rw [hpredicate]
  cases ms.find? fun m => m.1 = .ofText key.toList with
  | none => rfl
  | some m => rfl

theorem orNull_map (g : Number → Number) (ms : List (Utf16 × Document Utf16)) (key : String) :
    orNull (mapMembers id g ms) key = (orNull ms key).map id g := by
  rw [orNull, orNull, property, property, mapMembers_eq, List.find?_map]
  have hpredicate : ((fun m : Utf16 × Document Utf16 => decide (m.1 = .ofText key.toList)) ∘
      fun m : Utf16 × Document Utf16 => (id m.1, m.2.map id g)) =
      fun m => decide (m.1 = .ofText key.toList) := rfl
  rw [hpredicate]
  cases ms.find? fun m => m.1 = .ofText key.toList with
  | none => rfl
  | some m => rfl

theorem within_map (g : Number → Number) (ms : List (Utf16 × Document Utf16)) (key : String) :
    within (mapMembers id g ms) key = mapMembers id g (within ms key) := by
  rw [within, orNull_map, members_map, within]

theorem oneTimePreKey_map (g : Number → Number) (d : Document Utf16) :
    oneTimePreKey (d.map id g) = (oneTimePreKey d).map id g := by
  cases d with
  | obj ms =>
    have hobj : (Document.obj ms).map id g = .obj (mapMembers id g ms) := rfl
    rw [hobj]
    simp only [oneTimePreKey, members, orNull_map, Document.map, mapElems]
  | null | bool | number | infinite | str | arr => rfl

theorem signed_map (g : Number → Number) (ms : List (Utf16 × Document Utf16)) :
    signed (mapMembers id g ms) = (signed ms).map id g := by
  simp only [signed, within_map, orNull_map, oneTimePreKey_map, Document.map, mapElems, id]

theorem members_seen {key : String} (h : PlainName key) (ms : List (Utf16 × Document Utf16)) :
    members (get (mapMembers Utf16.text id ms) key) = mapMembers Utf16.text id (within ms key) := by
  rw [get_seen h, seen, members_map, within]

/-- The relay's tuple is the client's, if there is a one-time key. -/
theorem tuple_seen {ms op : List (Utf16 × Document Utf16)}
    (hop : orNull ms "one_time_prekey" = .obj op) :
    tuple (mapMembers Utf16.text id ms) = seen (signed ms) := by
  have hplain : ∀ key ∈ ["bundle_id", "suite", "created_at_ms", "expires_at_ms", "registration_id",
      "signal_identity_key", "device_record", "capabilities", "signed_prekey", "kyber_prekey",
      "one_time_prekey", "type", "version", "identity_id", "device_id", "device_pubkey", "device_label",
      "signature", "mailbox_poll", "receipts", "attachments", "key_id", "public_key"],
      PlainName key := by
    simp only [List.forall_mem_cons]
    repeat' apply And.intro
    all_goals
      first
        | exact List.forall_mem_nil _
        | exact plainName_ofList (by decide)
  simp only [List.forall_mem_cons] at hplain
  obtain ⟨hbid, hsuite, hcreated, hexpires, hreg, hident, hdevice, hcaps, hsp, hkp, honeTime, htype,
    hversion, hiid, hdid, hdpub, hlabel, hsig, hpoll, hreceipts, hattachments, hid, hpub, -⟩ := hplain
  have hmembers : members (.obj op : Document Utf16) = op := rfl
  have hop' : within ms "one_time_prekey" = op := by rw [within, hop, hmembers]
  have htag : seen (.str (.ofText "echolet.signal.prekey_bundle.v2".toList)) =
      .str "echolet.signal.prekey_bundle.v2".toList := congrArg Document.str (text_ofText _)
  have hseen : ∀ xs, seen (.arr xs) = .arr (xs.map seen) := fun xs => by
    rw [seen, Document.map, mapElems_eq]
    rfl
  simp only [tuple, members_seen hdevice, members_seen hcaps, members_seen hsp, members_seen hkp,
    members_seen honeTime, get_seen hbid, get_seen hsuite, get_seen hcreated, get_seen hexpires,
    get_seen hreg, get_seen hident, get_seen htype, get_seen hversion, get_seen hiid, get_seen hdid,
    get_seen hdpub, get_seen hlabel, get_seen hsig, get_seen hpoll, get_seen hreceipts,
    get_seen hattachments, get_seen hid, get_seen hpub, hop', signed, hop, oneTimePreKey,
    hmembers, hseen, List.map_cons, List.map_nil, htag]

/-- What the client signs of the record. -/
def unsigned (dr : List (Utf16 × Document Utf16)) : Document Utf16 :=
  .obj (sortMembers Utf16.units (dr.filter fun m => m.1 ≠ .ofText "signature".toList))

theorem utf8Bytes_text {s : Utf16} (h : ∀ u ∈ s.units, u < 128) : utf8Bytes s.text = s.units := by
  have hascii : ∀ c ∈ s.text, c.toNat < 128 := (forall_text (q := (· < 128)) fun _ h => h).2 h
  have hfine : '\uFFFD' ∉ s.text := fun hm => absurd (hascii _ hm) (by decide)
  have hunits : s.units = utf16Units s.text := congrArg Utf16.units (eq_ofText hfine)
  rw [CryptoCore.bytes_eq_units hascii, hunits]

/-- The relay's record is the client's, if its names are ASCII. -/
theorem legacy_seen {dr : List (Utf16 × Document Utf16)} (h : ∀ m ∈ dr, ∀ u ∈ m.1.units, u < 128) :
    legacy (mapMembers Utf16.text id dr) = seen (unsigned dr) := by
  have hplain : PlainName "signature" := plainName_signature
  have hpredicate : ((fun m : Text × Document Text => decide (m.1 ≠ "signature".toList)) ∘
      fun m : Utf16 × Document Utf16 => (m.1.text, m.2.map Utf16.text id)) =
      fun m => decide (m.1 ≠ .ofText "signature".toList) := by
    funext m
    exact decide_eq_decide.2 (not_congr (text_eq_iff hplain))
  have hsort : ∀ a ∈ dr.filter fun m => m.1 ≠ .ofText "signature".toList,
      ∀ b ∈ dr.filter fun m => m.1 ≠ .ofText "signature".toList,
      (a.1.units ≤ b.1.units ↔ utf8Bytes a.1.text ≤ utf8Bytes b.1.text) := by
    intro a ha b hb
    rw [utf8Bytes_text (h a (List.mem_of_mem_filter ha)), utf8Bytes_text (h b (List.mem_of_mem_filter hb))]
  rw [legacy, unsigned, seen, Document.map, mapMembers_eq, mapMembers_eq, sortMembers, sortMembers,
    List.filter_map, hpredicate]
  exact congrArg Document.obj (List.map_insertionSort
    (fun m m' : Utf16 × Document Utf16 => m.1.units ≤ m'.1.units)
    (fun m m' : Text × Document Text => utf8Bytes m.1 ≤ utf8Bytes m'.1)
    (fun m => (m.1.text, m.2.map Utf16.text id)) _ hsort).symm

/-! ## The copy of the client -/

mutual
theorem finite_of_single : ∀ {d : Document Utf16}, Single d → Finite d
  | .null, _ | .bool _, _ | .number _, _ | .str _, _ => trivial
  | .infinite _, h | .arr _, h => h.elim
  | .obj _, h => finite_of_singleMembers h.2

theorem finite_of_singleMembers : ∀ {ms : List (Utf16 × Document Utf16)}, SingleMembers ms →
    FiniteMembers ms
  | [], _ => trivial
  | _ :: _, h => ⟨finite_of_single h.1, finite_of_singleMembers h.2⟩
end

mutual
theorem single_map {g : Number → Number} : ∀ {d : Document Utf16}, Single d → Single (d.map id g)
  | .null, _ | .bool _, _ | .number _, _ | .str _, _ => trivial
  | .infinite _, h | .arr _, h => h.elim
  | .obj ms, h => by
    refine ⟨?_, singleMembers_map h.2⟩
    rw [mapMembers_eq, List.map_map]
    exact h.1

theorem singleMembers_map {g : Number → Number} : ∀ {ms : List (Utf16 × Document Utf16)},
    SingleMembers ms → SingleMembers (mapMembers id g ms)
  | [], _ => trivial
  | _ :: _, h => ⟨single_map h.1, singleMembers_map h.2⟩
end

theorem ofUnits_units (s : Utf16) : ofUnits s.units = s := by
  obtain ⟨units, hlt⟩ := s
  rw [ofUnits, Utf16.mk.injEq]
  exact (List.map_congr_left fun u hu => Nat.mod_eq_of_lt (hlt u hu)).trans (List.map_id units)

/-- The document in the body of a request. -/
def submitted (wire : Document Utf16) : Option (Document Utf16) :=
  (parse (jsWriter.write wire)).map fun copy => copy.map ofUnits id

/-- A document is written and read without the signs of its zeros. -/
theorem submitted_eq {d : Document Utf16} (hd : Single d) (hw : ∀ n ∈ numbers d, n.Whole) :
    submitted d = some (d.map id Number.unsignedZero) := by
  have hread : parse (jsWriter.write d) = some (d.map Utf16.units Number.unsignedZero) :=
    parse_write (finite_of_single hd) ⟨fun s _ => jsWriter.reads s,
      fun n hn r hr => parseNumber_text (hw n hn) hr⟩
  have hunits : (fun s : Utf16 => ofUnits s.units) = id := funext ofUnits_units
  rw [submitted, hread, Option.map_some, Document.map_map, hunits]
  rfl

/-- A document without negative zeros has no signs of zeros. -/
theorem map_unsignedZero {d : Document Utf16} (hn : ∀ n ∈ numbers d, n ≠ Number.negativeZero) :
    d.map id Number.unsignedZero = d := by
  refine map_eq_self (fun _ _ => rfl) fun n hm => ?_
  unfold Number.unsignedZero
  split_ifs with hzero
  · obtain ⟨negative, magnitude⟩ := n
    obtain rfl : magnitude = 0 := hzero
    cases negative with
    | true => exact absurd rfl (hn _ hm)
    | false => rfl
  · rfl

/-- A document without a member twice is copied, without the signs of its zeros. -/
theorem copyJson_eq {d : Document Utf16} (hd : Single d) (hw : ∀ n ∈ numbers d, n.Whole) :
    copyJson d = some (d.map id Number.unsignedZero) := by
  have hcopy : copyJson d = (submitted d).map parsed := (Option.map_map _ _ _).symm
  rw [hcopy, submitted_eq hd hw, Option.map_some, parsed_of_single (single_map hd)]

/-- The signs of zeros are not written. -/
theorem write_unsigned (d : Document Utf16) :
    jsWriter.write (d.map id Number.unsignedZero) = jsWriter.write d := by
  refine write_map (fun _ _ => rfl) fun n _ => ?_
  obtain ⟨negative, magnitude⟩ := n
  show (Number.unsignedZero _).text = _
  unfold Number.unsignedZero
  split_ifs with h
  · obtain rfl : magnitude = 0 := h
    show Number.text _ = Number.text _
    simp [Number.text, Number.signed]
  · rfl

theorem unsigned_map (g : Number → Number) (dr : List (Utf16 × Document Utf16)) :
    unsigned (mapMembers id g dr) = (unsigned dr).map id g := by
  have hpredicate : ((fun m : Utf16 × Document Utf16 => decide (m.1 ≠ .ofText "signature".toList)) ∘
      fun m : Utf16 × Document Utf16 => (id m.1, m.2.map id g)) =
      fun m => decide (m.1 ≠ .ofText "signature".toList) := rfl
  rw [unsigned, unsigned, Document.map, mapMembers_eq, mapMembers_eq, sortMembers, sortMembers,
    List.filter_map, hpredicate]
  exact congrArg Document.obj (List.map_insertionSort
    (fun m m' : Utf16 × Document Utf16 => m.1.units ≤ m'.1.units)
    (fun m m' : Utf16 × Document Utf16 => m.1.units ≤ m'.1.units)
    (fun m => (id m.1, m.2.map id g)) _ fun _ _ _ _ => Iff.rfl).symm

/-! ## The signed texts -/

/-- What the client checks the signatures over. -/
theorem verifiedTexts_eq {ms dr : List (Utf16 × Document Utf16)} (hd : Single (.obj ms))
    (hw : ∀ n ∈ numbers (.obj ms), n.Whole) (hdr : orNull ms "device_record" = .obj dr) :
    verifiedTexts (.obj ms) =
      some (jsWriter.write (unsigned dr), jsWriter.write (signed ms)) := by
  have hobj : ∀ ms : List (Utf16 × Document Utf16), (Document.obj ms).map id Number.unsignedZero =
      .obj (mapMembers id Number.unsignedZero ms) := fun _ => rfl
  have hrecord : recordText (.obj (mapMembers id Number.unsignedZero ms)) =
      jsWriter.write (unsigned (mapMembers id Number.unsignedZero dr)) := by
    rw [recordText, members, orNull_map, hdr, hobj]
    rfl
  rw [verifiedTexts, copyJson_eq hd hw, Option.map_some, hobj, hrecord, signingText, members, signed_map,
    unsigned_map, write_unsigned, write_unsigned]

section
variable {W : Utf16 → Prop} {N : Number → Prop}

theorem throughout_orNull {ms : List (Utf16 × Document Utf16)} (h : Throughout W N (.obj ms))
    (key : String) : Throughout W N (orNull ms key) := by
  rw [orNull]
  cases hx : property ms key with
  | none => exact throughout_null
  | some d => exact (throughout_obj.1 h _ (mem_of_property hx)).2

theorem throughout_within {ms : List (Utf16 × Document Utf16)} (h : Throughout W N (.obj ms))
    (key : String) : Throughout W N (.obj (within ms key)) := by
  have hx := throughout_orNull h key
  rw [within]
  cases hd : orNull ms key with
  | obj ms' => exact hd ▸ hx
  | null | bool | number | infinite | str | arr => exact throughout_obj.2 (List.forall_mem_nil _)

/-- What is signed is of the document, but for the tag. -/
theorem throughout_signed {ms : List (Utf16 × Document Utf16)} (h : Throughout W N (.obj ms))
    (htag : W (.ofText "echolet.signal.prekey_bundle.v2".toList)) : Throughout W N (signed ms) := by
  have hdevice := throughout_within h "device_record"
  have hcaps := throughout_within hdevice "capabilities"
  have hsp := throughout_within h "signed_prekey"
  have hkp := throughout_within h "kyber_prekey"
  have hop : Throughout W N (oneTimePreKey (orNull ms "one_time_prekey")) := by
    have hx := throughout_within h "one_time_prekey"
    rw [within] at hx
    cases hd : orNull ms "one_time_prekey" with
    | null => exact throughout_null
    | bool | number | infinite | str | arr | obj =>
      rw [hd] at hx
      simp only [oneTimePreKey, throughout_arr, List.forall_mem_cons, throughout_orNull hx, true_and]
      exact List.forall_mem_nil _
  simp only [signed, throughout_arr, List.forall_mem_cons, throughout_str, throughout_orNull h,
    throughout_orNull hdevice, throughout_orNull hcaps, throughout_orNull hsp, throughout_orNull hkp,
    hop, htag, true_and]
  exact ⟨⟨List.forall_mem_nil _, List.forall_mem_nil _⟩, List.forall_mem_nil _, List.forall_mem_nil _,
    List.forall_mem_nil _⟩

theorem throughout_unsigned {dr : List (Utf16 × Document Utf16)} (h : Throughout W N (.obj dr)) :
    Throughout W N (unsigned dr) := by
  refine throughout_obj.2 fun m hm => throughout_obj.1 h m ?_
  exact List.mem_of_mem_filter ((List.perm_insertionSort _ _).mem_iff.1 hm)

end

/-- The tag of the tuple. -/
theorem asciiName_tag : AsciiName "echolet.signal.prekey_bundle.v2" := asciiName_ofList (by decide)

/-- A string of ASCII is well formed. -/
theorem wellFormed_ascii {s : Utf16} (h : ∀ u ∈ s.units, u < 128) : WellFormedUnits s.units := by
  refine utf16Units_toText s.units_lt ?_
  rw [codePoints_ascii h]
  intro n hn
  rw [isSurrogate, decide_eq_false_iff_not]
  have hlt := h n hn
  omega

/-- A document the relay reads is an object with a record and a one-time key. -/
structure Read (ms dr op : List (Utf16 × Document Utf16)) : Prop where
  single : Single (.obj ms)
  schema : strict offered (.obj ms) = true
  record : orNull ms "device_record" = .obj dr
  names : ∀ m ∈ dr, ∀ u ∈ m.1.units, u < 128
  key : orNull ms "one_time_prekey" = .obj op

theorem exists_read {d : Document Utf16} (hd : Single d) (hs : strict offered d = true) :
    ∃ ms dr op, d = .obj ms ∧ Read ms dr op := by
  obtain ⟨ms, rfl, -⟩ := strict_iff.1 hs
  have hdevice : required signedDevice (property ms "device_record") = true :=
    strict_at hs (by simp [offered])
  have hop : required oneTimeKey (property ms "one_time_prekey") = true :=
    strict_at hs (by simp [offered])
  obtain ⟨record, hrecord, hdevice⟩ := required_iff.1 hdevice
  obtain ⟨dr, rfl, hnames, -⟩ := strict_iff.1 hdevice
  obtain ⟨key, hkey, hop⟩ := required_iff.1 hop
  obtain ⟨op, rfl, -⟩ := strict_iff.1 hop
  refine ⟨ms, dr, op, rfl, hd, hs, ?_, fun m hm => ?_, ?_⟩
  · rw [orNull, hrecord, Option.getD_some]
  · obtain ⟨p, hp, hname⟩ := List.mem_map.1 (hnames m hm)
    exact hname ▸ (asciiName_device p.1 (List.mem_map_of_mem hp)).units
  · rw [orNull, hkey, Option.getD_some]

/-- The numbers of a bundle are times, ids and versions. -/
theorem Read.whole {ms dr op : List (Utf16 × Document Utf16)} (h : Read ms dr op) :
    Throughout (fun _ => True) Number.Whole (.obj ms) :=
  forall_of_signed (fun _ _ => trivial) (fun _ h _ => h) h.single h.schema
    ⟨fun _ _ => trivial, fun _ _ h => h⟩

theorem finite_orNull {ms : List (Utf16 × Document Utf16)} (h : SingleMembers ms) (key : String) :
    Single (orNull ms key) ∧ SingleMembers (within ms key) := by
  have hx : Single (orNull ms key) := by
    rw [orNull]
    cases hx : property ms key with
    | none => trivial
    | some d => exact single_of_mem h _ (mem_of_property hx)
  refine ⟨hx, ?_⟩
  rw [within]
  cases hd : orNull ms key with
  | obj ms' =>
    rw [hd] at hx
    exact hx.2
  | null | bool | number | infinite | str | arr => trivial

theorem finite_signed {ms op : List (Utf16 × Document Utf16)} (h : SingleMembers ms)
    (hkey : orNull ms "one_time_prekey" = .obj op) : Finite (signed ms) := by
  have hfinite : ∀ {ms : List (Utf16 × Document Utf16)}, SingleMembers ms → ∀ key,
      Finite (orNull ms key) := fun h key => finite_of_single (finite_orNull h key).1
  have hdevice := (finite_orNull h "device_record").2
  have hcaps := (finite_orNull hdevice "capabilities").2
  have hsp := (finite_orNull h "signed_prekey").2
  have hkp := (finite_orNull h "kyber_prekey").2
  have hop : SingleMembers op := by
    have hx := (finite_orNull h "one_time_prekey").1
    rw [hkey] at hx
    exact hx.2
  simp only [signed, hkey, oneTimePreKey, members, Document.Finite, FiniteElems, hfinite h, hfinite hdevice,
    hfinite hcaps, hfinite hsp, hfinite hkp, hfinite hop, and_self]

theorem finite_unsigned {dr : List (Utf16 × Document Utf16)} (h : SingleMembers dr) :
    Finite (unsigned dr) := by
  have hmembers : ∀ {ms : List (Utf16 × Document Utf16)}, (∀ m ∈ ms, Finite m.2) → FiniteMembers ms := by
    intro ms hall
    induction ms with
    | nil => trivial
    | cons m ms ih =>
      rw [List.forall_mem_cons] at hall
      exact ⟨hall.1, ih hall.2⟩
  refine hmembers fun m hm => finite_of_single (single_of_mem h m ?_)
  exact List.mem_of_mem_filter ((List.perm_insertionSort _ _).mem_iff.1 hm)

/-- The relay's text of a document is the client's. -/
theorem jsJSON_seen_iff {d : Document Utf16} (hf : Finite d) (hw : ∀ n ∈ numbers d, n.Whole) :
    jsWriter.write d = jsJSON (seen d) ↔
      Throughout (fun s => WellFormedUnits s.units) (· ≠ Number.negativeZero) d := by
  rw [eq_comm]
  refine (jsJSON_eq_stringify_iff Utf16.units_lt hf hw).trans ?_
  exact ⟨fun h => ⟨h.1, h.2⟩, fun h => ⟨h.strings, h.numbers⟩⟩

theorem texts_iff {d : Document Utf16} (hd : Single d) (hschema : schema d = true)
    (hkey : property (members d) "one_time_prekey" ≠ some .null) :
    verifiedTexts d = some (legacyText (seen d), tupleText (seen d)) ↔
      (∀ s ∈ strings d, WellFormedUnits s.units) ∧ ∀ n ∈ numbers d, n ≠ Number.negativeZero := by
  obtain ⟨ms, dr, op, rfl, hread⟩ := exists_read hd ((schema_iff d).1 ⟨hschema, hkey⟩).1
  have hdr : within ms "device_record" = dr := by rw [within, hread.record, members]
  have hwithin : Throughout (fun _ => True) Number.Whole (.obj dr) :=
    hdr ▸ throughout_within hread.whole "device_record"
  have htuple : tupleText (seen (.obj ms)) = jsJSON (seen (signed ms)) :=
    congrArg jsJSON (tuple_seen hread.key)
  have hlegacy : legacyText (seen (.obj ms)) = jsJSON (seen (unsigned dr)) := by
    have hrecord := members_seen plainName_deviceRecord ms
    rw [hdr] at hrecord
    exact congrArg jsJSON ((congrArg legacy hrecord).trans (legacy_seen hread.names))
  rw [verifiedTexts_eq hd hread.whole.numbers hread.record, Option.some.injEq, Prod.mk.injEq, htuple,
    hlegacy, jsJSON_seen_iff (finite_unsigned (hdr ▸ (finite_orNull hd.2 "device_record").2))
      (throughout_unsigned hwithin).numbers,
    jsJSON_seen_iff (finite_signed hd.2 hread.key) (throughout_signed hread.whole trivial).numbers]
  constructor
  · rintro ⟨-, hsigned⟩
    have hall : Throughout (fun s : Utf16 => WellFormedUnits s.units) (· ≠ Number.negativeZero) (.obj ms) := by
      refine forall_of_signed (fun s => wellFormed_ascii) (fun x _ h0 hzero => ?_) hd hread.schema
        ⟨hsigned.strings, fun n hn _ => hsigned.numbers n hn⟩
      rw [hzero] at h0
      exact h0 (by decide)
    exact ⟨hall.strings, hall.numbers⟩
  · rintro ⟨hs, hn⟩
    have hall : Throughout (fun s : Utf16 => WellFormedUnits s.units) (· ≠ Number.negativeZero) (.obj ms) :=
      ⟨hs, hn⟩
    exact ⟨throughout_unsigned (hdr ▸ throughout_within hall "device_record"),
      throughout_signed hall (wellFormed_ascii asciiName_tag.units)⟩

/-- **One text for one bundle**: of a document both take, the relay and the client check the two
    signatures over the same texts exactly if no string of it has a lone surrogate and no zero of it
    is negative. -/
theorem signed_texts {d : Document Utf16} {o : Document Text} (h : readOrdered d = some o)
    (hschema : schema (parsed d) = true)
    (hkey : property (members (parsed d)) "one_time_prekey" ≠ some .null) :
    verifiedTexts (parsed d) = some (legacyText o, tupleText o) ↔
      (∀ s ∈ strings d, WellFormedUnits s.units) ∧ ∀ n ∈ numbers d, n ≠ Number.negativeZero := by
  obtain ⟨hd, rfl⟩ := readOrdered_eq h
  rw [parsed_of_single hd] at hschema hkey ⊢
  exact texts_iff hd hschema hkey

theorem signed_texts_lone : ∃ o,
    readOrdered (zeroDocument ⟨[0xd800], by decide⟩ (.ofNat 0)) = some o ∧
    schema (parsed (zeroDocument ⟨[0xd800], by decide⟩ (.ofNat 0))) = true ∧
    verifiedTexts (parsed (zeroDocument ⟨[0xd800], by decide⟩ (.ofNat 0))) ≠
      some (legacyText o, tupleText o) := by
  let o := (readOrdered (zeroDocument ⟨[0xd800], by decide⟩ (.ofNat 0))).get (by decide +kernel)
  have ho : readOrdered (zeroDocument ⟨[0xd800], by decide⟩ (.ofNat 0)) = some o :=
    (Option.some_get _).symm
  refine ⟨o, ho, by decide +kernel, fun h => ?_⟩
  have hkey : property (members (parsed (zeroDocument ⟨[0xd800], by decide⟩ (.ofNat 0))))
      "one_time_prekey" ≠ some .null := fun hnull =>
    absurd (congrArg (Option.map fun d => (members d).length) hnull) (by decide +kernel)
  have hstrings := ((signed_texts ho (by decide +kernel) hkey).1 h).1
  exact absurd (hstrings ⟨[0xd800], by decide⟩ (by decide +kernel)) (by decide)

end SignalBundle

end Echolet
