/-
  The history as the records that hold it (`history.ts`): the counter under one key, each entry
  as JSON under a key of its own.

  * `appendHistory` and `readHistory` act on the records of a transaction; `entrySchema` is what
    both of them pass an entry through;
  * `Journal` is a store with the transaction that is open on it, which appends entries, does
    anything to other records, and returns or throws at any point;
  * `Numbered`: the records hold these entries, numbered from one (`Numbered.append`,
    `Numbered.other`, and `Numbered.readHistory` for what is read back);
  * `appendHistory_refines`: the records follow the history of the profile's store;
  * `history_sequence`: in every run the entries that were committed are numbered in the order of
    their commits, and are read back in this order.
-/
import Echolet.Client.EncryptedStore

namespace Echolet.History

open EncryptedStore (Key Snapshot Operation)

/-! ## Records -/

/-- A string, by its UTF-16 units. -/
abbrev Units := List UInt16

abbrev Octets := List UInt8

def units (t : Text) : Units := (utf16Units t).map UInt16.ofNat

/-- What is appended: an entry without its sequence. -/
structure NewEntry where
  contactIdentityId : Units
  messageId : Units
  direction : Direction
  plaintext : Units
  createdAtMs : ℤ
  deriving DecidableEq

structure HistoryEntry extends NewEntry where
  sequence : ℕ
  deriving DecidableEq

inductive HistoryError where
  /-- "History sequence exhausted". -/
  | exhausted
  /-- Of `parse` of a schema. -/
  | refused
  /-- Of `JSON.parse`. -/
  | syntaxError
  deriving DecidableEq

abbrev HistoryTx (α : Type) := Tx Snapshot HistoryError α

def encode (value : Document (List ℕ)) : Octets :=
  (utf8Bytes value.stringify).map UInt8.ofNat

/-- `new TextDecoder().decode`, which passes over a byte order mark, and `JSON.parse`. -/
def decode (bytes : Octets) : Option (Document (List ℕ)) :=
  let text := decodeUtf8 (bytes.map UInt8.toNat)
  Document.parse (if text.head? = some '\uFEFF' then text.tail else text)

def sequenceKey : Key := units "cli:history-sequence".toList

/-- What the keys of entries begin with. -/
def entryStart : Key := units "cli:history:".toList

def entryKey (sequence : ℕ) : Key := entryStart ++ units (padded 16 sequence)

/-! ## The schema -/

def string (s : Units) : Document (List ℕ) := .str (s.map UInt16.toNat)

def directionUnits : Direction → Units
  | .inbound => units "inbound".toList
  | .outbound => units "outbound".toList

/-- The members of the entries. -/
def names : List Text := ["sequence".toList, "contactIdentityId".toList, "messageId".toList,
  "direction".toList, "plaintext".toList, "createdAtMs".toList]

/-- What the schema makes of an entry: its members in this order. -/
def HistoryEntry.document (entry : HistoryEntry) : Document (List ℕ) :=
  .obj (names.map utf16Units |>.zip [.number (.ofNat entry.sequence),
    string entry.contactIdentityId, string entry.messageId, string (directionUnits entry.direction),
    string entry.plaintext, .number (.ofInt entry.createdAtMs)])

/-- `{ ...entry, sequence }` -/
def NewEntry.withSequence (entry : NewEntry) (sequence : ℕ) : Document (List ℕ) :=
  .obj [(utf16Units "contactIdentityId".toList, string entry.contactIdentityId),
    (utf16Units "messageId".toList, string entry.messageId),
    (utf16Units "direction".toList, string (directionUnits entry.direction)),
    (utf16Units "plaintext".toList, string entry.plaintext),
    (utf16Units "createdAtMs".toList, .number (.ofInt entry.createdAtMs)),
    (utf16Units "sequence".toList, .number (.ofNat sequence))]

/-- `z.number().int().nonnegative()`, which takes safe integers only. -/
def nonnegative : Document (List ℕ) → Option ℕ
  | .number x =>
    if x.magnitude.den = 1 ∧ (x.negative = false ∨ x.magnitude = 0) ∧
      x.magnitude.num ≤ 9007199254740991 then some x.magnitude.num else none
  | _ => none

def anyString : Document (List ℕ) → Option Units
  | .str s => some (s.map UInt16.ofNat)
  | _ => none

/-- `z.enum(["inbound", "outbound"])` -/
def direction (d : Document (List ℕ)) : Option Direction := do
  let s ← anyString d
  if s = directionUnits .inbound then some .inbound
  else if s = directionUnits .outbound then some .outbound else none

/-- A member: the last one of its name. -/
def member (ms : List (List ℕ × Document (List ℕ))) (name : Text) : Option (Document (List ℕ)) :=
  (ms.reverse.find? fun m => m.1 = utf16Units name).map (·.2)

/-- `entrySchema.parse` -/
def entrySchema : Document (List ℕ) → Option HistoryEntry
  | .obj ms => do
    let sequence ← (member ms "sequence".toList).bind nonnegative
    let contactIdentityId ← (member ms "contactIdentityId".toList).bind anyString
    let messageId ← (member ms "messageId".toList).bind anyString
    let direction ← (member ms "direction".toList).bind direction
    let plaintext ← (member ms "plaintext".toList).bind anyString
    let createdAtMs ← (member ms "createdAtMs".toList).bind nonnegative
    if 0 < sequence ∧ contactIdentityId ≠ [] ∧
        clientMailboxUUID (toText (messageId.map UInt16.toNat)) = true ∧
        ∀ m ∈ ms, m.1 ∈ names.map utf16Units then
      some ⟨⟨contactIdentityId, messageId, direction, plaintext, createdAtMs⟩, sequence⟩
    else none
  | _ => none

/-! ## The two functions -/

/-- `decode`, and `parse` of a schema. -/
def parseRecord {α : Type} (schema : Document (List ℕ) → Option α) (bytes : Octets) :
    HistoryTx α := do
  let d ← Tx.need (decode bytes) .syntaxError
  Tx.need (schema d) .refused

def nextSequence (previous : Option Octets) : HistoryTx ℕ :=
  match previous with
  | some previous => do
    let n ← parseRecord nonnegative previous
    pure (n + 1)
  | none => pure 1

def appendHistory (entry : NewEntry) : HistoryTx Unit := do
  let previous ← Tx.read fun tx => tx.get sequenceKey
  let sequence ← nextSequence previous
  Tx.ensure (safeInteger sequence = true) .exhausted
  let record ← Tx.need (entrySchema (entry.withSequence sequence)) .refused
  Tx.modify fun tx => tx.set (entryKey sequence) (encode record.document)
  Tx.modify fun tx => tx.set sequenceKey (encode (.number (.ofNat sequence)))

/-- The order of `sort`, by units. -/
def unitsLe (s t : Units) : Bool := s.map UInt16.toNat ≤ t.map UInt16.toNat

def readEntry (key : Key) : HistoryTx HistoryEntry := do
  let bytes ← Tx.read fun tx => tx.get key
  parseRecord entrySchema (bytes.getD [])

def readEntries : List Key → HistoryTx (List HistoryEntry)
  | [] => pure []
  | key :: keys => do
    let entry ← readEntry key
    let entries ← readEntries keys
    pure (entry :: entries)

def readHistory (contactIdentityId : Units) : HistoryTx (List HistoryEntry) := do
  let keys ← Tx.read fun tx => (tx.keys.filter fun k => entryStart.isPrefixOf k).mergeSort unitsLe
  let entries ← readEntries keys
  pure (entries.filter fun entry => entry.contactIdentityId = contactIdentityId)

/-! ## What is written is read back -/

theorem utf8Bytes_octets (t : Text) : ((utf8Bytes t).map UInt8.ofNat).map UInt8.toNat = utf8Bytes t := by
  rw [List.map_map]
  refine (List.map_congr_left fun b hb => ?_).trans (List.map_id _)
  obtain ⟨c, -, hb⟩ := List.mem_flatMap.1 hb
  obtain ⟨x, -, rfl⟩ := List.mem_map.1 hb
  exact congrArg UInt8.toNat (UInt8.ofNat_toNat)

theorem map_units (s : Units) : (s.map UInt16.toNat).map UInt16.ofNat = s := by
  rw [List.map_map]
  exact (List.map_congr_left fun u _ => UInt16.ofNat_toNat).trans (List.map_id s)

theorem decode_encode {d : Document (List ℕ)} (hf : d.Finite)
    (hd : Document.Plain d.strings d.numbers) (hs : d.stringify.head? ≠ some '\uFEFF')
    (h0 : ∀ n ∈ d.numbers, n.unsignedZero = n) : decode (encode d) = some d := by
  unfold decode encode
  rw [utf8Bytes_octets, decodeUtf8_utf8Bytes]
  dsimp only
  rw [if_neg hs, Document.parse_stringify hf hd]
  exact congrArg some (Document.map_eq_self (fun _ _ => rfl) h0)

theorem ofNat_unsigned (n : ℕ) : (Number.ofNat n).unsignedZero = .ofNat n := by
  unfold Number.unsignedZero Number.ofNat
  split_ifs with h
  · exact congrArg _ h.symm
  · rfl

theorem decode_sequence {n : ℕ} (h : n ≤ 2 ^ 53) :
    decode (encode (.number (.ofNat n))) = some (.number (.ofNat n)) := by
  refine decode_encode trivial ⟨fun us hus => (by cases hus), fun x hx => ?_⟩ ?_ fun x hx => ?_
  · rw [List.mem_singleton.1 hx]
    exact ⟨n, h, rfl⟩
  · have ht : (Document.number (.ofNat n)).stringify = decimal n := Number.text_ofNat h
    rw [ht]
    intro hh
    have hmem := isDigit_of_mem_decimal (List.mem_of_mem_head? hh)
    exact absurd hmem (by decide)
  · rw [List.mem_singleton.1 hx]
    exact ofNat_unsigned n

/-- What `entrySchema` accepts. -/
structure HistoryEntry.Valid (entry : HistoryEntry) : Prop where
  positive : 0 < entry.sequence
  safe : entry.sequence ≤ 9007199254740991
  contact : entry.contactIdentityId ≠ []
  message : clientMailboxUUID (toText (entry.messageId.map UInt16.toNat)) = true
  time : 0 ≤ entry.createdAtMs ∧ entry.createdAtMs ≤ 9007199254740991

theorem nonnegative_ofNat (n : ℕ) : nonnegative (.number (.ofNat n)) =
    if n ≤ 9007199254740991 then some n else none := by
  unfold nonnegative Number.ofNat
  dsimp only
  simp

theorem ofInt_natCast (m : ℕ) : Number.ofInt m = .ofNat m := by
  rw [Number.ofInt, Number.ofNat, decide_eq_false (not_lt.2 (Int.natCast_nonneg m)),
    Int.natAbs_natCast]

theorem nonnegative_ofInt {z : ℤ} {n : ℕ} : nonnegative (.number (.ofInt z)) = some n ↔
    z = n ∧ n ≤ 9007199254740991 := by
  rcases le_or_gt 0 z with h0 | h0
  · obtain ⟨m, rfl⟩ := Int.eq_ofNat_of_zero_le h0
    rw [ofInt_natCast, nonnegative_ofNat, Option.ite_none_right_eq_some, Option.some.injEq,
      Nat.cast_inj, and_comm]
    exact and_congr_right fun h => by rw [h]
  · have hz : z.natAbs ≠ 0 := by omega
    unfold nonnegative Number.ofInt
    dsimp only
    rw [decide_eq_true h0, if_neg]
    · exact ⟨fun h => (by cases h), fun h => absurd h.1 (by omega)⟩
    · rintro ⟨-, hneg | hzero, -⟩
      · cases hneg
      · exact hz (by exact_mod_cast hzero)

theorem anyString_string (s : Units) : anyString (string s) = some s :=
  congrArg some (map_units s)

theorem direction_units (d : Direction) : direction (string (directionUnits d)) = some d := by
  rw [direction, anyString_string]
  cases d <;> decide

/-- The members are the ones of an entry, in any order. -/
structure Gives (ms : List (List ℕ × Document (List ℕ))) (entry : HistoryEntry) : Prop where
  sequence : member ms "sequence".toList = some (.number (.ofNat entry.sequence))
  contact : member ms "contactIdentityId".toList = some (string entry.contactIdentityId)
  message : member ms "messageId".toList = some (string entry.messageId)
  direction : member ms "direction".toList = some (string (directionUnits entry.direction))
  plaintext : member ms "plaintext".toList = some (string entry.plaintext)
  time : member ms "createdAtMs".toList = some (.number (.ofInt entry.createdAtMs))
  strict : ∀ m ∈ ms, m.1 ∈ names.map utf16Units

theorem Gives.entrySchema {ms : List (List ℕ × Document (List ℕ))} {entry r : HistoryEntry}
    (h : Gives ms entry) : entrySchema (.obj ms) = some r ↔ r = entry ∧ entry.Valid := by
  unfold History.entrySchema
  dsimp only
  simp only [h.sequence, h.contact, h.message, h.direction, h.plaintext, h.time, Option.bind_some,
    anyString_string, direction_units, nonnegative_ofNat, Option.bind_eq_bind]
  constructor
  · intro hr
    split_ifs at hr with hn
    · rw [Option.bind_some] at hr
      obtain ⟨t, ht, hr⟩ := Option.bind_eq_some_iff.1 hr
      obtain ⟨hz, ht⟩ := nonnegative_ofInt.1 ht
      split_ifs at hr with hok
      cases hr
      refine ⟨?_, hok.1, hn, hok.2.1, hok.2.2.1, by omega⟩
      rw [← hz]
    · cases hr
  · rintro ⟨rfl, hv⟩
    obtain ⟨t, ht⟩ := Int.eq_ofNat_of_zero_le hv.time.1
    have htime : nonnegative (.number (.ofInt r.createdAtMs)) = some t :=
      nonnegative_ofInt.2 ⟨ht, by have := hv.time.2; omega⟩
    rw [if_pos hv.safe, Option.bind_some, htime, Option.bind_some,
      if_pos ⟨hv.positive, hv.contact, hv.message, h.strict⟩, ← ht]

/-- An entry is accepted as it was given, with its sequence. -/
theorem entrySchema_withSequence {entry : NewEntry} {n : ℕ} {r : HistoryEntry} :
    entrySchema (entry.withSequence n) = some r ↔ r = ⟨entry, n⟩ ∧ HistoryEntry.Valid ⟨entry, n⟩ :=
  Gives.entrySchema ⟨rfl, rfl, rfl, rfl, rfl, rfl, by simp [names]⟩

theorem entrySchema_document {r : HistoryEntry} (h : r.Valid) : entrySchema r.document = some r :=
  (Gives.entrySchema ⟨rfl, rfl, rfl, rfl, rfl, rfl, by simp [names]⟩).2 ⟨rfl, h⟩

theorem units_lt (s : Units) : ∀ u ∈ s.map UInt16.toNat, u < 0x10000 := by
  intro u hu
  obtain ⟨x, -, rfl⟩ := List.mem_map.1 hu
  exact x.toNat_lt

theorem decode_document {r : HistoryEntry} (h : r.Valid) :
    decode (encode r.document) = some r.document := by
  obtain ⟨t, ht⟩ := Int.eq_ofNat_of_zero_le h.time.1
  have htime := h.time.2
  have hseq := h.safe
  have hnumbers : r.document.numbers = [.ofNat r.sequence, .ofNat t] := by
    rw [← ofInt_natCast t, ← ht]
    rfl
  have hstrings : r.document.strings = [utf16Units "sequence".toList,
      utf16Units "contactIdentityId".toList, r.contactIdentityId.map UInt16.toNat,
      utf16Units "messageId".toList, r.messageId.map UInt16.toNat, utf16Units "direction".toList,
      (directionUnits r.direction).map UInt16.toNat, utf16Units "plaintext".toList,
      r.plaintext.map UInt16.toNat, utf16Units "createdAtMs".toList] := rfl
  refine decode_encode ⟨trivial, trivial, trivial, trivial, trivial, trivial, trivial⟩ ⟨?_, ?_⟩
    (fun hh => ?_) ?_
  · rw [hstrings]
    simp only [List.forall_mem_cons]
    exact ⟨utf16Units_lt, utf16Units_lt, units_lt _, utf16Units_lt, units_lt _, utf16Units_lt,
      units_lt _, utf16Units_lt, units_lt _, utf16Units_lt, fun _ hu => (by cases hu)⟩
  · rw [hnumbers]
    rintro n hn
    rcases List.mem_pair.1 hn with rfl | rfl
    · exact ⟨_, by omega, rfl⟩
    · exact ⟨_, by omega, rfl⟩
  · rw [show r.document.stringify.head? = some '\x7b' from rfl] at hh
    exact absurd hh (by decide)
  · rw [hnumbers]
    rintro n hn
    rcases List.mem_pair.1 hn with rfl | rfl
    · exact ofNat_unsigned _
    · exact ofNat_unsigned _

/-! ## Keys -/

theorem sequenceKey_other (n : ℕ) : sequenceKey ≠ entryKey n := by
  intro h
  have hp : entryStart <+: sequenceKey := h ▸ List.prefix_append _ _
  exact absurd hp (by decide)

theorem units_digits {t : Text} (h : ∀ c ∈ t, c.isDigit = true) :
    (units t).map UInt16.toNat = t.map Char.toNat := by
  induction t with
  | nil => rfl
  | cons c t ih =>
    have hc := toNat_of_isDigit (h c List.mem_cons_self)
    have hcons : units (c :: t) = UInt16.ofNat c.toNat :: units t := by
      rw [units, utf16Units, List.flatMap_cons, if_pos (by omega)]
      rfl
    rw [hcons, List.map_cons, List.map_cons, ih fun d hd => h d (List.mem_cons_of_mem c hd),
      UInt16.toNat_ofNat_of_lt' (by rw [UInt16.size]; omega)]

/-- **The order of the keys is the order of the sequences.** -/
theorem entryKey_lt {m n : ℕ} (h : m < n) (hn : n ≤ 9007199254740991) :
    (entryKey m).map UInt16.toNat < (entryKey n).map UInt16.toNat := by
  have hpadded : padded 16 m < padded 16 n :=
    (padded_lt_iff (by norm_num) (by omega) (by omega)).2 h
  unfold entryKey
  rw [List.map_append, List.map_append, units_digits fun _ => isDigit_of_mem_padded,
    units_digits fun _ => isDigit_of_mem_padded]
  refine List.append_left_lt (List.map_lt (fun x y hxy => ?_) hpadded)
  rw [Char.lt_def, UInt32.lt_iff_toNat_lt] at hxy
  exact hxy

theorem entryKey_inj {m n : ℕ} (h : entryKey m = entryKey n) : m = n := by
  have hu : units (padded 16 m) = units (padded 16 n) := List.append_cancel_left h
  have hn := congrArg (List.map UInt16.toNat) hu
  rw [units_digits fun _ => isDigit_of_mem_padded, units_digits fun _ => isDigit_of_mem_padded] at hn
  have hp : padded 16 m = padded 16 n :=
    List.map_injective_iff.2 (fun _ _ => Char.toNat_inj.1) hn
  rw [← value_padded 16 m, hp, value_padded]

/-! ## The numbered entries -/

/-- Entries numbered from one. -/
def numbered (es : List NewEntry) : List HistoryEntry :=
  es.mapIdx fun i entry => ⟨entry, i + 1⟩

/-- The records hold the entries, numbered from one, and no others. -/
structure Numbered (m : Snapshot) (es : List NewEntry) : Prop where
  counter : m.get sequenceKey = if es = [] then none else some (encode (.number (.ofNat es.length)))
  stored : ∀ r ∈ numbered es, m.get (entryKey r.sequence) = some (encode r.document)
  only : ∀ k, entryStart <+: k → m.get k ≠ none → ∃ n, 0 < n ∧ n ≤ es.length ∧ k = entryKey n
  valid : ∀ r ∈ numbered es, r.Valid

theorem numbered_concat (es : List NewEntry) (entry : NewEntry) :
    numbered (es ++ [entry]) = numbered es ++ [⟨entry, es.length + 1⟩] := List.mapIdx_concat

theorem mem_numbered {es : List NewEntry} {r : HistoryEntry} :
    r ∈ numbered es ↔ ∃ i, ∃ h : i < es.length, ⟨es[i], i + 1⟩ = r := List.mem_mapIdx

section
variable {m m' : Snapshot} {es : List NewEntry} {entry : NewEntry}

theorem Numbered.length_le (h : Numbered m es) : es.length ≤ 9007199254740991 := by
  rcases Nat.eq_zero_or_pos es.length with h0 | hpos
  · rw [h0]
    exact Nat.zero_le _
  · have hlast := h.valid _ (mem_numbered.2 ⟨es.length - 1, by omega, rfl⟩)
    have := hlast.safe
    dsimp only at this
    omega

theorem nextSequence_encode {n : ℕ} (h : n ≤ 9007199254740991) :
    nextSequence (some (encode (.number (.ofNat n)))) m = (.ok (n + 1), m) := by
  refine Tx.bind_ok.2 ⟨n, m, Tx.bind_ok.2 ⟨_, m, Tx.need_ok.2 ⟨decode_sequence (by omega), rfl⟩,
    Tx.need_ok.2 ⟨?_, rfl⟩⟩, rfl⟩
  rw [nonnegative_ofNat, if_pos h]

theorem Numbered.nextSequence (h : Numbered m es) :
    nextSequence (m.get sequenceKey) m = (.ok (es.length + 1), m) := by
  rw [h.counter]
  by_cases he : es = []
  · rw [if_pos he, he]
    rfl
  · rw [if_neg he]
    exact nextSequence_encode h.length_le

/-- The records with an entry under the next sequence. -/
def appended (m : Snapshot) (entry : HistoryEntry) : Snapshot :=
  (m.set (entryKey entry.sequence) (encode entry.document)).set sequenceKey
    (encode (.number (.ofNat entry.sequence)))

/-- What `appendHistory` does where it returns. -/
theorem appendHistory_ok {n : ℕ} (hn : nextSequence (m.get sequenceKey) m = (.ok n, m)) {u : Unit} :
    appendHistory entry m = (.ok u, m') ↔
      HistoryEntry.Valid ⟨entry, n⟩ ∧ appended m ⟨entry, n⟩ = m' := by
  unfold appendHistory
  simp only [Tx.bind_ok, Tx.read_ok, Tx.ensure_ok, Tx.modify_ok, Tx.need_ok, entrySchema_withSequence]
  constructor
  · rintro ⟨_, _, ⟨rfl, rfl⟩, n', _, hn', _, _, ⟨-, rfl⟩, r, _, ⟨⟨rfl, hr⟩, rfl⟩, _, _, rfl, rfl⟩
    rw [hn] at hn'
    cases hn'
    exact ⟨hr, rfl⟩
  · rintro ⟨hr, rfl⟩
    have hsafe := hr.safe
    refine ⟨_, _, ⟨rfl, rfl⟩, _, _, hn, (), _, ⟨?_, rfl⟩, _, _, ⟨⟨rfl, hr⟩, rfl⟩, (), _, rfl, rfl⟩
    simp only [safeInteger, decide_eq_true_eq]
    dsimp only at hsafe
    omega

theorem get_appended {r : HistoryEntry} {k : Key} : (appended m r).get k =
    if k = sequenceKey then some (encode (.number (.ofNat r.sequence)))
    else if k = entryKey r.sequence then some (encode r.document) else m.get k := by
  rw [appended, JsMap.get_set, JsMap.get_set]

theorem Numbered.append (h : Numbered m es) {u : Unit}
    (ha : History.appendHistory entry m = (.ok u, m')) : Numbered m' (es ++ [entry]) := by
  obtain ⟨hr, rfl⟩ := (appendHistory_ok h.nextSequence).1 ha
  have hsafe : es.length + 1 ≤ 9007199254740991 := hr.safe
  constructor
  · rw [get_appended, if_pos rfl, if_neg (by simp), List.length_append]
    rfl
  · intro r hmem
    rw [get_appended, if_neg (Ne.symm (sequenceKey_other _))]
    rw [numbered_concat, List.mem_append, List.mem_singleton] at hmem
    rcases hmem with hmem | rfl
    · have hlt : r.sequence ≤ es.length := by
        obtain ⟨i, hi, rfl⟩ := mem_numbered.1 hmem
        exact hi
      rw [if_neg fun hk => ?_]
      · exact h.stored r hmem
      · have hseq : r.sequence = es.length + 1 := entryKey_inj hk
        omega
    · rw [if_pos rfl]
  · intro k hk hget
    rw [get_appended] at hget
    rw [List.length_append]
    split_ifs at hget with hseq hnew
    · rw [hseq] at hk
      exact absurd hk (by decide)
    · exact ⟨es.length + 1, by omega, le_rfl, hnew⟩
    · obtain ⟨n, hpos, hle, hn⟩ := h.only k hk hget
      exact ⟨n, hpos, by omega, hn⟩
  · intro r hmem
    rw [numbered_concat, List.mem_append, List.mem_singleton] at hmem
    rcases hmem with hmem | rfl
    · exact h.valid r hmem
    · exact hr

theorem parseRecord_reads {α : Type} (schema : Document (List ℕ) → Option α) (bytes : Octets) :
    (parseRecord schema bytes).Reads :=
  (Tx.Reads.need _ _).bind fun _ => .need _ _

theorem nextSequence_reads : ∀ previous, (History.nextSequence previous).Reads
  | none => .pure 1
  | some bytes => (parseRecord_reads _ bytes).bind fun n => .pure (n + 1)

/-- An entry that is refused leaves the records as they are. -/
theorem appendHistory_atomic (entry : NewEntry) : (History.appendHistory entry).Atomic :=
  (Tx.Reads.read _).atomic_bind fun previous =>
    (nextSequence_reads previous).atomic_bind fun _ =>
      (Tx.Reads.ensure _ _).atomic_bind fun _ =>
        (Tx.Reads.need _ _).atomic_bind fun _ => fun _ _ _ h => (by cases h)

/-- What does not touch the history. -/
def Foreign : Operation → Prop
  | .set k _ | .delete k => k ≠ sequenceKey ∧ ¬ entryStart <+: k
  | _ => True

theorem Foreign.get {o : Operation} (ho : Foreign o) {k : Key}
    (hk : k = sequenceKey ∨ entryStart <+: k) : (o.apply m).get k = m.get k := by
  have hne : ∀ k', k' ≠ sequenceKey ∧ ¬ entryStart <+: k' → k ≠ k' := by
    rintro k' ⟨hs, he⟩ rfl
    exact hk.elim hs he
  cases o with
  | get | keys => rfl
  | set k' value => exact (JsMap.get_set m k' k value).trans (if_neg (hne k' ho))
  | delete k' => exact (JsMap.get_delete m k' k).trans (if_neg (hne k' ho))

theorem Numbered.other (h : Numbered m es) {o : Operation} (ho : Foreign o) :
    Numbered (o.apply m) es where
  counter := (ho.get (Or.inl rfl)).trans h.counter
  stored r hr := (ho.get (Or.inr (List.prefix_append _ _))).trans (h.stored r hr)
  only k hk hget := h.only k hk (ho.get (Or.inr hk) ▸ hget)
  valid := h.valid

/-! ## Reading -/

theorem readEntry_document {r : HistoryEntry}
    (hget : m.get (entryKey r.sequence) = some (encode r.document)) (hvalid : r.Valid) :
    readEntry (entryKey r.sequence) m = (.ok r, m) :=
  Tx.bind_ok.2 ⟨_, m, Tx.read_ok.2 ⟨hget, rfl⟩, Tx.bind_ok.2 ⟨_, m,
    Tx.need_ok.2 ⟨decode_document hvalid, rfl⟩, Tx.need_ok.2 ⟨entrySchema_document hvalid, rfl⟩⟩⟩

theorem readEntries_documents : ∀ {rs : List HistoryEntry},
    (∀ r ∈ rs, m.get (entryKey r.sequence) = some (encode r.document) ∧ r.Valid) →
    readEntries (rs.map fun r => entryKey r.sequence) m = (.ok rs, m)
  | [], _ => rfl
  | r :: rs, h => by
    obtain ⟨hget, hvalid⟩ := h r List.mem_cons_self
    have ih := readEntries_documents fun r' hr' => h r' (List.mem_cons_of_mem r hr')
    exact Tx.bind_ok.2 ⟨r, m, readEntry_document hget hvalid, Tx.bind_ok.2 ⟨rs, m, ih, rfl⟩⟩

theorem unitsLe_iff {s t : Units} :
    unitsLe s t = true ↔ s.map UInt16.toNat ≤ t.map UInt16.toNat := decide_eq_true_iff

/-- The keys of the entries, sorted. -/
theorem Numbered.keys (h : Numbered m es) :
    (m.keys.filter fun k => entryStart.isPrefixOf k).mergeSort unitsLe =
      (numbered es).map fun r => entryKey r.sequence := by
  have hlen := h.length_le
  have hpair : ((numbered es).map fun r => entryKey r.sequence).Pairwise fun a b =>
      a.map UInt16.toNat < b.map UInt16.toNat := by
    rw [List.pairwise_map, List.pairwise_iff_getElem]
    intro i j hi hj hij
    simp only [numbered, List.length_mapIdx, List.getElem_mapIdx] at hj ⊢
    exact entryKey_lt (by omega) (by omega)
  have hmem : ∀ k, k ∈ (numbered es).map (fun r => entryKey r.sequence) ↔
      entryStart <+: k ∧ (m.get k).isSome = true := by
    intro k
    rw [List.mem_map]
    constructor
    · rintro ⟨r, hr, rfl⟩
      exact ⟨List.prefix_append _ _, by rw [h.stored r hr]; rfl⟩
    · rintro ⟨hk, hget⟩
      obtain ⟨n, hpos, hle, rfl⟩ := h.only k hk (Option.isSome_iff_ne_none.1 hget)
      refine ⟨⟨es[n - 1], n - 1 + 1⟩, mem_numbered.2 ⟨n - 1, by omega, rfl⟩, ?_⟩
      rw [Nat.sub_add_cancel hpos]
  have hperm : ((m.keys.filter fun k => entryStart.isPrefixOf k).mergeSort unitsLe).Perm
      ((numbered es).map fun r => entryKey r.sequence) := by
    refine (List.mergeSort_perm _ _).trans ?_
    have hnodup : (m.keys.filter fun k => entryStart.isPrefixOf k).Nodup := m.nodup.filter _
    refine (List.perm_ext_iff_of_nodup hnodup ?_).2 fun k => ?_
    · exact hpair.imp fun hlt he => hlt.ne (congrArg _ he)
    · rw [hmem, List.mem_filter, JsMap.mem_keys, List.isPrefixOf_iff_prefix]
      exact and_comm
  refine @List.Perm.eq_of_pairwise _ (fun a b => unitsLe a b = true) _ _ ?_ ?_ ?_ hperm
  · intro a b _ _ hab hba
    have he : a.map UInt16.toNat = b.map UInt16.toNat :=
      le_antisymm (unitsLe_iff.1 hab) (unitsLe_iff.1 hba)
    rw [← map_units a, he, map_units]
  · refine List.pairwise_mergeSort (fun a b c hab hbc => ?_) (fun a b => ?_) _
    · exact unitsLe_iff.2 ((unitsLe_iff.1 hab).trans (unitsLe_iff.1 hbc))
    · rw [Bool.or_eq_true, unitsLe_iff, unitsLe_iff]
      exact le_total _ _
  · exact hpair.imp fun hlt => unitsLe_iff.2 hlt.le

theorem Numbered.readHistory (h : Numbered m es) (contact : Units) :
    readHistory contact m =
      (.ok ((numbered es).filter fun r => r.contactIdentityId = contact), m) := by
  refine Tx.bind_ok.2 ⟨_, m, Tx.read_ok.2 ⟨h.keys, rfl⟩, Tx.bind_ok.2 ⟨numbered es, m, ?_, rfl⟩⟩
  exact readEntries_documents fun r hr => ⟨h.stored r hr, h.valid r hr⟩

end

/-! ## The history of the profile's store -/

def newEntry (contactIdentityId messageId : Text) (d : Direction) (plaintext : Text)
    (createdAtMs : ℤ) : NewEntry :=
  ⟨units contactIdentityId, units messageId, d, units plaintext, createdAtMs⟩

def ofEntry (entry : Echolet.HistoryEntry) : HistoryEntry :=
  ⟨newEntry entry.contactIdentityId entry.messageId entry.direction entry.plaintext
    entry.createdAtMs, entry.sequence⟩

/-- The records hold the history of a store. -/
structure Follows (m : Snapshot) (s : ClientStore) : Prop where
  counter : m.get sequenceKey = s.historySequence.map fun n => encode (.number (.ofNat n))
  entries : ∀ n, m.get (entryKey n) = (s.history.get (historyKey n)).map fun entry =>
    encode (ofEntry entry).document
  safe : ∀ n, s.historySequence = some n → n ≤ 9007199254740991

theorem map_units_toNat (t : Text) : (units t).map UInt16.toNat = utf16Units t := by
  rw [units, List.map_map]
  refine (List.map_congr_left fun u hu => ?_).trans (List.map_id _)
  exact UInt16.toNat_ofNat_of_lt' (utf16Units_lt u hu)

theorem units_eq_nil {t : Text} : units t = [] ↔ t = [] := by
  constructor
  · intro h
    have ht := toText_utf16Units t
    rw [← map_units_toNat, h] at ht
    exact ht.symm
  · rintro rfl
    rfl

/-- The checks of the two are the same. -/
theorem ofEntry_valid {entry : Echolet.HistoryEntry} :
    (ofEntry entry).Valid ↔ entry.valid = true := by
  have hid : (ofEntry entry).contactIdentityId ≠ [] ↔ entry.contactIdentityId ≠ [] :=
    not_congr units_eq_nil
  have hmid : toText ((ofEntry entry).messageId.map UInt16.toNat) = entry.messageId := by
    rw [show (ofEntry entry).messageId = units entry.messageId from rfl, map_units_toNat,
      toText_utf16Units]
  rw [Echolet.HistoryEntry.valid, decide_eq_true_iff]
  simp only [safeInteger, decide_eq_true_eq]
  constructor
  · rintro ⟨hpos, hsafe, hc, hm, ht⟩
    change 0 < entry.sequence at hpos
    change entry.sequence ≤ _ at hsafe
    change 0 ≤ entry.createdAtMs ∧ entry.createdAtMs ≤ _ at ht
    rw [hmid] at hm
    exact ⟨hpos, by omega, hid.1 hc, hm, ht.1, by omega, ht.2⟩
  · rintro ⟨hpos, hsafe, hc, hm, h0, hle⟩
    exact ⟨hpos, show entry.sequence ≤ _ by omega, hid.2 hc, hmid ▸ hm, h0, hle.2⟩

theorem Follows.nextSequence {m : Snapshot} {s : ClientStore} (h : Follows m s) :
    nextSequence (m.get sequenceKey) m = (.ok (Echolet.nextSequence s), m) := by
  rw [h.counter, Echolet.nextSequence]
  cases hs : s.historySequence with
  | none => rfl
  | some n =>
    exact nextSequence_encode (h.safe n hs)

theorem historyKey_eq {m n : ℕ} : historyKey m = historyKey n ↔ m = n := by
  constructor
  · intro h
    rw [← value_padded 16 m, show padded 16 m = padded 16 n from h, value_padded]
  · rintro rfl
    rfl

theorem Follows.append {m : Snapshot} {s : ClientStore} (h : Follows m s) {id mid p : Text}
    {d : Direction} {time : ℤ}
    (hv : (ofEntry ⟨Echolet.nextSequence s, id, mid, d, p, time⟩).Valid) :
    Follows (appended m (ofEntry ⟨Echolet.nextSequence s, id, mid, d, p, time⟩))
      (s.appended id mid d p time) where
  counter := by
    rw [get_appended, if_pos rfl]
    rfl
  entries n := by
    rw [get_appended, if_neg (Ne.symm (sequenceKey_other n))]
    change (if entryKey n = entryKey (Echolet.nextSequence s) then _ else _) =
      ((s.history.insert (historyKey (Echolet.nextSequence s)) _).get (historyKey n)).map _
    rw [SortedMap.get_insert]
    by_cases hn : n = Echolet.nextSequence s
    · rw [hn, if_pos rfl, if_pos rfl]
      rfl
    · rw [if_neg fun hk => hn (entryKey_inj hk), if_neg fun hk => hn (historyKey_eq.1 hk)]
      exact h.entries n
  safe n hn := by
    cases hn
    exact hv.safe

/-- **`appendHistory` on the records is the one of the profile's store**: both append the entry,
    or both refuse it. -/
theorem appendHistory_refines {m : Snapshot} {s : ClientStore} (h : Follows m s) (id mid p : Text)
    (d : Direction) (time : ℤ) :
    (∃ m' s', appendHistory (newEntry id mid d p time) m = (.ok (), m') ∧
      Echolet.appendHistory id mid d p time s = (.ok (), s') ∧ Follows m' s') ∨
    (∃ e e', appendHistory (newEntry id mid d p time) m = (.error e, m) ∧
      (Echolet.appendHistory id mid d p time s).1 = .error e') := by
  have hraw : ∀ m', appendHistory (newEntry id mid d p time) m = (.ok (), m') ↔
      (ofEntry ⟨Echolet.nextSequence s, id, mid, d, p, time⟩).Valid ∧
        appended m (ofEntry ⟨Echolet.nextSequence s, id, mid, d, p, time⟩) = m' :=
    fun _ => appendHistory_ok h.nextSequence
  have htyped : ∀ s', Echolet.appendHistory id mid d p time s = (.ok (), s') ↔
      HistoryEntry.valid ⟨Echolet.nextSequence s, id, mid, d, p, time⟩ = true ∧
        s.appended id mid d p time = s' := fun _ => Echolet.appendHistory_ok
  have hvalid : (ofEntry ⟨Echolet.nextSequence s, id, mid, d, p, time⟩).Valid ↔
      HistoryEntry.valid ⟨Echolet.nextSequence s, id, mid, d, p, time⟩ = true := ofEntry_valid
  by_cases hv : (ofEntry ⟨Echolet.nextSequence s, id, mid, d, p, time⟩).Valid
  · exact Or.inl ⟨_, _, (hraw _).2 ⟨hv, rfl⟩, (htyped _).2 ⟨hvalid.1 hv, rfl⟩, h.append hv⟩
  · right
    rcases hr : appendHistory (newEntry id mid d p time) m with ⟨e | u, m'⟩
    · rcases ht : Echolet.appendHistory id mid d p time s with ⟨e' | u, s'⟩
      · exact ⟨e, e', by rw [appendHistory_atomic _ _ _ _ hr], rfl⟩
      · exact absurd (hvalid.2 ((htyped s').1 ht).1) hv
    · exact absurd ((hraw m').1 hr).1 hv

/-! ## Transactions -/

/-- A store, and the transaction that is open on it. -/
structure Journal where
  /-- What is committed. -/
  records : Snapshot
  /-- What the committed transactions appended, in the order of the commits. -/
  log : List NewEntry
  /-- The records of the transaction, and what it appended. -/
  working : Option (Snapshot × List NewEntry)

inductive Action where
  | begin
  | append (entry : NewEntry)
  | other (o : Operation) (h : Foreign o)
  /-- The transaction returns, or throws. -/
  | settle (returned : Bool)

/-- An entry is appended, or refused with an error that the transaction may catch. -/
def appendStep (entry : NewEntry) (m : Snapshot) (es : List NewEntry) : Snapshot × List NewEntry :=
  match appendHistory entry m with
  | (.ok _, m') => (m', es ++ [entry])
  | (.error _, m') => (m', es)

def step (s : Journal) : Action → Option Journal
  | .begin =>
    match s.working with
    | none => some { s with working := some (s.records, []) }
    | some _ => none
  | .append entry => s.working.map fun (m, es) => { s with working := some (appendStep entry m es) }
  | .other o _ => s.working.map fun (m, es) => { s with working := some (o.apply m, es) }
  | .settle returned => s.working.map fun (m, es) =>
    if returned = true then ⟨m, s.log ++ es, none⟩ else { s with working := none }

/-- The store and the open transaction hold numbered entries. -/
structure Kept (s : Journal) : Prop where
  records : Numbered s.records s.log
  working : ∀ m es, s.working = some (m, es) → Numbered m (s.log ++ es)

theorem Kept.step {s s' : Journal} (h : Kept s) {a : Action} (hs : step s a = some s') : Kept s' := by
  cases a with
  | begin =>
    unfold History.step at hs
    cases hw : s.working with
    | some w => rw [hw] at hs; cases hs
    | none =>
      rw [hw] at hs
      cases hs
      refine ⟨h.records, fun m es he => ?_⟩
      cases he
      rw [List.append_nil]
      exact h.records
  | append entry =>
    obtain ⟨⟨m, es⟩, hw, rfl⟩ := Option.map_eq_some_iff.1 hs
    refine ⟨h.records, fun m' es' he => ?_⟩
    have hm := h.working m es hw
    dsimp only [appendStep] at he
    rcases ha : appendHistory entry m with ⟨e | u, v⟩
    · rw [ha] at he
      cases he
      rw [appendHistory_atomic entry m e m' ha]
      exact hm
    · rw [ha] at he
      cases he
      rw [← List.append_assoc]
      exact hm.append ha
  | other o ho =>
    obtain ⟨⟨m, es⟩, hw, rfl⟩ := Option.map_eq_some_iff.1 hs
    refine ⟨h.records, fun m' es' he => ?_⟩
    cases he
    exact (h.working m es hw).other ho
  | settle returned =>
    obtain ⟨⟨m, es⟩, hw, rfl⟩ := Option.map_eq_some_iff.1 hs
    cases returned with
    | true => exact ⟨h.working m es hw, fun _ _ he => (by cases he)⟩
    | false => exact ⟨h.records, fun _ _ he => (by cases he)⟩

/-- The records have no history. -/
structure Fresh (m : Snapshot) : Prop where
  counter : m.get sequenceKey = none
  entries : ∀ k, entryStart <+: k → m.get k = none

theorem Fresh.numbered {m : Snapshot} (h : Fresh m) : Numbered m [] where
  counter := h.counter
  stored _ hr := by cases hr
  only k hk hget := absurd (h.entries k hk) hget
  valid _ hr := by cases hr

/-- **The history sequence.**  In every run of transactions that append entries for any contacts,
    touch other records, and return or throw: the entries of those that returned are stored under
    the sequences from one on, in the order of the commits, with no others; and each contact's
    are read back in this order, also inside a transaction, which sees what it appended itself. -/
theorem history_sequence (first : Snapshot) (hfirst : Fresh first) (s : Journal)
    (h : Run step Any ⟨first, [], none⟩ s) :
    (∀ k, entryStart <+: k → (s.records.get k ≠ none ↔
      ∃ n, 0 < n ∧ n ≤ s.log.length ∧ k = entryKey n)) ∧
    (∀ n (hn : n < s.log.length), readEntry (entryKey (n + 1)) s.records =
      (.ok ⟨s.log[n], n + 1⟩, s.records)) ∧
    (∀ contact, readHistory contact s.records =
      (.ok ((numbered s.log).filter fun r => r.contactIdentityId = contact), s.records)) ∧
    (∀ m es, s.working = some (m, es) → ∀ contact, readHistory contact m =
      (.ok ((numbered (s.log ++ es)).filter fun r => r.contactIdentityId = contact), m)) ∧
    ∀ i j, i ≤ s.log.length → j ≤ s.log.length → (unitsLe (entryKey i) (entryKey j) ↔ i ≤ j) := by
  have hk : Kept s := h.invariant (I := Kept) (fun _ _ _ h _ hs => h.step hs)
    ⟨hfirst.numbered, fun _ _ he => (by cases he)⟩
  have hlen := hk.records.length_le
  refine ⟨fun k hpre => ⟨hk.records.only k hpre, ?_⟩, fun n hn => ?_, hk.records.readHistory,
    fun m es hw => (hk.working m es hw).readHistory, fun i j hi hj => ?_⟩
  · rintro ⟨n, hpos, hle, rfl⟩ hnone
    have hs := hk.records.stored ⟨s.log[n - 1], n - 1 + 1⟩ (mem_numbered.2 ⟨n - 1, by omega, rfl⟩)
    rw [Nat.sub_add_cancel hpos, hnone] at hs
    cases hs
  · have hmem : ⟨s.log[n], n + 1⟩ ∈ numbered s.log := mem_numbered.2 ⟨n, hn, rfl⟩
    exact readEntry_document (r := ⟨s.log[n], n + 1⟩) (hk.records.stored _ hmem)
      (hk.records.valid _ hmem)
  · rw [unitsLe_iff]
    constructor
    · exact fun hle => not_lt.1 fun hlt => not_le.2 (entryKey_lt hlt (by omega)) hle
    · intro hle
      rcases hle.eq_or_lt with rfl | hlt
      · exact le_rfl
      · exact (entryKey_lt hlt (by omega)).le

/-- Two entries: one is thrown away with its transaction, the next one has its sequence. -/
def thrownRun : List Action :=
  [.begin, .append (newEntry ['a'] "11111111-1111-4111-8111-111111111111".toList .inbound ['x'] 5),
    .settle false, .begin,
    .append (newEntry ['b'] "11111111-1111-4111-8111-111111111112".toList .outbound ['y'] 6),
    .settle true]

def thrownEnd : Option Journal := replay step Any thrownRun ⟨.empty, [], none⟩

theorem history_sequence_thrown : ∃ s, thrownEnd = some s ∧
    s.log.map (·.contactIdentityId) = [units ['b']] ∧
    ∀ contact, readHistory contact s.records =
      (.ok ((numbered s.log).filter fun r => r.contactIdentityId = contact), s.records) := by
  have hlog : thrownEnd.map (fun s => s.log.map (·.contactIdentityId)) = some [units ['b']] := by
    decide +kernel
  obtain ⟨s, hs, hl⟩ := Option.map_eq_some_iff.1 hlog
  exact ⟨s, hs, hl, (history_sequence .empty ⟨rfl, fun _ _ => rfl⟩ s (Run.of_replay hs)).2.2.1⟩

end Echolet.History
