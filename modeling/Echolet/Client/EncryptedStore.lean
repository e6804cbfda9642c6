/-
  The encrypted store (`EncryptedSqliteStore`): one row of a SQLite file, and the transactions of
  any number of store instances over it.

  * `write` and `read` are the two ways between a snapshot and its row (`read_write`);
  * `System` is a file with the store instances and transaction objects that use it; `Action`s are
    their calls, in any order;
  * `ideal` is the map that a list of operations leaves;
  * `encrypted_store`: in every run, what a reader sees is the ideal map of the operations of the
    transactions that returned.
-/
import Echolet.Lib.JsMap
import Echolet.Lib.Utf8
import Echolet.Client.MailboxAuth
import Echolet.Client.Sizes
import Echolet.Relay.Publications

namespace Echolet

namespace EncryptedStore

open CryptoCore (btoa toUrl)

/-! ## Rows -/

/-- A string, by its UTF-16 units. -/
abbrev Key := List UInt16

abbrev Value := List UInt8

abbrev Snapshot := JsMap Key Value

/-- AES-256-GCM with the data `aad`. -/
structure Cipher where
  /-- The ciphertext and the tag of a plaintext, under a key and a nonce. -/
  encrypt : List ℕ → List ℕ → List ℕ → List ℕ × List ℕ
  /-- The plaintext of a ciphertext and a tag, or a failed authentication. -/
  decrypt : List ℕ → List ℕ → List ℕ → List ℕ → Option (List ℕ)

/-- What was encrypted is decrypted, and a tag has 16 bytes. -/
structure Cipher.Correct (aes : Cipher) : Prop where
  decrypts : ∀ key nonce plaintext,
    aes.decrypt key nonce (aes.encrypt key nonce plaintext).2 (aes.encrypt key nonce plaintext).1 =
      some plaintext
  tag : ∀ key nonce plaintext, (aes.encrypt key nonce plaintext).2.length = 16

/-- The row of `encrypted_state`. -/
structure Row where
  version : ℕ
  nonce : List ℕ
  tag : List ℕ
  ciphertext : List ℕ
  deriving DecidableEq

inductive StoreError where
  | message (text : Text)
  /-- Of `decipher.final`, or of `JSON.parse`. -/
  | authentication
  | syntaxError
  deriving DecidableEq

/-- `randomBytes(12)`. -/
structure Nonce where
  bytes : List ℕ
  length : bytes.length = 12

/-- `Buffer.from` of a base64 string: either alphabet, what is in neither passed over, up to the
    padding; a single character left over gives nothing. -/
def bufferFrom (us : List ℕ) : List ℕ :=
  let chars := (((toText us).map toUrl).takeWhile (· ≠ '=')).filter fun c => (base64Value c).isSome
  (decodeRawChars (if chars.length % 4 = 1 then chars.dropLast else chars)).getD []

/-- `toString("base64")`. -/
def base64Units (bytes : List ℕ) : List ℕ := utf16Units (btoa bytes)

def entryDocument (e : Key × Value) : Document (List ℕ) :=
  .arr [.str (e.1.map UInt16.toNat), .str (base64Units (e.2.map UInt8.toNat))]

/-- The plaintext of a snapshot. -/
def plaintext (m : Snapshot) : List ℕ :=
  utf8Bytes (Document.stringify (.arr (m.entries.map entryDocument)))

def readEntries : List (Document (List ℕ)) → Snapshot → Except StoreError Snapshot
  | [], m => .ok m
  | .arr [.str k, .str v] :: es, m =>
    let key := k.map UInt16.ofNat
    if (m.get key).isSome = true then
      .error (.message "Invalid session snapshot record".toList)
    else if base64Units (bufferFrom v) ≠ v then
      .error (.message "Invalid session record encoding".toList)
    else readEntries es (m.set key ((bufferFrom v).map UInt8.ofNat))
  | _ :: _, _ => .error (.message "Invalid session snapshot record".toList)

def parseSnapshot (bytes : List ℕ) : Except StoreError Snapshot :=
  match Document.parse (decodeUtf8 bytes) with
  | none => .error .syntaxError
  | some (.arr es) => readEntries es .empty
  | some _ => .error (.message "Invalid session snapshot".toList)

section
variable (aes : Cipher) (key : List ℕ)

def read (row : Option Row) : Except StoreError Snapshot :=
  match row with
  | none => .error (.message "Missing encrypted session state".toList)
  | some row =>
    if row.version ≠ 1 ∨ row.nonce.length ≠ 12 ∨ row.tag.length ≠ 16 then
      .error (.message "Invalid encrypted session state".toList)
    else
      match aes.decrypt key row.nonce row.tag row.ciphertext with
      | none => .error .authentication
      | some bytes => parseSnapshot bytes

def write (nonce : Nonce) (m : Snapshot) : Row where
  version := 1
  nonce := nonce.bytes
  tag := (aes.encrypt key nonce.bytes (plaintext m)).2
  ciphertext := (aes.encrypt key nonce.bytes (plaintext m)).1

end

/-! ## The round trip -/

theorem bufferFrom_base64Units {bytes : List ℕ} (h : ∀ b ∈ bytes, b < 256) :
    bufferFrom (base64Units bytes) = bytes := by
  obtain ⟨k, hk⟩ := CryptoCore.btoa_toUrl bytes
  have hdecode := decodeRawChars_encodeRawURL h
  have htake : ((encodeRawURL bytes ++ List.replicate k '=').takeWhile (· ≠ '=')) =
      encodeRawURL bytes := by
    have hnopad : ∀ c ∈ encodeRawURL bytes, decide (c ≠ '=') = true := fun c hc =>
      decide_eq_true fun he => CryptoCore.pad_notMem_encodeRawURL bytes (he ▸ hc)
    rw [List.takeWhile_append_of_pos hnopad]
    cases k with
    | zero => simp
    | succ k => simp [List.replicate_succ]
  have hfilter : ((encodeRawURL bytes).filter fun c => (base64Value c).isSome) =
      encodeRawURL bytes :=
    List.filter_eq_self.2 (isSome_base64Value_raw hdecode)
  have hlength : (encodeRawURL bytes).length % 4 ≠ 1 := by
    rw [length_encodeRawURL]
    omega
  unfold bufferFrom base64Units
  rw [toText_utf16Units, hk, htake]
  dsimp only
  rw [hfilter, if_neg hlength, hdecode]
  rfl

theorem readEntries_entries : ∀ {es : List (Key × Value)} {m : Snapshot},
    (es.map (·.1)).Nodup → (∀ e ∈ es, m.get e.1 = none) →
      ∃ m', readEntries (es.map entryDocument) m = .ok m' ∧ m'.entries = m.entries ++ es
  | [], m, _, _ => ⟨m, rfl, (List.append_nil _).symm⟩
  | e :: es, m, hnodup, hfresh => by
    obtain ⟨hnew, hnodup⟩ := List.nodup_cons.1 hnodup
    have hkey : (e.1.map UInt16.toNat).map UInt16.ofNat = e.1 := by
      simp [Function.comp_def]
    have hbytes : bufferFrom (base64Units (e.2.map UInt8.toNat)) = e.2.map UInt8.toNat := by
      refine bufferFrom_base64Units fun b hb => ?_
      obtain ⟨x, -, rfl⟩ := List.mem_map.1 hb
      exact x.toNat_lt
    have hvalue : (e.2.map UInt8.toNat).map UInt8.ofNat = e.2 := by
      simp [Function.comp_def]
    have hnew' : ∀ e' ∈ es, e'.1 ≠ e.1 := fun e' he' h =>
      hnew (List.mem_map.2 ⟨e', he', h⟩)
    have hrest : ∀ e' ∈ es, (m.set e.1 e.2).get e'.1 = none := by
      intro e' he'
      rw [JsMap.get_set, if_neg (hnew' e' he')]
      exact hfresh e' (List.mem_cons_of_mem _ he')
    obtain ⟨m', hread, hentries⟩ := readEntries_entries hnodup hrest
    refine ⟨m', ?_, ?_⟩
    · rw [List.map_cons, entryDocument, readEntries]
      rw [hkey, if_neg (by rw [hfresh e List.mem_cons_self]; exact Bool.false_ne_true), hbytes,
        if_neg (not_not_intro rfl), hvalue, hread]
    · rw [hentries, JsMap.entries_set_new (hfresh e List.mem_cons_self), List.append_assoc]
      rfl

theorem finite_entries : ∀ es : List (Key × Value),
    Document.FiniteElems (es.map entryDocument)
  | [] => trivial
  | _ :: es => ⟨⟨trivial, trivial, trivial⟩, finite_entries es⟩

theorem numbers_entries : ∀ es : List (Key × Value),
    Document.numbersOfElems (es.map entryDocument) = []
  | [] => rfl
  | e :: es => by
    rw [List.map_cons, Document.numbersOfElems, numbers_entries es]
    rfl

theorem strings_entries : ∀ es : List (Key × Value),
    ∀ us ∈ Document.stringsOfElems (es.map entryDocument), ∀ u ∈ us, u < 0x10000
  | [], us, h => by cases h
  | e :: es, us, h => by
    rw [List.map_cons, Document.stringsOfElems, List.mem_append] at h
    rcases h with h | h
    · have hcases : us = e.1.map UInt16.toNat ∨ us = base64Units (e.2.map UInt8.toNat) := by
        simpa [entryDocument, Document.strings, Document.stringsOfElems] using h
      rcases hcases with rfl | rfl
      · intro u hu
        obtain ⟨x, -, rfl⟩ := List.mem_map.1 hu
        exact x.toNat_lt
      · exact utf16Units_lt
    · exact strings_entries es us h

/-- **Reading undoes writing.** -/
theorem read_write {aes : Cipher} (haes : aes.Correct) (key : List ℕ) (nonce : Nonce)
    (m : Snapshot) : read aes key (some (write aes key nonce m)) = .ok m := by
  have hplain : Document.Plain (Document.strings (.arr (m.entries.map entryDocument)))
      (Document.numbers (.arr (m.entries.map entryDocument))) := by
    refine ⟨?_, ?_⟩
    · rw [Document.strings]
      exact strings_entries m.entries
    · rw [Document.numbers, numbers_entries]
      intro n hn
      cases hn
  have hparse : Document.parse (Document.stringify (.arr (m.entries.map entryDocument))) =
      some (.arr (m.entries.map entryDocument)) := by
    have hfinite : Document.Finite (.arr (m.entries.map entryDocument)) := finite_entries m.entries
    rw [Document.parse_stringify hfinite hplain]
    refine congrArg some (Document.map_eq_self (fun _ _ => rfl) ?_)
    rw [Document.numbers, numbers_entries]
    intro n hn
    cases hn
  obtain ⟨m', hread, hentries⟩ := readEntries_entries (m := .empty) m.nodup fun _ _ => rfl
  have hsame : m' = m := JsMap.ext hentries
  unfold read write
  dsimp only
  rw [if_neg (by simp [nonce.length, haes.tag]), haes.decrypts]
  dsimp only
  unfold parseSnapshot plaintext
  rw [decodeUtf8_utf8Bytes, hparse, ← hsame]
  rw [hsame] at hread ⊢
  exact hread

/-! ## Transactions -/

/-- What is asked of a transaction object. -/
inductive Operation where
  | get (k : Key)
  | set (k : Key) (value : Value)
  | delete (k : Key)
  /-- The keys that begin with a string. -/
  | keys (start : Key)
  deriving DecidableEq

inductive Answer where
  | value (value : Option Value)
  | keys (ks : List Key)
  | done
  deriving DecidableEq

def Operation.apply : Operation → Snapshot → Snapshot
  | .set k value, m => m.set k value
  | .delete k, m => m.delete k
  | _, m => m

def Operation.answer : Operation → Snapshot → Answer
  | .get k, m => .value (m.get k)
  | .keys start, m => .keys (m.keys.filter fun k => start.isPrefixOf k)
  | _, _ => .done

inductive Phase where
  /-- Behind others on the `tail` of its store. -/
  | waiting
  /-- The scope is active. -/
  | running
  | ended
  deriving DecidableEq

structure Transaction where
  store : ℕ
  phase : Phase
  records : Snapshot
  /-- The operations it performed, which the source does not record. -/
  performed : List Operation

/-- An instance of `EncryptedSqliteStore`. -/
structure Store where
  /-- The transactions that have not settled, the one that runs first. -/
  tail : List ℕ
  closing : Bool

/-- A database file, and the instances and transaction objects that use it. -/
structure System where
  /-- What is committed. -/
  row : Option Row
  /-- The transaction that holds the write lock (`BEGIN IMMEDIATE`). -/
  writer : Option ℕ
  stores : ℕ → Option Store
  transactions : ℕ → Option Transaction
  /-- The operations of each transaction that returned, in the order of the commits. -/
  log : List (List Operation)

namespace System

/-- A file that nobody has open. -/
def unused (row : Row) : System := ⟨some row, none, fun _ => none, fun _ => none, []⟩

def put (s : System) (t : ℕ) (x : Transaction) : System :=
  { s with transactions := fun k => if k = t then some x else s.transactions k }

/-- A transaction has settled, and the next one of its store may begin. -/
def settled (s : System) (t : ℕ) (x : Transaction) : System :=
  { s.put t { x with phase := .ended } with
    stores := fun i => if i = x.store then (s.stores i).map fun st => { st with tail := st.tail.tail }
      else s.stores i }

/-- The call is made inside an active scope of the store. -/
def nested (s : System) (i : ℕ) (inside : Option ℕ) : Bool :=
  inside.any fun t => (s.transactions t).any fun x => x.store = i && x.phase = .running

/-- Why `transaction` is rejected at once. -/
def refusal (s : System) (i : ℕ) (st : Store) (inside : Option ℕ) : Option Text :=
  if s.nested i inside = true then some "Nested transaction is not supported".toList
  else if st.closing = true then some "Store is closed".toList
  else none

/-- An operation on a transaction object, which there is once the transaction runs. -/
def use (s : System) (t : ℕ) (o : Operation) : Option (Except StoreError Answer × System) :=
  match s.transactions t with
  | none => none
  | some x =>
    match x.phase with
    | .waiting => none
    | .running => some (.ok (o.answer x.records),
        s.put t { x with records := o.apply x.records, performed := x.performed ++ [o] })
    | .ended => some (.error (.message "Transaction is no longer active".toList), s)

end System

/-- The calls on the instances and objects, and what ends a transaction or a process.  A call to
    SQLite that is not `permitted` fails, as where another connection is in the way. -/
inductive Action where
  | openStore (i : ℕ) (permitted : Bool)
  | transaction (i t : ℕ) (inside : Option ℕ)
  | start (t : ℕ) (permitted : Bool)
  | use (t : ℕ) (o : Operation)
  /-- The operation of a transaction returns or throws. -/
  | settle (t : ℕ) (returned : Bool) (nonce : Nonce) (permitted : Bool)
  | close (i : ℕ) (inside : Option ℕ)
  | kill (i : ℕ)

section
variable (aes : Cipher) (key : List ℕ)

/-- `BEGIN IMMEDIATE` and the read, once the transactions before it have settled. -/
def start (s : System) (t : ℕ) (x : Transaction) (permitted : Bool) : System :=
  if permitted = true ∧ s.writer = none then
    match read aes key s.row with
    | .ok m => { s.put t { x with phase := .running, records := m } with writer := some t }
    | .error _ => s.settled t x
  else s.settled t x

/-- The write and `COMMIT` of a transaction that returns, or `ROLLBACK`. -/
def settle (s : System) (t : ℕ) (x : Transaction) (returned : Bool) (nonce : Nonce)
    (permitted : Bool) : System :=
  if returned = true ∧ permitted = true then
    { s.settled t x with
      row := some (write aes key nonce x.records), writer := none, log := s.log ++ [x.performed] }
  else { s.settled t x with writer := none }

def step (s : System) : Action → Option System
  | .openStore i permitted =>
    match s.stores i, read aes key s.row with
    | none, .ok _ =>
      if permitted = true then
        some { s with stores := fun k => if k = i then some ⟨[], false⟩ else s.stores k }
      else some s
    | none, .error _ => some s
    | some _, _ => none
  | .transaction i t inside =>
    match s.stores i, s.transactions t with
    | some st, none =>
      if (s.refusal i st inside).isSome = true then some s
      else some { s.put t ⟨i, .waiting, .empty, []⟩ with
        stores := fun k => if k = i then some { st with tail := st.tail ++ [t] } else s.stores k }
    | _, _ => none
  | .start t permitted =>
    match s.transactions t with
    | some x =>
      if x.phase = .waiting ∧ ((s.stores x.store).bind fun st => st.tail.head?) = some t then
        some (start aes key s t x permitted)
      else none
    | none => none
  | .use t o => (s.use t o).map (·.2)
  | .settle t returned nonce permitted =>
    match s.transactions t with
    | some x =>
      if x.phase = .running then some (settle aes key s t x returned nonce permitted) else none
    | none => none
  | .close i inside =>
    match s.stores i with
    | some st =>
      if s.nested i inside = true then some s
      else some { s with
        stores := fun k => if k = i then some { st with closing := true } else s.stores k }
    | none => none
  | .kill i => some {
      row := s.row
      writer := s.writer.filter fun t => !(s.transactions t).any fun x => x.store = i
      stores := fun k => if k = i then none else s.stores k
      transactions := fun t => (s.transactions t).map fun x =>
        if x.store = i then { x with phase := .ended } else x
      log := s.log }

end

/-! ## The ideal map -/

/-- What an operation does to a map. -/
def Operation.effect : Operation → (Key → Option Value) → Key → Option Value
  | .set k value, f => fun k' => if k' = k then some value else f k'
  | .delete k, f => fun k' => if k' = k then none else f k'
  | _, f => f

/-- The map that operations leave. -/
def ideal (f : Key → Option Value) (os : List Operation) : Key → Option Value :=
  os.foldl (fun f o => o.effect f) f

/-- The answer is the one of a map. -/
def Operation.Answers (o : Operation) (f : Key → Option Value) (a : Answer) : Prop :=
  match o with
  | .get k => a = .value (f k)
  | .keys start => ∃ ks, a = .keys ks ∧ ks.Nodup ∧ ∀ k, k ∈ ks ↔ start <+: k ∧ (f k).isSome = true
  | _ => a = .done

theorem get_apply (o : Operation) (m : Snapshot) : (o.apply m).get = o.effect m.get := by
  cases o with
  | get k => rfl
  | set k value => exact funext fun k' => JsMap.get_set m k k' value
  | delete k => exact funext fun k' => JsMap.get_delete m k k'
  | keys start => rfl

theorem answers (o : Operation) (m : Snapshot) : o.Answers m.get (o.answer m) := by
  cases o with
  | get k => rfl
  | set k value => rfl
  | delete k => rfl
  | keys start =>
    refine ⟨_, rfl, m.nodup.filter _, fun k => ?_⟩
    rw [List.mem_filter, JsMap.mem_keys, List.isPrefixOf_iff_prefix]
    exact and_comm

theorem ideal_append (f : Key → Option Value) (os os' : List Operation) :
    ideal f (os ++ os') = ideal (ideal f os) os' := List.foldl_append

/-! ## The invariant -/

section
variable {aes : Cipher} {key : List ℕ} {first : Snapshot} {s s' : System} {t : ℕ} {x : Transaction}

/-- The row holds the ideal map of what was committed, and the transaction that runs has the lock
    and the map of what it performed itself. -/
structure Sound (aes : Cipher) (key : List ℕ) (first : Snapshot) (s : System) : Prop where
  view : ∃ m, read aes key s.row = .ok m ∧ m.get = ideal first.get s.log.flatten
  running : ∀ t x, s.transactions t = some x → x.phase = .running →
    s.writer = some t ∧ x.records.get = ideal first.get (s.log.flatten ++ x.performed)
  waiting : ∀ t x, s.transactions t = some x → x.phase = .waiting → x.performed = []

/-- What a step does to one transaction. -/
theorem put_cases {y z : Transaction} {k : ℕ} (h : (s.put t y).transactions k = some z) :
    k = t ∧ z = y ∨ k ≠ t ∧ s.transactions k = some z := by
  unfold System.put at h
  dsimp only at h
  split_ifs at h with hk
  · exact Or.inl ⟨hk, (Option.some.inj h).symm⟩
  · exact Or.inr ⟨hk, h⟩

/-- A transaction that ends without a commit leaves the row. -/
theorem Sound.settled (h : Sound aes key first s) {writer : Option ℕ}
    (hw : ∀ k y, k ≠ t → s.transactions k = some y → y.phase = .running → writer = s.writer) :
    Sound aes key first { s.settled t x with writer := writer } := by
  refine ⟨h.view, fun k y hy hrun => ?_, fun k y hy hwait => ?_⟩
  · rcases put_cases hy with ⟨-, rfl⟩ | ⟨hk, hy⟩
    · cases hrun
    · obtain ⟨hwriter, hrecords⟩ := h.running k y hy hrun
      exact ⟨(hw k y hk hy hrun).trans hwriter, hrecords⟩
  · rcases put_cases hy with ⟨-, rfl⟩ | ⟨-, hy⟩
    · cases hwait
    · exact h.waiting k y hy hwait

theorem Sound.start (h : Sound aes key first s) (hx : s.transactions t = some x)
    (hwait : x.phase = .waiting) (permitted : Bool) :
    Sound aes key first (start aes key s t x permitted) := by
  have hrefused : Sound aes key first (s.settled t x) := h.settled fun _ _ _ _ _ => rfl
  unfold EncryptedStore.start
  split_ifs with hfree
  · obtain ⟨m, hread, hm⟩ := h.view
    rw [hread]
    dsimp only
    refine ⟨⟨m, hread, hm⟩, fun k y hy hrun => ?_, fun k y hy hwait' => ?_⟩
    · rcases put_cases hy with ⟨rfl, rfl⟩ | ⟨-, hy⟩
      · refine ⟨rfl, ?_⟩
        dsimp only
        rw [h.waiting k x hx hwait, List.append_nil]
        exact hm
      · -- nobody else runs, or the lock would be taken
        have hlock := (h.running k y hy hrun).1
        rw [hfree.2] at hlock
        cases hlock
    · rcases put_cases hy with ⟨-, rfl⟩ | ⟨-, hy⟩
      · cases hwait'
      · exact h.waiting k y hy hwait'
  · exact hrefused

/-- A transaction that holds the lock is the only one that runs. -/
theorem Sound.alone (h : Sound aes key first s) (hx : s.transactions t = some x)
    (hrun : x.phase = .running) {k : ℕ} {y : Transaction} (hy : s.transactions k = some y)
    (hrun' : y.phase = .running) : k = t := by
  have hlock := (h.running k y hy hrun').1
  rw [(h.running t x hx hrun).1] at hlock
  exact (Option.some.inj hlock).symm

theorem Sound.settle (haes : aes.Correct) (h : Sound aes key first s)
    (hx : s.transactions t = some x) (hrun : x.phase = .running) (returned : Bool) (nonce : Nonce)
    (permitted : Bool) : Sound aes key first (settle aes key s t x returned nonce permitted) := by
  unfold EncryptedStore.settle
  split_ifs
  · refine ⟨⟨x.records, read_write haes key nonce x.records, ?_⟩, fun k y hy hrun' => ?_,
      fun k y hy hwait => ?_⟩
    · rw [(h.running t x hx hrun).2, List.flatten_append, List.flatten_singleton]
    · rcases put_cases hy with ⟨-, rfl⟩ | ⟨hk, hy⟩
      · cases hrun'
      · exact absurd (h.alone hx hrun hy hrun') hk
    · rcases put_cases hy with ⟨-, rfl⟩ | ⟨-, hy⟩
      · cases hwait
      · exact h.waiting k y hy hwait
  · exact h.settled fun k y hk hy hrun' => absurd (h.alone hx hrun hy hrun') hk

theorem Sound.use (h : Sound aes key first s) {o : Operation} {r : Except StoreError Answer}
    (hs : s.use t o = some (r, s')) : Sound aes key first s' := by
  unfold System.use at hs
  split at hs
  · cases hs
  next y hy =>
    split at hs
    · cases hs
    next hrun =>
      cases hs
      obtain ⟨hlock, hrecords⟩ := h.running t y hy hrun
      refine ⟨h.view, fun k z hz hrun' => ?_, fun k z hz hwait => ?_⟩
      · rcases put_cases hz with ⟨rfl, rfl⟩ | ⟨hk, hz⟩
        · refine ⟨hlock, ?_⟩
          dsimp only
          rw [get_apply, hrecords, ← List.append_assoc, ideal_append _ (_ ++ _)]
          rfl
        · exact h.running k z hz hrun'
      · rcases put_cases hz with ⟨-, rfl⟩ | ⟨-, hz⟩
        · rw [hrun] at hwait
          cases hwait
        · exact h.waiting k z hz hwait
    · cases hs
      exact h

theorem Sound.kill (h : Sound aes key first s) {i : ℕ} (hs : step aes key s (.kill i) = some s') :
    Sound aes key first s' := by
  have hold : ∀ k y, s'.transactions k = some y → y.phase ≠ .ended →
      s.transactions k = some y ∧ y.store ≠ i := by
    cases hs
    intro k y hy hphase
    obtain ⟨z, hz, hzy⟩ := Option.map_eq_some_iff.1 hy
    split_ifs at hzy with hi
    · exact absurd (congrArg Transaction.phase hzy).symm hphase
    · subst hzy
      exact ⟨hz, hi⟩
  have hwriter : s'.writer =
      s.writer.filter fun t => !(s.transactions t).any fun x => x.store = i := by
    cases hs
    rfl
  have hview : s'.row = s.row ∧ s'.log = s.log := by
    cases hs
    exact ⟨rfl, rfl⟩
  refine ⟨?_, fun k y hy hrun => ?_, fun k y hy hwait => ?_⟩
  · rw [hview.1, hview.2]
    exact h.view
  · obtain ⟨hy', hi⟩ := hold k y hy (by rw [hrun]; exact fun he => by cases he)
    obtain ⟨hlock, hrecords⟩ := h.running k y hy' hrun
    rw [hwriter, hview.2, hlock]
    refine ⟨?_, hrecords⟩
    simp [hy', hi]
  · exact h.waiting k y (hold k y hy (by rw [hwait]; exact fun he => by cases he)).1 hwait

/-- **Every step keeps the invariant.** -/
theorem Sound.step (haes : aes.Correct) (h : Sound aes key first s) {a : Action}
    (hs : step aes key s a = some s') : Sound aes key first s' := by
  have hstores : ∀ f, Sound aes key first { s with stores := f } := fun f =>
    ⟨h.view, h.running, h.waiting⟩
  cases a with
  | openStore i permitted =>
    unfold EncryptedStore.step at hs
    dsimp only at hs
    split at hs
    · split_ifs at hs <;> cases hs
      · exact hstores _
      · exact h
    · cases hs
      exact h
    · cases hs
  | transaction i t inside =>
    unfold EncryptedStore.step at hs
    dsimp only at hs
    split at hs
    next st _ _ =>
      split_ifs at hs <;> cases hs
      · exact h
      · refine ⟨h.view, fun k y hy hrun => ?_, fun k y hy hwait => ?_⟩
        · rcases put_cases hy with ⟨-, rfl⟩ | ⟨-, hy⟩
          · cases hrun
          · exact h.running k y hy hrun
        · rcases put_cases hy with ⟨-, rfl⟩ | ⟨-, hy⟩
          · rfl
          · exact h.waiting k y hy hwait
    · cases hs
  | start t permitted =>
    unfold EncryptedStore.step at hs
    dsimp only at hs
    split at hs
    next x hx =>
      split_ifs at hs with hwait
      cases hs
      exact h.start hx hwait.1 permitted
    · cases hs
  | use t o =>
    obtain ⟨⟨r, s₁⟩, hu, hs⟩ := Option.map_eq_some_iff.1 hs
    cases hs
    exact h.use hu
  | settle t returned nonce permitted =>
    unfold EncryptedStore.step at hs
    dsimp only at hs
    split at hs
    next x hx =>
      split_ifs at hs with hrun
      cases hs
      exact h.settle haes hx hrun returned nonce permitted
    · cases hs
  | close i inside =>
    unfold EncryptedStore.step at hs
    dsimp only at hs
    split at hs
    · split_ifs at hs <;> cases hs
      · exact h
      · exact hstores _
    · cases hs
  | kill i => exact h.kill hs

end

end EncryptedStore

end Echolet
