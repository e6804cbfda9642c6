/-
  The size of what a message becomes on its way to the relay.

  * `messagePayload` and `envelopeCiphertext` are the texts around libsignal; the ciphertext fits
    exactly where the escapes of the plaintext do (`ciphertext_fits_iff`);
  * `Fit` is what the client and the relay ask of the size of an envelope, `Fit.transmittable`
    that nothing on the way refuses it for its size;
  * `Sized` is the invariant of a profile: what the Signal client keeps is bounded, and every
    record of the outbox is fit.
-/
import Echolet.Lib.JsText
import Echolet.Client.Outbound
import Echolet.Relay.MailboxHandler
import Echolet.Relay.Transcripts

namespace Echolet

/-! ## Base64 -/

theorem length_encodeRawURL (bytes : List ℕ) :
    (encodeRawURL bytes).length = (4 * bytes.length + 2) / 3 := by
  induction bytes using encodeRawURL.induct with
  | case1 => rfl
  | case2 x => simp [encodeRawURL]
  | case3 x y => simp [encodeRawURL]
  | case4 x y z t ih =>
    simp only [encodeRawURL, List.length_cons, ih]
    omega

theorem verbatim_base64Char (n : ℕ) : Verbatim (base64Char n) := by
  by_cases h : n < 64
  · have hall : ∀ n < 64, Verbatim (base64Char n) := by decide +kernel
    exact hall n h
  · have hl : base64Alphabet.length = 64 := rfl
    rw [base64Char, List.getD_eq_getElem?_getD, List.getElem?_eq_none (by omega)]
    decide

theorem verbatim_encodeRawURL (bytes : List ℕ) : ∀ c ∈ encodeRawURL bytes, Verbatim c := by
  induction bytes using encodeRawURL.induct with
  | case1 => simp [encodeRawURL]
  | case2 x => simp [encodeRawURL, verbatim_base64Char]
  | case3 x y => simp [encodeRawURL, verbatim_base64Char]
  | case4 x y z t ih => simpa [encodeRawURL, verbatim_base64Char] using ih

theorem utf8Length_verbatim {t : Text} (h : ∀ c ∈ t, Verbatim c) : utf8Length t = t.length := by
  induction t with
  | nil => rfl
  | cons c t ih =>
    rw [utf8Length_cons, utf8Size_of_ascii (h c List.mem_cons_self).2.1,
      ih fun d hd => h d (List.mem_cons_of_mem _ hd), List.length_cons, Nat.add_comm]

theorem length_utf8Bytes (t : Text) : (utf8Bytes t).length = utf8Length t := by
  induction t with
  | nil => rfl
  | cons c t ih =>
    rw [utf8Bytes, List.flatMap_cons, List.length_append, List.length_map,
      String.length_utf8EncodeChar, utf8Length_cons]
    exact congrArg _ ih

/-! ## The texts around libsignal -/

/-- The payload `encrypt` gives to libsignal. -/
def messagePayload (messageId body : Text) : Bytes :=
  (utf8Bytes (flatText [("messageId".toList, .str messageId), ("body".toList, .str body)])).map
    Nat.toUInt8

/-- The ciphertext of an envelope around what libsignal made. -/
def envelopeCiphertext (type : ℕ) (body : Bytes) : Text :=
  encodeRawURL (utf8Bytes (flatText [("version".toList, .int 1), ("type".toList, .int type),
    ("body".toList, .str (encodeRawURL (body.map UInt8.toNat)))]))

theorem forall_of_matchesAll {Q : Char → Prop} : ∀ {ps : List (Char → Bool)} {t : Text},
    (∀ p ∈ ps, ∀ c, p c = true → Q c) → matchesAll ps t = true → ∀ c ∈ t, Q c
  | [], [], _, _, c, hc => by cases hc
  | p :: ps, d :: t, hp, h, c, hc => by
    simp only [matchesAll, Bool.and_eq_true] at h
    rcases List.mem_cons.1 hc with rfl | hc
    · exact hp p List.mem_cons_self c h.1
    · exact forall_of_matchesAll (fun q hq => hp q (List.mem_cons_of_mem p hq)) h.2 c hc

theorem verbatim_of_range {c : Char} (h : 0x23 ≤ c.toNat) (h' : c.toNat < 0x5c ∨ 0x5d ≤ c.toNat)
    (h'' : c.toNat < 0x80) : Verbatim c := by
  refine ⟨by omega, h'', ?_, ?_⟩
  · rintro rfl
    exact absurd h (by decide)
  · rintro rfl
    exact absurd h' (by decide)

theorem forall_verbatim {t : Text} (h : t.all (fun c => decide (Verbatim c)) = true) :
    ∀ c ∈ t, Verbatim c := fun c hc => of_decide_eq_true (List.all_eq_true.1 h c hc)

theorem verbatim_of_uuid {t : Text} (h : clientMailboxUUID t = true) : ∀ c ∈ t, Verbatim c := by
  have hrange : ∀ {a b c : Char}, 0x23 ≤ a.toNat → (b.toNat < 0x5c ∨ 0x5d ≤ a.toNat) →
      b.toNat < 0x80 → a ≤ c → c ≤ b → Verbatim c := by
    intro a b c ha hab hb hac hcb
    have hlow : a.toNat ≤ c.toNat := hac
    have hhigh : c.toNat ≤ b.toNat := hcb
    exact verbatim_of_range (by omega) (by omega) (by omega)
  have hhex : ∀ c, isHex c = true → Verbatim c := by
    intro c hc
    rcases of_decide_eq_true hc with ⟨hlow, hhigh⟩ | ⟨hlow, hhigh⟩ | ⟨hlow, hhigh⟩
    all_goals exact hrange (by decide) (by decide) (by decide) hlow hhigh
  have hdash : ∀ p ∈ [fun c : Char => decide (c = '-')], ∀ c, p c = true → Verbatim c := by
    rw [List.forall_mem_singleton]
    intro c hc
    rw [of_decide_eq_true hc]
    decide
  have hversion : ∀ p ∈ [fun c : Char => decide ('1' ≤ c ∧ c ≤ '8')], ∀ c,
      p c = true → Verbatim c := by
    rw [List.forall_mem_singleton]
    intro c hc
    obtain ⟨hlow, hhigh⟩ := of_decide_eq_true hc
    exact hrange (by decide) (by decide) (by decide) hlow hhigh
  have hvariant : ∀ p ∈ [fun c : Char => decide (c ∈ ['8', '9', 'a', 'b', 'A', 'B'])], ∀ c,
      p c = true → Verbatim c := by
    rw [List.forall_mem_singleton]
    intro c hc
    exact forall_verbatim (by decide) c (of_decide_eq_true hc)
  have hdigits : ∀ n, ∀ p ∈ List.replicate n isHex, ∀ c, p c = true → Verbatim c := by
    intro n p hp
    rw [List.eq_of_mem_replicate hp]
    exact hhex
  have hgroups : ∀ p ∈ uuidGroups, ∀ c : Char, p c = true → Verbatim c := by
    simp only [uuidGroups, List.forall_mem_append]
    exact ⟨⟨⟨⟨⟨⟨⟨⟨⟨⟨hdigits 8, hdash⟩, hdigits 4⟩, hdash⟩, hversion⟩, hdigits 3⟩, hdash⟩, hvariant⟩,
      hdigits 3⟩, hdash⟩, hdigits 12⟩
  simp only [clientMailboxUUID, Bool.or_eq_true, decide_eq_true_eq] at h
  rcases h with h | rfl
  · exact forall_of_matchesAll hgroups h
  · exact forall_verbatim (by decide)

theorem length_messagePayload {messageId body : Text} (h : clientMailboxUUID messageId = true) :
    (messagePayload messageId body).length = 62 + escapedBytes body := by
  have hk : escapedBytes "messageId".toList = 9 ∧ escapedBytes "body".toList = 4 := by
    decide
  have hid : escapedBytes messageId = 36 :=
    (escapedBytes_verbatim (verbatim_of_uuid h)).trans (length_uuid h)
  rw [messagePayload, List.length_map, length_utf8Bytes, utf8Length_flatText (List.cons_ne_nil _ _)]
  simp only [List.map_cons, List.map_nil, List.sum_cons, List.sum_nil, memberBytes, scalarText,
    utf8Length_quoteText, hk, hid]
  omega

/-- Two layers of base64 around a body. -/
theorem utf8Length_envelopeCiphertext {type : ℕ} (ht : type = 2 ∨ type = 3) (body : Bytes) :
    utf8Length (envelopeCiphertext type body) =
      (4 * (32 + (4 * body.length + 2) / 3) + 2) / 3 := by
  have hk : escapedBytes "version".toList = 7 ∧ escapedBytes "type".toList = 4 ∧
      escapedBytes "body".toList = 4 := by decide
  have hone : utf8Length (Json.render (.int 1)) = 1 := by decide
  have htype : utf8Length (Json.render (.int type)) = 1 := by
    rcases ht with rfl | rfl <;> decide
  rw [envelopeCiphertext, utf8Length_verbatim (verbatim_encodeRawURL _), length_encodeRawURL,
    length_utf8Bytes, utf8Length_flatText (List.cons_ne_nil _ _)]
  simp only [List.map_cons, List.map_nil, List.sum_cons, List.sum_nil, memberBytes, scalarText,
    utf8Length_quoteText, hk, hone, htype, escapedBytes_verbatim (verbatim_encodeRawURL _),
    length_encodeRawURL, List.length_map]
  omega

/-- The bytes of escapes that fit. -/
def maxEscapedBytes : ℕ := 143274

/-- **The ciphertext fits where the escapes do**, whatever libsignal adds up to 4096 bytes. -/
theorem ciphertext_fits_iff {messageId body : Text} (h : clientMailboxUUID messageId = true) :
    (∀ (type : ℕ) (bytes : Bytes), type = 2 ∨ type = 3 →
      bytes.length ≤ (messagePayload messageId body).length + 4096 →
      (utf8Length (envelopeCiphertext type bytes) : ℤ) ≤ maxMessageBytes) ↔
    escapedBytes body ≤ maxEscapedBytes := by
  rw [length_messagePayload h, maxMessageBytes, maxEscapedBytes]
  constructor
  · intro hfit
    have hlong := hfit 2 (List.replicate (62 + escapedBytes body + 4096) 0) (Or.inl rfl)
      (by rw [List.length_replicate])
    rw [utf8Length_envelopeCiphertext (Or.inl rfl), List.length_replicate] at hlong
    omega
  · intro hesc type bytes ht hlen
    rw [utf8Length_envelopeCiphertext ht]
    omega

/-! ## An envelope on its way -/

/-- The check of the client's transport. -/
def oversizedEnvelope (e : MailboxEnvelope) : Prop :=
  (utf8Length e.ciphertext : ℤ) > maxMessageBytes ∨ e.sizeBytes > maxMessageBytes

/-- The body of a request to send an envelope. -/
def sendRequest (e : MailboxEnvelope) : Text :=
  '{' :: quoteText "envelope".toList ++ ':' :: flatText e.members ++ ['}']

def envelopeJSONOverheadBytes : ℤ := 65536

/-- `envelopeBodyLimit` at the default maximum. -/
def envelopeBodyLimit : ℤ := maxMessageBytes + envelopeJSONOverheadBytes

/-- Nothing on the way refuses an envelope for its size: neither the client's transport, nor the
    relay's bounds on the message, nor, with identifiers the relay takes, its bound on the body. -/
structure Transmittable (e : MailboxEnvelope) : Prop where
  transport : ¬ oversizedEnvelope e
  relay : ∀ err, validateMailboxEnvelope e maxMessageBytes = .error err →
    err.code ≠ "PAYLOAD_TOO_LARGE"
  body : (∀ i ∈ mailboxEnvelopeIdentifiers e, utf8Length i.2 ≤ maxIdentifierBytes) →
    (utf8Length (sendRequest e) : ℤ) ≤ envelopeBodyLimit

/-- An envelope as `send` builds it, with a ciphertext that is not too long. -/
structure Fit (e : MailboxEnvelope) : Prop where
  type : e.type = "mailbox_envelope".toList
  version : e.version = 1
  encoded : ∀ c ∈ e.ciphertext, Verbatim c
  bounded : (utf8Length e.ciphertext : ℤ) ≤ maxMessageBytes
  size : e.sizeBytes = utf8Length e.ciphertext
  created : 0 ≤ e.createdAtMs ∧ safeInteger e.createdAtMs = true
  expires : e.expiresAtMs = e.createdAtMs + envelopeLifetimeMs
  signature : utf16Length e.senderSignature ≤ 256

theorem length_le_utf16Length (t : Text) : t.length ≤ utf16Length t := by
  induction t with
  | nil => exact Nat.zero_le _
  | cons c t ih =>
    simp only [utf16Length, List.map_cons, List.sum_cons, List.length_cons] at ih ⊢
    split_ifs <;> omega

theorem escapedBytes_short {t : Text} (h : utf16Length t ≤ 256) : escapedBytes t ≤ 1536 := by
  have hlen := length_le_utf16Length t
  have hesc := escapedBytes_le t
  omega

/-- A number of at most sixteen digits. -/
theorem utf8Length_render_int {n : ℤ} (h : 0 ≤ n) (hn : n < 10 ^ 16) :
    utf8Length (Json.render (.int n)) ≤ 16 := by
  obtain ⟨k, rfl⟩ := Int.eq_ofNat_of_zero_le h
  change utf8Length (decimal k) ≤ 16
  rw [utf8Length_digits fun c hc => isDigit_of_mem_decimal hc]
  exact decimal_length_le (by decide) (by omega)

/-- The names of the members of an envelope. -/
theorem escapedBytes_names : ["type", "version", "envelope_id", "message_id", "sender_identity_id",
    "sender_device_id", "recipient_identity_id", "recipient_device_id", "recipient_mailbox_id",
    "payload_type", "ciphertext", "created_at_ms", "expires_at_ms", "size_bytes",
    "sender_signature", "envelope"].map (fun k => escapedBytes k.toList) =
      [4, 7, 11, 10, 18, 16, 21, 19, 20, 12, 10, 13, 13, 10, 16, 8] := by decide

theorem Fit.body {e : MailboxEnvelope} (h : Fit e)
    (hshort : ∀ i ∈ mailboxEnvelopeIdentifiers e, utf8Length i.2 ≤ maxIdentifierBytes) :
    (utf8Length (sendRequest e) : ℤ) ≤ envelopeBodyLimit := by
  have hnames := escapedBytes_names
  simp only [List.map_cons, List.map_nil, List.cons.injEq, and_true] at hnames
  obtain ⟨n1, n2, n3, n4, n5, n6, n7, n8, n9, n10, n11, n12, n13, n14, n15, n16⟩ := hnames
  simp only [mailboxEnvelopeIdentifiers, List.forall_mem_cons] at hshort
  obtain ⟨h1, h2, h3, h4, h5, h6, h7, h8, -⟩ := hshort
  have hid : ∀ {t : Text}, utf8Length t ≤ maxIdentifierBytes → escapedBytes t ≤ 1536 :=
    fun h => escapedBytes_short ((utf16Length_le _).trans h)
  have hcipher : escapedBytes e.ciphertext = utf8Length e.ciphertext :=
    (escapedBytes_verbatim h.encoded).trans (utf8Length_verbatim h.encoded).symm
  have hsig := escapedBytes_short h.signature
  have htype : escapedBytes e.type = 16 := by rw [h.type]; decide
  have hversion : utf8Length (Json.render (.int e.version)) = 1 := by rw [h.version]; decide
  have hsafe : e.createdAtMs ≤ 9007199254740991 := (of_decide_eq_true h.created.2).2
  have hmax : (utf8Length e.ciphertext : ℤ) ≤ 262144 := h.bounded
  have hcreated := utf8Length_render_int h.created.1 (by omega)
  have hexpires : utf8Length (Json.render (.int e.expiresAtMs)) ≤ 16 := by
    have hc := h.created.1
    rw [h.expires, envelopeLifetimeMs]
    exact utf8Length_render_int (by omega) (by omega)
  have hsize : utf8Length (Json.render (.int e.sizeBytes)) ≤ 16 := by
    rw [h.size]
    exact utf8Length_render_int (Int.natCast_nonneg _) (by omega)
  have hbody : utf8Length (sendRequest e) = 13 + utf8Length (flatText e.members) := by
    rw [sendRequest, List.cons_append, List.cons_append, utf8Length_cons, utf8Length_append,
      utf8Length_append, utf8Length_cons, utf8Length_quoteText, n16]
    change 1 + (2 + 8 + (1 + _) + 1) = _
    omega
  have hmembers : utf8Length (flatText e.members) ≤ 262144 + 16384 := by
    have hne : e.members ≠ [] := List.cons_ne_nil _ _
    rw [utf8Length_flatText hne, MailboxEnvelope.members, List.map_append, List.sum_append]
    simp only [List.map_cons, List.map_nil, List.sum_cons, List.sum_nil, memberBytes, scalarText,
      utf8Length_quoteText, n1, n2, n3, n4, n5, n6, n7, n8, n9, n10, n11, n12, n13, n14, htype,
      hversion, hcipher]
    have hsigs : ((if e.senderSignature = [] then [] else
        [("sender_signature".toList, Json.str e.senderSignature)]).map memberBytes).sum ≤ 1558 := by
      split_ifs
      · exact Nat.zero_le _
      · simp only [List.map_cons, List.map_nil, List.sum_cons, List.sum_nil, memberBytes,
          scalarText, utf8Length_quoteText, n15]
        omega
    have := hid h1
    have := hid h2
    have := hid h3
    have := hid h4
    have := hid h5
    have := hid h6
    have := hid h7
    have := hid h8
    omega
  rw [hbody, envelopeBodyLimit, envelopeJSONOverheadBytes, maxMessageBytes]
  omega

theorem Fit.transmittable {e : MailboxEnvelope} (h : Fit e) : Transmittable e := by
  have hbound := h.bounded
  refine ⟨?_, ?_, h.body⟩
  · rintro (hlong | hlong)
    · exact absurd hlong (not_lt.2 hbound)
    · rw [h.size] at hlong
      exact absurd hlong (not_lt.2 hbound)
  · have hrules : ∀ r ∈ mailboxEnvelopeRules e maxMessageBytes,
        r.2.code = "PAYLOAD_TOO_LARGE" → r.1 = true := by
      simp only [mailboxEnvelopeRules, List.forall_mem_append, List.forall_mem_cons,
        List.forall_mem_map, List.not_mem_nil, false_imp_iff, implies_true, and_true]
      refine ⟨⟨⟨⟨fun h => ?_, fun h => ?_⟩, fun i _ h => ?_⟩, fun i _ h => ?_⟩, fun h => ?_, fun h => ?_,
        fun _ => decide_eq_true hbound, fun _ => decide_eq_true (h.size ▸ hbound), fun h => ?_,
        fun h => ?_⟩
      all_goals exact absurd h (by decide)
    intro err herr hcode
    unfold validateMailboxEnvelope at herr
    split at herr
    next r hr =>
      cases herr
      have hfalse := List.find?_some hr
      rw [hrules r (List.mem_of_find?_eq_some hr) hcode] at hfalse
      cases hfalse
    next => cases herr

/-! ## A profile -/

/-- What the source puts around libsignal, and what is known of a ciphertext: its type, and that
    it is at most 4096 bytes longer than its payload. -/
structure Wire (rt : Runtime) : Prop where
  payload : rt.enc.payload = messagePayload
  wrap : rt.enc.wrap = envelopeCiphertext
  overhead : ∀ payload remote entropy σ message σ',
    SignalClient.records (rt.lib.encrypt payload remote entropy) σ = (.ok message, σ') →
    (message.1 = 2 ∨ message.1 = 3) ∧ message.2.length ≤ payload.length + 4096

/-- The Signal client keeps messages whose ciphertext fits, and the outbox fit envelopes. -/
structure Sized (s : ClientStore) : Prop where
  signal : ∀ {key m}, s.signal.outbox.get key = some m →
    (m.type = 2 ∨ m.type = 3) ∧ (utf8Length (envelopeCiphertext m.type m.body) : ℤ) ≤ maxMessageBytes
  outbox : ∀ {id r}, s.outbox.get id = some r → Fit r.envelope

/-- What is committed has escapes that fit. -/
def CommitsWithin : ClientCall → Surroundings → Ledger → Prop
  | .commitMessage input _ _ _, _, _ => escapedBytes input.plaintext ≤ maxEscapedBytes
  | _, _, _ => True

instance (c : ClientCall) (v : Surroundings) (w : Ledger) : Decidable (CommitsWithin c v w) := by
  cases c <;> (unfold CommitsWithin; infer_instance)

variable {rt : Runtime} {dev : Device} {record : DeviceRecord} {v : Circumstances}
  {s s' s₀ : ClientStore} {input : SendInput} {contact : ContactIdentifiers} {address : Text}
  {verified : Option VerifiedBundle}

/-- What a commit encrypted, now or before, fits, and the Signal client keeps it. -/
theorem Committed.message_fits (hw : Wire rt) (h : Sized s)
    (hin : escapedBytes input.plaintext ≤ maxEscapedBytes)
    (c : Committed rt dev v input contact address verified s s') :
    ((c.message.type = 2 ∨ c.message.type = 3) ∧
      (utf8Length (envelopeCiphertext c.message.type c.message.body) : ℤ) ≤ maxMessageBytes) ∧
    ∀ {key m}, c.signal.outbox.get key = some m → (m.type = 2 ∨ m.type = 3) ∧
      (utf8Length (envelopeCiphertext m.type m.body) : ℤ) ≤ maxMessageBytes := by
  have hestablished : c.established.outbox = s.signal.outbox := by
    rcases c.session with ⟨-, he⟩ | ⟨b, -, he⟩
    · rw [he]
    · obtain ⟨-, -, hrec⟩ := SignalClient.establish_ok he
      exact (SignalClient.records_kept hrec).outbox
  have hkept : ∀ {key m}, c.established.outbox.get key = some m → (m.type = 2 ∨ m.type = 3) ∧
      (utf8Length (envelopeCiphertext m.type m.body) : ℤ) ≤ maxMessageBytes := by
    intro key m hm
    rw [hestablished] at hm
    exact h.signal hm
  rcases SignalClient.encrypt_ok c.encrypted with ⟨hprior, hs⟩ | ⟨-, message, store, hrec, hm, hs⟩
  · rw [hs]
    exact ⟨hkept hprior, hkept⟩
  · have hid : clientMailboxUUID input.messageId = true := (of_decide_eq_true c.valid).2.2.2.1
    obtain ⟨htype, hlen⟩ := hw.overhead _ _ _ _ _ _ hrec
    rw [hw.payload] at hlen
    have hfits : (c.message.type = 2 ∨ c.message.type = 3) ∧
        (utf8Length (envelopeCiphertext c.message.type c.message.body) : ℤ) ≤ maxMessageBytes := by
      rw [hm]
      exact ⟨htype, (ciphertext_fits_iff hid).2 hin _ _ htype hlen⟩
    refine ⟨hfits, fun {key m} hget => ?_⟩
    rw [hs] at hget
    change (store.outbox.insert _ _).get key = some m at hget
    rw [SortedMap.get_insert, (SignalClient.records_kept hrec).outbox] at hget
    split_ifs at hget
    · cases hget
      exact hfits
    · exact hkept hget

theorem Committed.fit (hw : Wire rt) (h : Sized s)
    (hin : escapedBytes input.plaintext ≤ maxEscapedBytes)
    (c : Committed rt dev v input contact address verified s s')
    (hs : mailboxEnvelopeSchema c.record.envelope.toJson = true) : Fit c.record.envelope := by
  have hfits := (c.message_fits hw h hin).1.2
  have hvalid := of_decide_eq_true c.valid
  have hcipher : c.record.envelope.ciphertext =
      envelopeCiphertext c.message.type c.message.body := congrFun (congrFun hw.wrap _) _
  refine ⟨rfl, rfl, ?_, ?_, rfl, ⟨hvalid.2.2.2.2.1, hvalid.2.2.2.2.2⟩, rfl, signature_of_schema hs⟩
  · rw [hcipher]
    exact verbatim_encodeRawURL _
  · rw [hcipher]
    exact hfits

/-- What is committed, where the schema of the transport takes it. -/
theorem Committed.commitMessage_eq (c : Committed rt dev v input contact address verified s s')
    (hs : mailboxEnvelopeSchema c.record.envelope.toJson = true) :
    commitMessage rt dev v input contact address verified s = (.ok (c.record, false), s') := by
  have hrest : (do
      let message ← within
        (SignalClient.encrypt rt.lib rt.enc address input.messageId input.plaintext v.entropy)
      let envelope := outboundEnvelope rt dev v contact input.messageId message
      Tx.ensure (mailboxEnvelopeSchema envelope.toJson = true) .other
      let record := ⟨contentHash rt input, envelope, .pending⟩
      Tx.modify fun s => { s with outbox := s.outbox.insert input.messageId record }
      appendHistory contact.identityId input.messageId .outbound input.plaintext v.now
      Tx.modify fun s => { s with claims := s.claims.erase contact.identityId }
      return record : StoreTx Outbox) { s with signal := c.established } = (.ok c.record, s') := by
    simp only [Tx.bind_ok, within_ok, Tx.ensure_ok, Tx.modify_ok, appendHistory_ok, Tx.pure_ok]
    exact ⟨c.message, _, ⟨c.signal, c.encrypted, rfl⟩, (), _, ⟨hs, rfl⟩, (), _, rfl, (), _,
      ⟨c.valid, rfl⟩, (), _, rfl, rfl, c.after.symm⟩
  rw [commitMessage]
  refine Tx.bind_ok.2 ⟨none, s, Tx.read_ok.2 ⟨c.fresh, rfl⟩, Tx.bind_ok.2 ⟨c.record, s', ?_, rfl⟩⟩
  rw [encryptMessage]
  refine Tx.bind_ok.2 ⟨_, s, Tx.read_ok.2 ⟨c.pinned, rfl⟩,
    Tx.bind_ok.2 ⟨(), s, Tx.ensure_ok.2 ⟨rfl, rfl⟩, ?_⟩⟩
  rcases c.session with ⟨rfl, he⟩ | ⟨b, rfl, he⟩
  · rw [he] at hrest
    exact hrest
  · exact Tx.bind_ok.2 ⟨(), _, within_ok.2 ⟨_, he, rfl⟩, hrest⟩

/-- What a call but a commit may do to what is kept. -/
theorem Sized.effect (h : Sized s) {c : ClientCall} (he : Effect rt dev v s c s')
    (hmark : ∀ r, c = .setDelivered r → Fit r.envelope)
    (hc : ∀ input contact address verified, c ≠ .commitMessage input contact address verified) :
    Sized s' := by
  cases he with
  | accepted a =>
    obtain ⟨contact, address, message, -, -, hr, -, rfl⟩ := a
    cases hr with
    | before _ => exact ⟨h.signal, h.outbox⟩
    | now _ _ r =>
      obtain ⟨plaintext, signal, d, -, rfl⟩ := r
      refine ⟨fun {key m} hm => ?_, h.outbox⟩
      have hkept : s.signal.outbox.get key = some m := by
        rw [← d.outbox]
        exact hm
      exact h.signal hkept
  | committed m => exact absurd rfl (hc _ _ _ _)
  | @delivered record =>
    refine ⟨h.signal, fun {id r} hr => ?_⟩
    change (s.outbox.insert _ _).get id = some r at hr
    rw [SortedMap.get_insert] at hr
    split_ifs at hr
    · cases hr
      exact hmark record rfl
    · exact h.outbox hr
  | published _ p =>
    obtain ⟨_, _, _, rfl⟩ := p
    exact ⟨h.signal, h.outbox⟩
  | _ => exact ⟨h.signal, h.outbox⟩

/-- **One call.** What is shown of the outbox is fit. -/
theorem Sized.performed (hw : Wire rt) (h : Sized s) {c : ClientCall} {w : Surroundings}
    {r : Except Failure c.Answer} (hp : Performed rt dev record c w s r s')
    (hin : ∀ input contact address verified, c = .commitMessage input contact address verified →
      escapedBytes input.plaintext ≤ maxEscapedBytes) (hmark : ∀ x, c = .setDelivered x → Fit x.envelope) :
    Sized s' ∧ ∀ x, Shown x c r → Fit x.envelope := by
  by_cases hc : ∃ input contact address verified, c = .commitMessage input contact address verified
  · obtain ⟨input, contact, address, verified, rfl⟩ := hc
    have hesc := hin input contact address verified rfl
    cases r with
    | error e =>
      rw [performed_error hp]
      refine ⟨h, ?_⟩
      rintro x ⟨existed, hx⟩
      cases hx
    | ok out =>
      obtain ⟨y, existed⟩ := out
      have hok := attempt_ok hp
      obtain ⟨-, hy, rfl⟩ | ⟨rfl, c, rfl⟩ := commitMessage_ok hok
      · refine ⟨h, ?_⟩
        rintro x ⟨existed', hx⟩
        cases hx
        exact h.outbox hy
      · have hfit := c.fit hw h hesc (commitMessage_schema hok)
        refine ⟨⟨fun {key m} hm => ?_, fun {id r} hr => ?_⟩, ?_⟩
        · rw [c.after] at hm
          exact (c.message_fits hw h hesc).2 hm
        · rw [c.after] at hr
          change (s.outbox.insert input.messageId c.record).get id = some r at hr
          rw [SortedMap.get_insert] at hr
          split_ifs at hr
          · cases hr
            exact hfit
          · exact h.outbox hr
        · rintro x ⟨existed, hx⟩
          cases hx
          exact hfit
  · have hne : ∀ input contact address verified,
        c ≠ .commitMessage input contact address verified :=
      fun input contact address verified he => hc ⟨input, contact, address, verified, he⟩
    refine ⟨h.effect (performed_effect hp) hmark hne, fun x hx => ?_⟩
    cases c with
    | readOutbox id =>
      obtain rfl : r = .ok (some x) := hx
      exact h.outbox (Tx.read_ok.1 (attempt_ok hp)).1
    | commitMessage input contact address verified => exact absurd rfl (hne _ _ _ _)
    | pendingOutbox =>
      obtain ⟨records, rfl, hmem⟩ := hx
      obtain ⟨rfl, -⟩ := Tx.read_ok.1 (attempt_ok hp)
      obtain ⟨⟨id, y⟩, hentry, rfl⟩ := List.mem_map.1 (List.mem_of_mem_filter hmem)
      exact h.outbox (SortedMap.mem_entries.1 hentry)
    | _ => exact hx.elim

/-- Processes that commit what fits. -/
abbrev sizing (rt : Runtime) (dev : Device) (record : DeviceRecord) :
    Contract ClientCall ClientCall.Answer Failure Surroundings Ledger :=
  onLedger rt dev record CommitsWithin (fun w => Sized w.store) (fun _ _ => True) fun _ _ => True

theorem Job.sized (hw : Wire rt) (j : Job) : (sizing rt dev record).Safe (fun _ _ => True)
    (fun _ => True) (j.program rt dev) := by
  have hcall : ∀ c v w r w', (∀ x : Outbox, ¬ Fit x.envelope → ¬ c = .setDelivered x) →
      (sizing rt dev record).inv w → (sizing rt dev record).allowed c v w →
      (sizing rt dev record).exec c v w = some (r, w') →
      ((sizing rt dev record).inv w' ∧ (sizing rt dev record).guar w w') ∧
        ∀ x, ¬ Fit x.envelope → ¬ Shown x c r := by
    intro c v w r w' hneeds hi ha hx
    obtain ⟨s, rfl, hp⟩ := perform_logged rt dev record hx
    have hin : ∀ input contact address verified,
        c = .commitMessage input contact address verified →
        escapedBytes input.plaintext ≤ maxEscapedBytes := by
      rintro input contact address verified rfl
      exact ha
    obtain ⟨hs, hshown⟩ := Sized.performed hw hi hp hin fun x hc => by
      by_contra hbad
      exact hneeds x hbad hc
    exact ⟨⟨hs, trivial⟩, fun x hbad hgive => hbad (hshown x hgive)⟩
  exact Contract.Safe.asks hcall j.asks

theorem ClientStore.Initial.sized (h : s.Initial) : Sized s := by
  refine ⟨fun {key m} hm => ?_, fun {id r} hr => ?_⟩
  · rw [h.signalOutbox] at hm
    cases hm
  · rw [h.outbox] at hr
    cases hr

/-- **What is committed can be transmitted.** A ciphertext fits, whatever libsignal adds up to
    4096 bytes, exactly where the escapes of its plaintext have at most 143274 bytes; and where
    processes over a profile commit only such plaintexts, nothing on the way refuses a record of
    the outbox for its size. -/
theorem committed_transmittable (rt : Runtime) (dev : Device) (record : DeviceRecord) (hw : Wire rt)
    {s₀ : ClientStore} (h₀ : s₀.Initial) :
    (∀ messageId plaintext : Text, clientMailboxUUID messageId = true →
      ((∀ (type : ℕ) (bytes : Bytes), type = 2 ∨ type = 3 →
        bytes.length ≤ (messagePayload messageId plaintext).length + 4096 →
        (utf8Length (envelopeCiphertext type bytes) : ℤ) ≤ maxMessageBytes) ↔
      escapedBytes plaintext ≤ maxEscapedBytes)) ∧
    ∀ pool, ProfileRun rt dev record CommitsWithin s₀ pool →
      ∀ id r, pool.shared.store.outbox.get id = some r → Transmittable r.envelope := by
  refine ⟨fun _ _ hid => ciphertext_fits_iff hid, fun pool h id r hr => ?_⟩
  obtain ⟨hok, -⟩ := Contract.Ok.run (R := sizing rt dev record) (Q := fun _ _ => True)
    (T := fun _ _ => True) (fun _ _ h => h) (Job.sized hw) (fun _ => trivial)
    (fun _ _ _ _ _ _ _ => trivial) h (.idle h₀.sized)
  exact (hok.inv.outbox hr).transmittable

/-! ## A runtime with these texts -/

def wireRuntime : Runtime :=
  { plainRuntime with
    enc := { plainRuntime.enc with payload := messagePayload, wrap := envelopeCiphertext } }

/-- A session hands on the payload it was given. -/
theorem existingSession_value {α : Type} {address : Text} {a b : α} {σ σ' : SignalStore}
    (h : SignalClient.records (existingSession address a) σ = (.ok b, σ')) : b = a := by
  rw [SignalClient.records, existingSession, callback, Program.run_perform_bind] at h
  cases hs : σ.session.get address with
  | none =>
    simp only [Records.answer, Tx.read, hs] at h
    cases h
  | some session =>
    simp only [Records.answer, Tx.read, hs, trustedSession, callback,
      Program.run_perform_bind] at h
    split_ifs at h
    · rw [Program.run_perform_bind] at h
      cases h
      rfl
    · cases h

theorem wireRuntime_wire : Wire wireRuntime := by
  refine ⟨rfl, rfl, fun payload remote entropy σ message σ' h => ?_⟩
  rw [existingSession_value h]
  exact ⟨Or.inl rfl, Nat.le_add_right _ _⟩

/-- A first message is sent, and its record can be transmitted. -/
theorem committed_transmittable_first : ∃ pool,
    ProfileRun wireRuntime plainDevice plainRecord CommitsWithin emptyStore pool ∧
    ∃ r, pool.shared.store.outbox.get nilUUID = some r ∧ Transmittable r.envelope := by
  let o := replay (Pool.step (Ledger.perform wireRuntime plainDevice plainRecord)
    (Job.program wireRuntime plainDevice)) (Pool.Meets CommitsWithin)
    (firstImport 0 ++ firstPublish 0 ++ firstSend 0 (plainInput ['h']))
    (⟨⟨emptyStore, []⟩, fun _ => none⟩ : ProfilePool)
  have ho : o.elim false (fun pool => (pool.shared.store.outbox.get nilUUID).isSome) = true := by
    decide +kernel
  obtain ⟨pool, hpool⟩ : ∃ pool, o = some pool := by
    cases h : o with
    | none => rw [h] at ho; cases ho
    | some pool => exact ⟨pool, rfl⟩
  have hrun := Run.of_replay hpool
  rw [hpool, Option.elim_some] at ho
  obtain ⟨r, hr⟩ := Option.isSome_iff_exists.1 ho
  exact ⟨pool, hrun, r, hr, (committed_transmittable wireRuntime plainDevice plainRecord
    wireRuntime_wire emptyStore_initial).2 pool hrun nilUUID r hr⟩

/-- What the library makes of a payload with the one session there is. -/
theorem plain_encrypted (payload : Bytes) (entropy : ℕ) : SignalClient.records
    (wireRuntime.lib.encrypt payload plainAddress entropy) plainStore.signal =
      (.ok (2, payload), { plainStore.signal with
        session := plainStore.signal.session.insert plainAddress (bytesOf ['k']) }) := by
  have hs : plainStore.signal.session.get plainAddress = some (bytesOf ['k']) := by decide +kernel
  have ht : plainStore.signal.isTrusted plainAddress (textOf (bytesOf ['k'])) = true := by
    decide +kernel
  change (existingSession plainAddress (2, payload)).run Records.answer plainStore.signal = _
  simp only [existingSession, callback, trustedSession, Program.run_perform_bind, Records.answer,
    Tx.read, hs, ht, if_true, Tx.modify]
  rfl
/-- A message to the one contact there is is committed. -/
theorem plain_committed {t : Text} (ht : utf8Length t ≤ 65536) : ∃ s',
    ∃ c : Committed wireRuntime plainDevice ⟨5, nilUUID, 0⟩ (plainInput t) plainContact plainAddress
      none plainStore s', c.message.type = 2 ∧ c.message.body = messagePayload nilUUID t := by
  have hid : nilUUID ≠ [] ∧ utf16Length nilUUID ≤ 256 := by decide
  have htrust : plainStore.signal.trust.get plainAddress ≠ none := by decide +kernel
  have hencrypt : ∃ σ, SignalClient.encrypt wireRuntime.lib wireRuntime.enc plainAddress nilUUID t 0
      plainStore.signal = (.ok ⟨nilUUID, 2, messagePayload nilUUID t,
        textOf (messagePayload nilUUID t)⟩, σ) := by
    rw [SignalClient.encrypt]
    exact ⟨_, Tx.bind_ok.2 ⟨(), _, Tx.ensure_ok.2 ⟨hid, rfl⟩, Tx.bind_ok.2 ⟨(), _,
      Tx.ensure_ok.2 ⟨ht, rfl⟩, Tx.bind_ok.2 ⟨_, _, Tx.read_ok.2 ⟨rfl, rfl⟩,
      Tx.bind_ok.2 ⟨(), _, Tx.ensure_ok.2 ⟨htrust, rfl⟩, Tx.bind_ok.2 ⟨none, _,
      Tx.read_ok.2 ⟨rfl, rfl⟩, Tx.bind_ok.2 ⟨_, _, plain_encrypted _ _, rfl⟩⟩⟩⟩⟩⟩⟩
  obtain ⟨σ, hσ⟩ := hencrypt
  have hpinned : plainStore.contacts.get plainContact.identityId = some plainContact := by
    decide +kernel
  have hvalid : HistoryEntry.valid ⟨nextSequence plainStore, plainContact.identityId, nilUUID,
      .outbound, t, 5⟩ = true := by
    have hempty : HistoryEntry.valid ⟨nextSequence plainStore, plainContact.identityId, nilUUID,
        .outbound, [], 5⟩ = true := by decide
    exact hempty
  exact ⟨_, ⟨plainStore.signal, _, σ, rfl, hpinned, Or.inl ⟨rfl, rfl⟩, hσ, hvalid, rfl⟩, rfl, rfl⟩

theorem plain_schema {ciphertext : Text} {size : ℤ} :
    mailboxEnvelopeSchema { outboundEnvelope wireRuntime plainDevice ⟨5, nilUUID, 0⟩ plainContact
      nilUUID ⟨nilUUID, 2, [], []⟩ with
        ciphertext := ciphertext, sizeBytes := size }.toJson = true := by
  refine Json.strictObject_of_along (by decide) ?_
  rw [MailboxEnvelope.members]
  simp only [List.cons_append, List.nil_append]
  have hid : isUUID (.str nilUUID) = true := by decide
  have hsig : isBounded 1 256 (.str ['s']) = true := by decide
  exact .cons (by decide) (.cons (by decide) (.cons hid (.cons hid (.cons rfl
    (.cons hid (.cons rfl (.cons hid (.cons rfl (.cons (by decide) (.cons rfl (.cons rfl
    (.cons rfl (.cons rfl (.cons hsig .nil))))))))))))))

/-- A text of control characters, of the most bytes a message may have. -/
def controls : Text := List.replicate 65536 '\x01'

theorem escapedBytes_controls : escapedBytes controls = 393216 := by
  rw [escapedBytes, controls, List.map_replicate, List.sum_replicate]
  rfl

theorem utf8Length_controls : utf8Length controls = 65536 := by
  rw [utf8Length, controls, List.map_replicate, List.sum_replicate]
  rfl

/-- **A message may be committed that cannot be transmitted**: the escapes of its control
    characters take six bytes each. -/
theorem controls_not_transmittable : ¬ ∀ (rt : Runtime) (dev : Device) (v : Circumstances)
    (input : SendInput) (contact : ContactIdentifiers) (address : Text)
    (verified : Option VerifiedBundle) (s s' : ClientStore) (r : Outbox), Wire rt →
    input.valid = true →
    commitMessage rt dev v input contact address verified s = (.ok (r, false), s') →
    ¬ oversizedEnvelope r.envelope := by
  intro hall
  have hvalid : (plainInput controls).valid = true := by
    have hid : plainId 'E' ≠ [] ∧ clientMailboxUUID nilUUID = true := by decide
    have hlen := utf16Length_le controls
    rw [utf8Length_controls] at hlen
    exact decide_eq_true ⟨hid.1, hid.2, hlen, utf8Length_controls.le⟩
  obtain ⟨s', c, htype, hbody⟩ := plain_committed utf8Length_controls.le
  have hcipher : c.record.envelope.ciphertext =
      envelopeCiphertext c.message.type c.message.body := rfl
  have hschema : mailboxEnvelopeSchema c.record.envelope.toJson = true := plain_schema
  refine hall _ _ _ _ _ _ _ _ _ _ wireRuntime_wire hvalid (c.commitMessage_eq hschema) (Or.inl ?_)
  rw [hcipher, htype, hbody, utf8Length_envelopeCiphertext (Or.inl rfl),
    length_messagePayload (by decide), escapedBytes_controls]
  decide

end Echolet
