/-
  Mailbox envelopes: the record, its stored encoding, the relay's validation and the
  schema under which the client parses a poll response.

  * `MailboxEnvelope.marshal` is the byte string the relay stores and sends back;
  * `validateMailboxEnvelope` is the shape check of the send route, `Valid` what it
    accepts (`validate_ok_iff`);
  * `mailboxEnvelopeSchema` is the client's strict schema: an accepted envelope passes it
    exactly when its sender signature is short enough (`schema_iff`), a bound the send
    route checks beside the validation.
-/
import Echolet.Lib.Json

namespace Echolet

structure MailboxEnvelope where
  type : Text
  version : ℤ
  envelopeId : Text
  messageId : Text
  senderIdentityId : Text
  senderDeviceId : Text
  recipientIdentityId : Text
  recipientDeviceId : Text
  recipientMailboxId : Text
  payloadType : Text
  ciphertext : Text
  createdAtMs : ℤ
  expiresAtMs : ℤ
  sizeBytes : ℤ
  senderSignature : Text
  deriving DecidableEq

namespace MailboxEnvelope

/-- The members of the JSON encoding; an empty signature is omitted. -/
def members (e : MailboxEnvelope) : List (Text × Json) :=
  [("type".toList, .str e.type), ("version".toList, .int e.version),
    ("envelope_id".toList, .str e.envelopeId), ("message_id".toList, .str e.messageId),
    ("sender_identity_id".toList, .str e.senderIdentityId),
    ("sender_device_id".toList, .str e.senderDeviceId),
    ("recipient_identity_id".toList, .str e.recipientIdentityId),
    ("recipient_device_id".toList, .str e.recipientDeviceId),
    ("recipient_mailbox_id".toList, .str e.recipientMailboxId),
    ("payload_type".toList, .str e.payloadType), ("ciphertext".toList, .str e.ciphertext),
    ("created_at_ms".toList, .int e.createdAtMs), ("expires_at_ms".toList, .int e.expiresAtMs),
    ("size_bytes".toList, .int e.sizeBytes)] ++
  if e.senderSignature = [] then [] else [("sender_signature".toList, .str e.senderSignature)]

def toJson (e : MailboxEnvelope) : Json := .obj e.members

/-- `json.Marshal(envelope)`: the stored value. -/
def marshal (e : MailboxEnvelope) : Text := e.toJson.render

/-- The length of the stored value. -/
def encodedBytes (e : MailboxEnvelope) : ℕ := utf8Length e.marshal

theorem ciphertext_le_encodedBytes (e : MailboxEnvelope) :
    utf8Length (Json.quote e.ciphertext) ≤ e.encodedBytes := by
  have hm : ("ciphertext".toList, Json.str e.ciphertext) ∈ e.members :=
    List.mem_append_left _ (List.mem_of_getElem? (i := 10) rfl)
  have := Json.utf8Length_member_le hm
  simp only [encodedBytes, marshal, toJson, Json.render, utf8Length_append, utf8Length_cons] at *
  omega

end MailboxEnvelope

/-! ## Validation -/

structure ValidationError where
  code : String
  message : String
  deriving DecidableEq

/-- `MaxIdentifierBytes`. -/
def maxIdentifierBytes : ℕ := 256

/-- Match a text against one predicate for each character. -/
def matchesAll : List (Char → Bool) → Text → Bool
  | [], [] => true
  | p :: ps, c :: t => p c && matchesAll ps t
  | _, _ => false

def isHex (c : Char) : Bool :=
  ('0' ≤ c ∧ c ≤ '9') ∨ ('a' ≤ c ∧ c ≤ 'f') ∨ ('A' ≤ c ∧ c ≤ 'F')

/-- The digit groups of `clientMailboxUUID`: 8-4-4-4-12, version 1 to 8, variant 8 to b. -/
def uuidGroups : List (Char → Bool) :=
  List.replicate 8 isHex ++ [fun c => decide (c = '-')] ++ List.replicate 4 isHex ++ [fun c => decide (c = '-')] ++
    [fun c => decide ('1' ≤ c ∧ c ≤ '8')] ++ List.replicate 3 isHex ++ [fun c => decide (c = '-')] ++
    [fun c => decide (c ∈ ['8', '9', 'a', 'b', 'A', 'B'])] ++ List.replicate 3 isHex ++ [fun c => decide (c = '-')] ++
    List.replicate 12 isHex

def nilUUID : Text := "00000000-0000-0000-0000-000000000000".toList

/-- `clientMailboxUUID`, the UUID shape of the client's wire schema. -/
def clientMailboxUUID (t : Text) : Bool := matchesAll uuidGroups t || t = nilUUID

def mailboxEnvelopePayloadType : Text := "ciphertext_message".toList

def mailboxEnvelopeIdentifiers (e : MailboxEnvelope) : List (String × Text) :=
  [("envelope_id", e.envelopeId), ("message_id", e.messageId),
    ("sender_identity_id", e.senderIdentityId), ("sender_device_id", e.senderDeviceId),
    ("recipient_identity_id", e.recipientIdentityId),
    ("recipient_device_id", e.recipientDeviceId),
    ("recipient_mailbox_id", e.recipientMailboxId), ("payload_type", e.payloadType)]

def mailboxEnvelopeUUIDIdentifiers (e : MailboxEnvelope) : List (String × Text) :=
  [("envelope_id", e.envelopeId), ("message_id", e.messageId),
    ("sender_device_id", e.senderDeviceId), ("recipient_device_id", e.recipientDeviceId)]

/-- The rules of `ValidateMailboxEnvelope` in the order they are checked, each with the
    error that answers its violation. -/
def mailboxEnvelopeRules (e : MailboxEnvelope) (maxBytes : ℤ) : List (Bool × ValidationError) :=
  [(decide (e.type = "mailbox_envelope".toList),
      ⟨"INVALID_SCHEMA", "type must be mailbox_envelope"⟩),
    (decide (e.version = 1), ⟨"INVALID_SCHEMA", "version must be 1"⟩)] ++
  (mailboxEnvelopeIdentifiers e).map (fun i => (decide (utf8Length i.2 ≤ maxIdentifierBytes),
      ⟨"INVALID_SCHEMA", i.1 ++ " exceeds the maximum identifier length"⟩)) ++
  (mailboxEnvelopeUUIDIdentifiers e).map (fun i => (clientMailboxUUID i.2,
      ⟨"INVALID_SCHEMA", i.1 ++ " must be a uuid"⟩)) ++
  [(decide (e.payloadType = mailboxEnvelopePayloadType),
      ⟨"INVALID_SCHEMA", "payload_type must be ciphertext_message"⟩),
    (decide (e.ciphertext ≠ []), ⟨"INVALID_SCHEMA", "ciphertext is required"⟩),
    (decide ((utf8Length e.ciphertext : ℤ) ≤ maxBytes),
      ⟨"PAYLOAD_TOO_LARGE", "envelope size exceeds limit"⟩),
    (decide (e.sizeBytes ≤ maxBytes), ⟨"PAYLOAD_TOO_LARGE", "envelope size exceeds limit"⟩),
    (decide (e.sizeBytes = utf8Length e.ciphertext),
      ⟨"INVALID_SCHEMA", "size_bytes does not match the ciphertext length"⟩),
    (decide (e.createdAtMs < e.expiresAtMs),
      ⟨"INVALID_SCHEMA", "expires_at_ms must be after created_at_ms"⟩)]

/-- The first violated rule answers. -/
def validateMailboxEnvelope (e : MailboxEnvelope) (maxBytes : ℤ) : Except ValidationError Unit :=
  match (mailboxEnvelopeRules e maxBytes).find? fun r => !r.1 with
  | some r => .error r.2
  | none => .ok ()

/-- What `validateMailboxEnvelope` accepts. -/
structure Valid (maxBytes : ℤ) (e : MailboxEnvelope) : Prop where
  type_eq : e.type = "mailbox_envelope".toList
  version_eq : e.version = 1
  short : ∀ i ∈ mailboxEnvelopeIdentifiers e, utf8Length i.2 ≤ maxIdentifierBytes
  uuid : ∀ i ∈ mailboxEnvelopeUUIDIdentifiers e, clientMailboxUUID i.2 = true
  payload : e.payloadType = mailboxEnvelopePayloadType
  nonempty : e.ciphertext ≠ []
  size_le : (utf8Length e.ciphertext : ℤ) ≤ maxBytes
  size_eq : e.sizeBytes = utf8Length e.ciphertext
  lifetime : e.createdAtMs < e.expiresAtMs

theorem validate_ok_iff {e : MailboxEnvelope} {maxBytes : ℤ} :
    validateMailboxEnvelope e maxBytes = .ok () ↔ Valid maxBytes e := by
  have h : validateMailboxEnvelope e maxBytes = .ok () ↔
      ∀ r ∈ mailboxEnvelopeRules e maxBytes, r.1 = true := by
    rw [validateMailboxEnvelope]
    cases hf : (mailboxEnvelopeRules e maxBytes).find? fun r => !r.1 with
    | none => simpa [List.find?_eq_none] using hf
    | some r =>
      have hr := List.find?_some hf
      simp only [reduceCtorEq, false_iff, not_forall]
      exact ⟨r, List.mem_of_find?_eq_some hf, by simpa using hr⟩
  rw [h]
  simp only [mailboxEnvelopeRules, List.forall_mem_append, List.forall_mem_cons,
    List.forall_mem_map, decide_eq_true_eq, List.not_mem_nil, false_imp_iff, implies_true, and_true]
  constructor
  · rintro ⟨⟨⟨⟨h1, h2⟩, h3⟩, h4⟩, h5, h6, h7, -, h9, h10⟩
    exact ⟨h1, h2, h3, h4, h5, h6, h7, h9, h10⟩
  · rintro ⟨h1, h2, h3, h4, h5, h6, h7, h9, h10⟩
    exact ⟨⟨⟨⟨h1, h2⟩, h3⟩, h4⟩, h5, h6, h7, h9 ▸ h7, h9, h10⟩

instance (maxBytes : ℤ) (e : MailboxEnvelope) : Decidable (Valid maxBytes e) :=
  decidable_of_iff (∀ r ∈ mailboxEnvelopeRules e maxBytes, r.1 = true) (by
    rw [← validate_ok_iff, validateMailboxEnvelope]
    cases hf : (mailboxEnvelopeRules e maxBytes).find? fun r => !r.1 with
    | none => simpa [List.find?_eq_none] using hf
    | some r =>
      have hr := List.find?_some hf
      simp only [reduceCtorEq, iff_false, not_forall]
      exact ⟨r, List.mem_of_find?_eq_some hf, by simpa using hr⟩)

theorem notMem_of_matchesAll {s : Char} : ∀ {ps : List (Char → Bool)} {t : Text},
    (∀ p ∈ ps, p s = false) → matchesAll ps t = true → s ∉ t
  | [], [], _, _ => by simp
  | [], _ :: _, _, h => by simp [matchesAll] at h
  | _ :: _, [], _, _ => by simp
  | p :: ps, c :: t, hp, h => by
    simp only [matchesAll, Bool.and_eq_true] at h
    rw [List.mem_cons, not_or]
    refine ⟨?_, notMem_of_matchesAll (fun q hq => hp q (List.mem_cons_of_mem _ hq)) h.2⟩
    rintro rfl
    rw [hp p (by simp)] at h
    exact absurd h.1 (by simp)

theorem length_of_matchesAll : ∀ {ps : List (Char → Bool)} {t : Text}, matchesAll ps t = true →
    t.length = ps.length
  | [], [], _ => rfl
  | _ :: ps, _ :: t, h => by
    simp only [matchesAll, Bool.and_eq_true] at h
    rw [List.length_cons, List.length_cons, length_of_matchesAll h.2]

theorem length_uuid {t : Text} (h : clientMailboxUUID t = true) : t.length = 36 := by
  simp only [clientMailboxUUID, Bool.or_eq_true, decide_eq_true_eq] at h
  rcases h with h | rfl
  · exact length_of_matchesAll h
  · rfl

/-- A UUID holds no colon. -/
theorem colon_notMem_uuid {t : Text} (h : clientMailboxUUID t = true) : ':' ∉ t := by
  simp only [clientMailboxUUID, Bool.or_eq_true, decide_eq_true_eq] at h
  rcases h with h | rfl
  · exact notMem_of_matchesAll (by decide) h
  · decide

theorem Valid.colon_notMem {maxBytes : ℤ} {e : MailboxEnvelope} (h : Valid maxBytes e) :
    ':' ∉ e.envelopeId :=
  colon_notMem_uuid (h.uuid ("envelope_id", _) (by simp [mailboxEnvelopeUUIDIdentifiers]))

/-! ## The client's schema -/

def isString : Json → Bool
  | .str _ => true
  | _ => false

def isNumber : Json → Bool
  | .int _ => true
  | _ => false

def isLiteral (t : Text) : Json → Bool
  | .str s => s = t
  | _ => false

def isUUID : Json → Bool
  | .str t => clientMailboxUUID t
  | _ => false

/-- `z.string().min(lo).max(hi)`, which counts UTF-16 units. -/
def isBounded (lo hi : ℕ) : Json → Bool
  | .str t => lo ≤ utf16Length t ∧ utf16Length t ≤ hi
  | _ => false

def isOne : Json → Bool
  | .int n => n = 1
  | _ => false

/-- `MailboxEnvelopeSchema.strict()`. -/
def mailboxEnvelopeSchema : Json → Bool := Json.strictObject [
  ⟨"type".toList, false, isLiteral "mailbox_envelope".toList⟩,
  ⟨"version".toList, false, isOne⟩,
  ⟨"envelope_id".toList, false, isUUID⟩,
  ⟨"message_id".toList, false, isUUID⟩,
  ⟨"sender_identity_id".toList, false, isString⟩,
  ⟨"sender_device_id".toList, false, isUUID⟩,
  ⟨"recipient_identity_id".toList, false, isString⟩,
  ⟨"recipient_device_id".toList, false, isUUID⟩,
  ⟨"recipient_mailbox_id".toList, false, isString⟩,
  ⟨"payload_type".toList, false, isLiteral "ciphertext_message".toList⟩,
  ⟨"ciphertext".toList, false, isString⟩,
  ⟨"created_at_ms".toList, false, isNumber⟩,
  ⟨"expires_at_ms".toList, false, isNumber⟩,
  ⟨"size_bytes".toList, false, isNumber⟩,
  ⟨"sender_signature".toList, true, isBounded 1 256⟩]

theorem utf16Length_pos {t : Text} (h : t ≠ []) : 1 ≤ utf16Length t := by
  obtain ⟨c, t, rfl⟩ := List.exists_cons_of_ne_nil h
  simp only [utf16Length, List.map_cons, List.sum_cons]
  split_ifs <;> omega

/-- The client's schema bounds the signature. -/
theorem signature_of_schema {e : MailboxEnvelope} (hs : mailboxEnvelopeSchema e.toJson = true) :
    utf16Length e.senderSignature ≤ 256 := by
  by_contra hlong
  have hne : e.senderSignature ≠ [] := fun h => hlong (by simp [h, utf16Length])
  have hm : Json.member "sender_signature".toList e.toJson = some (.str e.senderSignature) := by
    rw [MailboxEnvelope.toJson, MailboxEnvelope.members, if_neg hne]
    refine Json.member_last _ ?_
    simp only [List.map_cons, List.map_nil]
    decide +kernel
  rw [mailboxEnvelopeSchema, Json.strictObject_refuses (x := .str e.senderSignature)
    (f := ⟨"sender_signature".toList, true, isBounded 1 256⟩)
    (List.mem_of_getElem? (i := 14) rfl) hm (by simp [isBounded, hlong])] at hs
  cases hs

/-- **An accepted envelope passes the client's schema exactly when its signature is short
    enough.** -/
theorem schema_iff {maxBytes : ℤ} {e : MailboxEnvelope} (h : Valid maxBytes e) :
    mailboxEnvelopeSchema e.toJson = true ↔ utf16Length e.senderSignature ≤ 256 := by
  have hu := h.uuid
  simp only [mailboxEnvelopeUUIDIdentifiers, List.forall_mem_cons] at hu
  obtain ⟨hu1, hu2, hu3, hu4, -⟩ := hu
  refine ⟨signature_of_schema, fun hs => ?_⟩
  refine Json.strictObject_of_along (by decide +kernel) ?_
  rw [MailboxEnvelope.members]
  simp only [List.cons_append, List.nil_append]
  refine .cons (decide_eq_true h.type_eq) (.cons (decide_eq_true h.version_eq)
    (.cons hu1 (.cons hu2 (.cons rfl (.cons hu3 (.cons rfl (.cons hu4 (.cons rfl
    (.cons (decide_eq_true h.payload) (.cons rfl (.cons rfl
    (.cons rfl (.cons rfl ?_)))))))))))))
  split_ifs with hne
  · exact .skip rfl .nil
  · exact .cons (by simp [isBounded, hs, utf16Length_pos hne]) .nil

end Echolet
