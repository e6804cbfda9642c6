/-
  A runtime without secrets, and a profile for it.

  A session is the remote key in bytes, a message is its body, and every signature verifies.
  The library makes the callbacks that libsignal makes: it asks whether the key of a session
  is trusted before it uses or saves that session.
-/
import Echolet.Client.Commits

namespace Echolet

/-! ## The library -/

def bytesOf (t : Text) : Bytes := t.map fun c => c.toNat.toUInt8

def textOf (b : Bytes) : Text := b.map fun n => Char.ofNat n.toNat

/-- Use a session, whose key must be trusted. -/
def trustedSession {α : Type} (address : Text) (session : Bytes) (a : α) : RecordsProgram α := do
  let trusted ← callback (.isTrustedIdentity address (textOf session))
  if trusted = true then do
    callback (.saveSession address session)
    return a
  else throw .other

/-- Use the session there is. -/
def existingSession {α : Type} (address : Text) (a : α) : RecordsProgram α := do
  match ← callback (.getSession address) with
  | some session => trustedSession address session a
  | none => throw .other

/-- Use a session under the approved key. -/
def approvedSession {α : Type} (address : Text) (a : α) : RecordsProgram α := do
  match ← callback (.getIdentity address) with
  | some key => trustedSession address (bytesOf key) a
  | none => throw .other

/-- A key of 33 bytes. -/
def plainKey : Text := ['B', 'Q'] ++ List.replicate 42 'A'

/-- A key of 1569 bytes. -/
def plainKyberKey : Text := 'C' :: List.replicate 2091 'A'

def plainLibsignal : Libsignal where
  decryptPreKey body sender _ := approvedSession sender body
  decrypt body sender _ := existingSession sender body
  processPreKeyBundle bundle remote _ := trustedSession remote (bytesOf bundle.signalIdentityKey) ()
  encrypt payload remote _ := existingSession remote (2, payload)
  generatePreKey id _ := bytesOf (decimal id)
  preKeyPublic record := (parseDecimal (textOf record)).map fun id => ⟨id, plainKey⟩
  signedPublic record := some ⟨0, textOf record, noSignature⟩
  identityPublic _ := plainKey

/-! ## The profile -/

/-- Three bytes for every character. -/
def wide (t : Text) : Bytes := t.flatMap fun c =>
  [(c.toNat / 65536).toUInt8, (c.toNat / 256).toUInt8, c.toNat.toUInt8]

def stop : Bytes := [255]

theorem textOf_injective : Function.Injective textOf := by
  have hval : ∀ n : ℕ, n < 256 → (Char.ofNat n).toNat = n := by
    intro n hn
    have hv : n.isValidChar := Or.inl (by omega)
    rw [Char.ofNat, dif_pos hv]
    rfl
  refine List.map_injective_iff.2 fun a b h => UInt8.toNat_inj.1 ?_
  rw [← hval _ a.toNat_lt, ← hval _ b.toNat_lt]
  exact congrArg Char.toNat h

theorem toNat_lt (c : Char) : c.toNat < 1114112 := by
  rcases c.valid with h | ⟨-, h⟩
  · exact Nat.lt_trans h (by decide)
  · exact h

theorem char_bytes_inj {c d : Char} (h₁ : (c.toNat / 65536).toUInt8 = (d.toNat / 65536).toUInt8)
    (h₂ : (c.toNat / 256).toUInt8 = (d.toNat / 256).toUInt8)
    (h₃ : c.toNat.toUInt8 = d.toNat.toUInt8) : c = d := by
  have hc := toNat_lt c
  have hd := toNat_lt d
  have h₁ := congrArg UInt8.toNat h₁
  have h₂ := congrArg UInt8.toNat h₂
  have h₃ := congrArg UInt8.toNat h₃
  simp only [Nat.toUInt8_eq, UInt8.toNat_ofNat'] at h₁ h₂ h₃
  exact Char.toNat_inj.1 (by omega)

theorem high_ne_stop {c : Char} : (c.toNat / 65536).toUInt8 ≠ 255 := by
  intro h
  have hc := toNat_lt c
  have h := congrArg UInt8.toNat h
  simp only [Nat.toUInt8_eq, UInt8.toNat_ofNat'] at h
  change _ = 255 at h
  omega

theorem wide_stop_inj : ∀ {t t' : Text} {b b' : Bytes},
    wide t ++ stop ++ b = wide t' ++ stop ++ b' → t = t' ∧ b = b'
  | [], [], b, b', h => ⟨rfl, List.append_cancel_left h⟩
  | [], c :: t, b, b', h => absurd (List.cons.inj h).1.symm high_ne_stop
  | c :: t, [], b, b', h => absurd (List.cons.inj h).1 high_ne_stop
  | c :: t, d :: t', b, b', h => by
    obtain ⟨h₁, h⟩ := List.cons.inj h
    obtain ⟨h₂, h⟩ := List.cons.inj h
    obtain ⟨h₃, h⟩ := List.cons.inj h
    obtain ⟨rfl, hb⟩ := wide_stop_inj h
    exact ⟨by rw [char_bytes_inj h₁ h₂ h₃], hb⟩

def plainRuntime : Runtime where
  lib := plainLibsignal
  enc := {
    sha256 := textOf
    utf8 := bytesOf
    content := fun recipient messageId plaintext =>
      wide recipient ++ stop ++ (wide messageId ++ stop ++ wide plaintext)
    payload := fun messageId _ => bytesOf messageId
    readPayload := fun b => some (some (textOf b), some [])
    wrap := fun type b => if type = 3 then 'p' :: textOf b else textOf b
    unwrap := fun t => match t with
      | 'p' :: t => some (3, bytesOf t)
      | t => some (2, bytesOf t) }
  deriveMailboxId t := t
  verifyRecord _ := true
  verifyBundle _ := true
  verifyNative _ := true
  signEnvelope _ := ['s']
  signBundle _ := noSignature

theorem plainRuntime_hash : Function.Injective (contentHash plainRuntime) := by
  rintro ⟨r, m, p⟩ ⟨r', m', p'⟩ h
  obtain ⟨rfl, h⟩ := wide_stop_inj (textOf_injective h)
  obtain ⟨rfl, h⟩ := wide_stop_inj h
  obtain ⟨rfl, -⟩ := wide_stop_inj (congrArg (· ++ stop ++ []) h)
  rfl

/-- An identity of one letter, in the length of an identity. -/
def plainId (c : Char) : Text := List.replicate 43 c

def plainDevice : Device :=
  ⟨plainId 'A', nilUUID, plainId 'A', 2, by decide, by decide⟩

def plainRecord : DeviceRecord :=
  ⟨"device_record".toList, 1, plainId 'A', nilUUID, plainId 'A', none, [], 0, noSignature⟩

def plainContact : ContactIdentifiers := ⟨plainId 'E', nilUUID, plainId 'E', ['k']⟩

/-- The card of a contact. -/
def plainCard : WireBundle :=
  ⟨nilUUID, { plainRecord with identityId := plainId 'E', devicePubKey := plainId 'E' }, 0, 100, 1,
    plainKey, ⟨2, plainKey, noSignature⟩, ⟨3, plainKyberKey, noSignature⟩,
    some ⟨1, plainKey⟩, noSignature⟩

/-- The address of the device of that contact. -/
def plainAddress : Text :=
  "[\"[\\\"".toList ++ plainId 'E' ++ "\\\",\\\"".toList ++ nilUUID ++ "\\\"]\",1]".toList

/-- The store of a profile that was just initialized. -/
def emptyStore : ClientStore where
  signal := ⟨1, [], .empty, .empty, SortedMap.empty.insert 1 (bytesOf ['1']), none,
    SortedMap.empty.insert 2 (bytesOf plainKey), SortedMap.empty.insert 3 (bytesOf plainKyberKey),
    .empty, .empty, .empty⟩
  contacts := .empty
  claims := .empty
  outbox := .empty
  inbox := .empty
  pendingAck := .empty
  history := .empty
  historySequence := none
  publication := .empty
  rewalk := none

theorem emptyStore_initial : emptyStore.Initial :=
  ⟨rfl, rfl, rfl, rfl, rfl, rfl, rfl, rfl, rfl, rfl, rfl, rfl, rfl⟩

/-- A store with one contact, and a session with it. -/
def plainStore : ClientStore :=
  { emptyStore with
    signal := { emptyStore.signal with
      trust := SortedMap.empty.insert plainAddress ['k']
      session := SortedMap.empty.insert plainAddress (bytesOf ['k']) }
    contacts := SortedMap.empty.insert (plainId 'E') plainContact }

/-- An envelope to the device of the profile. -/
def plainEnvelope (sender : Char) (id : Text) : MailboxEnvelope where
  type := "mailbox_envelope".toList
  version := 1
  envelopeId := id
  messageId := nilUUID
  senderIdentityId := plainId sender
  senderDeviceId := nilUUID
  recipientIdentityId := plainId 'A'
  recipientDeviceId := nilUUID
  recipientMailboxId := plainId 'A'
  payloadType := mailboxEnvelopePayloadType
  ciphertext := nilUUID
  createdAtMs := 0
  expiresAtMs := 10
  sizeBytes := 36
  senderSignature := []

/-- An envelope with a first message. -/
def firstEnvelope (sender : Char) (id : Text) : MailboxEnvelope :=
  { plainEnvelope sender id with ciphertext := 'p' :: nilUUID, sizeBytes := 37 }

/-- The circumstances of a call at a time. -/
def plainly (now : ℤ) (response : Response) : Surroundings :=
  ⟨false, ⟨now, nilUUID, 0⟩, fun _ => ⟨now, nilUUID, 0⟩, response⟩

/-! ## Actions -/

/-- The calls of a poll that finds one envelope, and acknowledges it. -/
def firstPoll (i : ℕ) (e : MailboxEnvelope) : List (PoolAct Job Surroundings) :=
  [.start i .poll] ++ ([.done, .done, .challenge 9, .done, .done, .page ⟨[(1, e)], none⟩, .done,
    .done, .done, .done, .done] : List Response).map fun r => .step i (plainly 5 r)

/-- The calls of an import that is confirmed. -/
def firstImport (i : ℕ) : List (PoolAct Job Surroundings) :=
  [.start i (.importContact plainCard)] ++
    ([.done, .flag true, .done] : List Response).map fun r => .step i (plainly 5 r)

def plainInput (text : Text) : SendInput := ⟨plainId 'E', nilUUID, text⟩

/-- The pool is filled, and the process killed before it offers a bundle. -/
def firstPublish (i : ℕ) : List (PoolAct Job Surroundings) :=
  [.start i .publish, .step i (plainly 5 .done), .kill i]

/-- The calls of a send that makes the first contact. -/
def firstSend (i : ℕ) (input : SendInput) : List (PoolAct Job Surroundings) :=
  [.start i (.send input)] ++ ([.done, .done, .done, .done, .bundle plainCard, .done, .done, .done,
    .done, .done] : List Response).map fun r => .step i (plainly 5 r)

end Echolet
