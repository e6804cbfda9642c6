/-
  Bundles as the client takes them: the schema of a document and the texts under its signatures.

  * `parsed` is what `JSON.parse` makes of a document, the last of two members of a name;
  * `schema` is `SignalPreKeyBundleV2Schema`;
  * `signingText` is what the device signs, `recordText` what the identity signs, and
    `verifiedTexts` what both signatures are checked over.
-/
import Mathlib.Data.Nat.Bitwise
import Echolet.Lib.JsMap
import Echolet.Relay.SignedBundle

namespace Echolet

open Document

namespace SignalBundle

/-! ## Documents of a program -/

mutual
/-- `JSON.parse`: a member that comes again has its last value where it stood first. -/
def parsed : Document Utf16 → Document Utf16
  | .arr xs => .arr (parsedElems xs)
  | .obj ms => .obj (parsedMembers [] ms)
  | d => d

def parsedElems : List (Document Utf16) → List (Document Utf16)
  | [] => []
  | x :: xs => parsed x :: parsedElems xs

def parsedMembers (es : List (Utf16 × Document Utf16)) :
    List (Utf16 × Document Utf16) → List (Utf16 × Document Utf16)
  | [] => es
  | (k, x) :: ms => parsedMembers (JsMap.setEntry k (parsed x) es) ms
end

/-- A string of what `JSON.parse` reads, which are units of 16 bits. -/
def ofUnits (us : List ℕ) : Utf16 :=
  ⟨us.map (· % 0x10000), fun _ h => by
    obtain ⟨u, -, rfl⟩ := List.mem_map.1 h
    exact Nat.mod_lt u (by decide)⟩

/-- `JSON.parse(JSON.stringify(value))` -/
def copyJson (d : Document Utf16) : Option (Document Utf16) :=
  (parse (jsWriter.write d)).map fun copy => parsed (copy.map ofUnits id)

/-- A property of an object, undefined where it has none of the name. -/
def property (ms : List (Utf16 × Document Utf16)) (key : String) : Option (Document Utf16) :=
  (ms.find? fun m => m.1 = .ofText key.toList).map (·.2)

/-! ## Schemas -/

/-- `z.object(shape).strict()` -/
def strict (shape : List (String × (Option (Document Utf16) → Bool))) : Document Utf16 → Bool
  | .obj ms => shape.all (fun p => p.2 (property ms p.1)) &&
      ms.all fun m => decide (m.1 ∈ shape.map fun p => Utf16.ofText p.1.toList)
  | _ => false

def required (schema : Document Utf16 → Bool) (x : Option (Document Utf16)) : Bool := x.any schema

def optional (schema : Document Utf16 → Bool) (x : Option (Document Utf16)) : Bool := x.all schema

def nullable (schema : Document Utf16 → Bool) : Document Utf16 → Bool
  | .null => true
  | d => schema d

def string (check : Utf16 → Bool) : Document Utf16 → Bool
  | .str s => check s
  | _ => false

def literal (t : String) : Document Utf16 → Bool := string fun s => decide (s = .ofText t.toList)

def literalNumber (n : ℕ) : Document Utf16 → Bool
  | .number x => decide (x.value = n)
  | _ => false

/-- `z.number().int().min(min).max(max)` -/
def int (min max : ℕ) : Document Utf16 → Bool
  | .number x => decide (x.value.den = 1 ∧ min ≤ x.value ∧ x.value ≤ max)
  | _ => false

def boolean : Document Utf16 → Bool
  | .bool _ => true
  | _ => false

def alphabet : List ℕ :=
  "ABCDEFGHIJKLMNOPQRSTUVWXYZabcdefghijklmnopqrstuvwxyz0123456789-_".toList.map Char.toNat

/-- `encodedBytes` -/
def encodedBytes (length : ℕ) (lead : Option ℕ) (s : Utf16) : Bool :=
  let unusedBits := (6 - length * 8 % 6) % 6
  let indexOf (i : ℕ) := alphabet.idxOf (s.units.getD i 0)
  decide (s.units.length = (length * 8 + 5) / 6) && decide (s.units ≠ []) &&
    s.units.all (fun u => decide (u ∈ alphabet)) &&
    decide (indexOf (s.units.length - 1) &&& (1 <<< unusedBits - 1) = 0) &&
    (lead.all fun n => decide (indexOf 0 <<< 2 ||| indexOf 1 >>> 4 = n))

/-- A unit of `[0-9a-f-]`. -/
def isLowerUnit (u : ℕ) : Bool := decide (48 ≤ u ∧ u ≤ 57 ∨ 97 ≤ u ∧ u ≤ 102 ∨ u = 45)

/-- `z.string().uuid().regex(/^[0-9a-f-]+$/)`; the relay's `clientMailboxUUID` is a transcript of
    what the package calls a UUID. -/
def uuid (s : Utf16) : Bool :=
  clientMailboxUUID s.text && decide (s.units ≠ []) && s.units.all isLowerUnit

def timestamp : Document Utf16 → Bool := int 0 9007199254740991

def keyId : Document Utf16 → Bool := int 0 0xffffffff

def identity : Document Utf16 → Bool := string (encodedBytes 32 none)

def signature : Document Utf16 → Bool := string (encodedBytes 64 none)

def ecKey : Document Utf16 → Bool := string (encodedBytes 33 (some 0x05))

def capabilities : Document Utf16 → Bool :=
  strict [("mailbox_poll", optional boolean), ("receipts", optional boolean),
    ("attachments", optional boolean)]

def signedDevice : Document Utf16 → Bool :=
  strict [("type", required (literal "device_record")), ("version", required (literalNumber 1)),
    ("identity_id", required identity), ("device_id", required (string uuid)),
    ("device_pubkey", required identity),
    ("device_label", optional (string fun s => decide (s.units.length ≤ 256))),
    ("capabilities", required capabilities), ("created_at_ms", required timestamp),
    ("signature", required signature)]

def signedKey (publicKey : Document Utf16 → Bool) : Document Utf16 → Bool :=
  strict [("key_id", required keyId), ("public_key", required publicKey),
    ("signature", required signature)]

def oneTimeKey : Document Utf16 → Bool :=
  strict [("key_id", required keyId), ("public_key", required ecKey)]

/-- The times of a bundle are less than seven days apart, and not the other way round. -/
def lifetime : Option (Document Utf16) → Option (Document Utf16) → Bool
  | some (.number created), some (.number expires) => decide (created.value < expires.value ∧
      expires.value - created.value ≤ 7 * 24 * 60 * 60 * 1000)
  | _, _ => false

/-- `SignalPreKeyBundleV2Schema` -/
def schema (d : Document Utf16) : Bool :=
  strict [("type", required (literal "signal_prekey_bundle")), ("version", required (literalNumber 2)),
    ("suite", required (literal "libsignal-pq-v1")), ("bundle_id", required (string uuid)),
    ("created_at_ms", required timestamp), ("expires_at_ms", required timestamp),
    ("device_record", required signedDevice), ("registration_id", required (int 1 16380)),
    ("signal_identity_key", required ecKey), ("signed_prekey", required (signedKey ecKey)),
    ("kyber_prekey", required (signedKey (string (encodedBytes 1569 (some 0x08))))),
    ("one_time_prekey", required (nullable oneTimeKey)), ("signature", required signature)] d &&
  lifetime (property (members d) "created_at_ms") (property (members d) "expires_at_ms")

/-! ## Signed texts -/

/-- A property, null where it is undefined. -/
def orNull (ms : List (Utf16 × Document Utf16)) (key : String) : Document Utf16 :=
  (property ms key).getD .null

/-- The members of a property. -/
def within (ms : List (Utf16 × Document Utf16)) (key : String) : List (Utf16 × Document Utf16) :=
  members (orNull ms key)

/-- `null` for a bundle without a one-time key. -/
def oneTimePreKey : Document Utf16 → Document Utf16
  | .null => .null
  | d => .arr [orNull (members d) "key_id", orNull (members d) "public_key"]

/-- What `signalBundleV2SigningText` writes. -/
def signed (value : List (Utf16 × Document Utf16)) : Document Utf16 :=
  let device := within value "device_record"
  let caps := within device "capabilities"
  let sp := within value "signed_prekey"
  let kp := within value "kyber_prekey"
  .arr [.str (.ofText "echolet.signal.prekey_bundle.v2".toList), orNull value "bundle_id",
    orNull value "suite",
    .arr [orNull device "type", orNull device "version", orNull device "identity_id",
      orNull device "device_id", orNull device "device_pubkey", orNull device "device_label",
      .arr [orNull caps "mailbox_poll", orNull caps "receipts", orNull caps "attachments"],
      orNull device "created_at_ms", orNull device "signature"],
    orNull value "created_at_ms", orNull value "expires_at_ms", orNull value "registration_id",
    orNull value "signal_identity_key",
    .arr [orNull sp "key_id", orNull sp "public_key", orNull sp "signature"],
    .arr [orNull kp "key_id", orNull kp "public_key", orNull kp "signature"],
    oneTimePreKey (orNull value "one_time_prekey")]

/-- `signalBundleV2SigningText` -/
def signingText (d : Document Utf16) : Text := jsWriter.write (signed (members d))

/-- The text over which `requireDeviceSignature` checks the record. -/
def recordText (d : Document Utf16) : Text := V1.canonicalJson (orNull (members d) "device_record")

/-- What `importVerifiedSignalBundleV2` checks the two signatures over, the identity's first. -/
def verifiedTexts (d : Document Utf16) : Option (Text × Text) :=
  (copyJson d).map fun wire => (recordText wire, signingText wire)

end SignalBundle

end Echolet
