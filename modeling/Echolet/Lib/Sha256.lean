/-
  Text as bytes, and SHA-256 of a list of bytes.

  Words are numbers below `2 ^ 32` and additions are reduced by `word`.  `sha256` gives bytes
  (`sha256_lt`); that the texts somebody hashes do not collide is a hypothesis of the results
  that rely on it, `Set.InjOn sha256` on these texts.  `hmacSha256` is HMAC over it.
-/
import Mathlib.Data.Set.Function
import Echolet.Lib.Text

namespace Echolet

/-! ## Bytes -/

def utf8Bytes (t : Text) : List ℕ := t.flatMap fun c => (String.utf8EncodeChar c).map UInt8.toNat

theorem utf8Bytes_append (s t : Text) : utf8Bytes (s ++ t) = utf8Bytes s ++ utf8Bytes t :=
  List.flatMap_append

theorem utf8Bytes_inj {s t : Text} (h : utf8Bytes s = utf8Bytes t) : s = t := by
  have hbytes : s.flatMap String.utf8EncodeChar = t.flatMap String.utf8EncodeChar := by
    have hinj : Function.Injective UInt8.toNat := fun a b => UInt8.toNat_inj.1
    refine hinj.list_map ?_
    simpa only [utf8Bytes, List.map_flatMap] using h
  have hcode : s.utf8Encode = t.utf8Encode := by simp only [List.utf8Encode, hbytes]
  have h := congrArg ByteArray.utf8Decode? hcode
  simpa using h

/-! ## SHA-256 -/

namespace Sha256

def word (n : ℕ) : ℕ := n % 2 ^ 32

def rotr (n x : ℕ) : ℕ := x >>> n ||| word (x <<< (32 - n))

def ch (x y z : ℕ) : ℕ := (x &&& y) ^^^ ((2 ^ 32 - 1 - x) &&& z)

def maj (x y z : ℕ) : ℕ := (x &&& y) ^^^ (x &&& z) ^^^ (y &&& z)

def bigSigma0 (x : ℕ) : ℕ := rotr 2 x ^^^ rotr 13 x ^^^ rotr 22 x

def bigSigma1 (x : ℕ) : ℕ := rotr 6 x ^^^ rotr 11 x ^^^ rotr 25 x

def smallSigma0 (x : ℕ) : ℕ := rotr 7 x ^^^ rotr 18 x ^^^ x >>> 3

def smallSigma1 (x : ℕ) : ℕ := rotr 17 x ^^^ rotr 19 x ^^^ x >>> 10

/-- The round constants. -/
def constants : List ℕ :=
  [0x428a2f98, 0x71374491, 0xb5c0fbcf, 0xe9b5dba5, 0x3956c25b, 0x59f111f1, 0x923f82a4, 0xab1c5ed5,
    0xd807aa98, 0x12835b01, 0x243185be, 0x550c7dc3, 0x72be5d74, 0x80deb1fe, 0x9bdc06a7, 0xc19bf174,
    0xe49b69c1, 0xefbe4786, 0x0fc19dc6, 0x240ca1cc, 0x2de92c6f, 0x4a7484aa, 0x5cb0a9dc, 0x76f988da,
    0x983e5152, 0xa831c66d, 0xb00327c8, 0xbf597fc7, 0xc6e00bf3, 0xd5a79147, 0x06ca6351, 0x14292967,
    0x27b70a85, 0x2e1b2138, 0x4d2c6dfc, 0x53380d13, 0x650a7354, 0x766a0abb, 0x81c2c92e, 0x92722c85,
    0xa2bfe8a1, 0xa81a664b, 0xc24b8b70, 0xc76c51a3, 0xd192e819, 0xd6990624, 0xf40e3585, 0x106aa070,
    0x19a4c116, 0x1e376c08, 0x2748774c, 0x34b0bcb5, 0x391c0cb3, 0x4ed8aa4a, 0x5b9cca4f, 0x682e6ff3,
    0x748f82ee, 0x78a5636f, 0x84c87814, 0x8cc70208, 0x90befffa, 0xa4506ceb, 0xbef9a3f7, 0xc67178f2]

/-- The eight words of a chaining value. -/
structure Digest where
  a : ℕ
  b : ℕ
  c : ℕ
  d : ℕ
  e : ℕ
  f : ℕ
  g : ℕ
  h : ℕ

def Digest.init : Digest :=
  ⟨0x6a09e667, 0xbb67ae85, 0x3c6ef372, 0xa54ff53a, 0x510e527f, 0x9b05688c, 0x1f83d9ab, 0x5be0cd19⟩

def round (s : Digest) (k w : ℕ) : Digest :=
  let t1 := s.h + bigSigma1 s.e + ch s.e s.f s.g + k + w
  let t2 := bigSigma0 s.a + maj s.a s.b s.c
  ⟨word (t1 + t2), s.a, s.b, s.c, word (s.d + t1), s.e, s.f, s.g⟩

/-- The next word of the schedule, from the sixteen before it, the latest first. -/
def nextWord (ws : List ℕ) : ℕ :=
  word (smallSigma1 (ws.getD 1 0) + ws.getD 6 0 + smallSigma0 (ws.getD 14 0) + ws.getD 15 0)

/-- `n` more words in front of a schedule that stands latest word first. -/
def extend : ℕ → List ℕ → List ℕ
  | 0, ws => ws
  | n + 1, ws => extend n (nextWord ws :: ws)

def schedule (block : List ℕ) : List ℕ := (extend 48 block.reverse).reverse

def compress (s : Digest) (block : List ℕ) : Digest :=
  let t := (constants.zip (schedule block)).foldl (fun s kw => round s kw.1 kw.2) s
  ⟨word (s.a + t.a), word (s.b + t.b), word (s.c + t.c), word (s.d + t.d), word (s.e + t.e),
    word (s.f + t.f), word (s.g + t.g), word (s.h + t.h)⟩

/-- `n` bytes of a number, the highest first. -/
def bigEndian : ℕ → ℕ → List ℕ
  | 0, _ => []
  | n + 1, x => x / 256 ^ n % 256 :: bigEndian n x

/-- The message with the bit, the zeros and the length in bits that fill its last block. -/
def pad (message : List ℕ) : List ℕ :=
  message ++ 0x80 :: List.replicate ((119 - message.length % 64) % 64) 0 ++
    bigEndian 8 (8 * message.length)

/-- Words of four bytes. -/
def words : List ℕ → List ℕ
  | a :: b :: c :: d :: t => (((a * 256 + b) * 256 + c) * 256 + d) :: words t
  | _ => []

/-- The blocks of sixteen words, at most `n` of them. -/
def blocks : ℕ → List ℕ → List (List ℕ)
  | 0, _ => []
  | n + 1, ws => ws.take 16 :: blocks n (ws.drop 16)

end Sha256

open Sha256 in
def sha256 (message : List ℕ) : List ℕ :=
  let padded := pad message
  let s := (blocks (padded.length / 64) (words padded)).foldl compress Digest.init
  [s.a, s.b, s.c, s.d, s.e, s.f, s.g, s.h].flatMap (bigEndian 4)

theorem Sha256.bigEndian_lt {n x : ℕ} : ∀ b ∈ bigEndian n x, b < 256 := by
  induction n with
  | zero => intro b hb; cases hb
  | succ n ih =>
    intro b hb
    rcases List.mem_cons.1 hb with rfl | hb
    · exact Nat.mod_lt _ (by norm_num)
    · exact ih b hb

theorem sha256_lt (message : List ℕ) : ∀ b ∈ sha256 message, b < 256 := by
  intro b hb
  obtain ⟨w, -, hb⟩ := List.mem_flatMap.1 hb
  exact Sha256.bigEndian_lt b hb

theorem Sha256.length_bigEndian (n x : ℕ) : (bigEndian n x).length = n := by
  induction n with
  | zero => rfl
  | succ n ih => rw [bigEndian, List.length_cons, ih]

theorem length_sha256 (message : List ℕ) : (sha256 message).length = 32 := by
  simp only [sha256, List.flatMap_cons, List.flatMap_nil, List.length_append,
    Sha256.length_bigEndian, List.length_nil]

/-! ## HMAC -/

/-- The key of a block of 64 bytes. -/
def hmacKey (key : List ℕ) : List ℕ :=
  let key := if 64 < key.length then sha256 key else key
  key ++ List.replicate (64 - key.length) 0

/-- HMAC with SHA-256. -/
def hmacSha256 (key message : List ℕ) : List ℕ :=
  let key := hmacKey key
  sha256 (key.map (· ^^^ 0x5c) ++ sha256 (key.map (· ^^^ 0x36) ++ message))

theorem length_hmacSha256 (key message : List ℕ) : (hmacSha256 key message).length = 32 :=
  length_sha256 _

theorem hmacSha256_lt (key message : List ℕ) : ∀ b ∈ hmacSha256 key message, b < 256 :=
  sha256_lt _

end Echolet
