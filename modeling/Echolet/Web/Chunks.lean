/-
  Readers of bytes that come in chunks: a request body (`readBody`), a child's standard output
  (`CliBridge.execute`, `runCli`), and the input row of the console.

  Each of them decodes every chunk by itself.

  * `readBody_eq`, `listen_stdout`: what is read is the text of the chunks one after another;
  * `SameReading`: all four read the chunks as they read the bytes in one;
  * `chunked_reading`: they do where no cut falls inside a character and the row takes all of the
    chunks as text (`Unharmed`), and of chunks of text there only; `cut_character` is a letter cut
    in two.
-/
import Echolet.Web.CliBridge
import Echolet.Tui.Paste

namespace Echolet

open Tui (recordOf)

/-! ## A request body -/

namespace Web

structure RequestBodyError where
  statusCode : ℕ
  code : String
  message : String

/-- `MAX_JSON_BODY_BYTES` -/
def maxJsonBodyBytes : ℕ := 131072

structure BodyReader where
  body : Text
  bytes : ℕ
  settled : Bool

/-- A chunk of the body. -/
def BodyReader.data (r : BodyReader) (chunk : List ℕ) : BodyReader :=
  if r.settled then r
  else
    let bytes := r.bytes + chunk.length
    if maxJsonBodyBytes < bytes then { r with bytes, settled := true }
    else { r with bytes, body := r.body ++ decodeUtf8 chunk }

/-- The end of the body. -/
def parseBody (body : Text) : Except RequestBodyError (List (List ℕ × Document (List ℕ))) :=
  if body = [] then .ok []
  else match Document.parse body with
    | none => .error ⟨400, "INVALID_JSON_BODY", "JSON body is malformed"⟩
    | some parsed => match recordOf parsed with
      | none => .error ⟨400, "INVALID_JSON_BODY", "JSON body must be an object"⟩
      | some members => .ok members

/-- `readBody` -/
def readBody (chunks : List (List ℕ)) :
    Except RequestBodyError (List (List ℕ × Document (List ℕ))) :=
  let r := chunks.foldl BodyReader.data ⟨[], 0, false⟩
  if r.settled then .error ⟨413, "PAYLOAD_TOO_LARGE", "JSON body exceeds 128 KiB"⟩ else parseBody r.body

theorem foldl_data_settled (chunks : List (List ℕ)) {r : BodyReader} (h : r.settled = true) :
    (chunks.foldl BodyReader.data r).settled = true := by
  induction chunks generalizing r with
  | nil => exact h
  | cons chunk chunks ih =>
    refine ih ?_
    rw [BodyReader.data, if_pos h]
    exact h

theorem foldl_data (chunks : List (List ℕ)) {r : BodyReader} (hopen : r.settled = false)
    (hsize : r.bytes ≤ maxJsonBodyBytes) :
    ((chunks.foldl BodyReader.data r).settled = decide (maxJsonBodyBytes < r.bytes + chunks.flatten.length)) ∧
      (r.bytes + chunks.flatten.length ≤ maxJsonBodyBytes →
        (chunks.foldl BodyReader.data r).body = r.body ++ chunks.flatMap decodeUtf8) := by
  induction chunks generalizing r with
  | nil => simp [hopen, hsize]
  | cons chunk chunks ih =>
    rw [List.foldl_cons, List.flatten_cons, List.flatMap_cons, List.length_append]
    by_cases hlarge : maxJsonBodyBytes < r.bytes + chunk.length
    · have hstep : (r.data chunk).settled = true := by
        simp [BodyReader.data, hopen, hlarge]
      rw [foldl_data_settled chunks hstep]
      refine ⟨(decide_eq_true (by omega)).symm, fun hsmall => ?_⟩
      omega
    · have hstep : r.data chunk = ⟨r.body ++ decodeUtf8 chunk, r.bytes + chunk.length, r.settled⟩ := by
        simp [BodyReader.data, hopen, hlarge]
      obtain ⟨hsettled, hbody⟩ := ih (r := r.data chunk) (by rw [hstep]; exact hopen)
        (by rw [hstep]; exact Nat.le_of_not_lt hlarge)
      rw [hstep] at hsettled hbody ⊢
      simp only [Nat.add_assoc, List.append_assoc] at hsettled hbody
      exact ⟨hsettled, hbody⟩

/-- **What is read of a body**: its size decides, and then the texts of its chunks. -/
theorem readBody_eq (chunks : List (List ℕ)) : readBody chunks =
    if maxJsonBodyBytes < chunks.flatten.length then
      .error ⟨413, "PAYLOAD_TOO_LARGE", "JSON body exceeds 128 KiB"⟩
    else parseBody (chunks.flatMap decodeUtf8) := by
  obtain ⟨hsettled, hbody⟩ := foldl_data chunks (r := ⟨[], 0, false⟩) rfl (Nat.zero_le _)
  rw [Nat.zero_add] at hsettled hbody
  unfold readBody
  simp only [hsettled, decide_eq_true_eq]
  split_ifs with hlarge
  · rfl
  · rw [hbody (Nat.le_of_not_lt hlarge)]
    rfl

end Web

/-! ## A child's output -/

namespace Bridge

variable {Outcome : Type} {verdict : Text → Text → ChildEvent → Option Outcome}

/-- A bridge after these events. -/
def listen (verdict : Text → Text → ChildEvent → Option Outcome) (events : List ChildEvent) :
    Bridge Outcome :=
  events.foldl (hear verdict) new

theorem listen_stdout (verdict : Text → Text → ChildEvent → Option Outcome) (chunks : List (List ℕ)) :
    listen verdict (chunks.map .stdout) = { new with stdout := chunks.flatMap decodeUtf8 } := by
  have hfold : ∀ b : Bridge Outcome, (chunks.map .stdout).foldl (hear verdict) b =
      { b with stdout := b.stdout ++ chunks.flatMap decodeUtf8 } := by
    induction chunks with
    | nil => simp
    | cons chunk chunks ih => intro b; simp [ih, hear]
  exact hfold new

/-- The bridge has read the chunks as it reads them in one. -/
def SameOutput (verdict : Text → Text → ChildEvent → Option Outcome) (chunks : List (List ℕ)) : Prop :=
  listen verdict (chunks.map .stdout) = listen verdict [.stdout chunks.flatten]

/-- **A bridge**: the chunks are read as in one exactly if no cut falls inside a character. -/
theorem sameOutput_iff {chunks : List (List ℕ)} (h : IsUtf8 chunks.flatten) :
    SameOutput verdict chunks ↔ ∀ chunk ∈ chunks, IsUtf8 chunk := by
  have hone := listen_stdout verdict [chunks.flatten]
  rw [List.map_singleton, List.flatMap_singleton] at hone
  rw [SameOutput, listen_stdout, hone, ← decode_chunks_iff h]
  simp

end Bridge

/-! ## All four readers -/

/-- The four readers make of the chunks what they make of the bytes in one. -/
structure SameReading (p : Tui.Platform) (s : Tui.Shell) (chunks : List (List ℕ)) : Prop where
  body : Web.readBody chunks = Web.readBody [chunks.flatten]
  station : Bridge.SameOutput Web.verdict chunks
  console : Bridge.SameOutput Console.verdict chunks
  row : (s.paste p chunks).row = (s.paste p [chunks.flatten]).row

/-- At most one chunk, or chunks that are cut between characters, that the row takes as text, all
    or none. -/
def Unharmed (p : Tui.Platform) (row : Tui.InputField × Tui.JsString × ℕ) (chunks : List (List ℕ)) :
    Prop :=
  chunks.length ≤ 1 ∨ (∀ chunk ∈ chunks, IsUtf8 chunk) ∧
    (∀ chunk ∈ chunks, chunk = [] ∨ Tui.Typed p chunk) ∧ Tui.Shell.AllOrNone row chunks

variable {p : Tui.Platform} {s : Tui.Shell} {row : Tui.InputField × Tui.JsString × ℕ}
variable {chunks : List (List ℕ)}

theorem SameReading.of_unharmed (hs : s.Typing row) (h : Unharmed p row chunks) :
    SameReading p s chunks := by
  rcases h with hone | ⟨hbetween, htext, hfits⟩
  · match chunks, hone with
    | [], _ =>
      have hempty : ∀ chunk ∈ [([] : List ℕ)], chunk = [] ∨ Tui.Typed p chunk := by simp
      have hpaste := (Tui.Shell.paste_row hs hempty).row
      refine ⟨rfl, rfl, rfl, ?_⟩
      show s.row = _
      rw [List.flatten_nil, hpaste, hs.row]
      rfl
    | [chunk], _ =>
      have hwhole : [chunk].flatten = chunk := List.append_nil chunk
      refine ⟨?_, ?_, ?_, ?_⟩
      · rw [hwhole]
      · rw [Bridge.SameOutput, hwhole]
        rfl
      · rw [Bridge.SameOutput, hwhole]
        rfl
      · rw [hwhole]
  · have hflatten := decode_chunks hbetween
    have houtput : ∀ {Outcome : Type} (verdict : Text → Text → ChildEvent → Option Outcome),
        Bridge.SameOutput verdict chunks := by
      intro Outcome verdict
      rw [Bridge.SameOutput, Bridge.listen_stdout, hflatten]
      have hone := Bridge.listen_stdout verdict [chunks.flatten]
      rw [List.map_singleton, List.flatMap_singleton] at hone
      exact hone.symm
    refine ⟨?_, houtput _, houtput _, (Tui.Shell.paste_same_iff hs hbetween htext).2 hfits⟩
    rw [Web.readBody_eq, Web.readBody_eq, hflatten, List.flatten_singleton, List.flatMap_singleton]

/-- **Reading in chunks.**  The four readers read chunks as they read the bytes in one, where no cut
    falls inside a character and the row takes the chunks as text, all or none; and of chunks that
    the row takes as text, only there. -/
theorem chunked_reading (hs : s.Typing row) (h : IsUtf8 chunks.flatten) :
    (Unharmed p row chunks → SameReading p s chunks) ∧
      ((∀ chunk ∈ chunks, chunk = [] ∨ Tui.Typed p chunk) →
        (SameReading p s chunks ↔ Unharmed p row chunks)) := by
  refine ⟨SameReading.of_unharmed hs, fun htext => ⟨fun hsame => ?_, SameReading.of_unharmed hs⟩⟩
  have hbetween := (Bridge.sameOutput_iff h).1 hsame.console
  exact Or.inr ⟨hbetween, htext, (Tui.Shell.paste_same_iff hs hbetween htext).1 hsame.row⟩

/-! ## Two letters, and one -/

/-- Two Cyrillic letters, each in a chunk of its own. -/
def twoLetters : List (List ℕ) := [[208, 159], [209, 128]]

theorem chunked_reading_letters : ∃ s : Tui.Shell, s.Typing (.message, [], 65536) ∧
    SameReading Tui.asciiPlatform s twoLetters := by
  let o := replay (Tui.Shell.step Tui.asciiPlatform) Any Tui.composing
    (.start [Tui.cardProfile] none none 0)
  have ho : o.any (fun s => s.running && s.keys.isEmpty && (s.waiting == 0) && s.state.modal.isNone &&
      decide (s.row = some (.message, [], 65536))) = true := by decide +kernel
  obtain ⟨s, -, hchecked⟩ := (Option.any_eq_true _ _).1 ho
  simp only [Bool.and_eq_true, List.isEmpty_iff, beq_iff_eq, Option.isNone_iff_eq_none,
    decide_eq_true_eq] at hchecked
  obtain ⟨⟨⟨⟨hrunning, hkeys⟩, hwaiting⟩, hmodal⟩, hrow⟩ := hchecked
  have hs : s.Typing (.message, [], 65536) := ⟨hrunning, hkeys, hwaiting, hmodal, hrow⟩
  have hletters : ∀ chunk ∈ twoLetters, IsUtf8 chunk := by decide +kernel
  have htext : ∀ chunk ∈ twoLetters, chunk = [] ∨ Tui.Typed Tui.asciiPlatform chunk := by
    have hfirst : ∀ chunk ∈ twoLetters, 27 < (Tui.chunkText chunk).headD 0 ∧
        Tui.chunkText chunk ≠ [127] := by decide +kernel
    intro chunk hmem
    obtain ⟨hhead, hdelete⟩ := hfirst chunk hmem
    refine Or.inr ((Tui.inputKey_insert_iff (Tui.units_utf16Units _)).2 ?_)
    rw [← Tui.chunkText]
    cases htext : Tui.chunkText chunk with
    | nil =>
      rw [htext] at hhead
      cases hhead
    | cons u us =>
      rw [htext] at hhead hdelete
      exact ⟨u, us, rfl, Or.inr hhead, hdelete⟩
  have hfits : Tui.Fits (.message, [], 65536) twoLetters.flatten := by decide +kernel
  have hwhole : IsUtf8 twoLetters.flatten := by decide +kernel
  exact ⟨s, hs, (chunked_reading hs hwhole).1 (Or.inr ⟨hletters, htext, Or.inl hfits⟩)⟩

/-- A Cyrillic letter, its two bytes apart. -/
def cutLetter : List (List ℕ) := [[208], [159]]

/-- **A letter that is cut in two** is no letter for either bridge. -/
theorem cut_character : IsUtf8 cutLetter.flatten ∧ ¬ Bridge.SameOutput Web.verdict cutLetter ∧
    ¬ Bridge.SameOutput Console.verdict cutLetter := by
  have hcut : ¬ ∀ chunk ∈ cutLetter, IsUtf8 chunk := by decide +kernel
  have hletter : IsUtf8 cutLetter.flatten := by decide +kernel
  refine ⟨hletter, fun h => hcut ((Bridge.sameOutput_iff hletter).1 h), fun h => ?_⟩
  exact hcut ((Bridge.sameOutput_iff hletter).1 h)

end Echolet
