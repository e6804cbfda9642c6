/-
  What a failure means, in words (`failure-text.ts`).

  A table gives the words for a code at an exit code; a code without an entry is described by the
  class of its exit code, and an exit code that is no class as one that cannot be placed.

  * `explain_names`: the sentence begins with what can be painted of the code;
  * `explain_fine`: the words steer no display, whatever the code holds.
-/
import Echolet.Tui.Text

namespace Echolet.Tui

/-- An explanation, before the code stands in it. -/
structure Words where
  sentence : String
  action : String

structure FailureText where
  command : CliCommand
  code : JsString
  exitCode : ℕ
  sentence : JsString
  action : JsString

/-! ## The table -/

/-- `ENTRIES`: every code the command line can end with, at its exit code. -/
def entries : List (String × Words) := [
  ("INVALID_ARGUMENTS@2",
    ⟨"\x7bcode\x7d — the console built this command wrongly. Nothing was read or written.",
     "Report it — no keystroke here should be able to produce it."⟩),
  ("INVALID_CONFIGURATION@2",
    ⟨"\x7bcode\x7d — one code for six causes; the console cannot say which.",
     "Check steps 0 and 1 on the profiles pane; the rest are on disk."⟩),
  ("INVALID_CONTACT_CARD@2",
    ⟨"\x7bcode\x7d — that file is not a contact card the CLI can read, or it is too big.",
     "Check the path, and that the file is the card they sent."⟩),
  ("INVALID_MESSAGE_ID@2",
    ⟨"\x7bcode\x7d — the message id used here is not a UUID.",
     "Report it: the console names no id of its own, so the CLI minted this one."⟩),
  ("INVALID_MESSAGE@2",
    ⟨"\x7bcode\x7d — the body is longer than the CLI accepts; nothing was encrypted.",
     "Shorten it; the compose row counts bytes once you are past half."⟩),
  ("TRUST_REJECTED@3",
    ⟨"\x7bcode\x7d — refused on trust grounds; no pin and no session changed.",
     "Check the contact is pinned and the card you imported is the one they sent."⟩),
  ("CONTACT_NOT_CONFIRMED@3",
    ⟨"\x7bcode\x7d — the import was answered with no, so nothing was pinned.",
     "Press i again and answer y once all four identifiers match."⟩),
  ("INVALID_CONTACT_CARD@3",
    ⟨"\x7bcode\x7d — the card read cleanly but failed validation; it may have expired.",
     "Ask them to run contact export again and send you the new card."⟩),
  ("PROTOCOL_REJECTED@3",
    ⟨"\x7bcode\x7d — the relay refused this, and will refuse the same request again.",
     "Check both sides run the same build against the same relay."⟩),
  ("PREKEY_BUNDLE_UNAVAILABLE@3",
    ⟨"\x7bcode\x7d — their side has no claimable prekey bundle. Not a trust failure.",
     "Ask them to run relay publish, then try again."⟩),
  ("UNAUTHORIZED_MAILBOX_ACCESS@3",
    ⟨"\x7bcode\x7d — the relay would not accept this profile as the sender.",
     "Run step 2 (r) to publish this profile, then try again."⟩),
  ("SENDER_QUOTA_EXCEEDED@3",
    ⟨"\x7bcode\x7d — your unacked allowance in their mailbox is full. Temporary.",
     "It clears when they poll, or when the envelopes expire."⟩),
  ("CONTACT_NOT_TRUSTED@3",
    ⟨"\x7bcode\x7d — that correspondent is not pinned in this profile.",
     "Import their card first: profiles pane, i."⟩),
  ("CONTACT_PIN_MISMATCH@3",
    ⟨"\x7bcode\x7d — the bundle the relay served is not the one you pinned. Stop.",
     "Do not re-import a card sent the same way; check out of band."⟩),
  ("PREKEY_BUNDLE_EXPIRED@3",
    ⟨"\x7bcode\x7d — the bundle pinned for them has expired.",
     "Ask them to run relay publish, then try again."⟩),
  ("MESSAGE_ID_CONFLICT@3",
    ⟨"\x7bcode\x7d — that message id was already used for different text.",
     "Send again; each send takes a fresh id from the CLI."⟩),
  ("OUTBOUND_REJECTED@3",
    ⟨"\x7bcode\x7d — the relay refused the envelope; nothing was delivered.",
     "Check they are still published, then send again."⟩),
  ("SENDER_NOT_PUBLISHED@3",
    ⟨"\x7bcode\x7d — this profile has never published, so this was refused locally.",
     "Run step 2 (r) to publish, then send again."⟩),
  ("INBOUND_REJECTED@3",
    ⟨"\x7bcode\x7d — the relay refused this profile's authentication; the poll stopped.",
     "Check this profile is published to that relay, then poll again."⟩),
  ("CHALLENGE_EXPIRED@3",
    ⟨"\x7bcode\x7d — the relay's challenge expired before the poll could use it.",
     "Poll again; a slow or loaded relay is the usual cause."⟩),
  ("PROFILE_REJECTED@3",
    ⟨"\x7bcode\x7d — the relay refused this profile's own record.",
     "Re-run steps 1 and 2, and check the relay URL on the profiles pane."⟩),
  ("RELAY_UNAVAILABLE@4",
    ⟨"\x7bcode\x7d — the relay did not answer, so nothing was committed anywhere.",
     "Check it is up at the URL on the profiles pane; retrying is safe."⟩),
  ("PERSISTENCE_FAILURE@5",
    ⟨"\x7bcode\x7d — the encrypted store could not be read or written.",
     "Do not retry blindly: check the profile directory and its store-key variable."⟩)]

/-- `BY_COMMAND`: the entries that a command changes. -/
def byCommand : List (String × CliCommand × Words) := [
  ("PERSISTENCE_FAILURE@5", .contactExport,
    ⟨"\x7bcode\x7d — one cause is that the path already exists; export never overwrites.",
     "Export to a new path; a real storage failure looks the same."⟩)]

/-- `GENERIC`: the four classes of failure. -/
def generic : ℕ → Option Words
  | 2 => some
    ⟨"\x7bcode\x7d — the CLI refused the command as it was built, not the state of the world.",
     "Correct the operand this command used and run it again."⟩
  | 3 => some
    ⟨"\x7bcode\x7d — a trust or protocol refusal; no pin, session or trust state changed.",
     "Read the code before retrying: repeated unchanged, it will be refused again."⟩
  | 4 => some
    ⟨"\x7bcode\x7d — a relay or network failure; nothing was committed anywhere.",
     "Check the relay at the URL on the profiles pane; retrying is safe."⟩
  | 5 => some
    ⟨"\x7bcode\x7d — a persistence failure; the encrypted store could not be read or written.",
     "Do not retry blindly — the store may be locked, or opened with a different key."⟩
  | _ => none

def unclassed : Words :=
  ⟨"\x7bcode\x7d — the CLI exited with a status this console has no class for.",
   "Quote the code and the status exactly if you report this."⟩

def unreadable : Words :=
  ⟨"\x7bcode\x7d — the CLI printed nothing the console could read, so it knows nothing more.",
   "Run the same command in a terminal and read its output there."⟩

/-! ## The explanation -/

/-- The words of a command for its failure, of the failure, of its class, or of none. -/
def wordsFor (command : CliCommand) (code : JsString) (exitCode : ℕ) : Words :=
  if code = js "UNREADABLE_CLI_OUTPUT" then unreadable
  else
    let key := code ++ js "@" ++ utf16Units (decimal exitCode)
    match byCommand.find? fun entry => js entry.1 = key && entry.2.1 = command with
    | some entry => entry.2.2
    | none =>
      match entries.find? fun entry => js entry.1 = key with
      | some entry => entry.2
      | none => (generic exitCode).getD unclassed

/-- The code, wherever a template has its place. -/
def fill (code : JsString) : Text → JsString
  | '\x7b' :: 'c' :: 'o' :: 'd' :: 'e' :: '\x7d' :: t => code ++ fill code t
  | c :: t => utf16Units [c] ++ fill code t
  | [] => []

def explain (command : CliCommand) (code : JsString) (exitCode : ℕ) : FailureText :=
  let words := wordsFor command code exitCode
  let shown := paintable code
  ⟨command, code, exitCode, fill shown words.sentence.toList, fill shown words.action.toList⟩

/-! ## What the words are -/

/-- No character steers the display. -/
def Quiet (t : Text) : Prop := ∀ c ∈ t, steersTheDisplay c.toNat = false

instance (t : Text) : Decidable (Quiet t) :=
  decidable_of_iff ((t.all fun c => !steersTheDisplay c.toNat) = true) (by simp [Quiet])

theorem Quiet.fine {t : Text} (h : Quiet t) : Fine (utf16Units t) := by
  refine fun u hu => ⟨utf16Units_lt u hu, ?_⟩
  rw [utf16Units_eq] at hu
  obtain ⟨n, hn, hu⟩ := List.mem_flatMap.1 hu
  obtain ⟨c, hc, rfl⟩ := List.mem_map.1 hn
  have hlt : c.toNat < 0x110000 := by
    have hv : c.toNat < 0xd800 ∨ 0xdfff < c.toNat ∧ c.toNat < 0x110000 := c.valid
    omega
  rw [unitsOf] at hu
  split_ifs at hu with hbmp
  · rw [List.mem_singleton.1 hu]
    exact h c hc
  · refine half_quiet ?_
    rcases List.mem_cons.1 hu with hu | hu
    · omega
    · rw [List.mem_singleton] at hu
      omega

/-- The place of the code. -/
def placeholder : Text := ['\x7b', 'c', 'o', 'd', 'e', '\x7d']

/-- A sentence begins with the place of the code, and nothing written in the words steers. -/
structure Words.Sound (words : Words) : Prop where
  names : placeholder <+: words.sentence.toList
  sentence : Quiet words.sentence.toList
  action : Quiet words.action.toList

/-- Words are checked by their characters. -/
theorem Words.sound_ofList {sentence action : Text} (hn : placeholder <+: sentence)
    (hs : Quiet sentence) (ha : Quiet action) :
    Words.Sound ⟨String.ofList sentence, String.ofList action⟩ := by
  constructor
  · rw [String.toList_ofList]
    exact hn
  · rw [String.toList_ofList]
    exact hs
  · rw [String.toList_ofList]
    exact ha

theorem entries_sound : ∀ entry ∈ entries, entry.2.Sound := by
  simp only [entries, List.forall_mem_cons]
  repeat' apply And.intro
  all_goals
    first
      | exact List.forall_mem_nil _
      | exact Words.sound_ofList (by decide) (by decide) (by decide)

theorem byCommand_sound : ∀ entry ∈ byCommand, entry.2.2.Sound :=
  List.forall_mem_singleton.2 (Words.sound_ofList (by decide) (by decide) (by decide))

theorem generic_sound (exitCode : ℕ) : ∀ words ∈ generic exitCode, words.Sound := by
  intro words h
  unfold generic at h
  split at h
  all_goals cases h
  all_goals exact Words.sound_ofList (by decide) (by decide) (by decide)

theorem wordsFor_sound (command : CliCommand) (code : JsString) (exitCode : ℕ) :
    (wordsFor command code exitCode).Sound := by
  have hunclassed : unclassed.Sound :=
    Words.sound_ofList (by decide) (by decide) (by decide)
  have hunreadable : unreadable.Sound :=
    Words.sound_ofList (by decide) (by decide) (by decide)
  unfold wordsFor
  simp only
  split_ifs
  · exact hunreadable
  · split
    · next entry hentry => exact byCommand_sound entry (List.mem_of_find?_eq_some hentry)
    · split
      · next entry hentry => exact entries_sound entry (List.mem_of_find?_eq_some hentry)
      · cases hg : generic exitCode with
        | none => exact hunclassed
        | some words => exact generic_sound exitCode words hg

theorem fill_fine {code : JsString} (hcode : Fine code) :
    ∀ {t : Text}, Quiet t → Fine (fill code t) := by
  intro t
  induction t using fill.induct with
  | case1 t ih =>
    intro h
    exact hcode.append (ih fun c hc => h c (by simp [hc]))
  | case2 c t hplain ih =>
    intro h
    rw [fill]
    · exact (Quiet.fine fun d hd => h d (by simp [List.mem_singleton.1 hd])).append
        (ih fun d hd => h d (List.mem_cons_of_mem c hd))
    · exact hplain
  | case3 => exact fun _ => fine_nil

/-- **The words steer no display**, whatever the code holds. -/
theorem explain_fine (command : CliCommand) {code : JsString} (h : Units code) (exitCode : ℕ) :
    Fine (explain command code exitCode).sentence ∧ Fine (explain command code exitCode).action :=
  have hwords := wordsFor_sound command code exitCode
  ⟨fill_fine (paintable_fine h) hwords.sentence, fill_fine (paintable_fine h) hwords.action⟩

/-- The sentence names the code. -/
theorem explain_names (command : CliCommand) (code : JsString) (exitCode : ℕ) :
    paintable code <+: (explain command code exitCode).sentence := by
  obtain ⟨rest, hrest⟩ := (wordsFor_sound command code exitCode).names
  unfold explain
  simp only
  rw [← hrest]
  exact List.prefix_append _ _

/-- What the shell takes from elsewhere, with these words. -/
def platform (toLowerCase : JsString → JsString) : Platform where
  toLowerCase := toLowerCase
  explain command code exitCode :=
    ((explain command code exitCode).sentence, (explain command code exitCode).action)

end Echolet.Tui
