/-
  How long envelopes and read marks are kept.

  The retention cap comes from the configured hours by `Int64` arithmetic in nanoseconds, and
  the lifetime of a mark is a constant.  `MarksOutlive` says of a cap that a mark, where it is
  written, expires no earlier than the envelopes up to its position.

  * `Relay.capped`: no stored envelope expires later than the cap from now;
  * `read_mark_outlives`: marks outlive envelopes, and the product fits, exactly for the hours
    up to the lifetime of a mark (and not too far below zero);
  * `mark_expires_first` is the first hour beyond.
-/
import Echolet.Relay.Pages

namespace Echolet

/-! ## Durations -/

/-- `time.Hour`, in nanoseconds. -/
def hour : Int64 := 3600000000000

def DefaultMailboxRetentionCap : Int64 := 7 * 24 * hour

/-- `SetRetentionCap`: values that are not positive keep the one there is. -/
def setRetentionCap (current retentionCap : Int64) : Int64 :=
  if retentionCap ≤ 0 then current else retentionCap

/-- The cap the router installs for the configured hours. -/
def routerRetentionCap (mailboxTTLHours : Int64) : Int64 :=
  setRetentionCap DefaultMailboxRetentionCap (mailboxTTLHours * hour)

theorem mailboxReadMarkTTL_eq : mailboxReadMarkTTL = 2592000000 := rfl

/-- A duration on a clock of milliseconds. -/
def milliseconds (d : Int64) : ℕ := (d.toInt / 1000000).toNat

/-- The product of hours is what it should be. -/
def HoursFit (mailboxTTLHours : Int64) : Prop :=
  (mailboxTTLHours * hour).toInt = mailboxTTLHours.toInt * hour.toInt

theorem hoursFit_iff (h : Int64) : HoursFit h ↔ -2562047 ≤ h.toInt ∧ h.toInt ≤ 2562047 := by
  have hh : hour.toInt = 3600000000000 := by decide
  rw [HoursFit, Int64.toInt_mul, hh]
  constructor
  · intro he
    have h1 := Int.le_bmod (x := h.toInt * 3600000000000) (m := 2 ^ 64) (by norm_num)
    have h2 := Int.bmod_lt (x := h.toInt * 3600000000000) (m := 2 ^ 64) (by norm_num)
    rw [he] at h1 h2
    norm_num at h1 h2
    omega
  · intro hb
    apply Int.bmod_eq_of_le <;> norm_num <;> omega

/-- The cap of hours that fit: the hours themselves, or the default of a week. -/
theorem milliseconds_routerRetentionCap {h : Int64} (hf : HoursFit h) :
    milliseconds (routerRetentionCap h) =
      if h.toInt ≤ 0 then 168 * 3600000 else (h.toInt * 3600000).toNat := by
  have hh : hour.toInt = 3600000000000 := by decide
  have hle : h * hour ≤ 0 ↔ h.toInt ≤ 0 := by
    rw [Int64.le_iff_toInt_le, hf, hh]
    simp only [Int64.toInt_zero]
    omega
  rw [routerRetentionCap, setRetentionCap]
  by_cases h0 : h.toInt ≤ 0
  · rw [if_pos (hle.2 h0), if_pos h0]
    decide
  · rw [if_neg fun hc => h0 (hle.1 hc), if_neg h0, milliseconds, hf, hh]
    congr 1
    omega

/-! ## Deadlines -/

theorem retentionDeadlineSeconds_le (cap t : ℕ) (e : MailboxEnvelope) :
    retentionDeadlineSeconds cap t e ≤ seconds (t + cap) := by
  have hm := seconds_mono (Nat.le_add_right t cap)
  simp only [retentionDeadlineSeconds]
  split_ifs <;> omega

namespace Relay
variable {cfg : RelayConfig} {r r' : Relay}

/-- No stored envelope expires later than the cap from now. -/
def Capped (cfg : RelayConfig) (r : Relay) : Prop :=
  ∀ k i, r.db.envelope.get k = some i → i.expiresAt ≤ seconds (r.now + cfg.retentionCap)

theorem capped_step {a : RelayAct} (hi : Inv cfg r) (hc : Capped cfg r)
    (h : step cfg r a = some r') : Capped cfg r' := by
  have hclock := (step_later hi h).clock
  have hold : ∀ k i, r.db.envelope.get k = some i →
      i.expiresAt ≤ seconds (r'.now + cfg.retentionCap) := fun k i hk =>
    (hc k i hk).trans (seconds_mono (Nat.add_le_add_right hclock _))
  cases a with
  | save e t =>
    simp only [step] at h
    split_ifs at h with hg
    cases h
    rcases save_cases hi.locks hg.2.2 with ⟨_, -, hs⟩ | ⟨-, hs⟩
    · rw [hs]; exact hc
    · rw [hs]
      intro k i hk
      simp only [stored, SortedMap.get_insert] at hk
      split_ifs at hk
      · cases hk
        exact (retentionDeadlineSeconds_le _ _ _).trans
          (seconds_mono (Nat.add_le_add_right hg.2.1 _))
      · exact hc k i hk
  | delete m id =>
    cases h
    intro k i hk
    simp only [deleteEnvelope, SortedMap.get_erase] at hk
    split_ifs at hk
    exact hold k i hk
  | tick ms => cases h; exact hold
  | backfillScan m =>
    simp only [step] at h
    split_ifs at h
    cases h; exact hold
  | backfillWrite m =>
    simp only [step] at h
    cases hb : r.backfill m with
    | none => rw [hb] at h; cases h
    | some b =>
      simp only [hb] at h
      split_ifs at h
      cases h; exact hold
  | backfillFinish m =>
    simp only [step] at h
    cases hb : r.backfill m with
    | none => rw [hb] at h; cases h
    | some b =>
      simp only [hb] at h
      split_ifs at h
      cases h
      intro k i hk
      refine hold k i ?_
      simp only [backfillFinish] at hk
      cases hs : r.db.sequence m <;> rw [hs] at hk <;> exact hk
  | advanceReadMark m d p =>
    cases h
    intro k i hk
    rw [advanceReadMark_envelope] at hk
    exact hold k i hk

/-- **No stored envelope outlives the cap.** -/
theorem capped {C : Relay → RelayAct → Prop} {now : ℕ} (h : Run (step cfg) C (.init now) r) :
    Capped cfg r := by
  refine (h.invariant (I := fun r => Inv cfg r ∧ Capped cfg r) ?_ ⟨Inv.init now, ?_⟩).2
  · exact fun s a s' hs _ hst => ⟨hs.1.step hst, capped_step hs.1 hs.2 hst⟩
  · intro k i hk
    cases hk

end Relay

/-! ## Marks and envelopes -/

/-- `AdvanceReadMark` writes this position: it does not stand at or below the stored mark. -/
def MarkMoves (r : Relay) (m d : Text) (position : ℕ) : Prop :=
  ∀ item, markItem r.db r.now m d = some item → item.value < position

/-- A mark that is written where this cap is in force expires no earlier than the live envelopes
    up to its position, in every state the relay reaches. -/
def MarksOutlive (retentionCap : ℕ) : Prop :=
  ∀ (cfg : RelayConfig) (now : ℕ) (r : Relay), cfg.retentionCap = retentionCap →
    Run (Relay.step cfg) Any (.init now) r → ∀ m d position mark, MarkMoves r m d position →
    (advanceReadMark r.db r.now m d position).readMark (mailboxReadMarkKey m d) = some mark →
    ∀ q e x, q ≤ position → e.recipientMailboxId = m → r.At q e →
      r.db.envelope.peek (seconds r.now) e.key = some ⟨e, x⟩ → x ≤ mark.expiresAt

/-- The mark that is written. -/
theorem advanceReadMark_written {r : Relay} {m d : Text} {position : ℕ}
    (h : MarkMoves r m d position) :
    (advanceReadMark r.db r.now m d position).readMark (mailboxReadMarkKey m d) =
      some ⟨position, seconds (r.now + mailboxReadMarkTTL)⟩ := by
  rw [advanceReadMark]
  cases hk : markItem r.db r.now m d with
  | none => exact Function.update_self _ _ _
  | some item =>
    simp only [if_neg (not_le.2 (h item hk))]
    exact Function.update_self _ _ _

theorem marksOutlive_of_le {retentionCap : ℕ} (h : retentionCap ≤ mailboxReadMarkTTL) :
    MarksOutlive retentionCap := by
  intro cfg now r hcfg hrun m d position mark hm hk q e x _ _ _ hp
  rw [advanceReadMark_written hm] at hk
  cases hk
  have hx := Relay.capped hrun e.key _ (Store.peek_eq_some.1 hp).1
  rw [hcfg] at hx
  exact hx.trans (seconds_mono (Nat.add_le_add_left h _))

/-- An envelope whose sender asks for a very long life. -/
def lastingNote : MailboxEnvelope := { note ['m'] ['a'] '0' with expiresAtMs := 10 ^ 16 }

/-- An empty mailbox with its counter. -/
def emptyMailbox : Relay :=
  (replay (Relay.step defaultConfig) Any (openMailbox ['m']) (.init 0)).get (by decide +kernel)

/-- A cap beyond the lifetime of a mark keeps an envelope longer than the mark that covers it. -/
theorem not_marksOutlive {retentionCap : ℕ} (h : mailboxReadMarkTTL + 1000 ≤ retentionCap)
    (hle : retentionCap ≤ 10 ^ 16) : ¬ MarksOutlive retentionCap := by
  let cfg : RelayConfig := { defaultConfig with retentionCap := retentionCap }
  have hopen : replay (Relay.step cfg) Any (openMailbox ['m']) (.init 0) = some emptyMailbox := rfl
  have hrun : Run (Relay.step cfg) Any (.init 0) emptyMailbox := Run.of_replay hopen
  have hi : Relay.Inv cfg emptyMailbox := (Relay.Inv.init 0).run hrun
  have hvalid : Valid 262144 lastingNote := by decide +kernel
  have ho : emptyMailbox.ordered ['m'] = true := by decide +kernel
  have hst : Relay.step cfg emptyMailbox (.save lastingNote 0) =
      some (emptyMailbox.save cfg lastingNote 0) := by
    rw [Relay.step, if_pos]
    exact ⟨hvalid, Nat.zero_le _, ho⟩
  have hx : retentionDeadlineSeconds retentionCap 0 lastingNote = seconds retentionCap := by
    have hd : lastingNote.expiresAtMs.tdiv 1000 = 10 ^ 13 := by decide
    simp only [retentionDeadlineSeconds, hd, Nat.zero_add, seconds]
    split_ifs <;> omega
  have hsave : emptyMailbox.save cfg lastingNote 0 =
      emptyMailbox.stored lastingNote (seconds retentionCap) 1 := by
    rcases @Relay.save_cases cfg emptyMailbox hi.locks lastingNote 0 ho with ⟨i, hp, -⟩ | ⟨-, hs⟩
    · cases hp
    · rw [hs]
      exact congrArg (fun x => emptyMailbox.stored lastingNote x 1) hx
  rw [hsave] at hst
  intro hm
  have hlive : (⟨lastingNote, seconds retentionCap⟩ : Item MailboxEnvelope).Live
      (seconds emptyMailbox.now) := by
    refine Or.inr ?_
    show 0 < seconds retentionCap
    rw [seconds]; omega
  have hat := Relay.stored_at (r := emptyMailbox) 1 hlive (by decide)
  obtain ⟨⟨y, hy⟩, -⟩ := hat.1
  have hmoves : MarkMoves (emptyMailbox.stored lastingNote (seconds retentionCap) 1) ['m'] ['d'] 1 :=
    fun item hk => by cases hk
  have hle := hm cfg 0 _ rfl (hrun.tail trivial hst) ['m'] ['d'] 1 _ hmoves
    (advanceReadMark_written hmoves) 1 lastingNote (seconds retentionCap) le_rfl rfl hat
    (Store.peek_eq_some.2 ⟨SortedMap.get_insert_self _ _ _, hlive⟩)
  have hnow : (emptyMailbox.stored lastingNote (seconds retentionCap) 1).now = 0 := rfl
  rw [hnow] at hle
  simp only [seconds] at hle
  omega

/-- **A read mark outlives every envelope it covers**, and the product of hours does not
    overflow, exactly for the configured hours from `-2562047` to `720`. -/
theorem read_mark_outlives (mailboxTTLHours : Int64) :
    (MarksOutlive (milliseconds (routerRetentionCap mailboxTTLHours)) ∧ HoursFit mailboxTTLHours) ↔
      -2562047 ≤ mailboxTTLHours.toInt ∧ mailboxTTLHours.toInt ≤ 720 := by
  constructor
  · rintro ⟨hm, hf⟩
    obtain ⟨h1, h2⟩ := (hoursFit_iff _).1 hf
    refine ⟨h1, ?_⟩
    by_contra hgt
    have h0 : ¬ mailboxTTLHours.toInt ≤ 0 := by omega
    rw [milliseconds_routerRetentionCap hf, if_neg h0] at hm
    refine not_marksOutlive ?_ ?_ hm
    · rw [mailboxReadMarkTTL_eq]; omega
    · norm_num; omega
  · rintro ⟨h1, h2⟩
    have hf : HoursFit mailboxTTLHours := (hoursFit_iff _).2 ⟨h1, by omega⟩
    refine ⟨marksOutlive_of_le ?_, hf⟩
    rw [milliseconds_routerRetentionCap hf, mailboxReadMarkTTL_eq]
    split_ifs <;> omega

/-- **The first hour beyond**: the mark expires an hour before the envelope it covers, and a
    product that does not fit is not refused either. -/
theorem mark_expires_first :
    ¬ MarksOutlive (milliseconds (routerRetentionCap 721)) ∧ ¬ HoursFit 2562048 := by
  have hcap : milliseconds (routerRetentionCap 721) = 2595600000 := by decide +kernel
  refine ⟨not_marksOutlive ?_ ?_, fun h => ?_⟩
  · rw [mailboxReadMarkTTL_eq, hcap]; norm_num
  · rw [hcap]; norm_num
  exact absurd ((hoursFit_iff _).1 h).2 (by decide)

end Echolet
