/-
  The positions a relay hands out, and the marks it keeps.

  `TokenInv` is the invariant of the shared state: every cursor in the log is the token of a
  position its mailbox has issued, and every stored mark belongs to a mailbox that has issued
  its position.  `Forward` is what one operation of any process may do to it: counters, clock
  and log grow, and an unexpired mark moves up only.

  * `serve_safe`: the handlers mark only positions they found issued, for mailboxes that an
    identity derives;
  * `issued_tokens`: in every run the relay accepts the cursors it issued, marks are bounded,
    and no unexpired mark moves back.
-/
import Echolet.Relay.DeviceKeys
import Echolet.Relay.Pages
import Echolet.Relay.Refusals

namespace Echolet

open Contract MailboxRoutes

/-- The invariant of the positions. -/
structure TokenInv (cfg : RelayConfig) (w : MailboxRelay) : Prop where
  relay : Relay.Inv cfg w.relay
  marks : ∀ {key item}, w.relay.db.readMark key = some item →
    (∃ m d, key = mailboxReadMarkKey m d ∧ ':' ∉ m ∧
      item.value ≤ highestIssuedPosition w.relay.db m) ∧
    0 < item.expiresAt ∧ item.expiresAt ≤ seconds (w.relay.now + mailboxReadMarkTTL)
  tokens : ∀ {n m batch}, .returned n m batch ∈ w.log → batch.nextCursor ≠ [] →
    ∃ c, batch.nextCursor = encodeMailboxCursor c ∧ c ≤ highestIssuedPosition w.relay.db m

/-- What the operations do to the positions. -/
structure Forward (w w' : MailboxRelay) : Prop where
  clock : w.relay.now ≤ w'.relay.now
  issued : ∀ m, highestIssuedPosition w.relay.db m ≤ highestIssuedPosition w'.relay.db m
  marks : ∀ {key item}, w.relay.db.readMark key = some item → item.Live (seconds w'.relay.now) →
    ∃ item', w'.relay.db.readMark key = some item' ∧ item.value ≤ item'.value ∧
      item.expiresAt ≤ item'.expiresAt

/-- The contract of the store operations, about positions. -/
def tokens (cfg : RelayConfig) (challengeTTLSeconds : ℤ) :
    Contract MailboxCall MailboxCall.Answer Refusal Occasion MailboxRelay where
  exec := MailboxRelay.exec cfg challengeTTLSeconds
  allowed _ _ _ := True
  inv := TokenInv cfg
  guar := Forward
  rely w w' := ∀ m, highestIssuedPosition w.relay.db m ≤ highestIssuedPosition w'.relay.db m

variable {ed25519 : List ℕ → Text → List ℕ → Bool} {cfg : RelayConfig} {ttl : ℤ}
  {w w' w'' : MailboxRelay}

theorem Forward.refl_of (h : w'.relay = w.relay) : Forward w w' where
  clock := by rw [h]
  issued m := by rw [h]
  marks hk _ := ⟨_, by rw [h]; exact hk, le_rfl, le_rfl⟩

/-- What expires later is live as long. -/
theorem live_of_later {item item' : Item ℕ} {t : ℕ} (h0 : 0 < item.expiresAt)
    (hx : item.expiresAt ≤ item'.expiresAt) (hl : item.Live t) : item'.Live t := by
  rcases hl with h | hlt
  · omega
  · exact Or.inr (hlt.trans_le hx)

theorem Forward.trans (hi : TokenInv cfg w) (h : Forward w w') (h' : Forward w' w'') :
    Forward w w'' where
  clock := h.clock.trans h'.clock
  issued m := (h.issued m).trans (h'.issued m)
  marks {key item} hk hl := by
    obtain ⟨item', hk', hv, hx⟩ := h.marks hk (hl.mono (seconds_mono h'.clock))
    obtain ⟨item'', hk'', hv', hx'⟩ := h'.marks hk' (live_of_later (hi.marks hk).2.1 hx hl)
    exact ⟨item'', hk'', hv.trans hv', hx.trans hx'⟩

/-! ## The operations -/

/-- The log grew by an event that is no batch, or not at all. -/
def Quieter (w w' : MailboxRelay) : Prop :=
  ∀ {n m batch}, .returned n m batch ∈ w'.log → .returned n m batch ∈ w.log

theorem quieter_logged {event : MailboxEvent} (he : ∀ n m batch, event ≠ .returned n m batch)
    (h : w'.log = event :: w.log) : Quieter w w' := by
  intro n m batch hm
  rw [h] at hm
  rcases List.mem_cons.1 hm with heq | hm
  · exact absurd heq.symm (he n m batch)
  · exact hm

/-- The invariant after a step of the relay that leaves the marks alone. -/
theorem TokenInv.relay_step (hi : TokenInv cfg w) {a : RelayAct} {relay : Relay}
    (hst : Relay.step cfg w.relay a = some relay) (hr : w'.relay = relay)
    (hm : relay.db.readMark = w.relay.db.readMark) (hq : Quieter w w') :
    TokenInv cfg w' ∧ Forward w w' := by
  subst hr
  have hlater := Relay.step_later hi.relay hst
  refine ⟨⟨hi.relay.step hst, fun {key item} hk => ?_, fun {n m batch} hb hne => ?_⟩,
    ⟨hlater.clock, hlater.issued, fun {key item} hk _ => ⟨item, ?_, le_rfl, le_rfl⟩⟩⟩
  · rw [hm] at hk
    obtain ⟨⟨m, d, hkey, hc, hv⟩, h0, hx⟩ := hi.marks hk
    refine ⟨⟨m, d, hkey, hc, hv.trans (hlater.issued m)⟩, h0, hx.trans (seconds_mono ?_)⟩
    have := hlater.clock
    omega
  · obtain ⟨c, hc, hle⟩ := hi.tokens (hq hb) hne
    exact ⟨c, hc, hle.trans (hlater.issued m)⟩
  · rw [hm]
    exact hk

/-- The invariant where the relay stays as it is. -/
theorem TokenInv.still (hi : TokenInv cfg w) (hr : w'.relay = w.relay) (hq : Quieter w w') :
    TokenInv cfg w' ∧ Forward w w' := by
  refine ⟨⟨by rw [hr]; exact hi.relay, fun hk => ?_, fun hb hne => ?_⟩, .refl_of hr⟩
  · rw [hr] at hk ⊢
    exact hi.marks hk
  · rw [hr]
    exact hi.tokens (hq hb) hne

/-- A batch that was read is logged. -/
theorem TokenInv.returned (hi : TokenInv cfg w) {n : ℕ} {m : Text} {batch : EnvelopeBatch}
    (hb : batch.nextCursor ≠ [] → ∃ c, batch.nextCursor = encodeMailboxCursor c ∧
      c ≤ highestIssuedPosition w.relay.db m) :
    TokenInv cfg (w.logged (.returned n m batch)) ∧ Forward w (w.logged (.returned n m batch)) := by
  refine ⟨⟨hi.relay, hi.marks, fun hm hne => ?_⟩, .refl_of rfl⟩
  rcases List.mem_cons.1 hm with heq | hm
  · cases heq
    exact hb hne
  · exact hi.tokens hm hne

/-- The cursor of a batch is the token of an issued position. -/
theorem readBatch_token {r : Relay} (hi : Relay.Inv cfg r) {m : Text} (ho : r.ordered m = true)
    {limit byteBudget : ℤ} (hl : ¬ limit ≤ 0) {c : ℕ}
    (hne : (readBatch r.db r.now m limit byteBudget c).nextCursor ≠ []) :
    ∃ p, (readBatch r.db r.now m limit byteBudget c).nextCursor = encodeMailboxCursor p ∧
      p ≤ highestIssuedPosition r.db m := by
  rw [Relay.readBatch_page] at hne ⊢
  simp only at hne ⊢
  cases hn : (r.page m limit byteBudget c).next with
  | none => rw [hn] at hne; exact absurd rfl hne
  | some p => exact ⟨p, rfl, (Relay.page_next hi ho (not_le.1 hl) hn).2⟩

/-- Recording a position its mailbox has issued. -/
theorem TokenInv.advance (hi : TokenInv cfg w) {m d : Text} {n position : ℕ} (hm : ':' ∉ m)
    (hp : position ≤ highestIssuedPosition w.relay.db m)
    (hw : w' = { w.logged (.marked n m d position) with
      relay := { w.relay with db := advanceReadMark w.relay.db w.relay.now m d position } }) :
    TokenInv cfg w' ∧ Forward w w' := by
  have hst : Relay.step cfg w.relay (.advanceReadMark m d position) = some w'.relay := by
    rw [hw]; rfl
  have hdb : w'.relay.db = advanceReadMark w.relay.db w.relay.now m d position := by rw [hw]
  have hnow : w'.relay.now = w.relay.now := by rw [hw]
  have hseq : ∀ m, highestIssuedPosition w'.relay.db m = highestIssuedPosition w.relay.db m := by
    intro m
    rw [hdb, highestIssuedPosition, highestIssuedPosition, Relay.advanceReadMark_sequence]
  have hlog : w'.log = .marked n m d position :: w.log := by rw [hw]; rfl
  have hset : w'.relay.db.readMark = w.relay.db.readMark ∨
      (w'.relay.db.readMark = Function.update w.relay.db.readMark (mailboxReadMarkKey m d)
          (some ⟨position, seconds (w.relay.now + mailboxReadMarkTTL)⟩) ∧
        ∀ item, w.relay.db.readMark (mailboxReadMarkKey m d) = some item →
          item.Live (seconds w.relay.now) → item.value ≤ position) := by
    rw [hdb, advanceReadMark]
    cases hmk : markItem w.relay.db w.relay.now m d with
    | none =>
      refine Or.inr ⟨rfl, fun item hk hl => ?_⟩
      rw [markItem, hk, Option.filter_some, if_pos (decide_eq_true hl)] at hmk
      cases hmk
    | some old =>
      simp only
      split_ifs with hle
      · exact Or.inl rfl
      · refine Or.inr ⟨rfl, fun item hk hl => ?_⟩
        rw [markItem, hk, Option.filter_some, if_pos (decide_eq_true hl)] at hmk
        cases hmk
        omega
  have hexp : 0 < seconds (w.relay.now + mailboxReadMarkTTL) := by
    simp only [seconds, mailboxReadMarkTTL]
    omega
  refine ⟨⟨hi.relay.step hst, fun {key item} hk => ?_, fun {k m' batch} hb hne => ?_⟩,
    ⟨hnow.ge, fun m => (hseq m).ge, fun {key item} hk hl => ?_⟩⟩
  · simp only [hseq, hnow]
    rcases hset with hset | ⟨hset, -⟩
    · rw [hset] at hk
      exact hi.marks hk
    · rw [hset, Function.update_apply] at hk
      split_ifs at hk with hkey
      · cases hk
        exact ⟨⟨m, d, hkey, hm, hp⟩, hexp, le_rfl⟩
      · exact hi.marks hk
  · rw [hlog] at hb
    rw [hseq]
    rcases List.mem_cons.1 hb with heq | hb
    · cases heq
    · exact hi.tokens hb hne
  · rw [hnow] at hl
    rcases hset with hset | ⟨hset, hle⟩
    · exact ⟨item, by rw [hset]; exact hk, le_rfl, le_rfl⟩
    · by_cases hkey : key = mailboxReadMarkKey m d
      · subst hkey
        refine ⟨_, by rw [hset, Function.update_self], hle item hk hl, (hi.marks hk).2.2⟩
      · exact ⟨item, by rw [hset, Function.update_of_ne hkey]; exact hk, le_rfl, le_rfl⟩

namespace Tokens

/-- Every operation but the record of a position. -/
def NoMark : MailboxCall → Prop
  | .advanceReadMark _ _ _ _ => False
  | _ => True

theorem exec_safe {c : MailboxCall} {v : Occasion} {r : Except Refusal c.Answer} (hc : NoMark c)
    (hi : TokenInv cfg w) (h : MailboxRelay.exec cfg ttl c v w = some (r, w')) :
    TokenInv cfg w' ∧ Forward w w' := by
  have hsame : Quieter w w := fun hm => hm
  cases c with
  | advanceReadMark n m d p => exact hc.elim
  | accept req =>
    cases h
    exact hi.still rfl (quieter_logged (fun _ _ _ he => by cases he) rfl)
  | highestIssued m => cases h; exact hi.still rfl hsame
  | readMark m d => cases h; exact hi.still rfl hsame
  | authorize n m d =>
    simp only [MailboxRelay.exec] at h
    split_ifs at h
    · cases h; exact hi.still rfl hsame
    · split at h
      · cases h
        exact hi.still rfl (quieter_logged (fun _ _ _ he => by cases he) rfl)
      · cases h; exact hi.still rfl hsame
  | createChallenge n m d =>
    simp only [MailboxRelay.exec] at h
    split_ifs at h
    · cases h; exact hi.still rfl hsame
    · cases h
      exact hi.still rfl (quieter_logged (fun _ _ _ he => by cases he) rfl)
  | getValid n id =>
    simp only [MailboxRelay.exec] at h
    split_ifs at h
    · cases h; exact hi.still rfl hsame
    · split at h
      · cases h
        exact hi.still rfl (quieter_logged (fun _ _ _ he => by cases he) rfl)
      · cases h; exact hi.still rfl hsame
  | invalidate n id =>
    simp only [MailboxRelay.exec] at h
    split_ifs at h
    · cases h; exact hi.still rfl hsame
    · cases h; exact hi.still rfl hsame
    · split at h
      · cases h
        exact hi.still rfl (quieter_logged (fun _ _ _ he => by cases he) rfl)
      · cases h; exact hi.still rfl hsame
  | getEnvelopeBatch n m limit cursor =>
    simp only [MailboxRelay.exec] at h
    by_cases hf : v.failed = true
    · rw [if_pos hf] at h
      cases h; exact hi.still rfl hsame
    rw [if_neg hf] at h
    cases hd : decodeMailboxCursor cursor with
    | none => rw [hd] at h; cases h; exact hi.still rfl hsame
    | some c =>
      rw [hd] at h
      simp only at h
      by_cases hl : limit ≤ 0
      · rw [if_pos hl] at h
        cases h
        exact hi.returned fun hne => absurd rfl hne
      · rw [if_neg hl] at h
        split_ifs at h with ho
        cases h
        exact hi.returned (readBatch_token hi.relay ho hl)
  | deleteEnvelope n m id =>
    simp only [MailboxRelay.exec] at h
    split_ifs at h
    · cases h; exact hi.still rfl hsame
    · cases h
      exact hi.relay_step (a := .delete m id) rfl rfl rfl
        (quieter_logged (fun _ _ _ he => by cases he) rfl)
  | background a =>
    obtain ⟨w₁, hb, he⟩ := Option.map_eq_some_iff.1 h
    cases he
    cases a with
    | relay a =>
      simp only [MailboxRelay.background] at hb
      split_ifs at hb with ho
      obtain ⟨relay, hst, rfl⟩ := Option.map_eq_some_iff.1 hb
      exact hi.relay_step hst rfl (Authority.relay_keeps ho hst).1 hsame
    | devices a =>
      obtain ⟨devices, -, rfl⟩ := Option.map_eq_some_iff.1 hb
      exact hi.still rfl hsame

/-! ## The handlers -/

section
variable {α β : Type} {K : MailboxRelay → Prop}

theorem own (w w' : MailboxRelay) (h : (tokens cfg ttl).guar w w') : (tokens cfg ttl).rely w w' :=
  h.issued

theorem exec_contract {c : MailboxCall} {v : Occasion} {r : Except Refusal c.Answer} (hc : NoMark c)
    (hi : (tokens cfg ttl).inv w) (h : (tokens cfg ttl).exec c v w = some (r, w')) :
    (tokens cfg ttl).inv w' ∧ (tokens cfg ttl).guar w w' := exec_safe hc hi h

/-- A part of a handler that records no position. -/
theorem only_safe {p : Route α} (hp : p.Only NoMark) :
    (tokens cfg ttl).Safe (fun _ _ => True) K p :=
  Safe.only (fun _ _ _ _ _ hc hi _ h => exec_contract hc hi h) hp

theorem plain_seq {p : Route α} {f : α → Route β} (hK : (tokens cfg ttl).Stable K)
    (hp : p.Only NoMark) (hf : ∀ a, (tokens cfg ttl).Safe (fun _ _ => True) K (f a)) :
    (tokens cfg ttl).Safe (fun _ _ => True) K (p >>= f) := by
  have hgives : (tokens cfg ttl).Safe (Gives fun _ _ => True) K p :=
    (only_safe hp).post fun _ _ _ _ _ _ => trivial
  exact Safe.seq hK own hgives (fun a => (hf a).weaken fun _ _ h => h.1) fun _ _ => trivial

theorem noMark_of_quiet {p : Route α} (hp : p.Only MailboxCall.Quiet) : p.Only NoMark := by
  refine hp.mono fun c hc => ?_
  cases c with
  | advanceReadMark => exact hc.elim
  | _ => trivial

/-- A device that is authorized belongs to a mailbox that an identity derives. -/
theorem authorize_safe (n : ℕ) (m d : Text) : (tokens cfg ttl).Safe
    (Gives fun _ _ => ':' ∉ m) (fun _ => True) (MailboxRoutes.authorize n m d) := by
  refine Safe.bind (M := fun r _ => ∀ record, r = .ok (.ok record) → ':' ∉ m)
    (Safe.perform (fun _ => .const) fun v w r w' hi _ _ hx =>
      ⟨exec_contract (c := .authorize n m d) trivial hi hx, fun record hr => ?_⟩)
    (fun answer => ?_) fun e w _ _ a h => by cases h
  · subst hr
    have hx : MailboxRelay.exec cfg ttl (.authorize n m d) v w = some (.ok (.ok record), w') := hx
    simp only [MailboxRelay.exec] at hx
    by_cases hf : v.failed = true
    · rw [if_pos hf] at hx
      cases hx
    rw [if_neg hf] at hx
    cases ha : authorizeMailboxDevice deriveMailboxID w.devices.db m d with
    | error e => rw [ha] at hx; cases hx
    | ok found =>
      rw [← (authorizeMailboxDevice_ok.1 ha).2.2.2]
      exact colon_notMem_hashOf _
  · cases answer with
    | ok record => exact fun w _ hk a _ => hk record rfl
    | error e => exact fun w _ _ a h => by cases h

/-- A position that is reported is found issued. -/
theorem withinIssued_safe (m : Text) (readThrough : Option Text) (position : ℕ) :
    (tokens cfg ttl).Safe (Gives fun _ w => readThrough.isSome = true →
        position ≤ highestIssuedPosition w.relay.db m) (fun _ => True)
      (withinIssuedOf m readThrough position) := by
  have hst : (tokens cfg ttl).Stable fun w => position ≤ highestIssuedPosition w.relay.db m :=
    fun w w' _ _ hr hp => hp.trans (hr m)
  unfold withinIssuedOf
  by_cases hs : readThrough.isSome = true
  · rw [if_pos hs]
    refine Safe.bind (M := fun r w => ∀ highest, r = .ok (some highest) → position ≤ highest →
        position ≤ highestIssuedPosition w.relay.db m)
      (Safe.perform (fun r => ?_) fun v w r w' hi _ _ hx =>
        ⟨exec_contract (c := .highestIssued m) trivial hi hx, fun highest hr hp => ?_⟩)
      (fun answer => ?_) fun e w _ _ a h => by cases h
    · exact fun w w' hi hi' hr hk highest he hp => hst w w' hi hi' hr (hk highest he hp)
    · subst hr
      have hx : MailboxRelay.exec cfg ttl (.highestIssued m) v w = some (.ok (some highest), w') := hx
      simp only [MailboxRelay.exec] at hx
      split_ifs at hx with hf
      · cases hx
      · cases hx
        exact hp
    · cases answer with
      | none => exact fun w _ _ a h => by cases h
      | some highest =>
        cases hw : withinIssued readThrough position highest with
        | error e =>
          change (tokens cfg ttl).Safe _ _ (.done (withinIssued readThrough position highest))
          rw [hw]
          exact fun w _ _ a h => by cases h
        | ok u =>
          change (tokens cfg ttl).Safe _ _ (.done (withinIssued readThrough position highest))
          rw [hw]
          intro w _ hk a _ _
          refine hk highest rfl ?_
          unfold withinIssued at hw
          split_ifs at hw with hc
          by_contra hlt
          exact hc ⟨hs, not_le.1 hlt⟩
  · rw [if_neg hs]
    exact fun w _ _ a _ h => absurd h hs

/-- A position that is found issued is recorded. -/
theorem recordPosition_safe {n position : ℕ} {m d : Text} {readThrough : Option Text}
    (hm : ':' ∉ m) : (tokens cfg ttl).Safe (fun _ _ => True)
      (fun w => readThrough.isSome = true → position ≤ highestIssuedPosition w.relay.db m)
      (recordPosition n m d readThrough position) := by
  unfold recordPosition
  by_cases hs : readThrough.isSome = true
  · rw [if_pos hs]
    refine Safe.bind (M := fun _ _ => True)
      (Safe.perform (fun _ => .true) fun v w r w' hi hk _ hx => ⟨?_, trivial⟩)
      (fun answer => only_safe (noMark_of_quiet (Refusals.need_only answer _)))
      fun _ _ _ _ => trivial
    have hx : MailboxRelay.exec cfg ttl (.advanceReadMark n m d position) v w = some (r, w') := hx
    have hi : TokenInv cfg w := hi
    simp only [MailboxRelay.exec] at hx
    by_cases hf : v.failed = true
    · rw [if_pos hf] at hx
      cases hx
      exact hi.still rfl fun hm => hm
    · rw [if_neg hf] at hx
      cases hx
      exact hi.advance hm (hk hs) rfl
  · rw [if_neg hs]
    exact fun _ _ _ => trivial

theorem resumeCursor_only (req : SignedPollRequest) : (resumeCursor req).Only NoMark := by
  unfold resumeCursor
  split_ifs
  · refine Program.Only.bind (Program.Only.perform trivial) fun answer => ?_
    exact Program.Only.bind (Refusals.need_only answer _) fun mark => trivial
  · trivial

theorem selectBatch_only (n : ℕ) (m : Text) (limit : ℤ) (cursor : Text) :
    (selectBatch n m limit cursor).Only NoMark := by
  refine Program.Only.bind (Program.Only.perform trivial) fun answer => ?_
  cases answer <;> trivial

theorem deleteEnvelopes_only (n : ℕ) (m : Text) : ∀ ids, (deleteEnvelopes n m ids).Only NoMark
  | [] => trivial
  | _ :: ids => Program.Only.bind (Program.Only.perform trivial) fun answer =>
      Program.Only.bind (Refusals.need_only answer _) fun _ => deleteEnvelopes_only n m ids

/-- What follows the verification of a request that may report a position. -/
theorem report_safe {m : Text} (hm : ':' ∉ m) {n position : ℕ} {d : Text}
    {readThrough : Option Text} {p : Route Unit} {f : Route β} (hp : p.Only NoMark)
    (hf : f.Only NoMark) : (tokens cfg ttl).Safe (fun _ _ => True) (fun _ => True) (do
      withinIssuedOf m readThrough position
      p
      recordPosition n m d readThrough position
      f) := by
  have hst : (tokens cfg ttl).Stable fun w =>
      readThrough.isSome = true → position ≤ highestIssuedPosition w.relay.db m :=
    fun w w' _ _ hr hk hs => (hk hs).trans (hr m)
  refine Safe.seq .true own (withinIssued_safe m readThrough position) (fun _ => ?_)
    fun _ _ => trivial
  refine Safe.weaken (fun _ _ hk => hk.2) (plain_seq hst hp fun _ => ?_)
  exact Safe.bind (recordPosition_safe hm) (fun _ => only_safe hf) fun _ _ _ _ => trivial

theorem pollMailbox_safe (req : SignedPollRequest) : (tokens cfg ttl).Safe (fun _ _ => True)
    (fun _ => True) (MailboxRoutes.pollMailbox ed25519 cfg req) := by
  unfold MailboxRoutes.pollMailbox
  refine plain_seq .true (Program.Only.perform trivial) fun n => ?_
  refine plain_seq (p := .done (checkPollShape req)) .true trivial fun position => ?_
  refine plain_seq .true (Program.Only.perform trivial) fun answer => ?_
  refine plain_seq .true (Refusals.need_only answer _) fun challenge => ?_
  refine plain_seq (p := .done (checkPollChallenge req challenge)) .true trivial fun _ => ?_
  refine Safe.seq .true own (authorize_safe n _ _) (fun record => Safe.assume fun hm => ?_)
    fun _ _ => trivial
  refine plain_seq .true (noMark_of_quiet (Refusals.verifySignature_only _ _ record)) fun _ => ?_
  refine report_safe hm (noMark_of_quiet (Refusals.consume_only n _)) ?_
  exact Program.Only.bind (resumeCursor_only req) fun cursor =>
    Program.Only.bind (selectBatch_only n _ _ cursor) fun batch => trivial

theorem ackMailbox_safe (req : AckRequest) : (tokens cfg ttl).Safe (fun _ _ => True)
    (fun _ => True) (ackMailbox ed25519 cfg req) := by
  unfold ackMailbox
  refine plain_seq .true (Program.Only.perform trivial) fun n => ?_
  refine plain_seq (p := .done (checkAckShape cfg req)) .true trivial fun position => ?_
  refine Safe.seq .true own (authorize_safe n _ _) (fun record => Safe.assume fun hm => ?_)
    fun _ _ => trivial
  refine plain_seq .true (noMark_of_quiet (Refusals.verifySignature_only _ _ record)) fun _ => ?_
  exact report_safe hm (deleteEnvelopes_only n _ req.envelopeIds) trivial

/-- **The handlers keep the positions in order.** -/
theorem serve_safe (job : MailboxRequest ⊕ Background) : (tokens cfg ttl).Safe (fun _ _ => True)
    (fun _ => True) (MailboxRoutes.serve ed25519 cfg job) := by
  cases job with
  | inr a => exact only_safe (Program.Only.bind (Program.Only.perform trivial) fun _ => trivial)
  | inl req =>
    cases req with
    | poll req => exact pollMailbox_safe req
    | ack req => exact ackMailbox_safe req
    | challenge req =>
      refine only_safe (Program.Only.bind (Program.Only.perform trivial) fun n => ?_)
      refine Program.Only.bind (p := .done (checkChallengeShape req)) trivial fun _ => ?_
      refine Program.Only.bind (noMark_of_quiet (Refusals.authorize_only n _ _)) fun record => ?_
      refine Program.Only.bind (noMark_of_quiet (Refusals.verifySignature_only _ _ record))
        fun _ => ?_
      refine Program.Only.bind (Program.Only.perform trivial) fun challenge => ?_
      exact Program.Only.bind (Refusals.need_only challenge _) fun _ => trivial

end

end Tokens

/-! ## Runs -/

section
variable {ed25519 : List ℕ → Text → List ℕ → Bool} {cfg : RelayConfig} {ttl : ℤ}
  {C : MailboxProcesses → PoolAct (MailboxRequest ⊕ Background) Occasion → Prop}
  {s s' : MailboxProcesses}

/-- A run keeps the invariant and only moves forward. -/
theorem MailboxProcesses.forward (h : Run (MailboxProcesses.step ed25519 cfg ttl) C s s')
    (hs : Contract.Ok (tokens cfg ttl) (fun _ _ => True) s) :
    Contract.Ok (tokens cfg ttl) (fun _ _ => True) s' ∧ Forward s.shared s'.shared := by
  have hrun : Run (Pool.step (tokens cfg ttl).exec (MailboxRoutes.serve ed25519 cfg))
      (Pool.Meets (tokens cfg ttl).allowed) s s' := by
    refine h.mono fun t a _ => ?_
    unfold Pool.Meets
    split
    · split <;> trivial
    · trivial
  obtain ⟨hs', hf⟩ := Contract.Ok.run Tokens.own Tokens.serve_safe
    (T := fun w w' => TokenInv cfg w → Forward w w') (fun w _ => .refl_of rfl)
    (fun u w w' _ _ hT hg hi => (hT hi).trans hi hg) hrun hs
  exact ⟨hs', hf hs.inv⟩

/-- The relay before any request, with an empty store. -/
theorem MailboxProcesses.ok_init (now : ℕ) (devices : DeviceState) :
    Contract.Ok (tokens cfg ttl) (fun _ _ => True)
      (MailboxProcesses.init (.init now) devices) :=
  Contract.Ok.idle ⟨Relay.Inv.init now, fun h => (by cases h), fun h => by cases h⟩

/-- **The relay accepts the tokens it issued, and marks are bounded and monotone.**  In every
    run of any number of requests: every stored mark is at most the highest position its mailbox
    has issued; and from then on a cursor that was returned for a mailbox is accepted as a cursor
    and as a reported position, as long as the mailbox has issued fewer than `10 ^ 15` positions,
    and a mark that has not expired only moves up. -/
theorem issued_tokens {now : ℕ} {devices : DeviceState}
    (h : Run (MailboxProcesses.step ed25519 cfg ttl) C (.init (.init now) devices) s) :
    (∀ key item, s.shared.relay.db.readMark key = some item → ∃ m d,
      key = mailboxReadMarkKey m d ∧ ':' ∉ m ∧
        item.value ≤ highestIssuedPosition s.shared.relay.db m) ∧
    ∀ s', Run (MailboxProcesses.step ed25519 cfg ttl) C s s' →
      (∀ n m batch, .returned n m batch ∈ s.shared.log → batch.nextCursor ≠ [] →
        highestIssuedPosition s'.shared.relay.db m < 10 ^ 15 →
        ∃ c, decodeMailboxCursor batch.nextCursor = some c ∧
          decodeReadThroughShape (some batch.nextCursor) = .ok c ∧
          withinIssued (some batch.nextCursor) c
            (highestIssuedPosition s'.shared.relay.db m) = .ok ()) ∧
      ∀ m d item, s.shared.relay.db.readMark (mailboxReadMarkKey m d) = some item →
        item.Live (seconds s'.shared.relay.now) →
        item.value ≤ readMark s'.shared.relay.db s'.shared.relay.now m d := by
  obtain ⟨hok, -⟩ := MailboxProcesses.forward h (MailboxProcesses.ok_init now devices)
  have hi : TokenInv cfg s.shared := hok.inv
  refine ⟨fun key item hk => (hi.marks hk).1, fun s' hrun => ?_⟩
  obtain ⟨-, hf⟩ := MailboxProcesses.forward hrun hok
  constructor
  · intro n m batch hb hne hlt
    obtain ⟨c, hc, hle⟩ := hi.tokens hb hne
    have hle' := hle.trans (hf.issued m)
    have hdec : decodeMailboxCursor batch.nextCursor = some c := by
      rw [hc, decodeMailboxCursor_encodeMailboxCursor]
      exact if_pos (hle'.trans_lt hlt)
    refine ⟨c, hdec, ?_, ?_⟩
    · simp only [decodeReadThroughShape]
      rw [if_neg hne, hdec]
    · rw [withinIssued, if_neg fun hc => absurd hc.2 (not_lt.2 hle')]
  · intro m d item hk hl
    obtain ⟨item', hk', hv, hx⟩ := hf.marks hk hl
    have hl' := live_of_later (hi.marks hk).2.1 hx hl
    rw [readMark, markItem, hk', Option.filter_some, if_pos (decide_eq_true hl')]
    exact hv

end

/-- The device polls a mailbox of two envelopes for one of them, then reports it. -/
def walkingRun : List (PoolAct (MailboxRequest ⊕ Background) Occasion) :=
  inBackground (.devices (.save redeemingDevice)) ++
  inBackground (.relay (.backfillScan redeemingMailbox)) ++
  inBackground (.relay (.backfillFinish redeemingMailbox)) ++
  inBackground (.relay (.save (note redeemingMailbox ['a'] '0') 5000)) ++
  inBackground (.relay (.save (note redeemingMailbox ['a'] '1') 5000)) ++
  .start 1 (.inl (.challenge ⟨redeemingMailbox, ['d'], List.replicate 86 'A'⟩)) ::
    List.replicate 3 (.step 1 onOccasion) ++
  .start 2 (.inl (.poll { redeemingPoll with readThrough := none, batchSize := 1 })) ::
    List.replicate 6 (.step 2 onOccasion) ++
  .start 3 (.inl (.ack ⟨redeemingMailbox, ['d'], [], List.replicate 86 'A', some ['1']⟩)) ::
    List.replicate 4 (.step 3 onOccasion)

/-- The cursors that were returned, with their mailboxes. -/
def returnedCursors (log : List MailboxEvent) : List (Text × Text) := log.filterMap fun event =>
  match event with
  | .returned _ m batch => if batch.nextCursor = [] then none else some (m, batch.nextCursor)
  | _ => none

theorem walkingRun_isSome : (replay redeemingStep Any walkingRun redeemingStart).isSome = true := by
  decide +kernel

def walkingState : MailboxProcesses :=
  (replay redeemingStep Any walkingRun redeemingStart).get walkingRun_isSome

/-- The cursor of that page is accepted, and its mark stands. -/
theorem issued_tokens_walk :
    returnedCursors walkingState.shared.log = [(redeemingMailbox, ['1'])] ∧
    (∃ c, decodeMailboxCursor ['1'] = some c ∧ withinIssued (some ['1']) c
      (highestIssuedPosition walkingState.shared.relay.db redeemingMailbox) = .ok ()) ∧
    ∃ item, walkingState.shared.relay.db.readMark (mailboxReadMarkKey redeemingMailbox ['d']) =
      some item ∧ item.value ≤ readMark walkingState.shared.relay.db
        walkingState.shared.relay.now redeemingMailbox ['d'] := by
  have hrun : Run redeemingStep Any redeemingStart walkingState :=
    Run.of_replay (Option.some_get _).symm
  have hlog : returnedCursors walkingState.shared.log = [(redeemingMailbox, ['1'])] := by
    decide +kernel
  obtain ⟨ht, hm⟩ := (issued_tokens hrun).2 walkingState .refl
  refine ⟨hlog, ?_, ?_⟩
  · have hmem : (redeemingMailbox, ['1']) ∈ returnedCursors walkingState.shared.log := by
      rw [hlog]; simp
    obtain ⟨event, he, hev⟩ := List.mem_filterMap.1 hmem
    split at hev
    · split_ifs at hev with hne
      rw [Option.some.injEq, Prod.mk.injEq] at hev
      obtain ⟨rfl, hcursor⟩ := hev
      obtain ⟨c, hc, -, hw⟩ := ht _ _ _ he hne (by decide +kernel)
      rw [hcursor] at hc hw
      exact ⟨c, hc, hw⟩
    · cases hev
  · have hlive : (walkingState.shared.relay.db.readMark (mailboxReadMarkKey redeemingMailbox ['d'])).map
        (fun i => decide (i.Live (seconds walkingState.shared.relay.now))) = some true := by
      decide +kernel
    obtain ⟨item, hk, hl⟩ := Option.map_eq_some_iff.1 hlive
    exact ⟨item, hk, hm _ _ item hk (of_decide_eq_true hl)⟩

end Echolet
