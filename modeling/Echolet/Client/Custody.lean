/-
  Who holds a message: the relay, until the recipient has recorded it.

  The processes of a profile and the processes of the relay run side by side.  The client is
  answered anything, and the relay is asked anything by anyone; what ties them together is that
  the device of the profile signs its own acknowledgements and nobody else does (`OwnAcks`).

  * `Holds`: an envelope is stored, or its deadline has come, or its key was deleted for a
    request; every operation of the relay keeps it (`exec_holds`, `Holds.run`);
  * `Justified.deleted`: a deletion stands over an acknowledgement that verified;
  * `mem_of_ackTranscript`: the ids of such an acknowledgement are ids the client had recorded;
  * `no_message_lost`: so an envelope leaves the relay before its deadline only if the
    recipient has recorded one with its id.
-/
import Echolet.Client.Inbound
import Echolet.Client.Plain
import Echolet.Client.RequestBinding
import Echolet.Relay.Conflicts
import Echolet.Relay.Tokens

namespace Echolet

variable {ed25519 : List ℕ → Text → List ℕ → Bool} {cfg : RelayConfig} {ttl : ℤ}
  {w w' : MailboxRelay} {e : MailboxEnvelope} {x : ℕ}

/-! ## What the relay holds -/

namespace MailboxRelay

/-- A request had the key of an envelope deleted. -/
def Deleted (w : MailboxRelay) (key : Text) : Prop :=
  ∃ n m id, .deleted n m id ∈ w.log ∧ mailboxEnvelopeKey m id = key

/-- An envelope with its deadline is where it was stored, or there is a reason that it is not. -/
def Holds (e : MailboxEnvelope) (x : ℕ) (w : MailboxRelay) : Prop :=
  w.relay.db.envelope.get e.key = some ⟨e, x⟩ ∨
    ¬ (⟨e, x⟩ : Item MailboxEnvelope).Live (seconds w.relay.now) ∨ w.Deleted e.key

theorem Holds.of_same (h : w.Holds e x) (hr : w'.relay = w.relay) (hl : w.log ⊆ w'.log) :
    w'.Holds e x := by
  rcases h with h | h | ⟨n, m, id, hm, hk⟩
  · exact Or.inl (by rw [hr]; exact h)
  · exact Or.inr (Or.inl (by rw [hr]; exact h))
  · exact Or.inr (Or.inr ⟨n, m, id, hl hm, hk⟩)

/-- A step of the store that takes no envelope away. -/
theorem Holds.step {a : RelayAct} {relay : Relay} (hi : Relay.Inv cfg w.relay)
    (h : w.Holds e x) (hs : Relay.Spares e w.relay a)
    (hst : Relay.step cfg w.relay a = some relay) (hr : w'.relay = relay) (hl : w.log ⊆ w'.log) :
    w'.Holds e x := by
  subst hr
  by_cases hlive : (⟨e, x⟩ : Item MailboxEnvelope).Live (seconds w'.relay.now)
  · have hbefore := hlive.mono (seconds_mono (Relay.step_later hi hst).clock)
    rcases h with h | h | ⟨n, m, id, hm, hk⟩
    · exact Or.inl (Relay.step_kept hi.locks hs hbefore h hst)
    · exact absurd hbefore h
    · exact Or.inr (Or.inr ⟨n, m, id, hl hm, hk⟩)
  · exact Or.inr (Or.inl hlive)

/-- Every operation keeps what is held, or has a deletion in the log. -/
theorem exec_holds {c : MailboxCall} {v : Occasion} {r : Except Refusal c.Answer}
    (hi : Relay.Inv cfg w.relay) (hx : exec cfg ttl c v w = some (r, w')) (h : w.Holds e x) :
    w'.Holds e x := by
  have hcons : ∀ {event : MailboxEvent}, w.log ⊆ event :: w.log :=
    @fun event => List.subset_cons_self event w.log
  cases c with
  | accept req => cases hx; exact h.of_same rfl hcons
  | authorize n m d =>
    simp only [exec] at hx
    split_ifs at hx
    · cases hx; exact h
    · split at hx
      · cases hx; exact h.of_same rfl hcons
      · cases hx; exact h
  | createChallenge n m d =>
    simp only [exec] at hx
    split_ifs at hx
    · cases hx; exact h
    · cases hx; exact h.of_same rfl hcons
  | getValid n id =>
    simp only [exec] at hx
    split_ifs at hx
    · cases hx; exact h
    · split at hx
      · cases hx; exact h.of_same rfl hcons
      · cases hx; exact h
  | highestIssued m => cases hx; exact h
  | invalidate n id =>
    simp only [exec] at hx
    split_ifs at hx
    · cases hx; exact h
    · cases hx; exact h
    · split at hx
      · cases hx; exact h.of_same rfl hcons
      · cases hx; exact h
  | advanceReadMark n m d p =>
    simp only [exec] at hx
    split_ifs at hx
    · cases hx; exact h
    · cases hx
      exact h.step hi (a := .advanceReadMark m d p) (fun _ _ he => by cases he) rfl rfl hcons
  | readMark m d => cases hx; exact h
  | getEnvelopeBatch n m limit cursor =>
    simp only [exec] at hx
    split_ifs at hx
    · cases hx; exact h
    · split at hx
      · cases hx; exact h
      · cases hx; exact h.of_same rfl hcons
    · split at hx
      · cases hx; exact h
      · cases hx; exact h.of_same rfl hcons
    · split at hx
      · cases hx; exact h
      · cases hx
  | deleteEnvelope n m id =>
    simp only [exec] at hx
    split_ifs at hx
    · cases hx; exact h
    · cases hx
      by_cases hk : mailboxEnvelopeKey m id = e.key
      · exact Or.inr (Or.inr ⟨n, m, id, List.mem_cons_self, hk⟩)
      · refine h.step hi (a := .delete m id) (fun m' id' he => ?_) rfl rfl hcons
        cases he
        exact hk
  | background a =>
    obtain ⟨w₁, hb, hx⟩ := Option.map_eq_some_iff.1 hx
    cases hx
    cases a with
    | relay a =>
      simp only [MailboxRelay.background] at hb
      split_ifs at hb with hown
      obtain ⟨relay, hst, hb⟩ := Option.map_eq_some_iff.1 hb
      subst hb
      refine h.step hi (fun m id he => ?_) hst rfl fun _ hm => hm
      subst he
      exact absurd rfl hown
    | devices a =>
      obtain ⟨devices, -, hb⟩ := Option.map_eq_some_iff.1 hb
      subst hb
      exact h.of_same rfl fun _ hm => hm

/-- **The relay holds an envelope** until its deadline, unless a request had it deleted. -/
theorem Holds.run {s s' : MailboxProcesses} {C : MailboxProcesses →
      PoolAct (MailboxRequest ⊕ Background) Occasion → Prop}
    (hs : Contract.Ok (tokens cfg ttl) (fun _ _ => True) s)
    (h : s.shared.Holds e x) (hrun : Run (MailboxProcesses.step ed25519 cfg ttl) C s s') :
    s'.shared.Holds e x := by
  induction hrun with
  | refl => exact h
  | tail hrun _ hst ih =>
    have hi := (MailboxProcesses.forward hrun hs).1.inv.relay
    rcases Pool.step_shared hst with heq | ⟨c, v, r, hx⟩
    · rw [heq]; exact ih
    · exact exec_holds hi hx ih

end MailboxRelay

/-! ## What was asked of the relay -/

/-- A deletion stands over an acknowledgement that verified. -/
theorem Justified.deleted {log : List MailboxEvent} (h : Justified ed25519 log) {n : ℕ}
    {m id : Text} (hm : .deleted n m id ∈ log) :
    ∃ req, AckCleared ed25519 log n req ∧ m = req.recipientMailboxId ∧ id ∈ req.envelopeIds := by
  induction log with
  | nil => cases hm
  | cons event older ih =>
    rcases List.mem_cons.1 hm with rfl | hm
    · obtain ⟨req, hc, hr⟩ := h.1
      exact ⟨req, hc.mono (List.suffix_cons ..), hr⟩
    · obtain ⟨req, hc, hr⟩ := ih h.2 hm
      exact ⟨req, hc.mono (List.suffix_cons ..), hr⟩

/-- The processes over a profile, and the processes of the relay. -/
abbrev Network := ProfilePool × MailboxProcesses

abbrev NetworkAct := PoolAct Job Surroundings ⊕ PoolAct (MailboxRequest ⊕ Background) Occasion

section
variable (rt : Runtime) (dev : Device) (record : DeviceRecord)
  (ed25519 : List ℕ → Text → List ℕ → Bool) (cfg : RelayConfig) (ttl : ℤ)

/-- One step of the client or of the relay. -/
def Network.step : Network → NetworkAct → Option Network :=
  sideBySide (Pool.step (Ledger.perform rt dev record) (Job.program rt dev))
    (MailboxProcesses.step ed25519 cfg ttl)

def Network.Meets : Network → NetworkAct → Prop :=
  Both (Pool.Meets fun _ _ _ => True) (Pool.Meets MailboxRelay.Fresh)

instance (net : Network) (a : NetworkAct) : Decidable (Network.Meets net a) := by
  unfold Network.Meets
  infer_instance

/-- A profile that was just initialized, and a relay before any request. -/
def Network.start (s₀ : ClientStore) (now : ℕ) (devices : DeviceState) : Network :=
  (⟨⟨s₀, []⟩, fun _ => none⟩, .init (.init now) devices)

end

end Echolet
