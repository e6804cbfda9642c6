/-
  Which calls a command makes.

  A poll walks (`ofWalk`) and then acknowledges (`ofAck`); a send claims, commits and delivers
  (`ofSend`); a publication offers and replaces (`ofPublish`); an import asks and pins
  (`ofImport`).
-/
import Echolet.Client.Messenger

namespace Echolet

namespace ClientCall

def ofWalk : ClientCall → Prop
  | .mailboxAuthorization | .keepMailboxRewalk _ | .finishMailboxRewalk | .acceptOne _
  | .createChallenge | .clock | .pollMailbox _ => True
  | _ => False

def ofAck : ClientCall → Prop
  | .mailboxAuthorization | .pendingAcks | .ackMailbox _ | .forgetAcks _ => True
  | _ => False

def ofPoll (c : ClientCall) : Prop := c = .pendingMailboxRewalk ∨ c.ofWalk ∨ c.ofAck

def ofDelivery : ClientCall → Prop
  | .checkRetry _ | .sendEnvelope _ | .setDelivered _ => True
  | _ => False

def ofClaim : ClientCall → Prop
  | .claimBundle _ _ _ | .clock | .replaceClaim _ => True
  | _ => False

def ofSend (c : ClientCall) : Prop :=
  c.ofDelivery ∨ c.ofClaim ∨ match c with
  | .readOutbox _ | .listContacts | .hasPublication | .claimIdentifier _ _
  | .commitMessage _ _ _ _ | .pendingOutbox => True
  | _ => False

def ofPublish : ClientCall → Prop
  | .restorePublicationPool | .replacePublicationSlot _ | .publishBundle _ => True
  | _ => False

def ofImport : ClientCall → Prop
  | .clock | .confirm _ | .importContact _ => True
  | _ => False

end ClientCall

open Program (Only)

variable {rt : Runtime} {dev : Device} {P : ClientCall → Prop}

theorem only_throw {α : Type} {e : Failure} : Only P (throw e : Messenger α) := trivial

theorem serial_only {α : Type} {known : Failure → Bool} {code : Failure} {p : Messenger α}
    (h : p.Only P) : (serial known code p).Only P :=
  h.recover fun _ => trivial

/-! ## The inbox -/

theorem readPage_only {request : PollRequest} : (readPage request).Only ClientCall.ofWalk := by
  refine (Only.perform trivial).bind fun _ => ?_
  refine (Only.perform trivial).bind fun t => ?_
  refine (Only.perform trivial).bind fun now => ?_
  have hrest : Only ClientCall.ofWalk
      (do perform .mailboxAuthorization; perform (.pollMailbox request) : Messenger MailboxPage) :=
    (Only.perform trivial).bind fun _ => .perform trivial
  split_ifs
  · exact only_throw
  · exact hrest

theorem judge_only {e : MailboxEnvelope} : (judge e).Only ClientCall.ofWalk := by
  refine Only.recover ((Only.perform trivial).bind fun _ => trivial) fun f => ?_
  split_ifs <;> trivial

theorem accept_only : ∀ {xs : List (ℕ × MailboxEnvelope)}, (accept xs).Only ClientCall.ofWalk
  | [] => trivial
  | _ :: _ => judge_only.bind fun _ => accept_only.bind fun _ => trivial

theorem advanceRewalk_only {walk : PollWalk} {nextCursor : Option Text} :
    (advanceRewalk walk nextCursor).Only ClientCall.ofWalk := by
  unfold advanceRewalk
  split
  · trivial
  · exact .perform trivial
  · exact .perform trivial

theorem walkPages_only : ∀ {n : ℕ} {walk : PollWalk},
    (walkPages dev n walk).Only ClientCall.ofWalk
  | 0, _ => trivial
  | n + 1, walk => by
    refine readPage_only.bind fun batch => accept_only.bind fun js => advanceRewalk_only.bind
      fun _ => ?_
    dsimp only
    split
    · trivial
    · exact walkPages_only

theorem ackChunks_only : ∀ {n : ℕ} {ids : List Text}, (ackChunks n ids).Only ClientCall.ofAck
  | 0, _ => trivial
  | n + 1, ids => by
    unfold ackChunks
    split_ifs
    · trivial
    · exact (Only.perform trivial).bind fun _ => (Only.perform trivial).bind fun _ =>
        (Only.perform trivial).bind fun _ => ackChunks_only

theorem ackPending_only : ackPending.Only ClientCall.ofAck :=
  (Only.perform trivial).bind fun _ => ackChunks_only.bind fun _ => trivial

theorem poll_only : (poll dev).Only ClientCall.ofPoll := by
  have hack : Only ClientCall.ofPoll ackPending :=
    ackPending_only.mono fun _ hc => Or.inr (Or.inr hc)
  refine serial_only ((Only.perform (P := ClientCall.ofPoll) (Or.inl rfl)).bind fun rewalk => ?_)
  refine (walkPages_only.mono fun _ hc => Or.inr (Or.inl hc)).bind fun walk => ?_
  split
  · split_ifs
    · exact only_throw
    · exact hack.bind fun _ => trivial
  · exact hack.bind fun _ => trivial

theorem retryPendingAcks_only : retryPendingAcks.Only ClientCall.ofPoll :=
  serial_only (ackPending_only.mono fun _ hc => Or.inr (Or.inr hc))

/-! ## The outbox -/

theorem deliver_only {record : Outbox} : (deliver record).Only ClientCall.ofDelivery := by
  unfold deliver
  split_ifs
  · trivial
  · exact (Only.perform trivial).bind fun _ => (Only.perform trivial).bind fun _ =>
      (Only.perform trivial).bind fun _ => trivial

theorem settle_only {record : Outbox} {hash : Text} :
    (settle record hash).Only ClientCall.ofDelivery := by
  unfold settle
  split_ifs
  · exact only_throw
  · exact deliver_only

theorem claimBundle_only {contact : ContactIdentifiers} {claimId : Text} :
    (claimBundle rt contact claimId).Only ClientCall.ofClaim := by
  refine (Only.perform trivial).bind fun bundle => (Only.perform trivial).bind fun now => ?_
  split_ifs
  · exact only_throw
  · trivial
  · split <;> trivial

theorem claimFirstContact_only {contact : ContactIdentifiers} {claimId : Text} :
    (claimFirstContact rt contact claimId).Only ClientCall.ofClaim := by
  refine claimBundle_only.bind fun verified => ?_
  split
  · trivial
  · refine (Only.perform trivial).bind fun claimId => claimBundle_only.bind fun verified => ?_
    split <;> trivial

theorem claimIfNeeded_only {contact : ContactIdentifiers} {claimId : Option Text} :
    (claimIfNeeded rt contact claimId).Only ClientCall.ofClaim := by
  cases claimId with
  | none => trivial
  | some claimId => exact claimFirstContact_only.bind fun _ => trivial

theorem sendTo_only {input : SendInput} {contact : ContactIdentifiers} {address : Text} :
    (sendTo rt input contact address).Only ClientCall.ofSend := by
  refine (Only.perform (P := ClientCall.ofSend) (Or.inr (Or.inr trivial))).bind fun claimId => ?_
  refine (claimIfNeeded_only.mono fun _ hc => Or.inr (Or.inl hc)).bind fun claimed => ?_
  refine (Only.perform (P := ClientCall.ofSend) (Or.inr (Or.inr trivial))).bind fun outcome => ?_
  split_ifs
  · exact (settle_only.mono fun _ hc => Or.inl hc).bind fun _ => trivial
  · exact (deliver_only.mono fun _ hc => Or.inl hc).bind fun _ => trivial

theorem send_only {input : SendInput} : (send rt input).Only ClientCall.ofSend := by
  unfold send
  split_ifs
  · refine serial_only ((Only.perform (P := ClientCall.ofSend) (Or.inr (Or.inr trivial))).bind fun record => ?_)
    split
    · exact settle_only.mono fun _ hc => Or.inl hc
    · refine (Only.perform (P := ClientCall.ofSend) (Or.inr (Or.inr trivial))).bind fun contacts => ?_
      split
      · exact only_throw
      · refine (Only.perform (P := ClientCall.ofSend) (Or.inr (Or.inr trivial))).bind fun published => ?_
        split_ifs
        · exact only_throw
        · split
          · exact only_throw
          · exact sendTo_only
  · exact only_throw

theorem deliverAll_only : ∀ {records : List Outbox},
    (deliverAll records).Only ClientCall.ofDelivery
  | [] => trivial
  | _ :: _ => deliver_only.bind fun _ => deliverAll_only.bind fun _ => trivial

theorem retryPending_only : retryPending.Only ClientCall.ofSend :=
  serial_only ((Only.perform (P := ClientCall.ofSend) (Or.inr (Or.inr trivial))).bind fun _ =>
    deliverAll_only.mono fun _ hc => Or.inl hc)

/-! ## The publication pool -/

theorem offer_only {member : WireBundle} : (offer member).Only ClientCall.ofPublish := by
  refine Only.recover (.perform trivial) fun e => ?_
  split_ifs <;> trivial

theorem offerAll_only : ∀ {slot : ℕ} {members : List WireBundle},
    (offerAll slot members).Only ClientCall.ofPublish
  | _, [] => trivial
  | _, _ :: _ => offer_only.bind fun _ => offerAll_only.bind fun _ => trivial

theorem replaceAll_only : ∀ {slots : List ℕ} {members : List WireBundle},
    (replaceAll slots members).Only ClientCall.ofPublish
  | [], _ => trivial
  | _ :: _, _ => (Only.perform trivial).bind fun _ => (Only.perform trivial).bind fun _ =>
      replaceAll_only.bind fun _ => trivial

theorem publish_only : publish.Only ClientCall.ofPublish :=
  serial_only ((Only.perform trivial).bind fun _ => offerAll_only.bind fun _ =>
    replaceAll_only.bind fun _ => trivial)

/-! ## Contacts -/

theorem importContactCard_only {card : WireBundle} :
    (importContactCard rt card).Only ClientCall.ofImport := by
  unfold importContactCard
  split_ifs
  · exact only_throw
  · refine (Only.perform trivial).bind fun now => ?_
    split
    · exact only_throw
    · refine (Only.perform trivial).bind fun confirmed => ?_
      split_ifs
      · exact .perform trivial
      · trivial

/-! ## The commands -/

/-- Calls that settle an acknowledgement, with the relay or in the store. -/
def ClientCall.settles : ClientCall → Prop
  | .ackMailbox _ | .forgetAcks _ => True
  | _ => False

section
variable {V W : Type} {R : Contract ClientCall ClientCall.Answer Failure V W} {K : W → Prop}

/-- A poll is safe where acknowledging is, and any other call at any time. -/
theorem poll_settles (hquiet : ∀ c v w r w', ¬ c.settles → R.inv w → R.allowed c v w →
      R.exec c v w = some (r, w') → R.inv w' ∧ R.guar w w')
    (hack : ∀ K, R.Safe (fun _ _ => True) K ackPending) :
    R.Safe (fun _ _ => True) K (poll dev) := by
  have hwalk : ∀ c : ClientCall, c.ofWalk → ¬ c.settles := by
    rintro (_ | _) hc h <;> first | exact hc | exact h
  have hend : ∀ {K : W → Prop} {walk : PollWalk}, R.Safe (fun _ _ => True) K
      (do let _ ← ackPending
          return (⟨walk.received, walk.more, walk.rejected⟩ : PollResult)) :=
    (hack _).bind (fun _ _ _ _ => trivial) fun _ _ _ _ => trivial
  have hrewalk : R.Safe (fun _ _ => True) K (perform .pendingMailboxRewalk) :=
    Contract.Safe.only hquiet ⟨fun h => h, fun _ => trivial⟩
  refine Contract.Safe.recover (M := fun _ _ => True) ?_ (fun _ _ _ _ => trivial)
    fun _ _ _ _ => trivial
  refine hrewalk.bind (fun rewalk => ?_) fun _ _ _ _ => trivial
  refine (Contract.Safe.only hquiet (walkPages_only.mono hwalk)).bind (fun walk => ?_)
    fun _ _ _ _ => trivial
  split
  · split_ifs
    · exact fun _ _ _ => trivial
    · exact hend
  · exact hend

/-- **Every command** is safe where acknowledging is, and any other call at any time. -/
theorem Job.settles (hquiet : ∀ c v w r w', ¬ c.settles → R.inv w → R.allowed c v w →
      R.exec c v w = some (r, w') → R.inv w' ∧ R.guar w w')
    (hack : ∀ K, R.Safe (fun _ _ => True) K ackPending) (j : Job) :
    R.Safe (fun _ _ => True) K (j.program rt dev) := by
  have hsend : ∀ c : ClientCall, c.ofSend → ¬ c.settles := by
    rintro (_ | _) (hc | hc | hc) h <;> first | exact hc | exact h
  have hpublish : ∀ c : ClientCall, c.ofPublish → ¬ c.settles := by
    rintro (_ | _) hc h <;> first | exact hc | exact h
  have himport : ∀ c : ClientCall, c.ofImport → ¬ c.settles := by
    rintro (_ | _) hc h <;> first | exact hc | exact h
  cases j with
  | poll => exact (poll_settles hquiet hack).bind (fun _ _ _ _ => trivial) fun _ _ _ _ => trivial
  | retryPendingAcks =>
    refine Contract.Safe.bind (M := fun _ _ => True) ?_ (fun _ _ _ _ => trivial)
      fun _ _ _ _ => trivial
    exact Contract.Safe.recover (M := fun _ _ => True) (hack _) (fun _ _ _ _ => trivial)
      fun _ _ _ _ => trivial
  | send input =>
    exact Contract.Safe.only hquiet ((send_only.mono hsend).bind fun _ => trivial)
  | retryPending =>
    exact Contract.Safe.only hquiet ((retryPending_only.mono hsend).bind fun _ => trivial)
  | publish => exact Contract.Safe.only hquiet ((publish_only.mono hpublish).bind fun _ => trivial)
  | importContact card =>
    exact Contract.Safe.only hquiet ((importContactCard_only.mono himport).bind fun _ => trivial)

end

end Echolet
