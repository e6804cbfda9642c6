/-
  A re-walk survives interruptions.

  * `RewalkInv T P`: the stored re-walk position and every re-walk in flight stand where
    everything of interest up to them has been offered since step `T`; it goes through every
    step of any number of processes (`RewalkInv.effect`);
  * `OneProcess` runs poll one process after the other; there `SeqInv` keeps the record at or
    behind the page judged last, and `rewalk_crash_safe` says what holds until the record is
    deleted and afterwards.
-/
import Echolet.Client.ReadMark

namespace Echolet

/-- The position a stored re-walk resumes after. -/
def storedPosition (stored : RewalkRecord) : Option ℕ :=
  (pendingMailboxRewalk stored).bind decodeMailboxCursor

/-- Every re-walk position is one the relay accepts. -/
theorem decode_rewalkPosition (t : Text) : ∃ p, decodeMailboxCursor (rewalkPosition t) = some p := by
  unfold rewalkPosition
  split_ifs with h
  · simp only [mailboxRewalkPosition, decide_eq_true_eq] at h
    obtain ⟨h0, h15, hd⟩ := h
    have hne : t ≠ [] := List.length_pos_iff.1 h0
    have hlen : ¬ utf8Length t > maxMailboxCursorDigits := by
      rw [utf8Length_digits (List.all_eq_true.1 hd), maxMailboxCursorDigits]
      omega
    exact ⟨_, by rw [decodeMailboxCursor, if_neg hne, if_neg hlen, parseDecimal, if_pos ⟨hne, hd⟩]⟩
  · exact ⟨0, decode_head⟩

theorem storedPosition_some (t : Text) : ∃ p, storedPosition (some t) = some p :=
  decode_rewalkPosition t

/-- What is kept for a token reads as its position, or as the head. -/
theorem storedPosition_keep {t : Text} {p : ℕ} (h : storedPosition (keepMailboxRewalk t) = some p) :
    decodeMailboxCursor t = some p ∨ p = 0 := by
  have hidem : rewalkPosition (rewalkPosition t) = rewalkPosition t := by
    unfold rewalkPosition
    split_ifs <;> rfl
  change decodeMailboxCursor (rewalkPosition (rewalkPosition t)) = some p at h
  rw [hidem] at h
  unfold rewalkPosition at h
  split_ifs at h
  · exact Or.inl h
  · rw [decode_head] at h
    exact Or.inr (Option.some.inj h).symm

namespace World

variable {cfg : RelayConfig} {dev : Device} {w w' : World} {r r' : Relay}
  {js js' : List ReceivedPage} {T : ℕ} {P : ℕ → Prop}

/-! ## Re-walks in flight -/

def RewalkClient (dev : Device) (T : ℕ) (P : ℕ → Prop) (r : Relay) (js : List ReceivedPage) :
    Client → Prop
  | .idle => True
  | .walking walk | .waiting walk => ∀ t, walk.rewalk = some t → TokenOk dev T P r js t
  | .judging walk p => walk.rewalk.isSome = true → Vouched dev T P r js p.reply.start ∧
    (T ≤ p.since ∨ Vouched dev T P r js p.reply.upto)
  | .recording walk p => walk.rewalk.isSome = true → Vouched dev T P r js p.reply.upto

structure RewalkInv (cfg : RelayConfig) (dev : Device) (T : ℕ) (P : ℕ → Prop) (w : World) :
    Prop where
  base : Base cfg dev w
  since : T ≤ w.steps
  stored : ∀ t, w.rewalk = some t → TokenOk dev T P w.relay w.judged (rewalkPosition t)
  clients : ∀ i, RewalkClient dev T P w.relay w.judged (w.client i)

theorem RewalkClient.grows {c : Client} (h : RewalkClient dev T P r js c)
    (hg : Grows r js r' js') : RewalkClient dev T P r' js' c := by
  cases c with
  | idle => trivial
  | walking walk => exact fun t ht => (h t ht).grows hg
  | waiting walk => exact fun t ht => (h t ht).grows hg
  | judging walk p => exact fun hw => ⟨(h hw).1.grows hg, (h hw).2.imp_right fun h => h.grows hg⟩
  | recording walk p => exact fun hw => (h hw).grows hg

theorem RewalkInv.proc (h : RewalkInv cfg dev T P w) (hb : Base cfg dev w')
    (hg : Grows w.relay w.judged w'.relay w'.judged) (hst : w'.steps = w.steps)
    (hr : ∀ t, w'.rewalk = some t → TokenOk dev T P w'.relay w'.judged (rewalkPosition t)) (i : ℕ)
    (ho : ∀ j, j ≠ i → w'.client j = w.client j)
    (hc : RewalkClient dev T P w'.relay w'.judged (w'.client i)) : RewalkInv cfg dev T P w' := by
  refine ⟨hb, hst ▸ h.since, hr, fun j => ?_⟩
  by_cases hj : j = i
  · rw [hj]; exact hc
  · rw [ho j hj]; exact (h.clients j).grows hg

/-- The walk that goes on after a page. -/
theorem next_walk {walk walk' : PollWalk} {p : ReceivedPage}
    (h : (walk.recorded p.next).next p.page = some walk') :
    walk'.rewalk = walk.rewalk.bind (fun _ => p.next) ∧ walk'.cursor = walk.cursor ∧
      walk'.readThrough = walk.readThrough := by
  unfold PollWalk.next at h
  split_ifs at h
  cases h
  exact ⟨rfl, rfl, rfl⟩

/-- **Re-walks stay behind what was offered**, through every step of every process. -/
theorem RewalkInv.effect {a : Act} (h : RewalkInv cfg dev T P w)
    (he : Effect cfg dev w a w') :
    RewalkInv cfg dev T P w' := by
  have hb := h.base.effect he
  obtain ⟨hi, hg⟩ := he.grows h.base.relay
  have hrw : ∀ t, w.rewalk = some t → TokenOk dev T P w'.relay w'.judged (rewalkPosition t) :=
    fun t ht => (h.stored t ht).grows hg
  have hcl := fun j => (h.clients j).grows hg
  cases he with
  | relay | trust => exact ⟨hb, h.since, hrw, hcl⟩
  | request =>
    refine ⟨hb, h.since, fun t ht => ?_, hcl⟩
    cases ht
    exact TokenOk.rewalkPosition hi (.head hi)
  | @start i hc hq =>
    refine h.proc hb hg rfl hrw i (fun j hj => by simp [hj]) ?_
    simp only [setClient_client, if_true]
    intro t ht
    obtain ⟨stored, hst, rfl⟩ := Option.map_eq_some_iff.1 ht
    exact hrw stored hst
  | @stop i =>
    refine h.proc hb hg rfl hrw i (fun j hj => by simp [hj]) ?_
    simp only [setClient_client, if_true]
    trivial
  | @send i walk hc hq =>
    have hk := hcl i
    rw [hc] at hk
    refine h.proc hb hg rfl hrw i (fun j hj => by simp [hj]) ?_
    simp only [setRequest_client, setClient_client, if_true]
    exact hk
  | @serve i q r hs => exact ⟨hb, h.since, hrw, hcl⟩
  | @deliver i walk reply hc hq =>
    have hk := hcl i
    have hwalk := (h.base.procs i).client
    have hlink := (h.base.procs i).link walk hc
    rw [hc] at hk hwalk
    rw [hq] at hlink
    refine h.proc hb hg rfl hrw i (fun j hj => by simp [hj]) ?_
    simp only [setRequest_client, setClient_client, if_true]
    intro hsome
    obtain ⟨t, ht⟩ := Option.isSome_iff_exists.1 hsome
    -- the page was resumed at the re-walk's own position
    exact ⟨hk t ht _ (hlink t (hwalk.2 t ht)), Or.inl h.since⟩
  | @drop i => exact ⟨hb, h.since, hrw, hcl⟩
  | @judge i walk p x v hc hx =>
    have hk := hcl i
    rw [hc] at hk
    refine h.proc hb hg rfl hrw i (fun j hj => by simp [hj]) ?_
    simp only [setClient_client, if_true]
    exact hk
  | @endPage i walk p hc hlen =>
    have hk := hcl i
    have hs := (h.base.procs i).client.later hg.later
    rw [hc] at hk hs
    refine h.proc hb hg rfl hrw i (fun j hj => by simp [hj]) ?_
    simp only [setClient_client, if_true]
    intro hsome
    obtain ⟨hstart, ht | hup⟩ := hk hsome
    · exact Vouched.page hstart hs.2.2.1 (List.mem_cons_self ..) ht
    · exact hup
  | @record i walk p hc =>
    have hk := hcl i
    have hs := (h.base.procs i).client.later hg.later
    rw [hc] at hk hs
    refine h.proc hb hg rfl (fun t ht => ?_) i (fun j hj => by simp [hj]) ?_
    · simp only [PollWalk.record] at ht
      split at ht
      next => exact hrw t ht
      next => cases ht
      next hw hpos =>
        cases ht
        exact TokenOk.rewalkPosition hi (TokenOk.rewalkPosition hi
          (TokenOk.next (hk (by rw [hw]; rfl)) hs.2.1 hpos))
    · simp only [setClient_client, if_true]
      split
      next walk' hnext =>
        intro t ht
        rw [(next_walk hnext).1] at ht
        obtain ⟨_, hw, ht⟩ := Option.bind_eq_some_iff.1 ht
        exact TokenOk.next (hk (by rw [hw]; rfl)) hs.2.1 ht
      next => trivial

theorem RewalkInv.step {a : Act} (h : RewalkInv cfg dev T P w)
    (hs : w.step cfg dev a = some w') : RewalkInv cfg dev T P w' := by
  obtain ⟨w₁, he, rfl⟩ := step_effect hs
  obtain ⟨⟨hb, hp, hj⟩, hn, hr, hc⟩ := h.effect he
  refine ⟨⟨hb, hp, hj⟩, ?_, hr, hc⟩
  exact h.since.trans (Nat.le_succ _)

theorem RewalkInv.run {C : World → Act → Prop} (h : RewalkInv cfg dev T P w)
    (hr : Run (World.step cfg dev) C w w') : RewalkInv cfg dev T P w' :=
  hr.invariant (fun _ _ _ hi _ hst => hi.step hst) h

/-! ## Polls of one process -/

/-- One process: a poll starts when no other runs, and nobody asks for a re-walk. -/
def OneProcess (w : World) : Act → Prop
  | .start i => ∀ j, j ≠ i → w.client j = .idle
  | .requestRewalk => False
  | _ => True

/-- The stored position does not lie after the position of a token. -/
def Behind (stored : RewalkRecord) (t : Text) : Prop :=
  ∃ p, storedPosition stored = some p ∧ ∀ c, decodeMailboxCursor t = some c → p ≤ c

/-- A walk is a re-walk where one is stored, at or behind it, and only there. -/
def InStep (stored : RewalkRecord) (walk : PollWalk) : Prop :=
  walk.rewalk = none ∧ stored = none ∨ ∃ t, walk.rewalk = some t ∧ Behind stored t

def SeqClient (T : ℕ) (stored : RewalkRecord) (js : List ReceivedPage) : Client → Prop
  | .idle => True
  | .walking walk | .waiting walk => InStep stored walk
  | .judging walk p => InStep stored walk ∧ T ≤ p.since
  | .recording walk p => (walk.rewalk = none ↔ stored = none) ∧ T ≤ p.since ∧
    ∃ rest, js = p :: rest

/-- The stored position is the first one, or not after the end of the page judged last. -/
def NotAhead (T p₀ : ℕ) (js₀ : List ReceivedPage) (stored : RewalkRecord)
    (js : List ReceivedPage) : Prop :=
  ∀ p, storedPosition stored = some p → js = js₀ ∧ p = p₀ ∨
    ∃ page rest, js = page :: rest ∧ T ≤ page.since ∧
      ∀ n, page.next = some (encodeMailboxCursor n) → p ≤ n

structure SeqInv (T p₀ : ℕ) (js₀ : List ReceivedPage) (w : World) : Prop where
  alone : ∀ i j, w.client i ≠ .idle → w.client j ≠ .idle → i = j
  since : T ≤ w.steps
  clients : ∀ i, SeqClient T w.rewalk w.judged (w.client i)
  ahead : NotAhead T p₀ js₀ w.rewalk w.judged

variable {p₀ : ℕ} {js₀ : List ReceivedPage}

theorem SeqInv.others (h : SeqInv T p₀ js₀ w) {i : ℕ} (hi : w.client i ≠ .idle) :
    ∀ j, j ≠ i → w.client j = .idle := by
  intro j hj
  by_contra hne
  exact hj (h.alone j i hne hi)

/-- The one running process made a step. -/
theorem SeqInv.proc (h : SeqInv T p₀ js₀ w) (hst : w'.steps = w.steps) (i : ℕ)
    (ho : ∀ j, j ≠ i → w'.client j = .idle)
    (hc : SeqClient T w'.rewalk w'.judged (w'.client i))
    (ha : NotAhead T p₀ js₀ w'.rewalk w'.judged) : SeqInv T p₀ js₀ w' := by
  have honly : ∀ j, w'.client j ≠ .idle → j = i := by
    intro j hj
    by_contra hne
    exact hj (ho j hne)
  refine ⟨fun j k hj hk => (honly j hj).trans (honly k hk).symm, hst ▸ h.since, fun j => ?_, ha⟩
  by_cases hj : j = i
  · rw [hj]; exact hc
  · rw [ho j hj]; trivial

theorem inStep_start (stored : RewalkRecord) :
    InStep stored (PollWalk.start (pendingMailboxRewalk stored)) := by
  cases stored with
  | none => exact Or.inl ⟨rfl, rfl⟩
  | some t =>
    obtain ⟨p, hp⟩ := storedPosition_some t
    refine Or.inr ⟨rewalkPosition t, rfl, p, hp, fun c hc => ?_⟩
    rw [show storedPosition (some t) = decodeMailboxCursor (rewalkPosition t) from rfl, hc] at hp
    exact (Option.some.inj hp).ge

theorem SeqInv.effect {a : Act} (h : SeqInv T p₀ js₀ w) (hb : Base cfg dev w)
    (ha : OneProcess w a) (he : Effect cfg dev w a w') : SeqInv T p₀ js₀ w' := by
  cases he with
  | relay | trust | serve | drop => exact ⟨h.alone, h.since, h.clients, h.ahead⟩
  | request => exact ha.elim
  | @start i hc hq =>
    refine h.proc rfl i (fun j hj => ?_) ?_ h.ahead
    · simp only [setClient_client, if_neg hj]
      exact ha j hj
    · simp only [setClient_client, if_true]
      exact inStep_start w.rewalk
  | @stop i =>
    refine ⟨fun j k hj hk => h.alone j k ?_ ?_, h.since, fun j => ?_, h.ahead⟩
    · intro hidle
      simp only [setClient_client] at hj
      split_ifs at hj <;> exact hj (by first | rfl | exact hidle)
    · intro hidle
      simp only [setClient_client] at hk
      split_ifs at hk <;> exact hk (by first | rfl | exact hidle)
    · simp only [setClient_client]
      split_ifs
      · trivial
      · exact h.clients j
  | @send i walk hc hq =>
    have hi := h.clients i
    have ho := h.others (i := i) (by rw [hc]; simp)
    rw [hc] at hi
    refine h.proc rfl i (fun j hj => ?_) ?_ h.ahead
    · simp only [setRequest_client, setClient_client, if_neg hj]
      exact ho j hj
    · simp only [setRequest_client, setClient_client, if_true]
      exact hi
  | @deliver i walk reply hc hq =>
    have hi := h.clients i
    have ho := h.others (i := i) (by rw [hc]; simp)
    rw [hc] at hi
    refine h.proc rfl i (fun j hj => ?_) ?_ h.ahead
    · simp only [setRequest_client, setClient_client, if_neg hj]
      exact ho j hj
    · simp only [setRequest_client, setClient_client, if_true]
      exact ⟨hi, h.since⟩
  | @judge i walk p x v hc hx =>
    have hi := h.clients i
    have ho := h.others (i := i) (by rw [hc]; simp)
    rw [hc] at hi
    refine h.proc rfl i (fun j hj => ?_) ?_ h.ahead
    · simp only [setClient_client, if_neg hj]
      exact ho j hj
    · simp only [setClient_client, if_true]
      exact hi
  | @endPage i walk p hc hlen =>
    have hi := h.clients i
    have ho := h.others (i := i) (by rw [hc]; simp)
    have hproc := (hb.procs i).client
    rw [hc] at hi hproc
    obtain ⟨hstep, hsince⟩ := hi
    obtain ⟨hwalk, hres, hs, -⟩ := hproc
    refine h.proc rfl i (fun j hj => ?_) ?_ fun c hpos => Or.inr ⟨p, w.judged, rfl, hsince, ?_⟩
    · simp only [setClient_client, if_neg hj]
      exact ho j hj
    · simp only [setClient_client, if_true]
      refine ⟨?_, hsince, w.judged, rfl⟩
      rcases hstep with ⟨hn, hst⟩ | ⟨t, ht, q, hq, -⟩
      · exact ⟨fun _ => hst, fun _ => hn⟩
      · constructor
        · intro hn
          rw [show (walk.judged p.page p.next).rewalk = walk.rewalk from rfl, ht] at hn
          cases hn
        · intro hn
          change w.rewalk = none at hn
          rw [hn] at hq
          cases hq
    · -- the record stood at the page's start at the latest, which lies before its end
      intro n hn
      obtain ⟨hn', hlt⟩ := hs.next _ hn
      rw [decimal_inj hn']
      change storedPosition w.rewalk = some c at hpos
      rcases hstep with ⟨-, hst⟩ | ⟨t, ht, q, hq, hle⟩
      · rw [hst] at hpos; cases hpos
      · rw [hpos] at hq
        cases hq
        exact (hle _ (hres t (hwalk.2 t ht))).trans hlt.le
  | @record i walk p hc =>
    have hi := h.clients i
    have ho := h.others (i := i) (by rw [hc]; simp)
    have hproc := (hb.procs i).client
    rw [hc] at hi hproc
    obtain ⟨hiff, hsince, rest, hjs⟩ := hi
    obtain ⟨hcur, hs, -⟩ := hproc
    refine h.proc rfl i (fun j hj => ?_) ?_ ?_
    · simp only [setClient_client, if_neg hj]
      exact ho j hj
    · simp only [setClient_client, if_true]
      split
      next walk' hnext =>
        have hr := (next_walk hnext).1
        cases hw : walk.rewalk with
        | none =>
          rw [hw] at hr
          simp only [PollWalk.record, hw]
          exact Or.inl ⟨hr, hiff.1 hw⟩
        | some t =>
          rw [hw] at hr
          cases hn : p.next with
          | none =>
            rw [hn] at hr
            exact Or.inl ⟨hr, by simp only [PollWalk.record, hw]; rfl⟩
          | some t' =>
            rw [hn] at hr
            simp only [PollWalk.record, hw]
            obtain ⟨q, hq⟩ := storedPosition_some (rewalkPosition t')
            refine Or.inr ⟨t', hr, q, hq, fun c hcd => ?_⟩
            rcases storedPosition_keep hq with hk | rfl
            · rw [hcd] at hk; exact (Option.some.inj hk).ge
            · exact Nat.zero_le _
      next => trivial
    · intro c hpos
      change storedPosition (walk.record p.next w.rewalk) = some c at hpos
      cases hw : walk.rewalk with
      | none =>
        simp only [PollWalk.record, hw, hiff.1 hw] at hpos
        cases hpos
      | some t =>
        cases hn : p.next with
        | none => simp only [PollWalk.record, hw, hn] at hpos; cases hpos
        | some t' =>
          simp only [PollWalk.record, hw, hn] at hpos
          refine Or.inr ⟨p, rest, hjs, hsince, fun n hnn => ?_⟩
          obtain ⟨hup, -⟩ := hs.next _ hnn
          rw [hn] at hnn
          cases hnn
          rcases storedPosition_keep hpos with hk | rfl
          · exact (decodeMailboxCursor_encode hk).le
          · exact Nat.zero_le _

theorem SeqInv.step {a : Act} (h : SeqInv T p₀ js₀ w) (hb : Base cfg dev w)
    (ha : OneProcess w a) (hs : w.step cfg dev a = some w') : SeqInv T p₀ js₀ w' := by
  obtain ⟨w₁, he, rfl⟩ := step_effect hs
  obtain ⟨hal, hn, hc, hah⟩ := h.effect hb ha he
  exact ⟨hal, h.since.trans (Nat.le_succ _), hc, hah⟩

theorem SeqInv.run (h : SeqInv T p₀ js₀ w) (hb : Base cfg dev w)
    (hr : Run (World.step cfg dev) OneProcess w w') : SeqInv T p₀ js₀ w' :=
  (hr.invariant (I := fun w => Base cfg dev w ∧ SeqInv T p₀ js₀ w)
    (fun _ _ _ hi hc hst => ⟨hi.1.step hst, hi.2.step hi.1 hc hst⟩) ⟨hb, h⟩).2

/-- A re-walk that was requested stands behind everything of interest to it. -/
theorem RewalkInv.requested (h : ReadInv cfg dev w) (hp : storedPosition w.rewalk = some p₀)
    (hidle : ∀ i, w.client i = .idle) : RewalkInv cfg dev w.steps (fun q => p₀ < q) w := by
  refine ⟨h.base, le_rfl, fun t ht c hc => ?_, fun i => ?_⟩
  · have hknown := h.rewalk t ht c hc
    rw [ht] at hp
    rw [show storedPosition (some t) = decodeMailboxCursor (rewalkPosition t) from rfl, hc] at hp
    cases hp
    exact ⟨hknown.issued, fun q e _ _ hq hle => absurd hle (by omega)⟩
  · rw [hidle i]
    trivial

theorem SeqInv.requested (hp : storedPosition w.rewalk = some p₀)
    (hidle : ∀ i, w.client i = .idle) : SeqInv w.steps p₀ w.judged w := by
  refine ⟨fun i j hi => absurd (hidle i) hi, le_rfl, fun i => ?_, fun p h => ?_⟩
  · rw [hidle i]
    trivial
  · rw [hp] at h
    exact Or.inl ⟨rfl, (Option.some.inj h).symm⟩

/-- Only process 0 polls. -/
def OnlyFirst (_ : World) : Act → Prop
  | .start i => i = 0
  | .requestRewalk => False
  | _ => True

instance (w : World) : ∀ a : Act, Decidable (OnlyFirst w a)
  | .start i => inferInstanceAs (Decidable (i = 0))
  | .requestRewalk => inferInstanceAs (Decidable False)
  | .relay _ | .importContact | .stop _ | .send _ | .serve _ | .deliver _ | .drop _ | .judge _ _
  | .endPage _ | .record _ => inferInstanceAs (Decidable True)

theorem OnlyFirst.idle {a : Act} (ha : OnlyFirst w a) (hs : w.step cfg dev a = some w')
    (h : ∀ j, j ≠ 0 → w.client j = .idle) : ∀ j, j ≠ 0 → w'.client j = .idle := by
  intro j hj
  obtain ⟨w₁, he, rfl⟩ := step_effect hs
  have hold := h j hj
  change w₁.client j = .idle
  cases he with
  | relay | trust | request | serve | drop => exact hold
  | @start i hc hq =>
    change i = 0 at ha
    simp only [setClient_client, ha, if_neg hj]
    exact hold
  | stop => simp [hold]
  | @send i walk hc hq =>
    have hji : j ≠ i := by rintro rfl; rw [hold] at hc; cases hc
    simpa [hji] using hold
  | @deliver i walk reply hc hq =>
    have hji : j ≠ i := by rintro rfl; rw [hold] at hc; cases hc
    simpa [hji] using hold
  | @judge i walk p x v hc hx =>
    have hji : j ≠ i := by rintro rfl; rw [hold] at hc; cases hc
    simpa [hji] using hold
  | @endPage i walk p hc hlen =>
    have hji : j ≠ i := by rintro rfl; rw [hold] at hc; cases hc
    simpa [hji] using hold
  | @record i walk p hc =>
    have hji : j ≠ i := by rintro rfl; rw [hold] at hc; cases hc
    simpa [hji] using hold

instance (T : ℕ) (js : List ReceivedPage) (q : ℕ) (e : MailboxEnvelope) :
    Decidable (Offered T js q e) :=
  inferInstanceAs (Decidable (∃ p ∈ js, T ≤ p.since ∧ (q, e) ∈ p.reply.batch.items))

end World

end Echolet
