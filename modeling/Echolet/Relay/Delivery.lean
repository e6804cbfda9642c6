/-
  Whether the client reads what the relay accepted.

  A page is bounded in bytes except for its first envelope, and an accepted ciphertext may
  grow sixfold in the encoding of a response.

  * `Deliverable` is what the client demands of a poll response: its size, and the schema
    of every envelope;
  * `Fits` says that an envelope alone in a page leaves room for the rest of the response;
  * `deliverable_iff`: every page of a mailbox is deliverable exactly when every envelope
    visible in it fits; `brackets_undeliverable` is an accepted envelope that does not.
-/
import Echolet.Relay.MailboxHandler
import Echolet.Relay.Walk

namespace Echolet

open Relay

/-- `responseByteBoundFor` of the client, the bound on a response it reads. -/
def responseByteBoundFor (maxMessageBytes : ℤ) : ℤ :=
  max (4 * maxMessageBytes) (maxMessageBytes + 64 * 1024)

/-- The client reads the response of this batch. -/
def Deliverable (batch : EnvelopeBatch) : Prop :=
  (utf8Length (pollBody batch) : ℤ) ≤ responseByteBoundFor maxMessageBytes ∧
    ∀ x ∈ batch.items, mailboxEnvelopeSchema x.2.toJson = true

/-- The resume position of a page that ends with an item at `p`. -/
def nextAfter (r : Relay) (m : Text) (p : ℕ) : Option ℕ :=
  if (after p (visible r.db r.now m)).isEmpty then none else some p

/-- A response with this envelope alone is within the bound, and the signature within the
    client's. -/
def Fits (r : Relay) (m : Text) (x : ℕ × MailboxEnvelope) : Prop :=
  51 + x.2.encodedBytes + nextBytes (nextAfter r m x.1) ≤ 4 * 262144 ∧
    utf16Length x.2.senderSignature ≤ 256

variable {cfg : RelayConfig} {r : Relay} {m : Text} {limit byteBudget : ℤ} {c : ℕ}

theorem utf8Length_page (r : Relay) (m : Text) (limit byteBudget : ℤ) (c : ℕ) :
    utf8Length (pollBody (readBatch r.db r.now m limit byteBudget c)) =
      51 + envelopesBytes (r.page m limit byteBudget c).items +
        nextBytes (r.page m limit byteBudget c).next := by
  rw [readBatch_page]; exact utf8Length_pollBody rfl

/-- The resume position of a non-empty page is decided by its last item. -/
theorem page_next_eq (hl : 0 < limit) {ys : List (ℕ × MailboxEnvelope)} {x : ℕ × MailboxEnvelope}
    (h : (r.page m limit byteBudget c).items = ys ++ [x]) :
    (r.page m limit byteBudget c).next = nextAfter r m x.1 := by
  have hx : x ∈ (r.page m limit byteBudget c).items := by rw [h]; simp
  have hc := (mem_page hx).2
  cases hn : (r.page m limit byteBudget c).next with
  | none =>
    rw [nextAfter, if_pos]
    rw [List.isEmpty_iff, List.eq_nil_iff_forall_not_mem]
    intro y hy
    obtain ⟨hy, hlt⟩ := mem_after.1 hy
    have hall := pageOf_all hn
    have hmem : y ∈ ys ++ [x] := by
      rw [← h, page, hall]; exact mem_after.2 ⟨hy, hc.trans hlt⟩
    have hs : Ordered (ys ++ [x]) := by rw [← h, page, hall]; exact page_ordered
    rcases List.mem_append.1 hmem with hy | hy
    · have := (List.pairwise_append.1 hs).2.2 y hy x (by simp); omega
    · rw [List.mem_singleton.1 hy] at hlt; omega
  | some n =>
    obtain ⟨zs, v, ws, hvis, hne, hitems, -, hws⟩ :=
      pageOf_split (fitsPage_first hl byteBudget) page_ordered hn
    have hlast : x = (n, v) := by
      have := h.symm.trans hitems
      simpa using (List.append_inj' this rfl).2
    subst hlast
    rw [nextAfter, if_neg]
    obtain ⟨w, hw⟩ := List.exists_mem_of_ne_nil _ hne
    have hwa : w ∈ after c (visible r.db r.now m) := by rw [hvis]; simp [hw]
    rw [List.isEmpty_iff]
    exact List.ne_nil_of_mem (mem_after.2 ⟨(mem_after.1 hwa).1, hws w hw⟩)

/-- The envelopes of a page with more than one stay within the budget. -/
theorem page_budget (hb : 0 < byteBudget) (r : Relay) (m : Text) (limit : ℤ) (c : ℕ) :
    (r.page m limit byteBudget c).items.length ≤ 1 ∨
      ((r.page m limit byteBudget c).items.map pageBytes).sum ≤ byteBudget := by
  have hP : ∀ (acc : List (ℕ × MailboxEnvelope)) (x : ℕ × MailboxEnvelope),
      (acc.length ≤ 1 ∨ (acc.map pageBytes).sum ≤ byteBudget) →
      fitsPage limit byteBudget acc x = true →
      ((acc ++ [x]).length ≤ 1 ∨ ((acc ++ [x]).map pageBytes).sum ≤ byteBudget) := by
    intro acc x _ hf
    simp only [fitsPage, decide_eq_true_eq] at hf
    obtain ⟨-, hf | rfl | hf⟩ := hf
    · omega
    · exact Or.inl (by simp)
    · exact Or.inr (by simpa using hf)
  exact takePage_induction hP (Or.inl (by simp))

theorem sum_pageBytes (items : List (ℕ × MailboxEnvelope)) : (items.map pageBytes).sum =
    (((items.map fun x => x.2.encodedBytes).sum : ℕ) : ℤ) + items.length := by
  induction items with
  | nil => rfl
  | cons x items ih =>
    simp only [List.map_cons, List.sum_cons, ih, pageBytes, envelopeSeparatorBytes,
      List.length_cons]
    push_cast; ring

theorem nextBytes_le {p : ℕ} (h : p < 2 ^ 64) : nextBytes (some p) ≤ 22 := by
  have := decimal_length_le (n := p) (k := 20) (by decide) (h.trans (by norm_num))
  simp only [nextBytes]; omega

/-- Pages of envelopes that fit are within the bound. -/
theorem page_within (hi : Inv cfg r) (ho : r.ordered m = true)
    (h64 : highestIssuedPosition r.db m < 2 ^ 64)
    (hf : ∀ x ∈ visible r.db r.now m, Fits r m x) (hl : 0 < limit) (c : ℕ) :
    utf8Length (pollBody (readBatch r.db r.now m limit pollEnvelopeByteBudget c)) ≤ 4 * 262144 := by
  rw [utf8Length_page]
  have hbudget := page_budget (by decide : 0 < pollEnvelopeByteBudget) r m limit c
  rcases List.eq_nil_or_concat' (r.page m limit pollEnvelopeByteBudget c).items with
    hnil | ⟨ys, x, hx⟩
  · have hn : (r.page m limit pollEnvelopeByteBudget c).next = none := by
      cases hn : (r.page m limit pollEnvelopeByteBudget c).next with
      | none => rfl
      | some n =>
        obtain ⟨v, hv⟩ := pageOf_next_mem (fitsPage_first hl _) page_ordered hn
        rw [page] at hnil; rw [hnil] at hv; cases hv
    rw [hnil, hn]; decide
  · have hvis := (mem_page (by rw [hx]; simp : x ∈ (r.page m limit pollEnvelopeByteBudget c).items)).1
    rw [page_next_eq hl hx]
    by_cases hone : (r.page m limit pollEnvelopeByteBudget c).items.length ≤ 1
    · have hys : ys = [] := by
        rw [hx, List.length_append, List.length_singleton] at hone
        exact List.length_eq_zero_iff.1 (by omega)
      rw [hx, hys]
      have := (hf x hvis).1
      simpa [envelopesBytes] using this
    · have hsum := hbudget.resolve_left hone
      rw [sum_pageBytes] at hsum
      have hnext : nextBytes (nextAfter r m x.1) ≤ 22 := by
        rw [nextAfter]
        split_ifs
        · decide
        · exact nextBytes_le ((visible_le hi ho hvis).2.trans_lt h64)
      have hbud : pollEnvelopeByteBudget = 4 * 262144 - 4096 := by decide
      simp only [envelopesBytes]
      omega

/-- An envelope alone in a page, with the page's size. -/
theorem page_single (hi : Inv cfg r) (ho : r.ordered m = true) {x : ℕ × MailboxEnvelope}
    (hx : x ∈ visible r.db r.now m) :
    (readBatch r.db r.now m 1 pollEnvelopeByteBudget (x.1 - 1)).items = [x] ∧
      utf8Length (pollBody (readBatch r.db r.now m 1 pollEnvelopeByteBudget (x.1 - 1))) =
        51 + x.2.encodedBytes + nextBytes (nextAfter r m x.1) := by
  have hpos := (visible_le hi ho hx).1
  have hmem : x ∈ after (x.1 - 1) (visible r.db r.now m) := mem_after.2 ⟨hx, by omega⟩
  obtain ⟨y, ys, hy⟩ := List.exists_cons_of_ne_nil (List.ne_nil_of_mem hmem)
  have hs : Ordered (after (x.1 - 1) (visible r.db r.now m)) := page_ordered
  -- the first item after `x.1 - 1` is `x`
  have hxy : y = x := by
    have hy1 := (mem_after.1 (by rw [hy]; simp : y ∈ after (x.1 - 1) (visible r.db r.now m))).2
    rw [hy] at hmem hs
    rcases List.mem_cons.1 hmem with rfl | hmem
    · rfl
    · have := (List.pairwise_cons.1 hs).1 x hmem; omega
  subst hxy
  have hitems : (r.page m 1 pollEnvelopeByteBudget (y.1 - 1)).items = [y] := by
    rw [page, hy, pageOf, takePage, if_pos (fitsPage_first (by decide) _ _)]
    cases ys with
    | nil => rfl
    | cons z zs => rfl
  refine ⟨by rw [readBatch_page]; exact hitems, ?_⟩
  rw [utf8Length_page, page_next_eq (by decide) (hitems.trans (List.nil_append [y]).symm), hitems]
  simp [envelopesBytes]

/-- **Pages are deliverable exactly when envelopes fit.** In every state the relay can reach
    with a counter of 64 bits, the client reads every page of a mailbox iff each envelope
    visible there leaves room for the rest of a response and has a short signature. -/
theorem deliverable_iff {t : ℕ} (hr : Run (step cfg) Any (init t) r) (ho : r.ordered m = true)
    (h64 : highestIssuedPosition r.db m < 2 ^ 64) :
    (∀ limit c, 0 < limit →
      Deliverable (readBatch r.db r.now m limit pollEnvelopeByteBudget c)) ↔
    ∀ x ∈ visible r.db r.now m, Fits r m x := by
  have hi : Inv cfg r := (Inv.init t).run hr
  have hbound : responseByteBoundFor maxMessageBytes = 4 * 262144 := by decide
  constructor
  · intro h x hx
    obtain ⟨hitems, hsize⟩ := page_single hi ho hx
    obtain ⟨h1, h2⟩ := h 1 (x.1 - 1) (by decide)
    rw [hsize, hbound] at h1
    rw [hitems] at h2
    exact ⟨by exact_mod_cast h1, (schema_iff ((live_of_visible hi hx).valid hi)).1 (h2 x (by simp))⟩
  · intro hf limit c hl
    refine ⟨?_, fun x hx => ?_⟩
    · rw [hbound]; exact_mod_cast page_within hi ho h64 hf hl c
    · rw [readBatch_page] at hx
      have hvis := (mem_page hx).1
      exact (schema_iff ((live_of_visible hi hvis).valid hi)).2 (hf x hvis).2

instance (r : Relay) (m : Text) (x : ℕ × MailboxEnvelope) : Decidable (Fits r m x) :=
  inferInstanceAs (Decidable (_ ∧ _))

theorem deliverable_two : Deliverable (readBatch afterTwoNotes.db afterTwoNotes.now ['m'] 1
    pollEnvelopeByteBudget 0) :=
  (deliverable_iff run_afterTwoNotes (by decide) (by decide)).2
    (by decide +kernel) 1 0 (by decide)

/-- A message of characters the encoder escapes. -/
def brackets (n : ℕ) : MailboxEnvelope := { note ['m'] ['a'] '1' with
  ciphertext := List.replicate n '<', sizeBytes := n }

theorem utf8Length_brackets (n : ℕ) : utf8Length (brackets n).ciphertext = n := by
  simp [brackets, utf8Length, show Char.utf8Size '<' = 1 from rfl]

theorem brackets_valid {n : ℕ} (h0 : n ≠ 0) (h : n ≤ 262144) : Valid 262144 (brackets n) where
  type_eq := rfl
  version_eq := rfl
  short := (by decide :
    ∀ i ∈ mailboxEnvelopeIdentifiers (note ['m'] ['a'] '1'), utf8Length i.2 ≤ maxIdentifierBytes)
  uuid := (by decide :
    ∀ i ∈ mailboxEnvelopeUUIDIdentifiers (note ['m'] ['a'] '1'), clientMailboxUUID i.2 = true)
  payload := rfl
  nonempty := by simp [brackets, h0]
  size_le := by rw [utf8Length_brackets]; exact_mod_cast h
  size_eq := by rw [utf8Length_brackets]; rfl
  lifetime := (by decide : (0 : ℤ) < 100000000)

theorem brackets_encodedBytes (n : ℕ) : 6 * n + 2 ≤ (brackets n).encodedBytes := by
  refine le_trans ?_ (brackets n).ciphertext_le_encodedBytes
  rw [Json.utf8Length_quote, show (brackets n).ciphertext = List.replicate n '<' from rfl,
    List.map_replicate, List.sum_replicate, Json.utf8Length_escape_lt, nsmul_eq_mul, Nat.cast_id,
    Nat.mul_comm]

/-- A state with the message stored alone. -/
theorem brackets_stored {n : ℕ} (h0 : n ≠ 0) (h : n ≤ 262144) :
    ∃ r, Run (step defaultConfig) Any (init 0) r ∧ r.At 1 (brackets n) := by
  let r := (replay (step defaultConfig) Any (openMailbox ['m']) (init 0)).get (by decide)
  have hr : Run (step defaultConfig) Any (init 0) r := Run.of_replay (Option.some_get _).symm
  have ho : r.ordered (brackets n).recipientMailboxId = true :=
    (by decide : r.ordered ['m'] = true)
  have hn : r.db.envelope.peek (seconds r.now) (brackets n).key = none :=
    (by decide : r.db.envelope.peek (seconds r.now) (note ['m'] ['a'] '1').key = none)
  have hst : step defaultConfig r (.save (brackets n) 0) =
      some (r.save defaultConfig (brackets n) 0) :=
    if_pos ⟨brackets_valid h0 h, Nat.zero_le _, ho⟩
  have hp : highestIssuedPosition r.db (brackets n).recipientMailboxId = 0 :=
    (by decide : highestIssuedPosition r.db ['m'] = 0)
  have hd : retentionDeadlineSeconds defaultConfig.retentionCap 0 (brackets n) = 100000 :=
    (by decide :
      retentionDeadlineSeconds defaultConfig.retentionCap 0 (note ['m'] ['a'] '1') = 100000)
  refine ⟨_, hr.tail trivial hst, ?_⟩
  rcases save_cases (t := 0) ((Inv.init 0).run hr).locks ho with ⟨i, hi, -⟩ | ⟨-, hs⟩
  · rw [hn] at hi; cases hi
  · rw [hs, hp, hd]
    exact stored_at r 1 (Or.inr (by decide : seconds r.now < 100000))
      (by decide : (r.now : ℤ) < 100000000)

/-- A message of the maximum size is accepted and fills a response the client refuses. -/
theorem brackets_undeliverable : ¬ ∀ r : Relay, Run (step defaultConfig) Any (init 0) r →
    r.ordered ['m'] = true → ∀ limit c, 0 < limit →
      Deliverable (readBatch r.db r.now ['m'] limit pollEnvelopeByteBudget c) := by
  intro h
  obtain ⟨n, hn⟩ : ∃ n, n = 262144 := ⟨_, rfl⟩
  obtain ⟨r, hr, hat⟩ := brackets_stored (n := n) (by omega) (by omega)
  have hi : Inv defaultConfig r := (Inv.init 0).run hr
  have ho : r.ordered ['m'] = true := hat.1.ordered hi
  have hsize := (page_single hi ho (hat.visible hi)).2
  have hle := (h r hr ho 1 0 (by decide)).1
  have hbound : responseByteBoundFor maxMessageBytes = 4 * 262144 := by decide
  have henc := brackets_encodedBytes n
  rw [show (1 : ℕ) - 1 = 0 from rfl] at hsize
  rw [hbound, hsize] at hle
  simp only at hle
  omega

end Echolet
