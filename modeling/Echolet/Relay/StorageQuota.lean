/-
  The storage quota (`middleware/storage_quota.go`).

  A request first asks whether the quota is exhausted and then adds the length it declares; a
  refresh first measures the store and then sets the estimate.  Any number of requests interleave
  with one refresh after another.

  * `Counted`: the estimate covers the last measurement that was published and the bodies of all
    writes admitted since it returned;
  * `Plain`: a write that is added declares its length, overflows nothing and does not fall
    between a measurement and its publication;
  * `estimate_counted`, and `chunked_body_uncounted` for a body without a declared length.
-/
import Mathlib.Tactic.NormNum
import Echolet.Lib.Runs

namespace Echolet

/-- A write request: the length it declares, -1 where it declares none, and that of its body. -/
structure Upload where
  contentLength : ℤ
  body : ℕ
  /-- The server reads no more of a body than was declared. -/
  within : 0 ≤ contentLength → (body : ℤ) ≤ contentLength

structure StorageQuota where
  maxBytes : ℤ
  used : ℤ
  /-- The requests that were let through and have not added their length yet. -/
  entered : List Upload
  /-- What was measured and is not set yet, with the bytes admitted since the measurement returned. -/
  measured : Option (ℤ × ℕ)
  /-- The last measurement that was set, with the bytes admitted since it returned. -/
  published : Option (ℤ × ℕ)

namespace StorageQuota

/-- `NewStorageQuota` -/
def new (maxBytes : ℤ) : StorageQuota := ⟨maxBytes, 0, [], none, none⟩

/-- `Exhausted` -/
def exhausted (q : StorageQuota) : Bool := decide (0 < q.maxBytes ∧ q.maxBytes ≤ q.used)

def isInt64 (x : ℤ) : Bool := decide (-2 ^ 63 ≤ x ∧ x < 2 ^ 63)

/-- `atomic.Int64.Add` -/
def wrapAdd (x y : ℤ) : ℤ := (x + y).bmod (2 ^ 64)

/-- The estimate after a write. -/
def charged (q : StorageQuota) (upload : Upload) : ℤ :=
  if 0 < q.maxBytes ∧ 0 < upload.contentLength then wrapAdd q.used upload.contentLength else q.used

inductive Event
  /-- A request asks whether the quota is exhausted. -/
  | enter (upload : Upload)
  /-- A request that was let through adds its length, and is served. -/
  | add (index : ℕ)
  /-- A measurement returns, with a figure or an error. -/
  | measure (figure : Option ℤ)
  /-- The estimate is set to what was measured. -/
  | publish

def step (q : StorageQuota) : Event → Option StorageQuota
  | .enter upload =>
    if q.exhausted then some q else some { q with entered := q.entered ++ [upload] }
  | .add index => do
    let upload ← q.entered[index]?
    let count : ℤ × ℕ → ℤ × ℕ := fun (figure, bytes) => (figure, bytes + upload.body)
    some { q with
      used := q.charged upload
      entered := q.entered.eraseIdx index
      measured := q.measured.map count
      published := q.published.map count }
  | .measure figure =>
    -- one refresh after another, and none for a quota that is disabled
    if q.maxBytes ≤ 0 ∨ q.measured.isSome ∨ !figure.all isInt64 then none
    else some { q with measured := figure.map fun figure => (figure, 0) }
  | .publish => q.measured.map fun (figure, bytes) =>
    { q with used := figure, measured := none, published := some (figure, bytes) }

/-- The estimate is at least the last measurement that was set and all that was admitted since it
    returned. -/
def Counted (q : StorageQuota) : Prop :=
  ∀ figure bytes, q.published = some (figure, bytes) → figure + bytes ≤ q.used

/-- The upload declares the length of its body and overflows nothing, and no measurement is on its
    way to the estimate. -/
def Declared (q : StorageQuota) (upload : Upload) : Prop :=
  q.measured.isNone = true ∧ (0 ≤ upload.contentLength ∨ upload.body = 0) ∧
    q.used + upload.contentLength < 2 ^ 63

instance (q : StorageQuota) (upload : Upload) : Decidable (q.Declared upload) :=
  inferInstanceAs (Decidable (_ ∧ _))

/-- What is added is declared. -/
def Plain (q : StorageQuota) : Event → Prop
  | .add index => (q.entered[index]?).all (fun upload => decide (q.Declared upload)) = true
  | _ => True

instance (q : StorageQuota) : DecidablePred q.Plain
  | .add _ => inferInstanceAs (Decidable (_ = true))
  | .enter _ | .measure _ | .publish => isTrue trivial

/-! ## Runs -/

variable {q q' : StorageQuota}

/-- What every plain step keeps: a measurement on its way has nothing admitted since. -/
structure Inv (q : StorageQuota) : Prop where
  range : -2 ^ 63 ≤ q.used ∧ q.used < 2 ^ 63
  counted : q.Counted
  fresh : ∀ figure bytes, q.measured = some (figure, bytes) →
    bytes = 0 ∧ 0 < q.maxBytes ∧ -2 ^ 63 ≤ figure ∧ figure < 2 ^ 63
  enabled : q.published.isSome = true → 0 < q.maxBytes

theorem wrapAdd_eq {x y : ℤ} (h : -2 ^ 63 ≤ x + y) (h' : x + y < 2 ^ 63) : wrapAdd x y = x + y := by
  unfold wrapAdd
  rw [Int.bmod_eq_of_le] <;> omega

theorem Inv.step {e : Event} (hi : Inv q) (hplain : q.Plain e) (h : q.step e = some q') : Inv q' := by
  cases e with
  | enter upload =>
    simp only [StorageQuota.step] at h
    split_ifs at h
    · cases h
      exact hi
    · cases h
      exact ⟨hi.range, hi.counted, hi.fresh, hi.enabled⟩
  | add index =>
    simp only [StorageQuota.step, Option.bind_eq_bind, Option.bind_eq_some_iff] at h
    obtain ⟨upload, hentered, h⟩ := h
    cases h
    have hdeclared : q.Declared upload := by
      have hall := hplain
      simp only [Plain, hentered, Option.all_some, decide_eq_true_eq] at hall
      exact hall
    obtain ⟨hnone, hlength, hfits⟩ := hdeclared
    rw [Option.isNone_iff_eq_none] at hnone
    have hrange := hi.range
    -- the estimate grows by what the body has at least
    have hcharged : q.used ≤ q.charged upload ∧ q.charged upload < 2 ^ 63 ∧
        (0 < q.maxBytes → q.used + upload.body ≤ q.charged upload) := by
      have hbody := upload.within
      unfold charged
      split_ifs with hcounts
      · rw [wrapAdd_eq (by omega) hfits]
        refine ⟨by omega, hfits, fun _ => ?_⟩
        have hle := hbody (by omega)
        omega
      · refine ⟨le_rfl, hrange.2, fun hmax => ?_⟩
        have hzero : upload.body = 0 := by
          rcases hlength with hlength | hlength
          · have hle := hbody hlength
            omega
          · exact hlength
        omega
    refine ⟨⟨hrange.1.trans hcharged.1, hcharged.2.1⟩, fun figure bytes hp => ?_,
      fun figure bytes hm => ?_, fun hp => ?_⟩
    · obtain ⟨⟨before, count⟩, hbefore, heq⟩ := Option.map_eq_some_iff.1 hp
      cases heq
      have hmax := hi.enabled (by rw [hbefore]; rfl)
      have hcounted := hi.counted before count hbefore
      have hgrown := hcharged.2.2 hmax
      show before + ((count + upload.body : ℕ) : ℤ) ≤ q.charged upload
      omega
    · simp only [hnone, Option.map_none] at hm
      cases hm
    · simp only [Option.isSome_map] at hp
      exact hi.enabled hp
  | measure figure =>
    simp only [StorageQuota.step] at h
    split_ifs at h with hbusy
    cases h
    obtain ⟨hmax, -, hvalid⟩ : 0 < q.maxBytes ∧ q.measured.isSome = false ∧
        figure.all isInt64 = true := by
      simpa [not_or] using hbusy
    refine ⟨hi.range, hi.counted, fun value bytes hm => ?_, hi.enabled⟩
    obtain ⟨value, rfl, heq⟩ := Option.map_eq_some_iff.1 hm
    cases heq
    have hint : -2 ^ 63 ≤ value ∧ value < 2 ^ 63 := by simpa [isInt64] using hvalid
    exact ⟨rfl, hmax, hint⟩
  | publish =>
    simp only [StorageQuota.step] at h
    obtain ⟨⟨figure, bytes⟩, hm, rfl⟩ := Option.map_eq_some_iff.1 h
    obtain ⟨hzero, hmax, hrange⟩ := hi.fresh figure bytes hm
    refine ⟨hrange, fun figure' bytes' hp => ?_, fun _ _ hnone => ?_, fun _ => hmax⟩
    · cases hp
      show figure + (bytes : ℤ) ≤ figure
      omega
    · cases hnone

/-- **The estimate counts every declared write**: in every run of plain steps it covers the last
    measurement and all that was admitted since, at every moment. -/
theorem estimate_counted (maxBytes : ℤ) (h : Run step Plain (new maxBytes) q) : q.Counted := by
  have hnew : Inv (new maxBytes) := by
    refine ⟨⟨by norm_num [new], by norm_num [new]⟩, fun _ _ hp => ?_, fun _ _ hm => ?_, fun hp => ?_⟩
    · cases hp
    · cases hm
    · cases hp
  exact (h.invariant (fun _ _ _ hi hplain hstep => hi.step hplain hstep) hnew).counted

/-- A measurement, and one write after it that declares its fifty bytes. -/
def declaredWrite : List Event :=
  [.measure (some 100), .publish, .enter ⟨50, 50, fun _ => by decide⟩, .add 0]

theorem estimate_counted_declared : ∃ q, replay step Plain declaredWrite (new 1000) = some q ∧
    q.published = some (100, 50) ∧ q.Counted := by
  refine ⟨⟨1000, 150, [], none, some (100, 50)⟩, by rfl, by rfl, ?_⟩
  exact estimate_counted 1000 (Run.of_replay (show replay step Plain declaredWrite _ = some _ by rfl))

/-- The same with a body of fifty bytes in chunks. -/
def chunkedWrite : List Event :=
  [.measure (some 100), .publish, .enter ⟨-1, 50, fun h => by omega⟩, .add 0]

/-- A chunked body has the length -1, which is not added. -/
theorem chunked_body_uncounted : ∃ q, replay step Any chunkedWrite (new 1000) = some q ∧
    ¬ q.Counted := by
  refine ⟨⟨1000, 100, [], none, some (100, 50)⟩, by rfl, fun hcounted => ?_⟩
  have hle := hcounted 100 50 rfl
  norm_num at hle

end StorageQuota

end Echolet
