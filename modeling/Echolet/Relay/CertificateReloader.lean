/-
  The certificate pair of the relay, read again while it serves (`CertificateReloader`).

  What `tls.X509KeyPair` makes of two files is a function of their bytes, `x509KeyPair`; a
  handshake brings what the clock says and what the two files hold when they are read.

  * `Session` is a reloader with its history: the reads that succeeded, the one the served pair
    comes from, and when the files were read; `step_calls` is what a call does to it;
  * `Serving`, `Throttled` and `Latest` are what every call keeps;
  * `certificate_reload`: no call fails, and the pair is the one of the last read that succeeded,
    as long as none finds the bytes of the served pair divided otherwise between the files;
  * `movedCertificate`: where one does, the old pair is served on.
-/
import Echolet.Lib.Runs
import Echolet.Lib.Sha256
import Echolet.Lib.Utf8

namespace Echolet.Tlsx

/-! ## The reloader -/

abbrev Bytes := List ℕ

/-- The errors, with what the system or `tls` says. -/
inductive ReloaderError where
  | pathsRequired
  | negativeInterval (interval : ℤ)
  | readCertificate (certPath error : Text)
  | readKey (keyPath error : Text)
  | loadKeyPair (certPath keyPath error : Text)
  deriving DecidableEq

/-- What `os.ReadFile` gives for the two files, each at its moment. -/
structure Files where
  cert : Except Text Bytes
  key : Except Text Bytes

/-- What a call of `GetCertificate` finds. -/
structure Handshake where
  files : Files
  /-- `r.now()` of the throttle, and of the stamp. -/
  asked : ℤ
  stamped : ℤ

structure CertificateReloader (C : Type) where
  certPath : Text
  keyPath : Text
  interval : ℤ
  current : Option C
  digest : List ℕ
  checkedAt : ℤ

section
variable {C : Type} (x509KeyPair : Bytes → Bytes → Except Text C)

def read (certPath keyPath : Text) (files : Files) : Except ReloaderError (C × List ℕ) :=
  match files.cert with
  | .error e => .error (.readCertificate certPath e)
  | .ok certPEM =>
    match files.key with
    | .error e => .error (.readKey keyPath e)
    | .ok keyPEM =>
      match x509KeyPair certPEM keyPEM with
      | .error e => .error (.loadKeyPair certPath keyPath e)
      | .ok certificate => .ok (certificate, sha256 (certPEM ++ keyPEM))

def newCertificateReloader (certPath keyPath : Text) (interval : ℤ) (files : Files) (now : ℤ) :
    Except ReloaderError (CertificateReloader C) :=
  if certPath = [] ∨ keyPath = [] then .error .pathsRequired
  else if interval < 0 then .error (.negativeInterval interval)
  else
    match read x509KeyPair certPath keyPath files with
    | .error e => .error e
    | .ok (certificate, digest) => .ok ⟨certPath, keyPath, interval, some certificate, digest, now⟩

/-- Whether the last check is too recent for another one. -/
def CertificateReloader.throttled (r : CertificateReloader C) (now : ℤ) : Bool :=
  r.current.isSome && decide (now - r.checkedAt < r.interval)

/-- `GetCertificate`: its answer, and the reloader after it. -/
def getCertificate (r : CertificateReloader C) (h : Handshake) :
    Except ReloaderError (Option C) × CertificateReloader C :=
  if r.throttled h.asked = true then (.ok r.current, r)
  else
    let r := { r with checkedAt := h.stamped }
    match read x509KeyPair r.certPath r.keyPath h.files with
    | .error e =>
      match r.current with
      | none => (.error e, r)
      | some _ => (.ok r.current, r)
    | .ok (certificate, digest) =>
      if digest ≠ r.digest then
        (.ok (some certificate), { r with current := some certificate, digest := digest })
      else (.ok r.current, r)

/-! ## Sessions -/

/-- A read that succeeded. -/
structure Loaded (C : Type) where
  certPEM : Bytes
  keyPEM : Bytes
  certificate : C

def Files.loaded (files : Files) : Option (Loaded C) :=
  match files.cert, files.key with
  | .ok certPEM, .ok keyPEM =>
    match x509KeyPair certPEM keyPEM with
    | .ok certificate => some ⟨certPEM, keyPEM, certificate⟩
    | .error _ => none
  | _, _ => none

/-- A reloader, and what the source does not record. -/
structure Session (C : Type) where
  reloader : CertificateReloader C
  /-- What the last call answered. -/
  answer : Except ReloaderError (Option C)
  /-- The reads that succeeded, the last one first. -/
  good : List (Loaded C)
  /-- The read the served pair comes from. -/
  served : Loaded C
  /-- When the files were read, the last time first. -/
  stamps : List ℤ
  /-- What the clock said last. -/
  clock : ℤ

/-- The session that begins with a reloader and its first read. -/
def begin (r : CertificateReloader C) (first : Loaded C) : Session C :=
  ⟨r, .ok r.current, [first], first, [r.checkedAt], r.checkedAt⟩

def step (s : Session C) (h : Handshake) : Option (Session C) :=
  let (answer, reloader) := getCertificate x509KeyPair s.reloader h
  if s.reloader.throttled h.asked = true then
    some { s with answer := answer, clock := h.asked }
  else
    let s := { s with
      answer := answer
      reloader := reloader
      stamps := h.stamped :: s.stamps
      clock := h.stamped }
    match h.files.loaded x509KeyPair with
    | none => some s
    | some l => some { s with
        good := l :: s.good
        served := if sha256 (l.certPEM ++ l.keyPEM) = sha256 (s.served.certPEM ++ s.served.keyPEM)
          then s.served else l }

variable {x509KeyPair}

theorem loaded_iff {files : Files} {l : Loaded C} : files.loaded x509KeyPair = some l ↔
    files.cert = .ok l.certPEM ∧ files.key = .ok l.keyPEM ∧
      x509KeyPair l.certPEM l.keyPEM = .ok l.certificate := by
  unfold Files.loaded
  constructor
  · intro h
    split at h
    next certPEM keyPEM hc hk =>
      split at h
      next certificate hp => cases h; exact ⟨hc, hk, hp⟩
      next => cases h
    next => cases h
  · rintro ⟨hc, hk, hp⟩
    rw [hc, hk]
    dsimp only
    rw [hp]

variable (x509KeyPair) in
/-- A read fails, or is one that succeeded. -/
theorem read_cases (certPath keyPath : Text) (files : Files) :
    (files.loaded x509KeyPair = none ∧ ∃ e, read x509KeyPair certPath keyPath files = .error e) ∨
    ∃ l, files.loaded x509KeyPair = some l ∧ read x509KeyPair certPath keyPath files =
      .ok (l.certificate, sha256 (l.certPEM ++ l.keyPEM)) := by
  unfold Files.loaded read
  cases files.cert with
  | error e => exact Or.inl ⟨rfl, _, rfl⟩
  | ok certPEM =>
    cases files.key with
    | error e => exact Or.inl ⟨rfl, _, rfl⟩
    | ok keyPEM =>
      dsimp only
      cases x509KeyPair certPEM keyPEM with
      | error e => exact Or.inl ⟨rfl, _, rfl⟩
      | ok certificate => exact Or.inr ⟨_, rfl, rfl⟩

/-- The served pair is the one of a read that succeeded, and the digest is over its bytes. -/
structure Serving (x509KeyPair : Bytes → Bytes → Except Text C) (s : Session C) : Prop where
  current : s.reloader.current = some s.served.certificate
  digest : s.reloader.digest = sha256 (s.served.certPEM ++ s.served.keyPEM)
  answer : s.answer = .ok (some s.served.certificate)
  served : s.served ∈ s.good
  good : ∀ l ∈ s.good, x509KeyPair l.certPEM l.keyPEM = .ok l.certificate

/-- What a call does. -/
inductive Calls (x509KeyPair : Bytes → Bytes → Except Text C) (s : Session C) (h : Handshake) :
    Session C → Prop
  | throttled : s.reloader.throttled h.asked = true →
      Calls x509KeyPair s h { s with answer := .ok s.reloader.current, clock := h.asked }
  /-- The read fails, or finds what is served. -/
  | kept (good : List (Loaded C)) : s.reloader.throttled h.asked = false →
      (h.files.loaded x509KeyPair = none ∧ good = s.good ∨
        ∃ l, h.files.loaded x509KeyPair = some l ∧ good = l :: s.good ∧
          sha256 (l.certPEM ++ l.keyPEM) = sha256 (s.served.certPEM ++ s.served.keyPEM)) →
      Calls x509KeyPair s h ⟨{ s.reloader with checkedAt := h.stamped }, .ok s.reloader.current, good,
        s.served, h.stamped :: s.stamps, h.stamped⟩
  | renewed (l : Loaded C) : s.reloader.throttled h.asked = false →
      h.files.loaded x509KeyPair = some l →
      sha256 (l.certPEM ++ l.keyPEM) ≠ sha256 (s.served.certPEM ++ s.served.keyPEM) →
      Calls x509KeyPair s h ⟨{ s.reloader with
        checkedAt := h.stamped
        current := some l.certificate
        digest := sha256 (l.certPEM ++ l.keyPEM) }, .ok (some l.certificate), l :: s.good, l,
          h.stamped :: s.stamps, h.stamped⟩

section
variable {r : CertificateReloader C} {h : Handshake}

theorem getCertificate_error {p : C} {e : ReloaderError} (ht : r.throttled h.asked = false)
    (hc : r.current = some p) (hr : read x509KeyPair r.certPath r.keyPath h.files = .error e) :
    getCertificate x509KeyPair r h = (.ok r.current, { r with checkedAt := h.stamped }) := by
  unfold getCertificate
  rw [if_neg (Bool.eq_false_iff.1 ht)]
  dsimp only
  rw [hr]
  dsimp only
  rw [hc]

theorem getCertificate_ok {p : C} {d : List ℕ} (ht : r.throttled h.asked = false)
    (hr : read x509KeyPair r.certPath r.keyPath h.files = .ok (p, d)) :
    getCertificate x509KeyPair r h =
      if d = r.digest then (.ok r.current, { r with checkedAt := h.stamped })
      else (.ok (some p), { r with checkedAt := h.stamped, current := some p, digest := d }) := by
  unfold getCertificate
  rw [if_neg (Bool.eq_false_iff.1 ht)]
  dsimp only
  rw [hr]
  dsimp only
  by_cases hd : d = r.digest
  · rw [if_neg (not_not.2 hd), if_pos hd]
  · rw [if_pos hd, if_neg hd]

end

theorem step_calls {s s' : Session C} (hs : Serving x509KeyPair s) {h : Handshake}
    (hst : step x509KeyPair s h = some s') : Calls x509KeyPair s h s' := by
  unfold step at hst
  cases ht : s.reloader.throttled h.asked with
  | true =>
    have hget : getCertificate x509KeyPair s.reloader h = (.ok s.reloader.current, s.reloader) :=
      if_pos ht
    rw [hget] at hst
    dsimp only at hst
    rw [if_pos ht] at hst
    cases hst
    exact .throttled ht
  | false =>
    rcases read_cases x509KeyPair s.reloader.certPath s.reloader.keyPath h.files with
      ⟨hl, e, hr⟩ | ⟨l, hl, hr⟩
    · rw [getCertificate_error ht hs.current hr, hl] at hst
      dsimp only at hst
      rw [if_neg (Bool.eq_false_iff.1 ht)] at hst
      cases hst
      exact .kept s.good ht (Or.inl ⟨hl, rfl⟩)
    · by_cases hd : sha256 (l.certPEM ++ l.keyPEM) = sha256 (s.served.certPEM ++ s.served.keyPEM)
      · rw [getCertificate_ok ht hr, if_pos (hd.trans hs.digest.symm), hl] at hst
        dsimp only at hst
        rw [if_neg (Bool.eq_false_iff.1 ht), if_pos hd] at hst
        cases hst
        exact .kept (l :: s.good) ht (Or.inr ⟨l, hl, rfl, hd⟩)
      · rw [getCertificate_ok ht hr, if_neg fun he => hd (he.trans hs.digest), hl] at hst
        dsimp only at hst
        rw [if_neg (Bool.eq_false_iff.1 ht), if_neg hd] at hst
        cases hst
        exact .renewed l ht hl hd

theorem Serving.step {s s' : Session C} (hs : Serving x509KeyPair s) {h : Handshake}
    (hst : step x509KeyPair s h = some s') : Serving x509KeyPair s' := by
  cases step_calls hs hst with
  | throttled => exact ⟨hs.current, hs.digest, congrArg _ hs.current, hs.served, hs.good⟩
  | kept good ht hgood =>
    refine ⟨hs.current, hs.digest, congrArg _ hs.current, ?_, fun l hl => ?_⟩
    · rcases hgood with ⟨-, rfl⟩ | ⟨l, -, rfl, -⟩
      · exact hs.served
      · exact List.mem_cons_of_mem l hs.served
    · rcases hgood with ⟨-, rfl⟩ | ⟨l', hl', rfl, -⟩
      · exact hs.good l hl
      · rcases List.mem_cons.1 hl with rfl | hl
        · exact (loaded_iff.1 hl').2.2
        · exact hs.good l hl
  | renewed l ht hl =>
    refine ⟨rfl, rfl, rfl, List.mem_cons_self, fun l' hl' => ?_⟩
    rcases List.mem_cons.1 hl' with rfl | hl'
    · exact (loaded_iff.1 hl).2.2
    · exact hs.good l' hl'

/-- A reloader that was made has read its files once. -/
theorem newCertificateReloader_ok {certPath keyPath : Text} {interval now : ℤ} {files : Files}
    {r : CertificateReloader C} :
    newCertificateReloader x509KeyPair certPath keyPath interval files now = .ok r ↔
      ¬ (certPath = [] ∨ keyPath = []) ∧ 0 ≤ interval ∧
        ∃ first, files.loaded x509KeyPair = some first ∧ r = ⟨certPath, keyPath, interval,
          some first.certificate, sha256 (first.certPEM ++ first.keyPEM), now⟩ := by
  unfold newCertificateReloader
  by_cases hp : certPath = [] ∨ keyPath = []
  · rw [if_pos hp]
    exact ⟨fun h => (by cases h), fun h => absurd hp h.1⟩
  by_cases hi : interval < 0
  · rw [if_neg hp, if_pos hi]
    exact ⟨fun h => (by cases h), fun h => absurd hi (not_lt.2 h.2.1)⟩
  rw [if_neg hp, if_neg hi]
  rcases read_cases x509KeyPair certPath keyPath files with
    ⟨hl, e, hr⟩ | ⟨first, hl, hr⟩
  · rw [hr, hl]
    exact ⟨fun h => (by cases h), fun ⟨_, _, _, h, _⟩ => (by cases h)⟩
  · rw [hr, hl]
    constructor
    · intro h
      cases h
      exact ⟨hp, not_lt.1 hi, first, rfl, rfl⟩
    · rintro ⟨-, -, _, hfirst, rfl⟩
      cases hfirst
      rfl

/-- Every call returns. -/
theorem exists_step (s : Session C) (h : Handshake) : ∃ s', step x509KeyPair s h = some s' := by
  unfold step
  dsimp only
  split_ifs
  · exact ⟨_, rfl⟩
  · split <;> exact ⟨_, rfl⟩

theorem Serving.begin (certPath keyPath : Text) (interval now : ℤ) {files : Files}
    {first : Loaded C} (hload : files.loaded x509KeyPair = some first) :
    Serving x509KeyPair (begin ⟨certPath, keyPath, interval, some first.certificate,
      sha256 (first.certPEM ++ first.keyPEM), now⟩ first) :=
  ⟨rfl, rfl, rfl, List.mem_singleton_self _, fun _ hl =>
    List.mem_singleton.1 hl ▸ (loaded_iff.1 hload).2.2⟩

/-! ## Throttling -/

/-- The clock does not go back. -/
def Forward (s : Session C) (h : Handshake) : Prop := s.clock ≤ h.asked ∧ h.asked ≤ h.stamped

/-- Any two reads are an interval apart. -/
structure Throttled (interval : ℤ) (s : Session C) : Prop where
  asMade : s.reloader.interval = interval
  stamped : s.stamps.head? = some s.reloader.checkedAt
  apart : s.stamps.Pairwise fun later earlier => earlier + interval ≤ later

theorem Throttled.stamp {interval : ℤ} {s : Session C} (h : Throttled interval s) {t : ℤ}
    (ht : s.reloader.checkedAt + interval ≤ t) (h0 : 0 ≤ interval) :
    (t :: s.stamps).Pairwise fun later earlier => earlier + interval ≤ later := by
  refine List.pairwise_cons.2 ⟨fun earlier hmem => ?_, h.apart⟩
  cases hst : s.stamps with
  | nil => rw [hst] at hmem; cases hmem
  | cons last stamps =>
    have hapart := h.apart
    have hlast := h.stamped
    rw [hst] at hmem hapart hlast
    cases hlast
    rcases List.mem_cons.1 hmem with rfl | hmem
    · exact ht
    · have := (List.pairwise_cons.1 hapart).1 earlier hmem
      omega

theorem Throttled.step {interval : ℤ} {s s' : Session C} (hi : Throttled interval s)
    (h0 : 0 ≤ interval) (hs : Serving x509KeyPair s) {h : Handshake} (hf : Forward s h)
    (hst : Tlsx.step x509KeyPair s h = some s') : Throttled interval s' := by
  have hlate : s.reloader.throttled h.asked = false → s.reloader.checkedAt + interval ≤ h.stamped := by
    intro ht
    unfold CertificateReloader.throttled at ht
    rw [hs.current, Option.isSome_some, Bool.true_and, decide_eq_false_iff_not, hi.asMade] at ht
    have := hf.2
    omega
  cases step_calls hs hst with
  | throttled => exact ⟨hi.asMade, hi.stamped, hi.apart⟩
  | kept good ht => exact ⟨hi.asMade, rfl, hi.stamp (hlate ht) h0⟩
  | renewed l ht => exact ⟨hi.asMade, rfl, hi.stamp (hlate ht) h0⟩

/-! ## The last good read -/

/-- Its bytes, as they are hashed. -/
def Loaded.bytes (l : Loaded C) : Bytes := l.certPEM ++ l.keyPEM

/-- A read that succeeds does not find the bytes of the served pair divided otherwise between the
    two files, so that they make another pair. -/
def Undivided (x509KeyPair : Bytes → Bytes → Except Text C) (s : Session C) (h : Handshake) : Prop :=
  s.reloader.throttled h.asked = false → ∀ l, h.files.loaded x509KeyPair = some l →
    l.bytes = s.served.bytes → l.certificate = s.served.certificate

/-- What is read is among some bytes. -/
def Within (x509KeyPair : Bytes → Bytes → Except Text C) (B : Set Bytes) (h : Handshake) : Prop :=
  ∀ l, h.files.loaded x509KeyPair = some l → l.bytes ∈ B

/-- The answer is the pair of the last read that succeeded. -/
def UpToDate (s : Session C) : Prop := s.answer = .ok (s.good.head?.map (·.certificate))

/-- The pair that is served is the last one, and its bytes are among those that were read. -/
structure Latest (B : Set Bytes) (s : Session C) : Prop where
  last : s.good.head?.map (·.certificate) = some s.served.certificate
  within : s.served.bytes ∈ B

theorem Latest.step {B : Set Bytes} (hB : Set.InjOn sha256 B) {s s' : Session C}
    (hl : Latest B s) (hs : Serving x509KeyPair s) {h : Handshake} (hw : Within x509KeyPair B h)
    (hu : Undivided x509KeyPair s h) (hst : Tlsx.step x509KeyPair s h = some s') : Latest B s' := by
  cases step_calls hs hst with
  | throttled => exact ⟨hl.last, hl.within⟩
  | kept good ht hgood =>
    refine ⟨?_, hl.within⟩
    rcases hgood with ⟨-, rfl⟩ | ⟨l, hload, rfl, hd⟩
    · exact hl.last
    · exact congrArg some (hu ht l hload (hB (hw l hload) hl.within hd))
  | renewed l ht hload => exact ⟨rfl, hw l hload⟩

/-- Where the bytes are divided otherwise, the answer is not the pair that was read. -/
theorem Undivided.exact {s s' : Session C} (hs : Serving x509KeyPair s) {h : Handshake}
    (hu : ¬ Undivided x509KeyPair s h) (hst : Tlsx.step x509KeyPair s h = some s') :
    ¬ UpToDate s' := by
  unfold Undivided at hu
  simp only [Classical.not_imp, not_forall] at hu
  obtain ⟨ht, l, hload, hbytes, hne⟩ := hu
  intro hup
  cases step_calls hs hst with
  | throttled ht' =>
    rw [ht] at ht'
    cases ht'
  | kept good _ hgood =>
    rcases hgood with ⟨hnone, -⟩ | ⟨l', hload', rfl, -⟩
    · rw [hload] at hnone
      cases hnone
    · rw [hload] at hload'
      cases hload'
      have hanswer : s.reloader.current = some l.certificate := Except.ok.inj hup
      rw [hs.current] at hanswer
      exact hne (Option.some.inj hanswer).symm
  | renewed l' _ hload' hd =>
    rw [hload] at hload'
    cases hload'
    exact hd (congrArg sha256 hbytes)

/-- **The pair that is served.**  Once a reloader was made, no call fails, and each answers the
    pair of one read in which certificate and key matched; while the clock does not go back, any
    two reads are an interval apart.  As far as the hash does not collide on what is read, the
    pair is the one of the last read that succeeded exactly as long as no read finds the bytes
    of the served pair divided otherwise between the two files. -/
theorem certificate_reload {certPath keyPath : Text} {interval now : ℤ} {files : Files}
    {r : CertificateReloader C}
    (hnew : newCertificateReloader x509KeyPair certPath keyPath interval files now = .ok r) :
    ∃ first, files.loaded x509KeyPair = some first ∧
      (∀ s, Run (Tlsx.step x509KeyPair) Any (begin r first) s →
        ∃ l ∈ s.good, s.answer = .ok (some l.certificate) ∧
          x509KeyPair l.certPEM l.keyPEM = .ok l.certificate) ∧
      (∀ s, Run (Tlsx.step x509KeyPair) Forward (begin r first) s →
        s.stamps.Pairwise fun later earlier => earlier + interval ≤ later) ∧
      ∀ B : Set Bytes, Set.InjOn sha256 B → first.bytes ∈ B →
        ∀ s, Run (Tlsx.step x509KeyPair)
            (fun s h => Within x509KeyPair B h ∧ Undivided x509KeyPair s h) (begin r first) s →
          UpToDate s ∧ ∀ h s', Tlsx.step x509KeyPair s h = some s' →
            Within x509KeyPair B h → (UpToDate s' ↔ Undivided x509KeyPair s h) := by
  obtain ⟨-, h0, first, hload, rfl⟩ := newCertificateReloader_ok.1 hnew
  have hbegin := Serving.begin certPath keyPath interval now hload
  refine ⟨first, hload, fun s hrun => ?_, fun s hrun => ?_, fun B hB hfirst s hrun => ?_⟩
  · have hs := hrun.invariant (I := Serving x509KeyPair) (fun _ _ _ hs _ hst => hs.step hst) hbegin
    exact ⟨s.served, hs.served, hs.answer, hs.good _ hs.served⟩
  · have hboth := hrun.invariant (I := fun s => Serving x509KeyPair s ∧ Throttled interval s)
      (fun _ _ _ hs hf hst => ⟨hs.1.step hst, hs.2.step h0 hs.1 hf hst⟩)
      ⟨hbegin, rfl, rfl, List.pairwise_singleton _ _⟩
    exact hboth.2.apart
  · have hboth := hrun.invariant (I := fun s => Serving x509KeyPair s ∧ Latest B s)
      (fun _ _ _ hs hd hst => ⟨hs.1.step hst, hs.2.step hB hs.1 hd.1 hd.2 hst⟩)
      ⟨hbegin, rfl, hfirst⟩
    have hup : ∀ {t : Session C}, Serving x509KeyPair t → Latest B t → UpToDate t := fun ht hl => by
      rw [UpToDate, ht.answer, hl.last]
    refine ⟨hup hboth.1 hboth.2, fun h s' hst hw => ⟨fun hs' => ?_, fun hu => ?_⟩⟩
    · exact not_not.1 fun hu => Undivided.exact hboth.1 hu hst hs'
    · exact hup (hboth.1.step hst) (hboth.2.step hB hboth.1 hw hu hst)

end

/-! ## PEM files -/

/-- A PEM block: its label, and its body as it stands. -/
abbrev Block := Text × Text

/-- The label of a line that begins a block. -/
def beginLabel (line : Text) : Option Text :=
  let start := "-----BEGIN ".toList
  let dashes := "-----".toList
  if start.isPrefixOf line = true ∧ dashes.isSuffixOf line = true then
    some ((line.drop start.length).take (line.length - start.length - dashes.length))
  else none

def endLine (label : Text) : Text := "-----END ".toList ++ label ++ "-----".toList

/-- The blocks of some lines, the first one perhaps begun. -/
def blocks : Option Block → List Text → List Block
  | _, [] => []
  | none, line :: lines => blocks ((beginLabel line).map fun label => (label, [])) lines
  | some (label, body), line :: lines =>
    if line = endLine label then (label, body) :: blocks none lines
    else blocks (some (label, body ++ line)) lines

def pemBlocks (bytes : Bytes) : List Block := blocks none ((decodeUtf8 bytes).splitOn '\n')

def isKey (b : Block) : Bool :=
  b.1 = "PRIVATE KEY".toList || " PRIVATE KEY".toList.isSuffixOf b.1

/-- `tls.X509KeyPair` by its documentation: the chain of the certificate blocks of one file, and
    the first key block of the other one, whatever stands before it.  `fits` is whether a
    certificate is for the key. -/
def tlsKeyPair (fits : Text → Text → Bool) (certPEM keyPEM : Bytes) :
    Except Text (List Text × Text) :=
  match (pemBlocks certPEM).filter fun b => b.1 = "CERTIFICATE".toList with
  | [] => .error "tls: failed to find any PEM data in certificate input".toList
  | leaf :: chain =>
    match (pemBlocks keyPEM).find? isKey with
    | none => .error "tls: failed to find any PEM data in key input".toList
    | some key =>
      if fits leaf.2 key.2 = true then .ok ((leaf :: chain).map (·.2), key.2)
      else .error "tls: private key does not match public key".toList

def pem (label body : String) : Bytes :=
  utf8Bytes (("-----BEGIN " ++ label ++ "-----\n" ++ body ++ "\n-----END " ++ label ++ "-----\n").toList)

def leafFits (leaf key : Text) : Bool := leaf = "bGVhZg==".toList && key = "a2V5".toList

def leafPem : Bytes := pem "CERTIFICATE" "bGVhZg=="
def issuerPem : Bytes := pem "CERTIFICATE" "aXNzdWVy"
def keyPem : Bytes := pem "PRIVATE KEY" "a2V5"

def leafKeyPair := tlsKeyPair leafFits

/-- The issuer's certificate stands last in the certificate file. -/
def wholeFiles : Files := ⟨.ok (leafPem ++ issuerPem), .ok keyPem⟩

def wholeLoaded : Loaded (List Text × Text) :=
  ⟨leafPem ++ issuerPem, keyPem, ["bGVhZg==".toList, "aXNzdWVy".toList], "a2V5".toList⟩

/-- It stands first in the key file. -/
def movedFiles : Files := ⟨.ok leafPem, .ok (issuerPem ++ keyPem)⟩

def movedLoaded : Loaded (List Text × Text) :=
  ⟨leafPem, issuerPem ++ keyPem, ["bGVhZg==".toList], "a2V5".toList⟩

/-- It is gone. -/
def leafFiles : Files := ⟨.ok leafPem, .ok keyPem⟩

def leafLoaded : Loaded (List Text × Text) := ⟨leafPem, keyPem, ["bGVhZg==".toList], "a2V5".toList⟩

theorem wholeFiles_loaded : wholeFiles.loaded leafKeyPair = some wholeLoaded :=
  loaded_iff.2 ⟨rfl, rfl, by decide⟩

theorem movedFiles_loaded : movedFiles.loaded leafKeyPair = some movedLoaded :=
  loaded_iff.2 ⟨rfl, rfl, by decide⟩

theorem leafFiles_loaded : leafFiles.loaded leafKeyPair = some leafLoaded :=
  loaded_iff.2 ⟨rfl, rfl, by decide⟩

def wholeReloader : CertificateReloader (List Text × Text) :=
  ⟨['c'], ['k'], 60, some wholeLoaded.certificate, sha256 wholeLoaded.bytes, 0⟩

theorem wholeReloader_new :
    newCertificateReloader leafKeyPair ['c'] ['k'] 60 wholeFiles 0 = .ok wholeReloader :=
  newCertificateReloader_ok.2 ⟨by simp, by norm_num, wholeLoaded, wholeFiles_loaded, rfl⟩

/-- The certificate was moved between the two files: the bytes are the same, the chain is not,
    and the old one is served on. -/
theorem movedCertificate :
    newCertificateReloader leafKeyPair ['c'] ['k'] 60 wholeFiles 0 = .ok wholeReloader ∧
    wholeFiles.loaded leafKeyPair = some wholeLoaded ∧ ∃ s,
      Run (step leafKeyPair) Any (begin wholeReloader wholeLoaded) s ∧ ¬ UpToDate s := by
  refine ⟨wholeReloader_new, wholeFiles_loaded, ?_⟩
  obtain ⟨s, hst⟩ := exists_step (begin wholeReloader wholeLoaded)
    ⟨movedFiles, 60, 60⟩
  have hdivided : ¬ Undivided leafKeyPair (begin wholeReloader wholeLoaded) ⟨movedFiles, 60, 60⟩ := by
    intro hu
    have hbytes : movedLoaded.bytes = wholeLoaded.bytes :=
      (List.append_assoc leafPem issuerPem keyPem).symm
    exact absurd (hu rfl movedLoaded movedFiles_loaded hbytes) (by decide)
  exact ⟨s, Run.single trivial hst, Undivided.exact (Serving.begin ['c'] ['k'] 60 0 wholeFiles_loaded) hdivided hst⟩

/-- The files were renewed, and the new pair is served. -/
theorem certificate_reload_renewed : ∃ s, s.good.length = 2 ∧
    Run (step leafKeyPair) Any (begin wholeReloader wholeLoaded) s ∧ UpToDate s := by
  obtain ⟨first, hfirst, -, -, hlast⟩ := certificate_reload wholeReloader_new
  obtain rfl : wholeLoaded = first := Option.some.inj (wholeFiles_loaded.symm.trans hfirst)
  obtain ⟨s, hst⟩ := exists_step (begin wholeReloader wholeLoaded)
    ⟨leafFiles, 60, 60⟩
  have hne : sha256 wholeLoaded.bytes ≠ sha256 leafLoaded.bytes := by decide +kernel
  have hinj : Set.InjOn sha256 {wholeLoaded.bytes, leafLoaded.bytes} := by
    rintro a (rfl | rfl) b (rfl | rfl) hab
    · rfl
    · exact absurd hab hne
    · exact absurd hab.symm hne
    · rfl
  have hload : ∀ l, leafFiles.loaded leafKeyPair = some l → l = leafLoaded := fun l hl =>
    Option.some.inj (hl.symm.trans leafFiles_loaded)
  have hrun : Run (step leafKeyPair) (fun s h =>
      Within leafKeyPair {wholeLoaded.bytes, leafLoaded.bytes} h ∧ Undivided leafKeyPair s h)
      (begin wholeReloader wholeLoaded) s := by
    refine Run.single ⟨fun l hl => ?_, fun _ l hl hb => ?_⟩ hst
    · rw [hload l hl]
      exact Or.inr rfl
    · rw [hload l hl] at hb
      exact absurd (congrArg sha256 hb.symm) hne
  refine ⟨s, ?_, hrun.any, (hlast _ hinj (Or.inl rfl) s hrun).1⟩
  cases step_calls (Serving.begin ['c'] ['k'] 60 0 wholeFiles_loaded) hst with
  | throttled ht => exact absurd ht (by decide)
  | kept good _ hgood =>
    rcases hgood with ⟨hnone, -⟩ | ⟨l, hl, -, hd⟩
    · rw [leafFiles_loaded] at hnone
      cases hnone
    · rw [hload l hl] at hd
      exact absurd hd.symm hne
  | renewed => rfl

end Echolet.Tlsx
