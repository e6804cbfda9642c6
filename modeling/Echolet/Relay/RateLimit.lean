/-
  The rate limiter (`middleware/rate_limit.go`).

  A host is counted in windows that begin with a request.  Stale windows of all hosts are pruned
  at most once a minute.  Times are nanoseconds since the zero time of the language.

  * `Forgets`: a limiter that prunes knows the windows of one that does not, but for stale ones;
    so both decide alike (`serve_allow`);
  * `Window`: the admitted requests of a host in its present window, in the window's length before
    it, and in any interval of that length; `serve_window`;
  * `rate_limit`: both together.
-/
import Mathlib.Algebra.Group.Int.Defs
import Mathlib.Data.Int.Notation
import Mathlib.Data.List.Count
import Mathlib.Data.List.Induction
import Mathlib.Data.List.Pairwise
import Mathlib.Logic.Function.Basic
import Mathlib.Tactic.Common

namespace Echolet

variable {Host : Type}

/-- `rateLimitWindow` -/
def rateLimitWindow : ℤ := 60000000000

/-- `idleBucketPruneInterval` -/
def idleBucketPruneInterval : ℤ := 60000000000

structure ClientRecord where
  count : ℕ
  resetAt : ℤ

structure RateLimiter (Host : Type) where
  clients : Host → Option ClientRecord
  limit : ℤ
  lastPruneAt : ℤ

/-- A request that reaches the limiter. -/
structure Arrival (Host : Type) where
  host : Host
  now : ℤ

namespace RateLimiter

/-- `NewRateLimiter` -/
def new (limit : ℤ) : RateLimiter Host := ⟨fun _ => none, limit, 0⟩

/-- `Time.Sub`: a duration is held in 64 bits, and saturates. -/
def sub (t u : ℤ) : ℤ := max (-2 ^ 63) (min (2 ^ 63 - 1) (t - u))

/-- `pruneLocked` -/
def prune (rl : RateLimiter Host) (now : ℤ) : RateLimiter Host :=
  if sub now rl.lastPruneAt < idleBucketPruneInterval then rl
  else
    { rl with
      lastPruneAt := now
      clients := fun key => (rl.clients key).filter fun record => !decide (record.resetAt < now) }

/-- The rest of `allow`: one request is accounted against the window of its host. -/
def account [DecidableEq Host] (rl : RateLimiter Host) (key : Host) (now : ℤ) :
    RateLimiter Host × Bool :=
  let fresh : RateLimiter Host × Bool :=
    ({ rl with clients := Function.update rl.clients key (some ⟨1, now + rateLimitWindow⟩) }, true)
  match rl.clients key with
  | none => fresh
  | some record =>
    if record.resetAt < now then fresh
    else
      let record := { record with count := record.count + 1 }
      ({ rl with clients := Function.update rl.clients key (some record) },
        decide (record.count ≤ rl.limit))

/-- `allow` -/
def allow [DecidableEq Host] (rl : RateLimiter Host) (key : Host) (now : ℤ) :
    RateLimiter Host × Bool :=
  (rl.prune now).account key now

/-! ## Sequences of requests -/

variable {decision : RateLimiter Host → Host → ℤ → RateLimiter Host × Bool} {limit : ℤ}
variable {arrivals : List (Arrival Host)} {arrival : Arrival Host}

/-- Requests decided in order, with the decision on each. -/
def serve (decision : RateLimiter Host → Host → ℤ → RateLimiter Host × Bool) (limit : ℤ)
    (arrivals : List (Arrival Host)) : RateLimiter Host × List (Arrival Host × Bool) :=
  arrivals.foldl (fun (rl, log) arrival =>
    let (rl, admitted) := decision rl arrival.host arrival.now
    (rl, log ++ [(arrival, admitted)])) (.new limit, [])

theorem serve_snoc : serve decision limit (arrivals ++ [arrival]) =
    ((decision (serve decision limit arrivals).1 arrival.host arrival.now).1,
      (serve decision limit arrivals).2 ++
        [(arrival, (decision (serve decision limit arrivals).1 arrival.host arrival.now).2)]) := by
  simp only [serve, List.foldl_append, List.foldl_cons, List.foldl_nil]

/-- Times that do not go back. -/
abbrev Forward (arrivals : List (Arrival Host)) : Prop := arrivals.Pairwise fun a b => a.now ≤ b.now

theorem Forward.snoc (h : Forward (arrivals ++ [arrival])) :
    Forward arrivals ∧ ∀ a ∈ arrivals, a.now ≤ arrival.now := by
  obtain ⟨hfirst, -, hlast⟩ := List.pairwise_append.1 h
  exact ⟨hfirst, fun a ha => hlast a ha arrival (List.mem_singleton_self _)⟩

theorem exists_later (arrivals : List (Arrival Host)) : ∃ now, ∀ a ∈ arrivals, a.now ≤ now := by
  induction arrivals with
  | nil => exact ⟨0, fun a ha => by cases ha⟩
  | cons b arrivals ih =>
    obtain ⟨now, hnow⟩ := ih
    refine ⟨max b.now now, fun a ha => ?_⟩
    rcases List.mem_cons.1 ha with rfl | ha
    · omega
    · have hle := hnow a ha
      omega

/-! ## Pruning -/

/-- A limiter that lacks some windows of another, all of them stale at this time. -/
structure Forgets (now : ℤ) (rl full : RateLimiter Host) : Prop where
  limit : rl.limit = full.limit
  clients : ∀ key, rl.clients key = full.clients key ∨
    rl.clients key = none ∧ ∃ record, full.clients key = some record ∧ record.resetAt < now

variable {now later : ℤ} {rl full : RateLimiter Host}

theorem Forgets.mono (h : Forgets now rl full) (hle : now ≤ later) : Forgets later rl full := by
  refine ⟨h.limit, fun key => ?_⟩
  rcases h.clients key with hsame | ⟨hnone, record, hrecord, hstale⟩
  · exact Or.inl hsame
  · exact Or.inr ⟨hnone, record, hrecord, by omega⟩

theorem Forgets.prune (h : Forgets now rl full) : Forgets now (rl.prune now) full := by
  unfold RateLimiter.prune
  split_ifs
  · exact h
  · refine ⟨h.limit, fun key => ?_⟩
    rcases h.clients key with hsame | ⟨hnone, hrecord⟩
    · cases hrecord : full.clients key with
      | none => exact Or.inl (by simp [hsame, hrecord])
      | some record =>
        by_cases hstale : record.resetAt < now
        · exact Or.inr ⟨by simp [hsame, hrecord, hstale], record, rfl, hstale⟩
        · exact Or.inl (by simp [hsame, hrecord, hstale])
    · exact Or.inr ⟨by simp [hnone], hrecord⟩

variable [DecidableEq Host]

/-- **A stale window is as good as none**: both limiters decide alike. -/
theorem Forgets.account (h : Forgets now rl full) (key : Host) :
    Forgets now (rl.account key now).1 (full.account key now).1 ∧
      (rl.account key now).2 = (full.account key now).2 := by
  have hupdate : ∀ record : ClientRecord,
      Forgets now { rl with clients := Function.update rl.clients key (some record) }
        { full with clients := Function.update full.clients key (some record) } := by
    intro record
    refine ⟨h.limit, fun other => ?_⟩
    by_cases hkey : other = key
    · subst hkey
      exact Or.inl (by simp)
    · simpa [hkey] using h.clients other
  unfold RateLimiter.account
  rcases h.clients key with hsame | ⟨hnone, record, hrecord, hstale⟩
  · rw [hsame]
    cases full.clients key with
    | none => exact ⟨hupdate _, rfl⟩
    | some record =>
      simp only
      split_ifs
      · exact ⟨hupdate _, rfl⟩
      · exact ⟨hupdate _, by rw [h.limit]⟩
  · rw [hnone, hrecord]
    simp only
    rw [if_pos hstale]
    exact ⟨hupdate _, rfl⟩

/-- **Pruning changes no decision.** -/
theorem serve_allow (h : Forward arrivals) :
    (serve allow limit arrivals).2 = (serve account limit arrivals).2 ∧
    ∀ now, (∀ a ∈ arrivals, a.now ≤ now) →
      Forgets now (serve allow limit arrivals).1 (serve account limit arrivals).1 := by
  induction arrivals using List.reverseRecOn with
  | nil => exact ⟨rfl, fun now _ => ⟨rfl, fun _ => Or.inl rfl⟩⟩
  | append_singleton arrivals arrival ih =>
    obtain ⟨hfirst, hlast⟩ := h.snoc
    obtain ⟨hlog, hforgets⟩ := ih hfirst
    have hstep := (hforgets arrival.now hlast).prune.account arrival.host
    rw [serve_snoc, serve_snoc]
    refine ⟨?_, fun now hnow => ?_⟩
    · show _ ++ [(arrival, (RateLimiter.account _ arrival.host arrival.now).2)] = _
      rw [hlog, hstep.2]
    · exact hstep.1.mono (hnow arrival (List.mem_append_right _ (List.mem_singleton_self _)))

/-! ## Windows -/

/-- When the requests of a host were admitted. -/
def admittedTimes (host : Host) (log : List (Arrival Host × Bool)) : List ℤ :=
  (log.filter fun (arrival, admitted) => decide (arrival.host = host) && admitted).map (·.1.now)

theorem admittedTimes_snoc (host : Host) (log : List (Arrival Host × Bool)) (arrival : Arrival Host)
    (admitted : Bool) : admittedTimes host (log ++ [(arrival, admitted)]) =
      admittedTimes host log ++ if arrival.host = host ∧ admitted = true then [arrival.now] else [] := by
  rw [admittedTimes, List.filter_append, List.map_append]
  by_cases hhost : arrival.host = host <;> cases admitted <;> simp [admittedTimes, hhost]

/-- How many of these times lie between two, both included. -/
def within (first last : ℤ) (times : List ℤ) : ℕ := times.countP fun t => decide (first ≤ t ∧ t ≤ last)

theorem within_snoc (first last : ℤ) (times : List ℤ) (t : ℤ) :
    within first last (times ++ [t]) = within first last times + if first ≤ t ∧ t ≤ last then 1 else 0 := by
  rw [within, List.countP_append, List.countP_singleton]
  simp [within]

/-- An interval covered by two others. -/
theorem within_le_add {first last a b c d : ℤ} {times : List ℤ}
    (h : ∀ t ∈ times, first ≤ t → t ≤ last → a ≤ t ∧ t ≤ b ∨ c ≤ t ∧ t ≤ d) :
    within first last times ≤ within a b times + within c d times := by
  induction times with
  | nil => exact Nat.zero_le _
  | cons t times ih =>
    have htimes := ih fun u hu => h u (List.mem_cons_of_mem t hu)
    have ht := h t List.mem_cons_self
    simp only [within, List.countP_cons, decide_eq_true_eq] at htimes ⊢
    split_ifs <;> omega

theorem within_le {first last a b : ℤ} {times : List ℤ}
    (h : ∀ t ∈ times, first ≤ t → t ≤ last → a ≤ t ∧ t ≤ b) :
    within first last times ≤ within a b times :=
  List.countP_mono_left fun t ht hin => by
    simp only [decide_eq_true_eq] at hin ⊢
    exact h t ht hin.1 hin.2

/-- The admitted requests of a host with this window, up to a time: they are counted, few in the
    window, few in its length before it, and at most twice as many in any interval of its length. -/
structure Window (limit : ℤ) (now : ℤ) (record : ClientRecord) (times : List ℤ) : Prop where
  upto : ∀ t ∈ times, t ≤ now ∧ t ≤ record.resetAt
  start : record.resetAt - rateLimitWindow ≤ now
  inside : within (record.resetAt - rateLimitWindow) record.resetAt times ≤ limit ∧
    within (record.resetAt - rateLimitWindow) record.resetAt times ≤ record.count
  before : within (record.resetAt - 2 * rateLimitWindow) (record.resetAt - rateLimitWindow - 1) times ≤ limit
  span : ∀ first, within first (first + rateLimitWindow) times ≤ 2 * limit

/-- A request that begins a window. -/
theorem Window.fresh {limit now : ℤ} {times : List ℤ} (hlimit : 1 ≤ limit) (hpast : ∀ t ∈ times, t < now)
    (hrecent : within (now - rateLimitWindow) (now - 1) times ≤ limit)
    (hspan : ∀ first, within first (first + rateLimitWindow) times ≤ 2 * limit) :
    Window limit now ⟨1, now + rateLimitWindow⟩ (times ++ [now]) := by
  have hlength : (0 : ℤ) < rateLimitWindow := by decide
  have hinside : within now (now + rateLimitWindow) (times ++ [now]) = 1 := by
    have hnone : within now (now + rateLimitWindow) times = 0 := by
      rw [within, List.countP_eq_zero]
      intro t ht hin
      have hlt := hpast t ht
      rw [decide_eq_true_eq] at hin
      omega
    rw [within_snoc, hnone, if_pos ⟨Int.le_refl now, by omega⟩]
  refine ⟨fun t ht => ?_, by simp, ?_, ?_, fun first => ?_⟩
  · simp only
    rcases List.mem_append.1 ht with ht | ht
    · have hlt := hpast t ht
      omega
    · rw [List.mem_singleton] at ht
      omega
  · have hback : now + rateLimitWindow - rateLimitWindow = now := by omega
    simp only [hback, hinside]
    omega
  · have hsame : within (now + rateLimitWindow - 2 * rateLimitWindow)
        (now + rateLimitWindow - rateLimitWindow - 1) (times ++ [now]) ≤
          within (now - rateLimitWindow) (now - 1) times := by
      rw [within_snoc, if_neg (by omega), Nat.add_zero]
      exact within_le fun t _ _ _ => by omega
    simp only
    omega
  · have hbefore := hspan first
    rw [within_snoc]
    split_ifs with hin
    · -- what else is in the interval lies in the window's length before now
      have hle : within first (first + rateLimitWindow) times ≤
          within (now - rateLimitWindow) (now - 1) times :=
        within_le fun t ht _ _ => by have := hpast t ht; omega
      omega
    · omega

theorem Window.mono {limit now later : ℤ} {record : ClientRecord} {times : List ℤ}
    (h : Window limit now record times) (hle : now ≤ later) : Window limit later record times where
  upto := fun t ht => by have hupto := h.upto t ht; omega
  start := by have hstart := h.start; omega
  inside := h.inside
  before := h.before
  span := h.span

/-- A request in a window that is not over. -/
theorem Window.again {limit now : ℤ} {record : ClientRecord} {times : List ℤ}
    (h : Window limit now record times) (hopen : ¬ record.resetAt < now) :
    Window limit now { record with count := record.count + 1 }
      (times ++ if ((record.count + 1 : ℕ) : ℤ) ≤ limit then [now] else []) := by
  have hlength : (0 : ℤ) < rateLimitWindow := by decide
  have hstart := h.start
  have hcount := h.inside
  split_ifs with hadmitted
  · have hinside : within (record.resetAt - rateLimitWindow) record.resetAt (times ++ [now]) =
        within (record.resetAt - rateLimitWindow) record.resetAt times + 1 := by
      rw [within_snoc, if_pos ⟨by omega, by omega⟩]
    refine ⟨fun t ht => ?_, ?_, ?_, ?_, fun first => ?_⟩
    · simp only
      rcases List.mem_append.1 ht with ht | ht
      · have hupto := h.upto t ht
        omega
      · rw [List.mem_singleton] at ht
        omega
    · simp only
      omega
    · simp only [hinside]
      omega
    · have hbefore := h.before
      simp only
      rw [within_snoc, if_neg (by omega)]
      omega
    · have hspan := h.span first
      rw [within_snoc]
      split_ifs with hin
      · -- the interval ends after now, so it begins in the length before the window
        have hcover : within first (first + rateLimitWindow) times ≤
            within (record.resetAt - 2 * rateLimitWindow) (record.resetAt - rateLimitWindow - 1) times +
              within (record.resetAt - rateLimitWindow) record.resetAt times :=
          within_le_add fun t ht _ _ => by have := h.upto t ht; omega
        have hbefore := h.before
        omega
      · omega
  · rw [List.append_nil]
    refine ⟨fun t ht => ?_, ?_, ?_, h.before, h.span⟩
    · have hupto := h.upto t ht
      simp only
      omega
    · simp only
      omega
    · simp only
      omega

/-- What a request does: it begins a window, or falls into one that is not over. -/
inductive Accounted (rl : RateLimiter Host) (key : Host) (now : ℤ) : RateLimiter Host × Bool → Prop
  | fresh (h : ∀ record, rl.clients key = some record → record.resetAt < now) : Accounted rl key now
      ({ rl with clients := Function.update rl.clients key (some ⟨1, now + rateLimitWindow⟩) }, true)
  | again {record : ClientRecord} (hrecord : rl.clients key = some record)
      (hopen : ¬ record.resetAt < now) : Accounted rl key now
      ({ rl with clients := Function.update rl.clients key (some ⟨record.count + 1, record.resetAt⟩) },
        decide (((record.count + 1 : ℕ) : ℤ) ≤ rl.limit))

theorem account_spec (rl : RateLimiter Host) (key : Host) (now : ℤ) :
    Accounted rl key now (rl.account key now) := by
  unfold RateLimiter.account
  cases hrecord : rl.clients key with
  | none => exact .fresh fun record h => by rw [hrecord] at h; cases h
  | some record =>
    simp only
    split_ifs with hstale
    · refine .fresh fun record' h => ?_
      rw [hrecord] at h
      cases h
      exact hstale
    · exact .again hrecord hstale

/-- The window of a host and its admitted requests, up to a time. -/
def Known (limit now : ℤ) (times : List ℤ) : Option ClientRecord → Prop
  | none => times = []
  | some record => Window limit now record times

theorem Known.fresh {limit now : ℤ} {times : List ℤ} {known : Option ClientRecord}
    (h : Known limit now times known) (hlimit : 1 ≤ limit)
    (hstale : ∀ record, known = some record → record.resetAt < now) :
    Window limit now ⟨1, now + rateLimitWindow⟩ (times ++ [now]) := by
  cases known with
  | none =>
    rw [show times = [] from h]
    refine .fresh hlimit (fun t ht => by cases ht) ?_ fun first => ?_
    · simp only [within, List.countP_nil]
      omega
    · simp only [within, List.countP_nil]
      omega
  | some record =>
    have hwindow : Window limit now record times := h
    have hpast := hstale record rfl
    refine .fresh hlimit (fun t ht => ?_) ?_ hwindow.span
    · have hupto := hwindow.upto t ht
      omega
    · have hle : within (now - rateLimitWindow) (now - 1) times ≤
          within (record.resetAt - rateLimitWindow) record.resetAt times :=
        within_le fun t ht _ _ => by have hupto := hwindow.upto t ht; omega
      have hinside := hwindow.inside
      omega

/-- **The windows of a run.** -/
theorem serve_window (hlimit : 1 ≤ limit) (h : Forward arrivals) (host : Host) :
    (serve account limit arrivals).1.limit = limit ∧ ∀ now, (∀ a ∈ arrivals, a.now ≤ now) →
      Known limit now (admittedTimes host (serve account limit arrivals).2)
        ((serve account limit arrivals).1.clients host) := by
  induction arrivals using List.reverseRecOn with
  | nil => exact ⟨rfl, fun _ _ => rfl⟩
  | append_singleton arrivals arrival ih =>
    obtain ⟨hfirst, hlast⟩ := h.snoc
    obtain ⟨hsame, hknown⟩ := ih hfirst
    rw [serve_snoc]
    generalize (serve account limit arrivals).1 = rl at hsame hknown ⊢
    generalize (serve account limit arrivals).2 = log at hknown ⊢
    have hreached : ∀ now, (∀ a ∈ arrivals ++ [arrival], a.now ≤ now) → arrival.now ≤ now :=
      fun now hnow => hnow arrival (List.mem_append_right _ (List.mem_singleton_self _))
    have hspec := account_spec rl arrival.host arrival.now
    generalize rl.account arrival.host arrival.now = result at hspec ⊢
    simp only [admittedTimes_snoc]
    by_cases hhost : arrival.host = host
    · subst hhost
      cases hspec with
      | fresh hstale =>
        refine ⟨hsame, fun now hnow => ?_⟩
        simp only [Function.update_self, true_and, if_true]
        exact ((hknown _ hlast).fresh hlimit hstale).mono (hreached now hnow)
      | @again record hrecord hopen =>
        refine ⟨hsame, fun now hnow => ?_⟩
        have hwindow := hknown _ hlast
        rw [hrecord] at hwindow
        simp only [Function.update_self, true_and, decide_eq_true_eq, hsame]
        exact (Window.again hwindow hopen).mono (hreached now hnow)
    · cases hspec with
      | fresh hstale =>
        refine ⟨hsame, fun now hnow => ?_⟩
        simp only [hhost, false_and, if_false, List.append_nil,
          Function.update_of_ne (Ne.symm hhost)]
        exact hknown now fun a ha => hnow a (List.mem_append_left _ ha)
      | again hrecord hopen =>
        refine ⟨hsame, fun now hnow => ?_⟩
        simp only [hhost, false_and, if_false, List.append_nil,
          Function.update_of_ne (Ne.symm hhost)]
        exact hknown now fun a ha => hnow a (List.mem_append_left _ ha)

/-- An interval holds at most twice the limit. -/
theorem Known.span {limit now : ℤ} {times : List ℤ} {known : Option ClientRecord}
    (h : Known limit now times known) (hlimit : 1 ≤ limit) (first : ℤ) :
    within first (first + rateLimitWindow) times ≤ 2 * limit := by
  cases known with
  | none =>
    rw [show times = [] from h]
    simp only [within, List.countP_nil]
    omega
  | some record => exact Window.span h first

end RateLimiter

open RateLimiter in
/-- **The rate limiter.**  For every limit of at least one and every sequence of requests whose
    times do not go back, the decisions are those of a limiter that prunes no window, and in any
    interval of the window's length at most twice the limit of the requests of a host are
    admitted. -/
theorem rate_limit [DecidableEq Host] {limit : ℤ} {arrivals : List (Arrival Host)} (hlimit : 1 ≤ limit)
    (h : Forward arrivals) :
    (serve allow limit arrivals).2 = (serve account limit arrivals).2 ∧
    ∀ (host : Host) (first : ℤ),
      within first (first + rateLimitWindow) (admittedTimes host (serve allow limit arrivals).2) ≤
        2 * limit := by
  have hsame : (serve allow limit arrivals).2 = (serve account limit arrivals).2 := (serve_allow h).1
  refine ⟨hsame, fun host first => ?_⟩
  obtain ⟨now, hnow⟩ := exists_later arrivals
  rw [hsame]
  exact ((serve_window hlimit h host).2 now hnow).span hlimit first

/-- Two hosts; the second one comes when the window of the first is stale, and has it pruned. -/
def twoHosts : List (Arrival ℕ) :=
  [⟨0, 100000000000⟩, ⟨0, 100000000001⟩, ⟨1, 160000000001⟩, ⟨0, 160000000001⟩, ⟨0, 160000000002⟩]

open RateLimiter in
theorem rate_limit_twoHosts :
    (serve allow 1 twoHosts).2.map (·.2) = [true, false, true, true, false] ∧
    (serve allow 1 twoHosts).2 = (serve account 1 twoHosts).2 ∧
    ∀ (host : ℕ) (first : ℤ),
      within first (first + rateLimitWindow) (admittedTimes host (serve allow 1 twoHosts).2) ≤ 2 * 1 := by
  have hforward : Forward twoHosts := by
    unfold Forward twoHosts
    decide
  have hboth := rate_limit (by decide : (1 : ℤ) ≤ 1) hforward
  exact ⟨by decide, hboth.1, fun host first => by exact_mod_cast hboth.2 host first⟩

end Echolet
