/-
  Fitting a pane into the rows a frame has for it (`pane-fit.ts`).

  * `keepItems_spec`: whole items from the kept end, one of them at least, within the room;
  * `fitPane_excerpt`: all lines if they fit; else an excerpt with a marker that counts the items
    that are not shown, or, without items, the first lines;
  * `listless_pane_cut`: a pane without items has nothing to count.
-/
import Echolet.Tui.Text

namespace Echolet.Tui

inductive KeepEnd
  | head
  | tail
  deriving DecidableEq

/-- The regions of a pane.  An item of the list is the lines it occupies. -/
structure PaneRegions where
  head : List JsString
  rows : List (List JsString)
  tail : List JsString
  keep : KeepEnd

/-- All lines of a pane. -/
def PaneRegions.lines (regions : PaneRegions) : List JsString :=
  regions.head ++ regions.rows.flatten ++ regions.tail

def truncationMarker (hidden : ℕ) : JsString :=
  js "… " ++ utf16Units (decimal hidden) ++ js " more not shown"

/-- The loop of `keepItems`: the items kept so far, and the lines they use. -/
def keepLoop (budget : ℤ) : List (List JsString) → List (List JsString) → ℕ →
    List (List JsString) × ℕ
  | [], kept, used => (kept, used)
  | row :: rows, kept, used =>
    if kept ≠ [] ∧ budget < used + row.length then (kept, used)
    else if budget ≤ used + row.length then (kept ++ [row], used + row.length)
    else keepLoop budget rows (kept ++ [row]) (used + row.length)

/-- The items that survive, from the end that is kept, and the lines they use. -/
def keepItems (rows : List (List JsString)) (keep : KeepEnd) (room : ℕ) (budget : ℤ) :
    List (List JsString) × ℕ :=
  if room = 0 then ([], 0)
  else match keep with
    | .head => keepLoop budget rows [] 0
    | .tail =>
      let (kept, used) := keepLoop budget rows.reverse [] 0
      (kept.reverse, used)

/-- One pane in at most `limit` lines, each clipped to `width`; without a limit all of it. -/
def fitPane (regions : PaneRegions) (limit : Option ℕ) (width : ℕ) : List JsString :=
  let clip (line : JsString) : JsString := clipLine line width
  match limit with
  | none => regions.lines.map clip
  | some cap =>
    if regions.lines.length ≤ cap then regions.lines.map clip
    -- with no items there is no count to report
    else if regions.rows = [] then (regions.lines.take cap).map clip
    else
      let room := cap - 1
      let wanted := regions.head.length + regions.tail.length
      let (kept, used) := keepItems regions.rows regions.keep room (room - wanted)
      let fixed := min wanted (room - used)
      let headRoom := min regions.head.length fixed
      let tailRoom := fixed - headRoom
      ((regions.head.take headRoom ++ kept.flatten ++
        truncationMarker (regions.rows.length - kept.length) ::
          regions.tail.drop (regions.tail.length - tailRoom)).take cap).map clip

/-! ## The items that are kept -/

/-- So many items from the end that is kept. -/
def keptRun (keep : KeepEnd) (rows : List (List JsString)) (k : ℕ) : List (List JsString) :=
  match keep with
  | .head => rows.take k
  | .tail => rows.drop (rows.length - k)

theorem keptRun_length {keep : KeepEnd} {rows : List (List JsString)} {k : ℕ} (h : k ≤ rows.length) :
    (keptRun keep rows k).length = k := by
  cases keep with
  | head => exact List.length_take_of_le h
  | tail =>
    show (rows.drop _).length = k
    rw [List.length_drop]
    omega

theorem keepLoop_spec (budget : ℤ) : ∀ (rows kept : List (List JsString)) (used : ℕ),
    ∃ k ≤ rows.length, keepLoop budget rows kept used =
      (kept ++ rows.take k, used + (rows.take k).flatten.length) ∧
        (kept = [] → rows ≠ [] → 1 ≤ k)
  | [], kept, used => ⟨0, le_rfl, by simp [keepLoop], fun _ h => absurd rfl h⟩
  | row :: rows, kept, used => by
    unfold keepLoop
    split_ifs with hfull hlast
    · exact ⟨0, Nat.zero_le _, by simp, fun h _ => absurd h hfull.1⟩
    · exact ⟨1, by simp, by simp, fun _ _ => le_rfl⟩
    · obtain ⟨k, hk, heq, -⟩ := keepLoop_spec budget rows (kept ++ [row]) (used + row.length)
      refine ⟨k + 1, by simpa using hk, ?_, fun _ _ => Nat.succ_pos k⟩
      rw [heq, List.take_succ_cons, List.flatten_cons, List.length_append, List.append_assoc,
        List.singleton_append, Nat.add_assoc]

/-- Items no taller than the room never use more than the room. -/
theorem keepLoop_used {budget : ℤ} {room : ℕ} (hbudget : budget ≤ room) :
    ∀ {rows kept : List (List JsString)} {used : ℕ}, (∀ row ∈ rows, row.length ≤ room) →
      used ≤ room → (kept = [] → used = 0) → (keepLoop budget rows kept used).2 ≤ room
  | [], _, _, _, hused, _ => hused
  | row :: rows, kept, used, hrows, hused, hfirst => by
    have hrow := hrows row List.mem_cons_self
    -- the first item fits by itself, a later one into the budget
    have hnext : ¬ (kept ≠ [] ∧ budget < used + row.length) → used + row.length ≤ room := by
      intro hfits
      by_cases hk : kept = []
      · rw [hfirst hk]
        omega
      · have hle := not_lt.1 fun hlt => hfits ⟨hk, hlt⟩
        omega
    unfold keepLoop
    split_ifs with hfull hlast
    · exact hused
    · exact hnext hfull
    · refine keepLoop_used hbudget (fun r hr => hrows r (List.mem_cons_of_mem row hr)) (hnext hfull) ?_
      intro hnil
      simp at hnil

/-- **Whole items from the kept end**, at least one, within the room. -/
theorem keepItems_spec {rows : List (List JsString)} {keep : KeepEnd} {room : ℕ} {budget : ℤ}
    (hne : rows ≠ []) (hroom : 1 ≤ room) (hbudget : budget ≤ room)
    (hrows : ∀ row ∈ rows, row.length ≤ room) : ∃ k, 1 ≤ k ∧ k ≤ rows.length ∧
      keepItems rows keep room budget =
        (keptRun keep rows k, (keptRun keep rows k).flatten.length) ∧
      (keptRun keep rows k).flatten.length ≤ room := by
  have hzero : room ≠ 0 := by omega
  unfold keepItems
  rw [if_neg hzero]
  cases keep with
  | head =>
    obtain ⟨k, hk, heq, hone⟩ := keepLoop_spec budget rows [] 0
    have hused := @keepLoop_used budget room hbudget rows [] 0 hrows (Nat.zero_le room) fun _ => rfl
    rw [heq, Nat.zero_add] at hused
    rw [List.nil_append, Nat.zero_add] at heq
    exact ⟨k, hone rfl hne, hk, heq, hused⟩
  | tail =>
    obtain ⟨k, hk, heq, hone⟩ := keepLoop_spec budget rows.reverse [] 0
    have hused := @keepLoop_used budget room hbudget rows.reverse [] 0
      (fun row hrow => hrows row (List.mem_reverse.1 hrow)) (Nat.zero_le room) fun _ => rfl
    rw [heq, Nat.zero_add] at hused
    rw [List.nil_append, Nat.zero_add] at heq
    have hrun : rows.reverse.take k = (keptRun .tail rows k).reverse := List.take_reverse
    have hlength : (keptRun .tail rows k).reverse.flatten.length =
        (keptRun .tail rows k).flatten.length := by
      rw [List.length_flatten, List.length_flatten, List.map_reverse, List.sum_reverse]
    rw [hrun, hlength] at heq hused
    refine ⟨k, hone rfl (by simpa using hne), by simpa using hk, ?_, hused⟩
    simp only [heq, List.reverse_reverse]

/-! ## The pane -/

/-- The excerpt of a pane with so many lines of its head, items of its list and lines of its tail. -/
def excerpt (regions : PaneRegions) (a k b : ℕ) : List JsString :=
  regions.head.take a ++ (keptRun regions.keep regions.rows k).flatten ++
    truncationMarker (regions.rows.length - k) :: regions.tail.drop (regions.tail.length - b)

/-- **A pane with items that does not fit.** -/
theorem fitPane_items {regions : PaneRegions} {cap : ℕ} (width : ℕ) (hne : regions.rows ≠ [])
    (hrows : ∀ item ∈ regions.rows, 1 ≤ item.length ∧ item.length + 1 ≤ cap)
    (hlong : cap < regions.lines.length) : ∃ a k b, 1 ≤ k ∧ k ≤ regions.rows.length ∧
      (excerpt regions a k b).length ≤ cap ∧
      fitPane regions (some cap) width = (excerpt regions a k b).map (clipLine · width) := by
  obtain ⟨item, hitem⟩ := List.exists_mem_of_ne_nil _ hne
  have hcap := hrows item hitem
  obtain ⟨k, hone, hk, hkept, hused⟩ := @keepItems_spec regions.rows regions.keep (cap - 1)
    (((cap - 1 : ℕ) : ℤ) - (regions.head.length + regions.tail.length : ℕ)) hne (by omega)
    (by omega) fun row hrow => by have := (hrows row hrow).2; omega
  let fixed := min (regions.head.length + regions.tail.length)
    (cap - 1 - (keptRun regions.keep regions.rows k).flatten.length)
  have hlength : (excerpt regions (min regions.head.length fixed) k
      (fixed - min regions.head.length fixed)).length ≤ cap := by
    simp only [excerpt, List.length_append, List.length_take, List.length_cons, List.length_drop]
    omega
  refine ⟨min regions.head.length fixed, k, fixed - min regions.head.length fixed, hone, hk,
    hlength, ?_⟩
  have htake := List.take_of_length_le hlength
  simp only [fitPane]
  rw [if_neg (by omega), if_neg hne, hkept]
  simp only [keptRun_length hk]
  exact congrArg (List.map (clipLine · width)) htake

/-- **An honest excerpt.**  Within its limit a pane is all its lines, in order; else the first
    lines of its head, a run of whole items from the kept end, a marker with the number of items
    that are not shown, and the last lines of its tail; without items the first of its lines. -/
theorem fitPane_excerpt (regions : PaneRegions) (limit : Option ℕ) (width : ℕ)
    (hrows : ∀ item ∈ regions.rows, 1 ≤ item.length ∧ ∀ n ∈ limit, item.length + 1 ≤ n) :
    (∀ n ∈ limit, (fitPane regions limit width).length ≤ n) ∧
    ((∀ n ∈ limit, regions.lines.length ≤ n) →
      fitPane regions limit width = regions.lines.map (clipLine · width)) ∧
    ∀ n ∈ limit, n < regions.lines.length →
      (regions.rows = [] → fitPane regions limit width = (regions.lines.take n).map (clipLine · width)) ∧
      (regions.rows ≠ [] → ∃ a k b, 1 ≤ k ∧ k ≤ regions.rows.length ∧
        fitPane regions limit width = (excerpt regions a k b).map (clipLine · width)) := by
  cases limit with
  | none => exact ⟨fun n hn => (by cases hn), fun _ => rfl, fun n hn => (by cases hn)⟩
  | some cap =>
    have hitems : ∀ item ∈ regions.rows, 1 ≤ item.length ∧ item.length + 1 ≤ cap :=
      fun item hitem => ⟨(hrows item hitem).1, (hrows item hitem).2 cap rfl⟩
    have hall : regions.lines.length ≤ cap →
        fitPane regions (some cap) width = regions.lines.map (clipLine · width) := fun h => if_pos h
    have hcut : cap < regions.lines.length → regions.rows = [] →
        fitPane regions (some cap) width = (regions.lines.take cap).map (clipLine · width) := by
      intro hlong hnil
      simp only [fitPane]
      rw [if_neg (by omega), if_pos hnil]
    refine ⟨?_, fun h => hall (h cap rfl), ?_⟩
    · rintro n ⟨⟩
      by_cases hfits : regions.lines.length ≤ cap
      · rw [hall hfits, List.length_map]
        exact hfits
      · by_cases hnil : regions.rows = []
        · rw [hcut (by omega) hnil, List.length_map]
          exact List.length_take_le _ _
        · obtain ⟨a, k, b, -, -, hlength, heq⟩ := fitPane_items width hnil hitems (by omega)
          rw [heq, List.length_map]
          exact hlength
    · rintro n ⟨⟩ hlong
      refine ⟨hcut hlong, fun hne => ?_⟩
      obtain ⟨a, k, b, hone, hk, -, heq⟩ := fitPane_items width hne hitems hlong
      exact ⟨a, k, b, hone, hk, heq⟩

def twoMessages : PaneRegions := ⟨[js "history"], [[js "1", js "a"], [js "2", js "b"]], [], .tail⟩

/-- In four rows there is the last message and the count. -/
theorem fitPane_excerpt_messages :
    fitPane twoMessages (some 4) 72 = [js "history", js "2", js "b", js "… 1 more not shown"] ∧
      ∃ a k b, 1 ≤ k ∧ k ≤ twoMessages.rows.length ∧
        fitPane twoMessages (some 4) 72 = (excerpt twoMessages a k b).map (clipLine · 72) := by
  refine ⟨by decide +kernel, ?_⟩
  exact ((fitPane_excerpt twoMessages (some 4) 72 (by decide +kernel)).2.2 4 rfl
    (by decide +kernel)).2 (by decide +kernel)

/-- A pane without items shows its first lines and says nothing of the rest. -/
theorem listless_pane_cut : ¬ ∀ (regions : PaneRegions) (n width : ℕ),
    (∀ item ∈ regions.rows, 1 ≤ item.length ∧ item.length + 1 ≤ n) → n < regions.lines.length →
      ∃ a k b, 1 ≤ k ∧ k ≤ regions.rows.length ∧
        fitPane regions (some n) width = (excerpt regions a k b).map (clipLine · width) := by
  intro hall
  obtain ⟨a, k, b, hone, hk, -⟩ := hall ⟨[js "a", js "b"], [], [], .head⟩ 1 72
    (fun item hitem => by cases hitem) (by decide)
  have hzero : k ≤ 0 := hk
  omega

end Echolet.Tui
