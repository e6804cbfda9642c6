/-
  `Map`, which keeps its entries in the order their keys were first set.

  `get`, `set` and `delete` act on one key; `get_set` and `get_delete` say what they leave of the
  function a map is.
-/
import Mathlib.Data.List.Nodup
import Mathlib.Tactic.Common

namespace Echolet

/-- A map: entries with different keys, the first one set first. -/
@[ext]
structure JsMap (K V : Type) where
  entries : List (K × V)
  nodup : (entries.map (·.1)).Nodup

namespace JsMap

variable {K V : Type} [DecidableEq K]

def empty : JsMap K V := ⟨[], List.nodup_nil⟩

def get (m : JsMap K V) (k : K) : Option V := (m.entries.find? fun e => e.1 = k).map (·.2)

def keys (m : JsMap K V) : List K := m.entries.map (·.1)

/-- Replace the value of a key where it stands, or put the key last. -/
def setEntry (k : K) (v : V) : List (K × V) → List (K × V)
  | [] => [(k, v)]
  | e :: es => if e.1 = k then (k, v) :: es else e :: setEntry k v es

theorem map_fst_setEntry (k : K) (v : V) : ∀ es : List (K × V),
    (setEntry k v es).map (·.1) = if k ∈ es.map (·.1) then es.map (·.1) else es.map (·.1) ++ [k]
  | [] => rfl
  | e :: es => by
    have ih := map_fst_setEntry k v es
    unfold setEntry
    by_cases h : e.1 = k
    · rw [if_pos h, if_pos (by simp [h])]
      simp [h]
    · have hmem : k ∈ (e :: es).map (·.1) ↔ k ∈ es.map (·.1) := by
        rw [List.map_cons, List.mem_cons]
        exact or_iff_right fun he => h he.symm
      rw [if_neg h, List.map_cons, ih]
      by_cases hk : k ∈ es.map (·.1)
      · rw [if_pos hk, if_pos (hmem.2 hk), List.map_cons]
      · rw [if_neg hk, if_neg (mt hmem.1 hk), List.map_cons, List.cons_append]

theorem mem_setEntry {k : K} {v : V} {e : K × V} {es : List (K × V)} (h : e ∈ setEntry k v es) :
    e = (k, v) ∨ e ∈ es := by
  induction es with
  | nil => exact .inl (List.mem_singleton.1 h)
  | cons e' es ih =>
    rw [setEntry] at h
    split_ifs at h
    · rcases List.mem_cons.1 h with rfl | h
      · exact .inl rfl
      · exact .inr (List.mem_cons_of_mem _ h)
    · rcases List.mem_cons.1 h with rfl | h
      · exact .inr List.mem_cons_self
      · exact (ih h).imp_right (List.mem_cons_of_mem _)

def set (m : JsMap K V) (k : K) (v : V) : JsMap K V where
  entries := setEntry k v m.entries
  nodup := by
    rw [map_fst_setEntry]
    split_ifs with h
    · exact m.nodup
    · exact List.nodup_append.2 ⟨m.nodup, List.nodup_singleton k, fun a ha b hb => by
        rw [List.mem_singleton.1 hb]
        exact fun he => h (he ▸ ha)⟩

def delete (m : JsMap K V) (k : K) : JsMap K V where
  entries := m.entries.filter fun e => e.1 ≠ k
  nodup := m.nodup.sublist (List.filter_sublist.map _)

theorem find_setEntry (k k' : K) (v : V) : ∀ es : List (K × V),
    ((setEntry k v es).find? fun e => e.1 = k').map (·.2) =
      if k' = k then some v else (es.find? fun e => e.1 = k').map (·.2)
  | [] => by
    by_cases h : k = k'
    · simp [setEntry, h]
    · simp [setEntry, h, Ne.symm h]
  | e :: es => by
    have ih := find_setEntry k k' v es
    unfold setEntry
    by_cases he : e.1 = k
    · rw [if_pos he]
      by_cases h : k = k'
      · simp [h]
      · have hne : e.1 ≠ k' := fun hk => h (he.symm.trans hk)
        simp [h, Ne.symm h, hne]
    · rw [if_neg he]
      by_cases hk : e.1 = k'
      · have hne : k' ≠ k := fun h => he (hk.trans h)
        simp [hk, hne]
      · rw [List.find?_cons_of_neg (by simpa using hk), List.find?_cons_of_neg (by simpa using hk)]
        exact ih

theorem get_set (m : JsMap K V) (k k' : K) (v : V) :
    (m.set k v).get k' = if k' = k then some v else m.get k' := find_setEntry k k' v m.entries

theorem get_delete (m : JsMap K V) (k k' : K) :
    (m.delete k).get k' = if k' = k then none else m.get k' := by
  unfold get delete
  by_cases h : k' = k
  · rw [if_pos h, List.find?_eq_none.2, Option.map_none]
    intro e he
    have hne : e.1 ≠ k := by simpa using (List.mem_filter.1 he).2
    simpa [h] using hne
  · rw [if_neg h]
    dsimp only
    congr 1
    induction m.entries with
    | nil => rfl
    | cons e es ih =>
      by_cases he : e.1 = k
      · rw [List.filter_cons_of_neg (by simpa using he), ih,
          List.find?_cons_of_neg (by simpa [he] using Ne.symm h)]
      · rw [List.filter_cons_of_pos (by simpa using he)]
        by_cases hk : e.1 = k'
        · rw [List.find?_cons_of_pos (by simpa using hk), List.find?_cons_of_pos (by simpa using hk)]
        · rw [List.find?_cons_of_neg (by simpa using hk), List.find?_cons_of_neg (by simpa using hk), ih]

theorem setEntry_new {k : K} {v : V} : ∀ {es : List (K × V)},
    (es.find? fun e => e.1 = k) = none → setEntry k v es = es ++ [(k, v)]
  | [], _ => rfl
  | e :: es, h => by
    have hne : e.1 ≠ k := by simpa using List.find?_eq_none.1 h e List.mem_cons_self
    rw [List.find?_cons_of_neg (by simpa using hne)] at h
    rw [setEntry, if_neg hne, setEntry_new h, List.cons_append]

/-- A key that is set for the first time comes last. -/
theorem entries_set_new {m : JsMap K V} {k : K} {v : V} (h : m.get k = none) :
    (m.set k v).entries = m.entries ++ [(k, v)] :=
  setEntry_new (Option.map_eq_none_iff.1 h)

/-- The keys of a map are those it has a value for. -/
theorem mem_keys (m : JsMap K V) (k : K) : k ∈ m.keys ↔ (m.get k).isSome = true := by
  unfold keys get
  rw [Option.isSome_map, List.find?_isSome, List.mem_map]
  simp

end JsMap

end Echolet
