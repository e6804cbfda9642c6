/-
  Finite maps in key order, and stores whose entries carry a deadline.

  * `SortedMap K V` is a list of entries in strictly increasing key order: `get`,
    `insert` and `erase` act on one key, `entries` is what an ordered iterator walks;
  * `Item V` is a value with a deadline (`0`: none); `Store K V` is a map of items,
    `peek` reads it at a time and `scan` iterates over the entries visible then.
-/
import Mathlib.Order.Lattice
import Mathlib.Data.List.Nodup
import Mathlib.Tactic.Common

namespace Echolet

/-- A finite map: entries in strictly increasing key order. -/
@[ext]
structure SortedMap (K V : Type) [LinearOrder K] where
  entries : List (K × V)
  sorted : entries.Pairwise fun a b => a.1 < b.1

namespace SortedMap

variable {K V : Type} [LinearOrder K]

def empty : SortedMap K V := ⟨[], List.Pairwise.nil⟩

instance : Inhabited (SortedMap K V) := ⟨empty⟩

def get (m : SortedMap K V) (k : K) : Option V :=
  (m.entries.find? fun e => e.1 = k).map (·.2)

/-- Place an entry in a sorted list, replacing the one with the same key. -/
def insertEntry (k : K) (v : V) : List (K × V) → List (K × V)
  | [] => [(k, v)]
  | e :: es => if k < e.1 then (k, v) :: e :: es
    else if k = e.1 then (k, v) :: es else e :: insertEntry k v es

theorem mem_insertEntry {k : K} {v : V} {x : K × V} : ∀ {es : List (K × V)},
    es.Pairwise (fun a b => a.1 < b.1) →
      (x ∈ insertEntry k v es ↔ x = (k, v) ∨ x ∈ es ∧ x.1 ≠ k)
  | [], _ => by simp [insertEntry]
  | e :: es, h => by
    obtain ⟨he, hes⟩ := List.pairwise_cons.1 h
    unfold insertEntry
    split_ifs with h1 h2
    · have hne : ∀ y ∈ e :: es, y.1 ≠ k := fun y hy => by
        rcases List.mem_cons.1 hy with rfl | hy
        · exact h1.ne'
        · exact (h1.trans (he y hy)).ne'
      rw [List.mem_cons]
      exact or_congr_right ⟨fun hx => ⟨hx, hne x hx⟩, fun hx => hx.1⟩
    · subst h2
      rw [List.mem_cons, List.mem_cons]
      constructor
      · rintro (rfl | hx)
        · exact Or.inl rfl
        · exact Or.inr ⟨Or.inr hx, (he x hx).ne'⟩
      · rintro (rfl | ⟨rfl | hx, hne⟩)
        · exact Or.inl rfl
        · exact absurd rfl hne
        · exact Or.inr hx
    · rw [List.mem_cons, mem_insertEntry hes, List.mem_cons]
      constructor
      · rintro (rfl | rfl | ⟨hx, hne⟩)
        · exact Or.inr ⟨Or.inl rfl, fun h => h2 h.symm⟩
        · exact Or.inl rfl
        · exact Or.inr ⟨Or.inr hx, hne⟩
      · rintro (rfl | ⟨rfl | hx, hne⟩)
        · exact Or.inr (Or.inl rfl)
        · exact Or.inl rfl
        · exact Or.inr (Or.inr ⟨hx, hne⟩)

theorem insertEntry_sorted (k : K) (v : V) : ∀ {es : List (K × V)},
    es.Pairwise (fun a b => a.1 < b.1) → (insertEntry k v es).Pairwise fun a b => a.1 < b.1
  | [], _ => by simp [insertEntry]
  | e :: es, h => by
    obtain ⟨he, hes⟩ := List.pairwise_cons.1 h
    unfold insertEntry
    split_ifs with h1 h2
    · refine List.pairwise_cons.2 ⟨fun y hy => ?_, h⟩
      rcases List.mem_cons.1 hy with rfl | hy
      · exact h1
      · exact h1.trans (he y hy)
    · subst h2; exact List.pairwise_cons.2 ⟨he, hes⟩
    · refine List.pairwise_cons.2 ⟨fun y hy => ?_, insertEntry_sorted k v hes⟩
      rcases (mem_insertEntry hes).1 hy with rfl | ⟨hy, -⟩
      · exact lt_of_le_of_ne (not_lt.1 h1) fun h => h2 h.symm
      · exact he y hy

def insert (m : SortedMap K V) (k : K) (v : V) : SortedMap K V :=
  ⟨insertEntry k v m.entries, insertEntry_sorted k v m.sorted⟩

def erase (m : SortedMap K V) (k : K) : SortedMap K V :=
  ⟨m.entries.filter fun e => e.1 ≠ k, m.sorted.sublist List.filter_sublist⟩

theorem keys_nodup (m : SortedMap K V) : (m.entries.map (·.1)).Nodup :=
  List.pairwise_map.2 (m.sorted.imp fun h => h.ne)

theorem key_inj (m : SortedMap K V) {a b : K × V} (ha : a ∈ m.entries) (hb : b ∈ m.entries)
    (h : a.1 = b.1) : a = b := List.inj_on_of_nodup_map m.keys_nodup ha hb h

theorem mem_entries {m : SortedMap K V} {k : K} {v : V} :
    (k, v) ∈ m.entries ↔ m.get k = some v := by
  unfold get
  rw [Option.map_eq_some_iff]
  constructor
  · intro h
    obtain ⟨e, he⟩ : ∃ e, m.entries.find? (fun e => e.1 = k) = some e := by
      rw [← Option.isSome_iff_exists, List.find?_isSome]; exact ⟨_, h, by simp⟩
    have hek : e.1 = k := by simpa using List.find?_some he
    exact ⟨e, he, by rw [m.key_inj (List.mem_of_find?_eq_some he) h hek]⟩
  · rintro ⟨e, he, rfl⟩
    have hek : e.1 = k := by simpa using List.find?_some he
    rw [← hek]; exact List.mem_of_find?_eq_some he

theorem get_eq_none {m : SortedMap K V} {k : K} :
    m.get k = none ↔ ∀ e ∈ m.entries, e.1 ≠ k := by
  simp [get, List.find?_eq_none]

@[simp] theorem get_empty (k : K) : (empty : SortedMap K V).get k = none := rfl

theorem get_insert (m : SortedMap K V) (k k' : K) (v : V) [Decidable (k' = k)] :
    (m.insert k v).get k' = if k' = k then some v else m.get k' := by
  have hm := fun x => mem_insertEntry (k := k) (v := v) (x := x) m.sorted
  ext w
  rw [← mem_entries]
  change (k', w) ∈ insertEntry k v m.entries ↔ _
  rw [hm, mem_entries]
  split_ifs with h
  · subst h; simp [eq_comm]
  · simp [h]

@[simp] theorem get_insert_self (m : SortedMap K V) (k : K) (v : V) :
    (m.insert k v).get k = some v := by rw [get_insert, if_pos rfl]

theorem get_insert_ne (m : SortedMap K V) {k k' : K} (v : V) (h : k' ≠ k) :
    (m.insert k v).get k' = m.get k' := by rw [get_insert, if_neg h]

theorem insertEntry_insertEntry {k : K} {v v' : V} : ∀ {es : List (K × V)},
    insertEntry k v' (insertEntry k v es) = insertEntry k v' es
  | [] => by simp [insertEntry]
  | e :: es => by
    by_cases h : k < e.1
    · simp [insertEntry, h]
    · by_cases hk : k = e.1
      · simp [insertEntry, hk]
      · simp [insertEntry, h, hk, insertEntry_insertEntry]

/-- The last value stands. -/
theorem insert_insert (m : SortedMap K V) (k : K) (v v' : V) :
    (m.insert k v).insert k v' = m.insert k v' :=
  SortedMap.ext insertEntry_insertEntry

theorem erase_insert_empty (k : K) (v : V) : ((empty.insert k v).erase k : SortedMap K V) = empty :=
  SortedMap.ext (by simp [erase, insert, insertEntry, empty])

theorem get_erase (m : SortedMap K V) (k k' : K) [Decidable (k' = k)] :
    (m.erase k).get k' = if k' = k then none else m.get k' := by
  ext w
  rw [← mem_entries]
  change (k', w) ∈ m.entries.filter _ ↔ _
  rw [List.mem_filter, mem_entries]
  split_ifs with h <;> simp [h]

@[simp] theorem get_erase_self (m : SortedMap K V) (k : K) : (m.erase k).get k = none := by
  rw [get_erase, if_pos rfl]

/-- Maps with the same entries of a kind list them in the same order. -/
theorem filter_entries_congr {m m' : SortedMap K V} {p : K × V → Bool}
    (h : ∀ e, p e = true → (e ∈ m.entries ↔ e ∈ m'.entries)) :
    m.entries.filter p = m'.entries.filter p := by
  have hs : ∀ m : SortedMap K V, (m.entries.filter p).Pairwise fun a b => a.1 < b.1 :=
    fun m => m.sorted.sublist List.filter_sublist
  have hn : ∀ m : SortedMap K V, (m.entries.filter p).Nodup := fun m =>
    (hs m).imp fun {a b} hab => by rintro rfl; exact lt_irrefl _ hab
  refine List.Perm.eq_of_pairwise (fun a b _ _ hab hba => absurd hab hba.asymm) (hs m) (hs m') ?_
  refine (List.perm_ext_iff_of_nodup (hn m) (hn m')).2 fun e => ?_
  rw [List.mem_filter, List.mem_filter]
  exact and_congr_left fun hp => h e hp

/-- A property of the entries counts at most one more of them after an insertion. -/
theorem countP_insert_le (m : SortedMap K V) (k : K) (v : V) (p : K × V → Bool) :
    (m.insert k v).entries.countP p ≤ m.entries.countP p + if p (k, v) then 1 else 0 := by
  suffices h : ∀ es : List (K × V),
      (insertEntry k v es).countP p ≤ es.countP p + if p (k, v) then 1 else 0 from h m.entries
  intro es
  induction es with
  | nil => simp [insertEntry, List.countP_cons]
  | cons e es ih =>
    unfold insertEntry
    split_ifs with h1 h2
    all_goals simp only [List.countP_cons] at *
    all_goals split_ifs at * <;> omega

/-- Replacing an entry that has the property counts no more of them. -/
theorem countP_insert_of_get {m : SortedMap K V} {k : K} {v w : V} {p : K × V → Bool}
    (h : m.get k = some w) (hp : p (k, v) = true → p (k, w) = true) :
    (m.insert k v).entries.countP p ≤ m.entries.countP p := by
  suffices hs : ∀ es : List (K × V), es.Pairwise (fun a b => a.1 < b.1) → (k, w) ∈ es →
      (insertEntry k v es).countP p ≤ es.countP p from hs _ m.sorted (mem_entries.2 h)
  intro es hes
  induction es with
  | nil => intro hm; cases hm
  | cons e es ih =>
    obtain ⟨he, hes⟩ := List.pairwise_cons.1 hes
    intro hm
    unfold insertEntry
    rcases List.mem_cons.1 hm with rfl | hm
    · rw [if_neg (lt_irrefl k), if_pos rfl]
      simp only [List.countP_cons]
      split_ifs with h1 h2
      · omega
      · exact absurd (hp h1) h2
      · omega
      · omega
    · have hlt := he _ hm
      rw [if_neg hlt.asymm, if_neg hlt.ne']
      simp only [List.countP_cons]
      have := ih hes hm
      omega

theorem countP_erase_le (m : SortedMap K V) (k : K) (p : K × V → Bool) :
    (m.erase k).entries.countP p ≤ m.entries.countP p :=
  List.filter_sublist.countP_le

end SortedMap

/-! ## Stores with deadlines -/

/-- A stored value and its deadline in seconds; a deadline of `0` never comes. -/
structure Item (V : Type) where
  value : V
  expiresAt : ℕ
  deriving DecidableEq

/-- The item is still visible at `now`. -/
def Item.Live {V : Type} (now : ℕ) (i : Item V) : Prop := i.expiresAt = 0 ∨ now < i.expiresAt

instance {V : Type} (now : ℕ) (i : Item V) : Decidable (i.Live now) :=
  inferInstanceAs (Decidable (_ ∨ _))

theorem Item.Live.mono {V : Type} {i : Item V} {t t' : ℕ} (h : i.Live t') (ht : t ≤ t') :
    i.Live t := Or.imp_right (fun h => Nat.lt_of_le_of_lt ht h) h

theorem Item.Live.congr {V W : Type} {i : Item V} {j : Item W} {t : ℕ} (h : i.Live t)
    (he : j.expiresAt = i.expiresAt) : j.Live t := by rwa [Item.Live, he]

/-- A map of items. -/
abbrev Store (K V : Type) [LinearOrder K] := SortedMap K (Item V)

namespace Store

variable {K V : Type} [LinearOrder K]

/-- The item at a key, if it is visible at `now`. -/
def peek (s : Store K V) (now : ℕ) (k : K) : Option (Item V) :=
  (s.get k).filter fun i => i.Live now

/-- The entries visible at `now` whose key satisfies `p`, in key order. -/
def scan (s : Store K V) (now : ℕ) (p : K → Bool) : List (K × Item V) :=
  s.entries.filter fun e => p e.1 && decide (e.2.Live now)

theorem peek_eq_some {s : Store K V} {now : ℕ} {k : K} {i : Item V} :
    s.peek now k = some i ↔ s.get k = some i ∧ i.Live now := by
  simp [peek, Option.filter_eq_some_iff]

theorem peek_eq_none {s : Store K V} {now : ℕ} {k : K} :
    s.peek now k = none ↔ ∀ i, s.get k = some i → ¬ i.Live now := by
  simp [peek, Option.filter_eq_none_iff]

theorem mem_scan {s : Store K V} {now : ℕ} {p : K → Bool} {k : K} {i : Item V} :
    (k, i) ∈ s.scan now p ↔ p k = true ∧ s.peek now k = some i := by
  simp only [scan, List.mem_filter, SortedMap.mem_entries, Bool.and_eq_true, decide_eq_true_eq,
    peek_eq_some]
  tauto

theorem scan_sorted (s : Store K V) (now : ℕ) (p : K → Bool) :
    (s.scan now p).Pairwise fun a b => a.1 < b.1 :=
  s.sorted.sublist List.filter_sublist

theorem peek_mono {s : Store K V} {t t' : ℕ} {k : K} {i : Item V} (h : s.peek t' k = some i)
    (ht : t ≤ t') : s.peek t k = some i := by
  rw [peek_eq_some] at h ⊢; exact ⟨h.1, h.2.mono ht⟩

theorem peek_insert_ne {s : Store K V} {now : ℕ} {k k' : K} (i : Item V) (h : k' ≠ k) :
    Store.peek (s.insert k i) now k' = s.peek now k' := by
  rw [peek, peek, SortedMap.get_insert_ne _ _ h]

theorem peek_erase {s : Store K V} {now : ℕ} {k k' : K} {i : Item V} :
    Store.peek (s.erase k) now k' = some i ↔ k' ≠ k ∧ s.peek now k' = some i := by
  rw [peek_eq_some, peek_eq_some, SortedMap.get_erase]
  split_ifs with h <;> simp [h]

end Store

end Echolet
