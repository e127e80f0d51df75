import Mathlib.Data.List.Perm.Subperm
import Mathlib.Data.List.Nodup

/-!
# Maps that keep the order of insertion

A `LinkedHashMap` as the list of its entries, oldest first. Its keys are
distinct, and that is a field: every map that can be built has it. Inserting a
key puts it at the back, and removing one keeps the order of the others.

An `IndexMap` is the same list: `shift_remove` is `erase`, `entry(k).or_insert`
is `orInsert`, a change through `get_mut` is `modify`, which keeps the entry in
its place, and `get_index_of` is `indexOf?`.
-/

structure LinkedMap (κ ν : Type) where
  entries : List (κ × ν)
  nodup_keys : (entries.map Prod.fst).Nodup

namespace LinkedMap

variable {κ ν : Type} [DecidableEq κ]

def empty : LinkedMap κ ν := ⟨[], List.nodup_nil⟩

def keys (m : LinkedMap κ ν) : List κ := m.entries.map Prod.fst

def values (m : LinkedMap κ ν) : List ν := m.entries.map Prod.snd

def get? (m : LinkedMap κ ν) (k : κ) : Option ν := m.entries.lookup k

def containsKey (m : LinkedMap κ ν) (k : κ) : Bool := (m.get? k).isSome

/-- The map without `k`. -/
def erase (m : LinkedMap κ ν) (k : κ) : LinkedMap κ ν :=
  ⟨m.entries.filter (·.1 ≠ k), m.nodup_keys.sublist (List.filter_sublist.map _)⟩

theorem entries_erase_sublist (m : LinkedMap κ ν) (k : κ) : (m.erase k).entries.Sublist m.entries :=
  List.filter_sublist

theorem mem_keys_erase {m : LinkedMap κ ν} {k k' : κ} :
    k' ∈ (m.erase k).keys ↔ k' ≠ k ∧ k' ∈ m.keys := by
  simp only [keys, erase, List.mem_map, List.mem_filter, decide_eq_true_eq]
  constructor
  · rintro ⟨e, ⟨he, hne⟩, rfl⟩
    exact ⟨hne, e, he, rfl⟩
  · rintro ⟨hne, e, he, rfl⟩
    exact ⟨e, ⟨he, hne⟩, rfl⟩

/-- `remove`: the value of `k`, and the map without it. -/
def remove (m : LinkedMap κ ν) (k : κ) : Option ν × LinkedMap κ ν := (m.get? k, m.erase k)

/-- `insert`: `k` with `v`, at the back. -/
def insert (m : LinkedMap κ ν) (k : κ) (v : ν) : LinkedMap κ ν :=
  ⟨(m.erase k).entries ++ [(k, v)], by
    rw [List.map_append, List.nodup_append]
    refine ⟨(m.erase k).nodup_keys, List.nodup_singleton _, ?_⟩
    simp only [List.map_cons, List.map_nil, List.mem_singleton]
    rintro a ha b rfl rfl
    exact (mem_keys_erase.mp ha).1 rfl⟩

theorem mem_keys_foldl_erase {m : LinkedMap κ ν} {ks : List κ} {k : κ} :
    k ∈ (ks.foldl erase m).keys ↔ k ∈ m.keys ∧ k ∉ ks := by
  induction ks generalizing m with
  | nil => simp
  | cons k' ks ih =>
    rw [List.foldl_cons, ih, mem_keys_erase, List.mem_cons, not_or]
    tauto

theorem foldl_erase_sublist (m : LinkedMap κ ν) (ks : List κ) :
    (ks.foldl erase m).entries.Sublist m.entries := by
  induction ks generalizing m with
  | nil => exact List.Sublist.refl _
  | cons k ks ih => exact (ih _).trans (m.entries_erase_sublist k)

theorem mem_keys_insert {m : LinkedMap κ ν} {k k' : κ} {v : ν} :
    k' ∈ (m.insert k v).keys ↔ k' = k ∨ k' ∈ m.keys := by
  have h : k' ∈ (m.insert k v).keys ↔ k' ∈ (m.erase k).keys ∨ k' = k := by
    simp [keys, insert]
  rw [h, mem_keys_erase]
  by_cases hk : k' = k <;> simp [hk]

theorem get?_eq_none_iff {m : LinkedMap κ ν} {k : κ} : m.get? k = none ↔ k ∉ m.keys := by
  rw [get?, List.lookup_eq_none_iff, keys, List.mem_map]
  constructor
  · rintro h ⟨e, he, rfl⟩
    simp at h
    exact h e.1 e.2 he rfl
  · rintro h e he
    simp only [bne_iff_ne, ne_eq]
    rintro rfl
    exact h ⟨e, he, rfl⟩

theorem erase_of_not_mem {m : LinkedMap κ ν} {k : κ} (hk : k ∉ m.keys) :
    (m.erase k).entries = m.entries := by
  refine List.filter_eq_self.mpr fun e he => ?_
  simp only [decide_eq_true_eq]
  rintro rfl
  exact hk (List.mem_map_of_mem he)

theorem entries_insert_of_not_mem {m : LinkedMap κ ν} {k : κ} (hk : k ∉ m.keys) (v : ν) :
    (m.insert k v).entries = m.entries ++ [(k, v)] := by
  show (m.erase k).entries ++ _ = _
  rw [erase_of_not_mem hk]

theorem get?_insert_self (m : LinkedMap κ ν) (k : κ) (v : ν) : (m.insert k v).get? k = some v := by
  have hnone : (m.erase k).get? k = none := get?_eq_none_iff.mpr fun h => (mem_keys_erase.mp h).1 rfl
  simp only [get?, insert, List.lookup_append]
  rw [show (m.erase k).entries.lookup k = none from hnone]
  simp

/-- In entries with distinct keys, the value of `k` and those of the other keys
are all the values. -/
theorem values_perm_filter {l : List (κ × ν)} (hl : (l.map Prod.fst).Nodup) {k : κ} {v : ν}
    (hv : l.lookup k = some v) :
    (l.map Prod.snd).Perm (v :: (l.filter (·.1 ≠ k)).map Prod.snd) := by
  induction l with
  | nil => cases hv
  | cons e l ih =>
    obtain ⟨a, b⟩ := e
    rw [List.map_cons, List.nodup_cons] at hl
    by_cases hak : a = k
    · -- the head is the entry of `k`, and no other entry has its key
      subst hak
      have hb : b = v := by
        rw [List.lookup_cons_self, Option.some.injEq] at hv
        exact hv
      have hrest : l.filter (·.1 ≠ a) = l := List.filter_eq_self.mpr fun e he => by
        simp only [decide_eq_true_eq]
        intro hea
        exact hl.1 (List.mem_map.mpr ⟨e, he, hea⟩)
      rw [List.filter_cons_of_neg (by simp), hrest, List.map_cons, hb]
    · have hv' : l.lookup k = some v := by
        rwa [List.lookup_cons, beq_false_of_ne (Ne.symm hak)] at hv
      have hkeep : ((a, b) :: l).filter (·.1 ≠ k) = (a, b) :: l.filter (·.1 ≠ k) := by
        simp [hak]
      rw [hkeep, List.map_cons, List.map_cons]
      exact ((ih hl.2 hv').cons b).trans (List.Perm.swap v b _)

/-- Removing a key takes out its value, if it has one, and leaves the others. -/
theorem values_perm_erase (m : LinkedMap κ ν) (k : κ) :
    m.values.Perm ((m.get? k).toList ++ (m.erase k).values) := by
  cases h : m.get? k with
  | none =>
    rw [values, ← erase_of_not_mem (get?_eq_none_iff.mp h)]
    rfl
  | some v => exact values_perm_filter m.nodup_keys h

/-- Removing a key that has a value removes exactly its entry. -/
theorem length_erase_of_mem {m : LinkedMap κ ν} {k : κ} (hk : k ∈ m.keys) :
    (m.erase k).entries.length + 1 = m.entries.length := by
  obtain ⟨v, hv⟩ := Option.ne_none_iff_exists'.mp fun hnone => get?_eq_none_iff.mp hnone hk
  have hlength := (values_perm_erase m k).length_eq
  rw [hv] at hlength
  simpa [values, Nat.add_comm] using hlength.symm

theorem length_erase_le (m : LinkedMap κ ν) (k : κ) :
    (m.erase k).entries.length ≤ m.entries.length :=
  (m.entries_erase_sublist k).length_le

theorem length_insert (m : LinkedMap κ ν) (k : κ) (v : ν) :
    (m.insert k v).entries.length = (m.erase k).entries.length + 1 := by
  simp [insert]

/-- Removing another key keeps an entry, and the entries on either side of it
stay on their side. -/
theorem entries_erase_of_eq_append {m : LinkedMap κ ν} {older newer : List (κ × ν)} {e : κ × ν}
    {k : κ} (hk : e.1 ≠ k) (h : m.entries = older ++ e :: newer) :
    (m.erase k).entries = older.filter (·.1 ≠ k) ++ e :: newer.filter (·.1 ≠ k) := by
  show m.entries.filter _ = _
  rw [h, List.filter_append, List.filter_cons_of_pos (by simpa using hk)]

theorem lookup_cons_of_ne {l : List (κ × ν)} {a k : κ} {b : ν} (h : k ≠ a) :
    ((a, b) :: l).lookup k = l.lookup k := by
  rw [List.lookup_cons, beq_false_of_ne h]

theorem mem_keys_of_get? {m : LinkedMap κ ν} {k : κ} {v : ν} (h : m.get? k = some v) :
    k ∈ m.keys := by
  by_contra hk
  rw [get?_eq_none_iff.mpr hk] at h
  cases h

/-- Keys being distinct, an entry's key looks up its own value. -/
theorem get?_of_mem {m : LinkedMap κ ν} {e : κ × ν} (he : e ∈ m.entries) :
    m.get? e.1 = some e.2 := by
  obtain ⟨l, hl⟩ := m
  simp only [get?] at he ⊢
  induction l with
  | nil => cases he
  | cons e' l ih =>
    obtain ⟨a, b⟩ := e'
    rw [List.map_cons, List.nodup_cons] at hl
    rcases List.mem_cons.mp he with rfl | he'
    · exact List.lookup_cons_self
    · have hne : e.1 ≠ a := fun hea => hl.1 (List.mem_map.mpr ⟨e, he', hea⟩)
      rw [lookup_cons_of_ne hne]
      exact ih hl.2 he'

theorem get?_erase_of_ne (m : LinkedMap κ ν) {k k' : κ} (h : k' ≠ k) :
    (m.erase k).get? k' = m.get? k' := by
  obtain ⟨l, hl⟩ := m
  simp only [get?, erase]
  clear hl
  induction l with
  | nil => rfl
  | cons e l ih =>
    obtain ⟨a, b⟩ := e
    by_cases hak : a = k
    · subst hak
      rw [List.filter_cons_of_neg (by simp), ih, lookup_cons_of_ne h]
    · rw [List.filter_cons_of_pos (by simpa using hak)]
      by_cases hk'a : k' = a
      · subst hk'a
        rw [List.lookup_cons_self, List.lookup_cons_self]
      · rw [lookup_cons_of_ne hk'a, lookup_cons_of_ne hk'a, ih]

/-- The entries with the value of `k` changed by `f`, in place. -/
def modifyEntries (l : List (κ × ν)) (k : κ) (f : ν → ν) : List (κ × ν) :=
  l.map fun e => if e.1 = k then (e.1, f e.2) else e

theorem map_fst_modifyEntries (l : List (κ × ν)) (k : κ) (f : ν → ν) :
    (modifyEntries l k f).map Prod.fst = l.map Prod.fst := by
  rw [modifyEntries, List.map_map]
  refine List.map_congr_left fun e _ => ?_
  by_cases h : e.1 = k <;> simp [h]

/-- The value of `k` changed by `f`, in its place; the map is unchanged when
`k` has no value. -/
def modify (m : LinkedMap κ ν) (k : κ) (f : ν → ν) : LinkedMap κ ν :=
  ⟨modifyEntries m.entries k f, (map_fst_modifyEntries m.entries k f).symm ▸ m.nodup_keys⟩

@[simp] theorem keys_modify (m : LinkedMap κ ν) (k : κ) (f : ν → ν) :
    (m.modify k f).keys = m.keys :=
  map_fst_modifyEntries m.entries k f

theorem get?_modify (m : LinkedMap κ ν) (k k' : κ) (f : ν → ν) :
    (m.modify k f).get? k' = if k' = k then (m.get? k').map f else m.get? k' := by
  obtain ⟨l, hl⟩ := m
  simp only [get?, modify]
  clear hl
  induction l with
  | nil => split_ifs <;> rfl
  | cons e l ih =>
    obtain ⟨a, b⟩ := e
    have hentry : (if (a, b).1 = k then ((a, b).1, f (a, b).2) else (a, b)) =
        (a, if a = k then f b else b) := by
      split_ifs <;> rfl
    simp only [modifyEntries, List.map_cons, hentry] at ih ⊢
    by_cases hk'a : k' = a
    · subst hk'a
      by_cases hk : k' = k <;> simp [hk, List.lookup_cons_self]
    · rw [lookup_cons_of_ne hk'a, ih, lookup_cons_of_ne hk'a]

/-- `entry(k).or_insert(v)`: `k` at the back with `v` when it has no value. -/
def orInsert (m : LinkedMap κ ν) (k : κ) (v : ν) : LinkedMap κ ν :=
  if m.containsKey k then m else m.insert k v

theorem mem_keys_orInsert {m : LinkedMap κ ν} {k k' : κ} {v : ν} :
    k' ∈ (m.orInsert k v).keys ↔ k' = k ∨ k' ∈ m.keys := by
  unfold orInsert
  split_ifs with hk
  · have hmem : k ∈ m.keys := by
      by_contra hnot
      simp [containsKey, get?_eq_none_iff.mpr hnot] at hk
    constructor
    · exact Or.inr
    · rintro (rfl | h)
      · exact hmem
      · exact h
  · exact mem_keys_insert

theorem get?_orInsert_of_ne (m : LinkedMap κ ν) {k k' : κ} (v : ν) (h : k' ≠ k) :
    (m.orInsert k v).get? k' = m.get? k' := by
  unfold orInsert
  split_ifs with hk
  · rfl
  · have hnot : k ∉ m.keys := fun hmem => hk (by
      simpa [containsKey, Option.isSome_iff_ne_none, get?_eq_none_iff] using hmem)
    simp only [get?, entries_insert_of_not_mem hnot, List.lookup_append]
    cases m.entries.lookup k' with
    | some w => rfl
    | none => exact lookup_cons_of_ne h

theorem get?_orInsert_self (m : LinkedMap κ ν) (k : κ) (v : ν) :
    (m.orInsert k v).get? k = some ((m.get? k).getD v) := by
  unfold orInsert containsKey
  split_ifs with hk
  · obtain ⟨w, hw⟩ := Option.isSome_iff_exists.mp hk
    rw [hw, Option.getD_some]
  · have hnone : m.get? k = none := Option.not_isSome_iff_eq_none.mp hk
    rw [hnone, get?_insert_self, Option.getD_none]

/-- `get_index_of(k)`: the position of `k` among the keys. -/
def indexOf? (m : LinkedMap κ ν) (k : κ) : Option ℕ := m.keys.idxOf? k

theorem indexOf?_isSome {m : LinkedMap κ ν} {k : κ} (h : k ∈ m.keys) :
    (m.indexOf? k).isSome :=
  List.isSome_idxOf?.mpr h

end LinkedMap
