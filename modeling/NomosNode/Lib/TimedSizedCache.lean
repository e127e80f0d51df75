import NomosNode.Lib.Outcome
import NomosNode.Lib.LinkedMap
import Mathlib

/-!
# Caches of bounded size whose entries expire

`cached::TimedSizedCache`: at most `size` entries, least recently used first,
each live while its age in whole seconds is below the lifespan. Reading a live
entry makes it the most recently used, and with `refresh` stamps it anew;
reading an expired one removes it; setting drops the least recently used entry
of a full store, and a size of zero panics. The rule the proofs use
(`Retains`): an entry read or set at `t` is found less than a lifespan later, as
long as fewer than `size` distinct other keys were used since.
-/

structure TimedSizedCache (κ ν : Type) where
  store : LinkedMap κ (ℕ × ν)
  size : ℕ
  seconds : ℕ
  refresh : Bool
  size_pos : 0 < size
  length_le : store.entries.length ≤ size

namespace TimedSizedCache

variable {κ ν ε : Type} [DecidableEq κ]

/-- `TimedSizedCache::with_size_and_lifespan_and_refresh`. -/
def withSizeAndLifespanAndRefresh (size seconds : ℕ) (refresh : Bool) :
    Outcome ε (TimedSizedCache κ ν) :=
  if h : 0 < size then .ok ⟨LinkedMap.empty, size, seconds, refresh, h, Nat.zero_le _⟩
  else .panic "size of TimedSizedCache must be greater than zero"

/-- `stamp.elapsed().as_secs() < seconds`, read at `now`. -/
def live (self : TimedSizedCache κ ν) (now stamp : ℕ) : Bool :=
  decide ((now - stamp) / 1000000000 < self.seconds)

/-- `SizedCache::check_capacity`: a full store drops its least recently used
entry. -/
def checkCapacity (store : LinkedMap κ (ℕ × ν)) (size : ℕ) : LinkedMap κ (ℕ × ν) :=
  if size ≤ store.entries.length then
    match store.entries.head? with
    | some e => store.erase e.1
    | none => store
  else store

theorem length_checkCapacity_lt {store : LinkedMap κ (ℕ × ν)} {size : ℕ} (hsize : 0 < size)
    (hlength : store.entries.length ≤ size) : (checkCapacity store size).entries.length < size := by
  unfold checkCapacity
  split_ifs with hfull
  · cases hhead : store.entries.head? with
    | none =>
      rw [List.head?_eq_none_iff] at hhead
      rw [hhead, List.length_nil] at hfull
      omega
    | some e =>
      have hmem : e.1 ∈ store.keys := List.mem_map_of_mem (List.mem_of_mem_head? hhead)
      have herase := LinkedMap.length_erase_of_mem hmem
      show (store.erase e.1).entries.length < size
      omega
  · omega

/-- Room made by `check_capacity` is room for one more key. -/
theorem length_insert_checkCapacity_le {store : LinkedMap κ (ℕ × ν)} {size : ℕ} (hsize : 0 < size)
    (hlength : store.entries.length ≤ size) (key : κ) (stamped : ℕ × ν) :
    ((checkCapacity store size).insert key stamped).entries.length ≤ size := by
  have hroom := length_checkCapacity_lt hsize hlength
  have herase := (checkCapacity store size).length_erase_le key
  rw [LinkedMap.length_insert]
  omega

/-- Making `key` the most recently used, stamped `stamp`. -/
def toBack (self : TimedSizedCache κ ν) (key : κ) (stamped : ℕ × ν) (hkey : key ∈ self.store.keys) :
    TimedSizedCache κ ν :=
  { self with
    store := self.store.insert key stamped
    length_le := by
      have herase := LinkedMap.length_erase_of_mem hkey
      rw [LinkedMap.length_insert]
      exact herase ▸ self.length_le }

/-- Removing `key`. -/
def remove (self : TimedSizedCache κ ν) (key : κ) : TimedSizedCache κ ν :=
  { self with
    store := self.store.erase key
    length_le := (self.store.length_erase_le key).trans self.length_le }

/-- `cache_get`: the value of a live entry, which becomes the most recently
used; an expired entry is removed. -/
def cacheGet (self : TimedSizedCache κ ν) (now : ℕ) (key : κ) : TimedSizedCache κ ν × Option ν :=
  match h : self.store.get? key with
  | none => (self, none)
  | some (stamp, value) =>
    if self.live now stamp then
      (self.toBack key (if self.refresh then now else stamp, value) (LinkedMap.mem_keys_of_get? h),
        some value)
    else (self.remove key, none)

/-- `cache_set`: room is made first, then the key is stored stamped `now` as
the most recently used; the old value comes back if it was still live. -/
def cacheSet (self : TimedSizedCache κ ν) (now : ℕ) (key : κ) (value : ν) :
    TimedSizedCache κ ν × Option ν :=
  let store := checkCapacity self.store self.size
  ({ self with
      store := store.insert key (now, value)
      length_le := length_insert_checkCapacity_le self.size_pos self.length_le key (now, value) },
    match store.get? key with
    | some (stamp, old) => if self.live now stamp then some old else none
    | none => none)

variable {self : TimedSizedCache κ ν} {now : ℕ} {key : κ}

theorem cacheGet_of_get?_eq_none (h : self.store.get? key = none) :
    self.cacheGet now key = (self, none) := by
  unfold cacheGet
  split
  · rfl
  · simp_all

theorem cacheGet_of_live {stamp : ℕ} {value : ν} (h : self.store.get? key = some (stamp, value))
    (hlive : self.live now stamp = true) :
    self.cacheGet now key =
      (self.toBack key (if self.refresh then now else stamp, value) (LinkedMap.mem_keys_of_get? h),
        some value) := by
  unfold cacheGet
  split
  · simp_all
  · rename_i stamp' value' hfound
    rw [h, Option.some.injEq, Prod.mk.injEq] at hfound
    obtain ⟨rfl, rfl⟩ := hfound
    rw [if_pos hlive]

theorem cacheGet_of_expired {stamp : ℕ} {value : ν} (h : self.store.get? key = some (stamp, value))
    (hlive : self.live now stamp = false) : self.cacheGet now key = (self.remove key, none) := by
  unfold cacheGet
  split
  · simp_all
  · rename_i stamp' value' hfound
    rw [h, Option.some.injEq, Prod.mk.injEq] at hfound
    obtain ⟨rfl, rfl⟩ := hfound
    rw [if_neg (by simp [hlive])]

@[simp] theorem size_cacheGet (self : TimedSizedCache κ ν) (now : ℕ) (key : κ) :
    (self.cacheGet now key).1.size = self.size := by
  unfold cacheGet
  split
  · rfl
  · split <;> rfl

@[simp] theorem seconds_cacheGet (self : TimedSizedCache κ ν) (now : ℕ) (key : κ) :
    (self.cacheGet now key).1.seconds = self.seconds := by
  unfold cacheGet
  split
  · rfl
  · split <;> rfl

@[simp] theorem refresh_cacheGet (self : TimedSizedCache κ ν) (now : ℕ) (key : κ) :
    (self.cacheGet now key).1.refresh = self.refresh := by
  unfold cacheGet
  split
  · rfl
  · split <;> rfl

@[simp] theorem size_cacheSet (self : TimedSizedCache κ ν) (now : ℕ) (key : κ) (value : ν) :
    (self.cacheSet now key value).1.size = self.size := rfl

@[simp] theorem seconds_cacheSet (self : TimedSizedCache κ ν) (now : ℕ) (key : κ) (value : ν) :
    (self.cacheSet now key value).1.seconds = self.seconds := rfl

@[simp] theorem refresh_cacheSet (self : TimedSizedCache κ ν) (now : ℕ) (key : κ) (value : ν) :
    (self.cacheSet now key value).1.refresh = self.refresh := rfl

/-- A read that finds nothing leaves the key out of the store. -/
theorem not_mem_keys_of_cacheGet_eq_none (h : (self.cacheGet now key).2 = none) :
    key ∉ (self.cacheGet now key).1.store.keys := by
  rcases hget : self.store.get? key with _ | ⟨stamp, value⟩
  · rw [cacheGet_of_get?_eq_none hget]
    exact LinkedMap.get?_eq_none_iff.mp hget
  · cases hlive : self.live now stamp
    · rw [cacheGet_of_expired hget hlive]
      exact fun hmem => (LinkedMap.mem_keys_erase.mp hmem).1 rfl
    · rw [cacheGet_of_live hget hlive] at h
      cases h

/-! ### Retention -/

/-- `key` is stored stamped `t`, and every key used more recently is in `used`. -/
def Retains (self : TimedSizedCache κ ν) (key : κ) (t : ℕ) (used : Finset κ) : Prop :=
  ∃ older value newer, self.store.entries = older ++ (key, t, value) :: newer ∧
    ∀ e ∈ newer, e.1 ∈ used

omit [DecidableEq κ] in
theorem Retains.mono {t : ℕ} {used used' : Finset κ} (h : self.Retains key t used)
    (hsub : used ⊆ used') : self.Retains key t used' := by
  obtain ⟨older, value, newer, hentries, hnewer⟩ := h
  exact ⟨older, value, newer, hentries, fun e he => hsub (hnewer e he)⟩

theorem retains_cacheSet (self : TimedSizedCache κ ν) (now : ℕ) (key : κ) (value : ν) :
    (self.cacheSet now key value).1.Retains key now ∅ :=
  ⟨((checkCapacity self.store self.size).erase key).entries, value, [], rfl, fun e he => by cases he⟩

/-- A read that finds `key` in a refreshing cache stamps it anew. -/
theorem retains_cacheGet_of_eq_some {value : ν} (hrefresh : self.refresh = true)
    (h : (self.cacheGet now key).2 = some value) : (self.cacheGet now key).1.Retains key now ∅ := by
  rcases hget : self.store.get? key with _ | ⟨stamp, found⟩
  · rw [cacheGet_of_get?_eq_none hget] at h
    cases h
  · cases hlive : self.live now stamp
    · rw [cacheGet_of_expired hget hlive] at h
      cases h
    · rw [cacheGet_of_live hget hlive, hrefresh, if_pos rfl]
      exact ⟨(self.store.erase key).entries, found, [], rfl, fun e he => by cases he⟩

/-- Removing another key keeps a retained key, and the keys used after it. -/
theorem Retains.erase_of_ne {t : ℕ} {used : Finset κ} (h : self.Retains key t used) {other : κ}
    (hother : other ≠ key) :
    ∃ older value newer, (self.store.erase other).entries = older ++ (key, t, value) :: newer ∧
      ∀ e ∈ newer, e.1 ∈ used := by
  obtain ⟨older, value, newer, hentries, hnewer⟩ := h
  refine ⟨_, value, _, LinkedMap.entries_erase_of_eq_append (Ne.symm hother) hentries, ?_⟩
  intro e he
  exact hnewer e (List.mem_of_mem_filter he)

/-- Moving another key to the back keeps a retained key, with that key used
since. -/
theorem Retains.insert_of_ne {t : ℕ} {used : Finset κ} (h : self.Retains key t used) {other : κ}
    (hother : other ≠ key) (stamped : ℕ × ν) :
    ∃ older value newer, (self.store.insert other stamped).entries = older ++ (key, t, value) :: newer ∧
      ∀ e ∈ newer, e.1 ∈ insert other used := by
  obtain ⟨older, value, newer, hentries, hnewer⟩ := h.erase_of_ne hother
  refine ⟨older, value, newer ++ [(other, stamped)], ?_, ?_⟩
  · show (self.store.erase other).entries ++ _ = _
    rw [hentries]
    simp
  · intro e he
    rcases List.mem_append.mp he with he | he
    · exact Finset.mem_insert_of_mem (hnewer e he)
    · rw [List.mem_singleton.mp he]
      exact Finset.mem_insert_self other used

/-- Reading another key keeps a retained key, with that key used since. -/
theorem Retains.cacheGet {t : ℕ} {used : Finset κ} (h : self.Retains key t used) {other : κ}
    (hother : other ≠ key) (now : ℕ) :
    (self.cacheGet now other).1.Retains key t (insert other used) := by
  rcases hget : self.store.get? other with _ | ⟨stamp, found⟩
  · rw [cacheGet_of_get?_eq_none hget]
    exact h.mono (Finset.subset_insert other used)
  · cases hlive : self.live now stamp
    · rw [cacheGet_of_expired hget hlive]
      obtain ⟨older, value, newer, hentries, hnewer⟩ := h.erase_of_ne hother
      exact ⟨older, value, newer, hentries, fun e he => Finset.mem_insert_of_mem (hnewer e he)⟩
    · rw [cacheGet_of_live hget hlive]
      exact h.insert_of_ne hother _

omit [DecidableEq κ] in
/-- Distinct keys that were all used are no more than the keys used. -/
theorem length_le_card {l : List (κ × ℕ × ν)} (hnodup : (l.map Prod.fst).Nodup) {used : Finset κ}
    (hused : ∀ e ∈ l, e.1 ∈ used) : l.length ≤ used.card := by
  classical
  have hcard : (l.map Prod.fst).toFinset.card = l.length := by
    rw [List.toFinset_card_of_nodup hnodup, List.length_map]
  rw [← hcard]
  refine Finset.card_le_card fun k hk => ?_
  obtain ⟨e, he, rfl⟩ := List.mem_map.mp (List.mem_toFinset.mp hk)
  exact hused e he

/-- Making room in a full store drops an entry older than a retained key, when
the keys used after it are fewer than the store holds. -/
theorem Retains.of_checkCapacity {t : ℕ} {used : Finset κ} (h : self.Retains key t used)
    (hfew : ∀ older value newer, self.store.entries = older ++ (key, t, value) :: newer →
      (∀ e ∈ newer, e.1 ∈ used) → newer.length + 1 < self.size) :
    ∃ older value newer, (checkCapacity self.store self.size).entries =
      older ++ (key, t, value) :: newer ∧ ∀ e ∈ newer, e.1 ∈ used := by
  obtain ⟨older, found, newer, hentries, hnewer⟩ := h
  have hlength := hfew older found newer hentries hnewer
  unfold TimedSizedCache.checkCapacity
  split_ifs with hfull
  · cases older with
    | nil =>
      have hlen : self.store.entries.length = newer.length + 1 := by simp [hentries]
      omega
    | cons first older =>
      have hhead : self.store.entries.head? = some first := by simp [hentries]
      rw [hhead]
      have hnodup := self.store.nodup_keys
      rw [hentries, List.cons_append, List.map_cons, List.nodup_cons] at hnodup
      have hfirst : first.1 ≠ key := by
        intro hkey
        refine hnodup.1 ?_
        rw [hkey, List.map_append, List.map_cons]
        exact List.mem_append_right _ List.mem_cons_self
      exact Retains.erase_of_ne ⟨first :: older, found, newer, hentries, hnewer⟩ hfirst
  · exact ⟨older, found, newer, hentries, hnewer⟩

/-- Setting a key that is not stored keeps a retained key, as long as fewer
than `size` distinct keys, that one included, were used since. -/
theorem Retains.cacheSet {t : ℕ} {used : Finset κ} (h : self.Retains key t used) {other : κ}
    (hother : other ≠ key) (habsent : other ∉ self.store.keys)
    (hcard : (insert other used).card < self.size) (now : ℕ) (value : ν) :
    (self.cacheSet now other value).1.Retains key t (insert other used) := by
  have hfew : ∀ older found newer, self.store.entries = older ++ (key, t, found) :: newer →
      (∀ e ∈ newer, e.1 ∈ used) → newer.length + 1 < self.size := by
    intro older found newer hentries hused
    have hnodup := self.store.nodup_keys
    rw [hentries, List.map_append, List.map_cons] at hnodup
    have hnewer : ∀ e ∈ newer, e.1 ∈ used.erase other := by
      intro e he
      refine Finset.mem_erase.mpr ⟨fun hkey => habsent ?_, hused e he⟩
      rw [← hkey, LinkedMap.keys, hentries]
      exact List.mem_map_of_mem (List.mem_append_right _ (List.mem_cons_of_mem _ he))
    have hlength : newer.length ≤ (used.erase other).card :=
      length_le_card (List.nodup_cons.mp (List.nodup_append.mp hnodup).2.1).2 hnewer
    have herase : (used.erase other).card + 1 = (insert other used).card := by
      rw [← Finset.erase_insert_eq_erase]
      exact Finset.card_erase_add_one (Finset.mem_insert_self other used)
    omega
  obtain ⟨older, found, newer, hentries, hnewer⟩ := h.of_checkCapacity hfew
  have hroom : (⟨checkCapacity self.store self.size, self.size, self.seconds, self.refresh,
      self.size_pos, (length_checkCapacity_lt self.size_pos self.length_le).le⟩ :
      TimedSizedCache κ ν).Retains key t used := ⟨older, found, newer, hentries, hnewer⟩
  exact hroom.insert_of_ne hother (now, value)

/-- A key retained since `t` is found at any instant less than a lifespan
later. -/
theorem Retains.cacheGet_self {t : ℕ} {used : Finset κ} (h : self.Retains key t used)
    (hlive : (now - t) / 1000000000 < self.seconds) :
    ∃ value, (self.cacheGet now key).2 = some value := by
  obtain ⟨older, value, newer, hentries, -⟩ := h
  have hget : self.store.get? key = some (t, value) :=
    LinkedMap.get?_of_mem (e := (key, t, value)) (by rw [hentries]; simp)
  refine ⟨value, ?_⟩
  rw [cacheGet_of_live hget (by simpa [live] using hlive)]

end TimedSizedCache
