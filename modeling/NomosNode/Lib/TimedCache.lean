import Mathlib.Logic.Function.Basic
import Mathlib.Order.Basic

/-!
# Caches whose entries expire

`cached::TimedCache`: every key is stored with the instant it was set, and an
entry is live while less than the lifespan has passed since. Reading an expired
entry removes it; setting one stamps it anew and returns the old value if it was
live. The rule the proofs use: an entry set inside a window shorter than the
lifespan is live throughout that window, whatever is read or set there.
-/

structure TimedCache (κ ν : Type) where
  lifespan : ℕ
  store : κ → Option (ℕ × ν)

namespace TimedCache

variable {κ ν : Type} [DecidableEq κ]

/-- `TimedCache::with_lifespan`: an empty cache. -/
def withLifespan (lifespan : ℕ) : TimedCache κ ν := ⟨lifespan, fun _ => none⟩

/-- `cache_get`: the value of a live entry; an expired one is removed. -/
def cacheGet (self : TimedCache κ ν) (now : ℕ) (key : κ) : TimedCache κ ν × Option ν :=
  match self.store key with
  | some (stamp, value) =>
    if now - stamp < self.lifespan then (self, some value)
    else ({ self with store := Function.update self.store key none }, none)
  | none => (self, none)

/-- `cache_set`: the entry is stamped `now`; the old value comes back if it was
still live. -/
def cacheSet (self : TimedCache κ ν) (now : ℕ) (key : κ) (value : ν) :
    TimedCache κ ν × Option ν :=
  ({ self with store := Function.update self.store key (some (now, value)) },
    match self.store key with
    | some (stamp, old) => if now - stamp < self.lifespan then some old else none
    | none => none)

/-- `key` was set inside the window of one lifespan from `start`. -/
def StampedWithin (self : TimedCache κ ν) (start : ℕ) (key : κ) : Bool :=
  match self.store key with
  | some (stamp, _) => decide (start ≤ stamp ∧ stamp < start + self.lifespan)
  | none => false

/-- An instant of the window of one lifespan from `start`. -/
def Within (self : TimedCache κ ν) (start now : ℕ) : Prop :=
  start ≤ now ∧ now < start + self.lifespan

@[simp] theorem lifespan_cacheGet (self : TimedCache κ ν) (now : ℕ) (key : κ) :
    (self.cacheGet now key).1.lifespan = self.lifespan := by
  unfold cacheGet
  split
  · split <;> rfl
  · rfl

@[simp] theorem lifespan_cacheSet (self : TimedCache κ ν) (now : ℕ) (key : κ) (value : ν) :
    (self.cacheSet now key value).1.lifespan = self.lifespan := rfl

variable {self : TimedCache κ ν} {start now : ℕ} {key : κ}

@[simp] theorem within_cacheGet_iff (t : ℕ) (key' : κ) :
    (self.cacheGet t key').1.Within start now ↔ self.Within start now := by
  simp [Within]

omit [DecidableEq κ] in
/-- Two instants of one window are less than a lifespan apart. -/
theorem live_of_within {stamp : ℕ} (hstamp : self.Within start stamp)
    (hnow : self.Within start now) : now - stamp < self.lifespan := by
  unfold Within at hstamp hnow
  omega

/-- A key stamped inside the window is live at every instant of it: reading it
finds it. -/
theorem cacheGet_of_stampedWithin (hkey : self.StampedWithin start key = true)
    (hnow : self.Within start now) : ((self.cacheGet now key).2).isSome := by
  unfold StampedWithin at hkey
  unfold cacheGet
  split at hkey
  · rename_i stamp value hstore
    simp only [decide_eq_true_eq] at hkey
    simp [live_of_within hkey hnow]
  · cases hkey

/-- A key stamped inside the window is live at every instant of it: setting it
returns the old value. -/
theorem cacheSet_of_stampedWithin (hkey : self.StampedWithin start key = true)
    (hnow : self.Within start now) (value : ν) : ((self.cacheSet now key value).2).isSome := by
  unfold StampedWithin at hkey
  unfold cacheSet
  split at hkey
  · rename_i stamp old hstore
    simp only [decide_eq_true_eq] at hkey
    simp [live_of_within hkey hnow]
  · cases hkey

/-- A read inside the window that finds nothing: the key was not stamped
inside it. -/
theorem not_stampedWithin_of_cacheGet (hnow : self.Within start now)
    (hnone : (self.cacheGet now key).2 = none) : self.StampedWithin start key = false := by
  cases hkey : self.StampedWithin start key
  · rfl
  · have hlive := cacheGet_of_stampedWithin hkey hnow
    rw [hnone] at hlive
    cases hlive

/-- A set inside the window that returns nothing: the key was not stamped
inside it. -/
theorem not_stampedWithin_of_cacheSet (hnow : self.Within start now) {value : ν}
    (hnone : (self.cacheSet now key value).2 = none) : self.StampedWithin start key = false := by
  cases hkey : self.StampedWithin start key
  · rfl
  · have hlive := cacheSet_of_stampedWithin hkey hnow value
    rw [hnone] at hlive
    cases hlive

/-- Reading inside the window keeps every key stamped inside it. -/
theorem stampedWithin_cacheGet (key' : κ) (hkey : self.StampedWithin start key = true)
    (hnow : self.Within start now) :
    (self.cacheGet now key').1.StampedWithin start key = true := by
  unfold cacheGet
  split
  · rename_i stamp value hstore
    split
    · exact hkey
    · rename_i hexpired
      have hne : key ≠ key' := by
        rintro rfl
        unfold StampedWithin at hkey
        rw [hstore] at hkey
        simp only [decide_eq_true_eq] at hkey
        exact hexpired (live_of_within hkey hnow)
      simpa [StampedWithin, Function.update_of_ne hne] using hkey
  · exact hkey

/-- Setting inside the window stamps the key set inside it and keeps the
others. -/
theorem stampedWithin_cacheSet (key' : κ) (value : ν)
    (hkey : key = key' ∨ self.StampedWithin start key = true) (hnow : self.Within start now) :
    (self.cacheSet now key' value).1.StampedWithin start key = true := by
  by_cases hsame : key = key'
  · subst hsame
    simp only [StampedWithin, cacheSet, Function.update_self]
    exact decide_eq_true hnow
  · have hstamped := hkey.resolve_left hsame
    unfold StampedWithin at hstamped ⊢
    simp only [cacheSet, Function.update_of_ne hsame]
    exact hstamped

end TimedCache
