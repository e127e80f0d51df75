import NomosNode.Lib.Outcome

/-!
# Unsigned fixed-point numbers

An unsigned fixed-point number of `w` bits, `f` of them fractional, by the
integer it stores: it stands for `bits / 2 ^ f`. Arithmetic is that of a debug
build: an operation whose result does not fit panics, and `checkedAdd` answers
`none` instead. A product keeps `f` fractional bits of the exact one, rounding
down.

Counting by ones with `checkedAdd`, keeping the old value when the sum does
not fit, holds the count at the largest whole number the type can store.
-/

structure FixedU (w f : ℕ) where
  bits : ℕ
  lt : bits < 2 ^ w
  deriving DecidableEq

namespace FixedU

variable {w f : ℕ} {ε : Type}

def zero : FixedU w f := ⟨0, Nat.two_pow_pos w⟩

/-- One exists where some bit is left for the integer part. -/
def one (h : f < w) : FixedU w f := ⟨2 ^ f, Nat.pow_lt_pow_right Nat.one_lt_two h⟩

instance : LT (FixedU w f) := ⟨fun a b => a.bits < b.bits⟩

instance (a b : FixedU w f) : Decidable (a < b) := inferInstanceAs (Decidable (a.bits < b.bits))

instance : LE (FixedU w f) := ⟨fun a b => a.bits ≤ b.bits⟩

instance (a b : FixedU w f) : Decidable (a ≤ b) := inferInstanceAs (Decidable (a.bits ≤ b.bits))

/-- `a >= n` for a whole number `n`, compared exactly, as the `fixed` crate
compares a number with an integer. -/
def geWhole (a : FixedU w f) (n : ℕ) : Bool := decide (n * 2 ^ f ≤ a.bits)

def checkedAdd (a b : FixedU w f) : Option (FixedU w f) :=
  if h : a.bits + b.bits < 2 ^ w then some ⟨a.bits + b.bits, h⟩ else none

def add (a b : FixedU w f) : Outcome ε (FixedU w f) :=
  match a.checkedAdd b with
  | some c => .ok c
  | none => .panic "attempt to add with overflow"

def sub (a b : FixedU w f) : Outcome ε (FixedU w f) :=
  if h : b.bits ≤ a.bits then .ok ⟨a.bits - b.bits, by have := a.lt; omega⟩
  else .panic "attempt to subtract with overflow"

def mul (a b : FixedU w f) : Outcome ε (FixedU w f) :=
  if h : a.bits * b.bits / 2 ^ f < 2 ^ w then .ok ⟨a.bits * b.bits / 2 ^ f, h⟩
  else .panic "attempt to multiply with overflow"

@[ext] theorem ext {a b : FixedU w f} (h : a.bits = b.bits) : a = b := by
  cases a
  cases b
  cases h
  rfl

@[simp] theorem bits_zero : (zero : FixedU w f).bits = 0 := rfl

@[simp] theorem bits_one (h : f < w) : (one h : FixedU w f).bits = 2 ^ f := rfl

theorem le_iff_bits {a b : FixedU w f} : a ≤ b ↔ a.bits ≤ b.bits := Iff.rfl

@[simp] theorem geWhole_eq_true {a : FixedU w f} {n : ℕ} : a.geWhole n = true ↔ n * 2 ^ f ≤ a.bits := by
  simp [geWhole]

/-- The largest whole number a `FixedU w f` stores. -/
def maxWhole (w f : ℕ) : ℕ := 2 ^ (w - f) - 1

/-- Adding one to a count held below `maxWhole` fits, and adding it to
`maxWhole` does not: the count stops there. -/
theorem bits_checkedAdd_one_getD (h : f < w) {v : FixedU w f} {n : ℕ}
    (hv : v.bits = 2 ^ f * min n (maxWhole w f)) :
    ((v.checkedAdd (one h)).getD v).bits = 2 ^ f * min (n + 1) (maxWhole w f) := by
  have hsplit : 2 ^ w = 2 ^ f * 2 ^ (w - f) := by
    rw [← Nat.pow_add, Nat.add_sub_cancel' (Nat.le_of_lt h)]
  have hpos : 0 < 2 ^ f := Nat.two_pow_pos f
  have hwide : 2 ≤ 2 ^ (w - f) :=
    calc 2 = 2 ^ 1 := rfl
      _ ≤ 2 ^ (w - f) := Nat.pow_le_pow_right Nat.two_pos (by omega)
  unfold maxWhole at hv ⊢
  unfold checkedAdd
  by_cases hlow : n + 1 < 2 ^ (w - f)
  · have hv' : v.bits = 2 ^ f * n := by rw [hv, Nat.min_eq_left (by omega)]
    have hfits : v.bits + (one h).bits < 2 ^ w := by
      rw [hv', bits_one, hsplit, ← Nat.mul_succ]
      exact Nat.mul_lt_mul_of_pos_left hlow hpos
    rw [dif_pos hfits, Option.getD_some]
    show v.bits + 2 ^ f = _
    rw [hv', Nat.min_eq_left (by omega), Nat.mul_succ]
  · have hv' : v.bits = 2 ^ f * (2 ^ (w - f) - 1) := by rw [hv, Nat.min_eq_right (by omega)]
    have hfull : ¬ v.bits + (one h).bits < 2 ^ w := by
      rw [hv', bits_one, hsplit, ← Nat.mul_succ, Nat.succ_eq_add_one, Nat.sub_add_cancel (by omega)]
      exact Nat.lt_irrefl _
    rw [dif_neg hfull, Option.getD_none, hv', Nat.min_eq_right (by omega)]

/-- The whole number `n`, held at `maxWhole`. -/
def ofWhole (h : f < w) (n : ℕ) : FixedU w f :=
  ⟨2 ^ f * min n (maxWhole w f), by
    have hsplit : 2 ^ w = 2 ^ f * 2 ^ (w - f) := by
      rw [← Nat.pow_add, Nat.add_sub_cancel' (Nat.le_of_lt h)]
    have hpos : 0 < 2 ^ (w - f) := Nat.two_pow_pos _
    rw [hsplit]
    refine Nat.mul_lt_mul_of_pos_left ?_ (Nat.two_pow_pos f)
    unfold maxWhole
    omega⟩

@[simp] theorem bits_ofWhole (h : f < w) (n : ℕ) :
    (ofWhole h n).bits = 2 ^ f * min n (maxWhole w f) := rfl

@[simp] theorem ofWhole_zero (h : f < w) : ofWhole h 0 = zero := by
  ext
  simp

/-- Counting by ones, keeping the count when one more does not fit. -/
theorem checkedAdd_one_ofWhole (h : f < w) (n : ℕ) :
    ((ofWhole h n).checkedAdd (one h)).getD (ofWhole h n) = ofWhole h (n + 1) :=
  FixedU.ext (bits_checkedAdd_one_getD h rfl)

theorem add_eq_ok {a b c : FixedU w f} :
    (a.add b : Outcome ε (FixedU w f)) = .ok c ↔ a.checkedAdd b = some c := by
  unfold add
  split <;> simp_all

theorem bits_of_add_eq_ok {a b c : FixedU w f} (h : (a.add b : Outcome ε (FixedU w f)) = .ok c) :
    c.bits = a.bits + b.bits := by
  have hc := add_eq_ok.mp h
  unfold checkedAdd at hc
  split at hc
  · cases hc
    rfl
  · cases hc

theorem mul_eq_ok {a b c : FixedU w f} :
    (a.mul b : Outcome ε (FixedU w f)) = .ok c ↔ c.bits = a.bits * b.bits / 2 ^ f := by
  unfold mul
  split
  · constructor
    · rintro ⟨⟩
      rfl
    · intro hc
      cases c
      simp_all
  · constructor
    · rintro ⟨⟩
    · intro hc
      exact absurd (hc ▸ c.lt) ‹_›

/-- Multiplying by at most one does not grow a number. -/
theorem bits_le_of_mul_eq_ok {a b c : FixedU w f} (hb : b.bits ≤ 2 ^ f)
    (h : (a.mul b : Outcome ε (FixedU w f)) = .ok c) : c.bits ≤ a.bits := by
  rw [mul_eq_ok.mp h]
  calc a.bits * b.bits / 2 ^ f ≤ a.bits * 2 ^ f / 2 ^ f :=
        Nat.div_le_div_right (Nat.mul_le_mul_left _ hb)
    _ = a.bits := Nat.mul_div_cancel _ (Nat.two_pow_pos f)

end FixedU
