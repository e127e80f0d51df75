import NomosNode.Lib.Dft
import Mathlib.Algebra.BigOperators.Group.Finset.Basic
import Mathlib.Algebra.Module.BigOperators

/-!
# Transforms of points of a module, and Toeplitz products by circulant embedding

`dftM` and `idftM` are the transforms of `Lib.Dft` on points of a module over
the field, and the inverse transform of the pointwise product of two transforms
is the cyclic convolution. A product of an upper triangular Toeplitz matrix of
scalars by points is the first half of the cyclic convolution of length `2 n` of
the points reversed and padded, and of the scalars behind `n` zeros; in a
convolution of at least `3 n - 1` points nothing wraps around, and those entries
vanish.
-/

open Finset

namespace Coeffs

variable {F : Type*} [Field F] {M : Type*} [AddCommGroup M] [Module F M]

/-- The values at `1, ω, …, ω ^ (n - 1)` of `n` points taken as coefficients,
the points cut or padded to `n`. -/
def dftM (ω : F) (n : ℕ) (v : List M) : List M :=
  (List.range n).map fun i => ∑ j ∈ range n, (ω ^ i) ^ j • v.getD j 0

/-- The `n` coefficients whose values at the powers of `ω` are the points `v`,
read with zeros past the end of the list. -/
def idftM (ω : F) (n : ℕ) (v : List M) : List M :=
  (List.range n).map fun j => (n : F)⁻¹ • ∑ i ∈ range n, ω⁻¹ ^ (i * j) • v.getD i 0

/-- The cyclic convolution of `n` points and `n` scalars. -/
def cyclicConv (n : ℕ) (a : List M) (b : List F) : List M :=
  (List.range n).map fun m => ∑ l ∈ range n, b.getD ((m + n - l) % n) 0 • a.getD l 0

@[simp] theorem length_dftM (ω : F) (n : ℕ) (v : List M) : (dftM ω n v).length = n := by
  simp [dftM]

@[simp] theorem length_idftM (ω : F) (n : ℕ) (v : List M) : (idftM ω n v).length = n := by
  simp [idftM]

@[simp] theorem length_cyclicConv (n : ℕ) (a : List M) (b : List F) :
    (cyclicConv n a b).length = n := by
  simp [cyclicConv]

/-- The value at index `i` of a list built over `range n`. -/
theorem getD_map_range {α : Type*} (f : ℕ → α) {n i : ℕ} (hi : i < n) (d : α) :
    ((List.range n).map f).getD i d = f i := by
  simp [List.getD_eq_getElem?_getD, hi]

/-- Cutting a list past an index keeps the value there. -/
theorem getD_take_of_lt {α : Type*} (l : List α) {n i : ℕ} (hi : i < n) (d : α) :
    (l.take n).getD i d = l.getD i d := by
  rw [List.getD_eq_getElem?_getD, List.getElem?_take_of_lt hi, ← List.getD_eq_getElem?_getD]

/-- The values of a polynomial cut to `n` coefficients, as a sum over `n`. -/
theorem eval_take_eq_sum (p : List F) (n : ℕ) (x : F) :
    eval (p.take n) x = ∑ j ∈ range n, p.getD j 0 * x ^ j := by
  rw [eval_eq_sum]
  refine sum_subset (fun j hj => mem_range.mpr ((mem_range.mp hj).trans_le (by simp)))
    (fun j _ hj => ?_) |>.trans (sum_congr rfl fun j hj => ?_)
  · rw [List.getD_eq_getElem?_getD, List.getElem?_eq_none (not_lt.mp (mem_range.not.mp hj)),
      Option.getD_none, zero_mul]
  · rw [getD_take_of_lt p (mem_range.mp hj)]

variable {ω : F} {n : ℕ}

/-- Orthogonality, for any exponent: summing the powers of `ω ^ e / ω ^ m` gives
`n` when `e` is `m` modulo `n`, and `0` otherwise. -/
theorem sum_pow_orthogonal_mod (hω : IsPrimitiveRoot ω n) {m : ℕ} (hm : m < n) (e : ℕ) :
    ∑ k ∈ range n, (ω⁻¹ ^ m * ω ^ e) ^ k = if m = e % n then (n : F) else 0 := by
  have hpow : ω ^ e = ω ^ (e % n) := by
    conv_lhs => rw [← Nat.mod_add_div e n, pow_add, pow_mul, hω.pow_eq_one, one_pow, mul_one]
  rw [hpow, sum_pow_orthogonal hω hm (Nat.mod_lt e (by omega))]

/-- The transform of points that vanish below `n` is zero. -/
theorem dftM_of_getD_eq_zero {v : List M} (h : ∀ j < n, v.getD j 0 = 0) :
    dftM ω n v = List.replicate n 0 := by
  refine List.eq_replicate_iff.mpr ⟨length_dftM ω n v, fun x hx => ?_⟩
  obtain ⟨i, -, rfl⟩ := List.mem_map.mp hx
  exact sum_eq_zero fun j hj => by rw [h j (mem_range.mp hj), smul_zero]

/-- For indices below `n`, `t + l` is `m` modulo `n` for exactly one `t`. -/
theorem add_mod_eq_iff {t l m : ℕ} (ht : t < n) (hl : l < n) (hm : m < n) :
    m = (t + l) % n ↔ t = (m + n - l) % n := by
  -- both sides are below `2 n`, so each remainder drops `n` at most once
  have hmod : ∀ x, x < 2 * n → x % n = if x < n then x else x - n := by
    intro x hx
    split_ifs with hxn
    · exact Nat.mod_eq_of_lt hxn
    · rw [Nat.mod_eq_sub_mod (not_lt.mp hxn), Nat.mod_eq_of_lt (by omega)]
  rw [hmod (t + l) (by omega), hmod (m + n - l) (by omega)]
  split_ifs <;> omega

/-- The weight of the point of index `l` at index `m` of the inverse transform
of a pointwise product: the scalar of index `m - l`, cyclically. -/
theorem convolution_weight (hω : IsPrimitiveRoot ω n) (b : List F) {m l : ℕ} (hm : m < n)
    (hl : l < n) :
    (n : F)⁻¹ * ∑ k ∈ range n, ω⁻¹ ^ (k * m) * eval (b.take n) (ω ^ k) * (ω ^ k) ^ l =
      b.getD ((m + n - l) % n) 0 := by
  have : NeZero n := ⟨by omega⟩
  have hn : (n : F) ≠ 0 := (hω.neZero').out
  have hindex : (m + n - l) % n ∈ range n := mem_range.mpr (Nat.mod_lt _ (by omega))
  calc (n : F)⁻¹ * ∑ k ∈ range n, ω⁻¹ ^ (k * m) * eval (b.take n) (ω ^ k) * (ω ^ k) ^ l
      = (n : F)⁻¹ * ∑ t ∈ range n, b.getD t 0 * ∑ k ∈ range n, (ω⁻¹ ^ m * ω ^ (t + l)) ^ k := by
        congr 1
        simp only [eval_take_eq_sum, mul_sum, sum_mul]
        rw [sum_comm]
        exact sum_congr rfl fun t _ => sum_congr rfl fun k _ => by ring
    _ = (n : F)⁻¹ * ∑ t ∈ range n, if t = (m + n - l) % n then b.getD t 0 * n else 0 := by
        refine congrArg _ (sum_congr rfl fun t ht => ?_)
        have hiff := add_mod_eq_iff (mem_range.mp ht) hl hm
        rw [sum_pow_orthogonal_mod hω hm]
        by_cases hunique : t = (m + n - l) % n
        · rw [if_pos (hiff.mpr hunique), if_pos hunique]
        · rw [if_neg (mt hiff.mp hunique), if_neg hunique, mul_zero]
    _ = b.getD ((m + n - l) % n) 0 := by
        rw [sum_ite_eq' _ _ (fun t => b.getD t 0 * n), if_pos hindex]
        field_simp

/-- The convolution theorem: the inverse transform of the pointwise product of
the transforms is the cyclic convolution. -/
theorem idftM_zipWith_dft (hω : IsPrimitiveRoot ω n) (a : List M) (b : List F) :
    idftM ω n (List.zipWith (fun v c => c • v) (dftM ω n a) (dft ω n b)) = cyclicConv n a b := by
  have hzip : List.zipWith (fun v c => c • v) (dftM ω n a) (dft ω n b) =
      (List.range n).map fun k => eval (b.take n) (ω ^ k) • ∑ l ∈ range n, (ω ^ k) ^ l • a.getD l 0 := by
    rw [dftM, dft, List.zipWith_map, List.zipWith_self]
  refine List.map_congr_left fun m hm => ?_
  have hm := mem_range.mp hm
  rw [hzip]
  calc (n : F)⁻¹ • ∑ k ∈ range n, ω⁻¹ ^ (k * m) • ((List.range n).map fun k =>
          eval (b.take n) (ω ^ k) • ∑ l ∈ range n, (ω ^ k) ^ l • a.getD l 0).getD k 0
      = (n : F)⁻¹ • ∑ k ∈ range n, ∑ l ∈ range n,
          (ω⁻¹ ^ (k * m) * eval (b.take n) (ω ^ k) * (ω ^ k) ^ l) • a.getD l 0 := by
        refine congrArg _ (sum_congr rfl fun k hk => ?_)
        rw [getD_map_range _ (mem_range.mp hk), smul_sum, smul_sum]
        exact sum_congr rfl fun l _ => by rw [smul_smul, smul_smul]
    _ = ∑ l ∈ range n, ((n : F)⁻¹ * ∑ k ∈ range n,
          ω⁻¹ ^ (k * m) * eval (b.take n) (ω ^ k) * (ω ^ k) ^ l) • a.getD l 0 := by
        rw [sum_comm, smul_sum]
        exact sum_congr rfl fun l _ => by rw [← sum_smul, smul_smul]
    _ = ∑ l ∈ range n, b.getD ((m + n - l) % n) 0 • a.getD l 0 :=
        sum_congr rfl fun l hl => by rw [convolution_weight hω b hm (mem_range.mp hl)]

/-- A multi-scalar multiplication of at most `N` scalars by at least `N` points,
as a sum over `N`. -/
theorem sum_zipWith_smul {c : List F} {g : List M} {N : ℕ} (hc : c.length ≤ N) (hg : N ≤ g.length) :
    (List.zipWith (fun a x => a • x) c g).sum = ∑ j ∈ range N, c.getD j 0 • g.getD j 0 := by
  induction c generalizing g N with
  | nil => simp
  | cons a c ih =>
    obtain ⟨N, rfl⟩ : ∃ N', N = N' + 1 := ⟨N - 1, by simp at hc; omega⟩
    cases g with
    | nil => simp at hg
    | cons x g =>
      rw [List.zipWith_cons_cons, List.sum_cons, ih (by simpa using hc) (by simpa using hg),
        sum_range_succ', add_comm]
      simp

/-! ## The Toeplitz product as a circulant one -/

/-- The points reversed, then padded: index `l` of the first half is point
`n - 1 - l`, and the second half is zero. -/
theorem getD_reverse_append {g : List M} (hg : g.length = n) (l : ℕ) :
    (g.reverse ++ List.replicate n 0).getD l 0 = if l < n then g.getD (n - 1 - l) 0 else 0 := by
  rw [List.getD_eq_getElem?_getD]
  split_ifs with hl
  · rw [List.getElem?_append_left (by simpa [hg] using hl), List.getElem?_reverse (by omega),
      ← List.getD_eq_getElem?_getD, hg]
  · rw [List.getElem?_append_right (by simp [hg]; omega), List.getElem?_replicate]
    split_ifs <;> rfl

/-- The scalar the convolution of length `2 n` pairs at index `m` with the
reversed point of index `n - 1 - j` is coefficient `m + 1 + j`: read past the
`n` zeros when `m + 1 + j < n`, and otherwise wrapped around into the zeros,
where `c` has no coefficient either. -/
theorem getD_replicate_append_wrap {c : List F} (hc : c.length ≤ n) {m j : ℕ} (hm : m < n)
    (hj : j < n) :
    (List.replicate n 0 ++ c).getD ((m + 2 * n - (n - 1 - j)) % (2 * n)) 0 =
      c.getD (m + 1 + j) 0 := by
  rw [List.getD_eq_getElem?_getD, List.getD_eq_getElem?_getD]
  rcases lt_or_ge (m + 1 + j) n with hlt | hge
  · -- no wrap: past the zeros, at coefficient `m + 1 + j`
    have hidx : (m + 2 * n - (n - 1 - j)) % (2 * n) = n + (m + 1 + j) := by
      rw [Nat.mod_eq_of_lt (by omega)]
      omega
    rw [hidx, List.getElem?_append_right (by simp), List.length_replicate, Nat.add_sub_cancel_left]
  · -- wrap: into the zeros, and past the end of `c`
    have hidx : (m + 2 * n - (n - 1 - j)) % (2 * n) = m + 1 + j - n := by
      rw [Nat.mod_eq_sub_mod (by omega), Nat.mod_eq_of_lt (by omega)]
      omega
    rw [hidx, List.getElem?_append_left (by simp; omega), List.getElem?_replicate,
      if_pos (by omega), List.getElem?_eq_none (by omega)]
    rfl

/-- The Toeplitz product by circulant embedding: the first `n` entries of the
cyclic convolution of length `2 n` of the points reversed and padded with `n`
zeros, and of `n` zeros followed by the scalars, are the products of the upper
triangular Toeplitz matrix `(c (m + 1 + j))` by the points. -/
theorem getD_cyclicConv_toeplitz {g : List M} {c : List F} (hg : g.length = n) (hc : c.length ≤ n)
    {m : ℕ} (hm : m < n) :
    (cyclicConv (2 * n) (g.reverse ++ List.replicate n 0) (List.replicate n 0 ++ c)).getD m 0 =
      ∑ j ∈ range n, c.getD (m + 1 + j) 0 • g.getD j 0 := by
  have hrange : range (2 * n) = range (n + n) := by rw [two_mul]
  rw [cyclicConv, getD_map_range _ (by omega), hrange, sum_range_add]
  have hpadding : ∀ l ∈ range n, (List.replicate n 0 ++ c).getD ((m + 2 * n - (n + l)) % (2 * n)) 0 •
      (g.reverse ++ List.replicate n 0).getD (n + l) 0 = 0 := fun l _ => by
    rw [getD_reverse_append hg, if_neg (by omega), smul_zero]
  rw [sum_eq_zero hpadding, add_zero, ← sum_range_reflect]
  refine sum_congr rfl fun j hj => ?_
  have hj := mem_range.mp hj
  rw [getD_reverse_append hg, if_pos (by omega), Nat.sub_sub_self (by omega),
    getD_replicate_append_wrap hc hm hj]

/-- The same with the first `n` of at least `n` points. -/
theorem getD_cyclicConv_toeplitz_take {g : List M} {c : List F} (hg : n ≤ g.length)
    (hc : c.length ≤ n) {m : ℕ} (hm : m < n) :
    (cyclicConv (2 * n) ((g.take n).reverse ++ List.replicate n 0)
        (List.replicate n 0 ++ c)).getD m 0 =
      ∑ j ∈ range n, c.getD (m + 1 + j) 0 • g.getD j 0 := by
  have hlength : (g.take n).length = n := by rw [List.length_take, Nat.min_eq_left hg]
  rw [getD_cyclicConv_toeplitz hlength hc hm]
  refine sum_congr rfl fun j hj => ?_
  rw [getD_take_of_lt g (mem_range.mp hj)]

/-- Without wrap-around: in a cyclic convolution of length at least `3 n - 1`,
points that vanish from index `n` on and scalars that vanish below `n` and from
`2 n` on meet nowhere below `n`. -/
theorem getD_cyclicConv_eq_zero_of_no_wrap {a : List M} {b : List F} {N : ℕ} (hN : 3 * n ≤ N + 1)
    (ha : ∀ l, n ≤ l → a.getD l 0 = 0) (hb : ∀ t, t < n ∨ 2 * n ≤ t → b.getD t 0 = 0) {m : ℕ}
    (hm : m < n) : (cyclicConv N a b).getD m 0 = 0 := by
  rw [cyclicConv, getD_map_range _ (by omega)]
  refine sum_eq_zero fun l _ => ?_
  rcases le_or_gt n l with hnl | hln
  · rw [ha l hnl, smul_zero]
  · -- the scalar of index `m - l` modulo `N` is below `n`, or wrapped to at least `2 n`
    have hindex : (m + N - l) % N < n ∨ 2 * n ≤ (m + N - l) % N := by
      rcases le_or_gt l m with hlm | hml
      · left
        rw [show m + N - l = m - l + N by omega, Nat.add_mod_right, Nat.mod_eq_of_lt (by omega)]
        omega
      · right
        rw [Nat.mod_eq_of_lt (by omega)]
        omega
    rw [hb _ hindex, zero_smul]

/-- The embedding of `getD_cyclicConv_toeplitz` in a convolution of length at
least `3 n - 1` instead of `2 n`: its first `n` entries vanish. -/
theorem getD_cyclicConv_toeplitz_of_wide {g : List M} {c : List F} (hg : g.length = n)
    (hc : c.length ≤ n) {N : ℕ} (hN : 3 * n ≤ N + 1) {m : ℕ} (hm : m < n) :
    (cyclicConv N (g.reverse ++ List.replicate n 0) (List.replicate n 0 ++ c)).getD m 0 = 0 := by
  refine getD_cyclicConv_eq_zero_of_no_wrap hN (fun l hl => ?_) (fun t ht => ?_) hm
  · rw [getD_reverse_append hg, if_neg (by omega)]
  · rw [List.getD_eq_getElem?_getD]
    rcases ht with ht | ht
    · rw [List.getElem?_append_left (by simpa using ht), List.getElem?_replicate, if_pos ht]
      rfl
    · rw [List.getElem?_eq_none (by simp; omega)]
      rfl

end Coeffs
