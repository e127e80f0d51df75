import Mathlib.RingTheory.RootsOfUnity.PrimitiveRoots
import Mathlib.Algebra.Field.GeomSum
import Mathlib.Data.List.DropRight

/-!
# Polynomials as coefficient lists, and the discrete Fourier transform

A dense polynomial is the list of its coefficients, lowest degree first;
evaluation by Horner's rule turns each operation on coefficients into the one on
values. Over a field with a primitive `n`-th root of unity `ω`, `dft ω n`
evaluates at `1, ω, …, ω ^ (n - 1)` after cutting or padding to `n`
coefficients, and `idft ω n` interpolates: `eval_idft` rests on the orthogonality
of the powers of `ω`.
-/

open Finset

namespace Coeffs

section Ring

variable {R : Type*} [CommRing R]

/-- Horner evaluation, lowest degree first. -/
def eval (p : List R) (x : R) : R :=
  p.foldr (fun a acc => a + x * acc) 0

@[simp] theorem eval_nil (x : R) : eval [] x = 0 := rfl

@[simp] theorem eval_cons (a : R) (p : List R) (x : R) : eval (a :: p) x = a + x * eval p x :=
  rfl

theorem eval_append (p q : List R) (x : R) :
    eval (p ++ q) x = eval p x + x ^ p.length * eval q x := by
  induction p with
  | nil => simp
  | cons a p ih =>
    rw [List.cons_append, eval_cons, eval_cons, ih, List.length_cons, pow_succ]
    ring

theorem eval_of_forall_eq_zero {p : List R} (h : ∀ a ∈ p, a = 0) (x : R) : eval p x = 0 := by
  induction p with
  | nil => rfl
  | cons a p ih =>
    rw [eval_cons, h a List.mem_cons_self, ih fun b hb => h b (List.mem_cons_of_mem a hb)]
    ring

/-- The value of a polynomial as the sum of its monomials. -/
theorem getD_of_forall_eq_zero {p : List R} (h : ∀ a ∈ p, a = 0) (i : ℕ) : p.getD i 0 = 0 := by
  rw [List.getD_eq_getElem?_getD]
  cases hi : p[i]? with
  | none => rfl
  | some a => exact h a (List.mem_of_getElem? hi)

/-- A polynomial of at most one coefficient is constant. -/
theorem eval_of_length_le_one {p : List R} (h : p.length ≤ 1) (x : R) : eval p x = p.getD 0 0 := by
  match p, h with
  | [], _ => rfl
  | [a], _ => simp

theorem eval_eq_sum (p : List R) (x : R) :
    eval p x = ∑ j ∈ range p.length, p.getD j 0 * x ^ j := by
  induction p with
  | nil => simp
  | cons a p ih =>
    rw [eval_cons, ih, List.length_cons, sum_range_succ', mul_sum]
    simp only [List.getD_cons_succ, List.getD_cons_zero, pow_succ, pow_zero, mul_one]
    rw [add_comm]
    congr 1
    exact sum_congr rfl fun j _ => by ring

/-- The sum of two polynomials, coefficient by coefficient, before normalizing. -/
def addAux : List R → List R → List R
  | [], q => q
  | p, [] => p
  | a :: p, b :: q => (a + b) :: addAux p q

theorem getD_addAux : ∀ (p q : List R) (j : ℕ), (addAux p q).getD j 0 = p.getD j 0 + q.getD j 0
  | [], q, j => by simp [addAux]
  | a :: p, [], j => by simp [addAux]
  | a :: p, b :: q, 0 => by simp [addAux]
  | a :: p, b :: q, j + 1 => by
    rw [addAux, List.getD_cons_succ, getD_addAux p q j, List.getD_cons_succ, List.getD_cons_succ]

theorem length_addAux : ∀ (p q : List R), (addAux p q).length = max p.length q.length
  | [], q => by simp [addAux]
  | a :: p, [] => by simp [addAux]
  | a :: p, b :: q => by
    rw [addAux, List.length_cons, length_addAux p q, List.length_cons, List.length_cons,
      Nat.succ_max_succ]

@[simp] theorem eval_addAux : ∀ (p q : List R) (x : R),
    eval (addAux p q) x = eval p x + eval q x
  | [], q, x => by simp [addAux]
  | a :: p, [], x => by simp [addAux]
  | a :: p, b :: q, x => by
    rw [addAux, eval_cons, eval_addAux p q x, eval_cons, eval_cons]
    ring

/-- The product of two polynomials by Horner's rule on the first:
`(a + X p) q = a q + X (p q)`. -/
def mulAux (p q : List R) : List R :=
  p.foldr (fun a acc => addAux (q.map (a * ·)) (0 :: acc)) []

theorem eval_map_mul (a : R) (q : List R) (x : R) : eval (q.map (a * ·)) x = a * eval q x := by
  induction q with
  | nil => simp
  | cons b q ih =>
    rw [List.map_cons, eval_cons, ih, eval_cons]
    ring

@[simp] theorem eval_mulAux (p q : List R) (x : R) :
    eval (mulAux p q) x = eval p x * eval q x := by
  induction p with
  | nil => simp [mulAux]
  | cons a p ih =>
    have hstep : mulAux (a :: p) q = addAux (q.map (a * ·)) (0 :: mulAux p q) := rfl
    rw [hstep, eval_addAux, eval_map_mul, eval_cons, ih, eval_cons]
    ring

/-- Division by `X - u`, by synthetic division: the quotient and the
remainder. -/
def divLinear (p : List R) (u : R) : List R × R :=
  p.foldr (fun a qr => (qr.2 :: qr.1, a + u * qr.2)) ([], 0)

theorem divLinear_cons (a : R) (p : List R) (u : R) :
    divLinear (a :: p) u = ((divLinear p u).2 :: (divLinear p u).1, a + u * (divLinear p u).2) :=
  rfl

theorem eval_divLinear (p : List R) (u x : R) :
    eval p x = eval (divLinear p u).1 x * (x - u) + (divLinear p u).2 := by
  induction p with
  | nil => simp [divLinear]
  | cons a p ih =>
    rw [divLinear_cons, eval_cons, ih, eval_cons]
    ring

/-- The remainder of the division by `X - u` is the value at `u`. -/
theorem divLinear_snd (p : List R) (u : R) : (divLinear p u).2 = eval p u := by
  rw [eval_divLinear p u u, sub_self, mul_zero, zero_add]

/-- Coefficient `j` of the quotient by `X - u` is the value at `u` of the
coefficients past `j`. -/
theorem getD_divLinear_fst (p : List R) (u : R) (j : ℕ) :
    (divLinear p u).1.getD j 0 = eval (p.drop (j + 1)) u := by
  induction p generalizing j with
  | nil => simp [divLinear]
  | cons a p ih =>
    cases j with
    | zero => rw [divLinear_cons, List.getD_cons_zero, divLinear_snd, List.drop_succ_cons,
        List.drop_zero]
    | succ j => rw [divLinear_cons, List.getD_cons_succ, ih, List.drop_succ_cons]

@[simp] theorem length_divLinear_fst (p : List R) (u : R) : (divLinear p u).1.length = p.length := by
  induction p with
  | nil => rfl
  | cons a p ih => rw [divLinear_cons, List.length_cons, ih, List.length_cons]

variable [DecidableEq R]

/-- `DensePolynomial::from_coefficients_vec`: trailing zero coefficients are
dropped. -/
def trim (p : List R) : List R :=
  p.rdropWhile fun a => decide (a = 0)

/-- What `trim` drops is zeros. -/
theorem eq_zero_of_mem_rtakeWhile {p : List R} {a : R} (ha : a ∈ p.rtakeWhile fun a => decide (a = 0)) :
    a = 0 := by
  simpa using List.mem_rtakeWhile_imp ha

@[simp] theorem eval_trim (p : List R) (x : R) : eval (trim p) x = eval p x := by
  conv_rhs => rw [← List.rdropWhile_append_rtakeWhile (p := fun a => decide (a = 0)) (l := p)]
  rw [eval_append, eval_of_forall_eq_zero fun _ => eq_zero_of_mem_rtakeWhile, mul_zero, add_zero,
    trim]

/-- `trim` keeps every coefficient, reading zeros past the end. -/
theorem getD_trim (p : List R) (j : ℕ) : (trim p).getD j 0 = p.getD j 0 := by
  conv_rhs => rw [← List.rdropWhile_append_rtakeWhile (p := fun a => decide (a = 0)) (l := p)]
  rw [trim, List.getD_eq_getElem?_getD, List.getD_eq_getElem?_getD]
  rcases lt_or_ge j (p.rdropWhile fun a => decide (a = 0)).length with hj | hj
  · rw [List.getElem?_append_left hj]
  · rw [List.getElem?_append_right hj, List.getElem?_eq_none hj, Option.getD_none,
      ← List.getD_eq_getElem?_getD, getD_of_forall_eq_zero fun _ => eq_zero_of_mem_rtakeWhile]

@[simp] theorem trim_nil : trim ([] : List R) = [] := rfl

@[simp] theorem trim_singleton_zero : trim [(0 : R)] = [] := by
  simp [trim, List.rdropWhile]

theorem length_trim_le (p : List R) : (trim p).length ≤ p.length := by
  simpa [trim, List.rdropWhile] using List.length_dropWhile_le _ p.reverse

theorem trim_eq_nil_of_forall_eq_zero {p : List R} (h : ∀ a ∈ p, a = 0) : trim p = [] := by
  rw [trim, List.rdropWhile_eq_nil_iff]
  simpa using h

/-- `&p + &q` on `DensePolynomial`s. -/
def add (p q : List R) : List R := trim (addAux p q)

/-- `DensePolynomial::naive_mul`. -/
def naiveMul (p q : List R) : List R :=
  if p = [] ∨ q = [] then [] else trim (mulAux p q)

@[simp] theorem naiveMul_nil_left (q : List R) : naiveMul [] q = [] := by
  simp [naiveMul]

@[simp] theorem eval_add (p q : List R) (x : R) : eval (add p q) x = eval p x + eval q x := by
  simp [add]

@[simp] theorem eval_naiveMul (p q : List R) (x : R) :
    eval (naiveMul p q) x = eval p x * eval q x := by
  unfold naiveMul
  split_ifs with h
  · rcases h with rfl | rfl <;> simp
  · simp

end Ring

/-! ## The discrete Fourier transform -/

section Field

variable {F : Type*} [Field F]

/-- The values at `1, ω, …, ω ^ (n - 1)` of a polynomial cut or padded to `n`
coefficients. -/
def dft (ω : F) (n : ℕ) (p : List F) : List F :=
  (List.range n).map fun i => eval (p.take n) (ω ^ i)

/-- The coefficients of the polynomial of degree below `n` whose values at the
powers of `ω` are `v`, read with zeros past its end. -/
def idft (ω : F) (n : ℕ) (v : List F) : List F :=
  (List.range n).map fun j => (n : F)⁻¹ * ∑ i ∈ range n, v.getD i 0 * ω⁻¹ ^ (i * j)

@[simp] theorem length_dft (ω : F) (n : ℕ) (p : List F) : (dft ω n p).length = n := by
  simp [dft]

@[simp] theorem length_idft (ω : F) (n : ℕ) (v : List F) : (idft ω n v).length = n := by
  simp [idft]

/-- The inverse transform of zeros is zero. -/
theorem idft_of_forall_eq_zero (ω : F) (n : ℕ) {v : List F} (h : ∀ a ∈ v, a = 0) :
    ∀ c ∈ idft ω n v, c = 0 := by
  rintro c hc
  obtain ⟨j, -, rfl⟩ := List.mem_map.mp hc
  simp only [getD_of_forall_eq_zero h, zero_mul, Finset.sum_const_zero, mul_zero]

variable {ω : F} {n : ℕ}

/-- Orthogonality of the powers of a primitive root: summing the powers of
`ω ^ l / ω ^ i` gives `n` when `i = l` and `0` otherwise. -/
theorem sum_pow_orthogonal (hω : IsPrimitiveRoot ω n) {i l : ℕ} (hi : i < n) (hl : l < n) :
    ∑ j ∈ range n, (ω⁻¹ ^ i * ω ^ l) ^ j = if i = l then (n : F) else 0 := by
  have hne : ω ≠ 0 := hω.ne_zero (by omega)
  split_ifs with hil
  · subst hil
    simp [inv_pow, hne]
  · have hx : ω⁻¹ ^ i * ω ^ l ≠ 1 := by
      intro h1
      have hpow : ω ^ l = ω ^ i := by
        rw [inv_pow, inv_mul_eq_one₀ (pow_ne_zero i hne)] at h1
        exact h1.symm
      exact hil (hω.pow_inj hl hi hpow).symm
    have hn : (ω⁻¹ ^ i * ω ^ l) ^ n = 1 := by
      rw [mul_pow, ← pow_mul, ← pow_mul, mul_comm i n, mul_comm l n, pow_mul, pow_mul, inv_pow,
        hω.pow_eq_one, inv_one, one_pow, one_pow, one_mul]
    rw [geom_sum_eq hx, hn, sub_self, zero_div]

/-- Interpolating `n` values and evaluating back on the powers of `ω` returns
them: `fft(ifft(v)) = v`, with `v` padded to `n` values. -/
theorem eval_idft (hω : IsPrimitiveRoot ω n) (v : List F) {l : ℕ} (hl : l < n) :
    eval (idft ω n v) (ω ^ l) = v.getD l 0 := by
  have hn : NeZero n := ⟨by omega⟩
  have hnF : (n : F) ≠ 0 := (hω.neZero').out
  rw [eval_eq_sum, length_idft]
  calc ∑ j ∈ range n, (idft ω n v).getD j 0 * (ω ^ l) ^ j
      = ∑ j ∈ range n, ∑ i ∈ range n, (n : F)⁻¹ * v.getD i 0 * (ω⁻¹ ^ i * ω ^ l) ^ j := by
        refine sum_congr rfl fun j hj => ?_
        simp only [idft, List.getD_eq_getElem?_getD, List.getElem?_map,
          List.getElem?_range (mem_range.mp hj), Option.map_some, Option.getD_some]
        rw [mul_sum, sum_mul]
        refine sum_congr rfl fun i _ => ?_
        rw [mul_pow, ← pow_mul, ← pow_mul]
        ring
    _ = ∑ i ∈ range n, (n : F)⁻¹ * v.getD i 0 * ∑ j ∈ range n, (ω⁻¹ ^ i * ω ^ l) ^ j := by
        rw [sum_comm]
        exact sum_congr rfl fun i _ => (mul_sum _ _ _).symm
    _ = ∑ i ∈ range n, (n : F)⁻¹ * v.getD i 0 * (if i = l then (n : F) else 0) := by
        refine sum_congr rfl fun i hi => ?_
        rw [sum_pow_orthogonal hω (mem_range.mp hi) hl]
    _ = v.getD l 0 := by
        simp only [mul_ite, mul_zero, sum_ite_eq', mem_range, hl, if_true]
        field_simp

/-- The values of a list read with zeros past its end, on `n` indices. -/
theorem map_range_getD (v : List F) (h : v.length ≤ n) :
    (List.range n).map (fun i => v.getD i 0) = v ++ List.replicate (n - v.length) 0 := by
  refine List.ext_getElem (by simp; omega) fun i hi _ => ?_
  simp only [List.getElem_map, List.getElem_range, List.getD_eq_getElem?_getD]
  rw [List.getElem_append]
  split_ifs with hiv
  · simp [hiv]
  · simp [List.getElem?_eq_none (Nat.not_lt.mp hiv)]

end Field

end Coeffs
