import Mathlib.Data.List.GetD
import NomosNode.Da.Bls12381
import NomosNode.Da.Encoder
import NomosNode.Lib.Circulant

/-!
# KZG proofs as points, and the FK20 batch proofs

`kzg.rs` and `fk20.rs` over the points of `G1`, a module `G` over the scalar
field: a commitment is the multi-scalar multiplication of the coefficients by
`powers_of_g`, the transforms over `G1` are `dftM` and `idftM`, and the
`debug_assert`s panic. The element proof at `u` is `∑ m, u ^ m h m` for the
Toeplitz products `h`, which `toeplitz1` to `toeplitz3` compute as a cyclic
convolution of length `2 n`; so the batch proofs are the element proofs as long
as the field has a radix-2 domain of `2 n` points. For `n = 2 ^ 32` on
BLS12-381 the domain falls back to `3 n` points, where the convolution does not
wrap around, and FK20 gives zero points.
-/

namespace Kzgrs

open Outcome Coeffs Finset

variable {F : Type} [Field F] {G : Type} [AddCommGroup G] [Module F G]

namespace Domain

/-- `fft` of points of `G1`. -/
def fftG (d : Domain F) (coeffs : List G) : List G := dftM d.groupGen d.size coeffs

/-- `ifft` of points of `G1`. -/
def ifftG (d : Domain F) (evals : List G) : List G := idftM d.groupGen d.size evals

/-- The convolution theorem on a domain. -/
theorem ifftG_zipWith_fftG (d : Domain F) (a : List G) (b : List F) :
    d.ifftG (List.zipWith (fun v c => c • v) (d.fftG a) (d.fft b)) = cyclicConv d.size a b :=
  idftM_zipWith_dft d.isPrimitiveRoot a b

theorem element_ne_zero {d : Domain F} (hsize : 0 < d.size) (i : ℕ) : d.element i ≠ 0 :=
  pow_ne_zero i (d.isPrimitiveRoot.ne_zero hsize.ne')

end Domain

namespace G1

/-- `UniversalParams`: the points `powers_of_g`. -/
structure UniversalParams (G : Type) where
  powersOfG : List G

/-- `kzg10::Proof`: its `random_v` is `None` in every proof the DA code makes. -/
structure Proof (G : Type) where
  w : G
  deriving DecidableEq

/-- `commit_polynomial`: `KZG10::commit` checks the degree against the number
of powers, then takes the multi-scalar multiplication of the coefficients by
the powers (skipping the leading zero coefficients only skips zero terms). -/
def commitPolynomial (polynomial : List F) (globalParameters : UniversalParams G) :
    Outcome KzgRsError G :=
  -- `check_degree_is_too_large(polynomial.degree(), powers.size())`, the zero
  -- polynomial having degree 0
  if polynomial.length - 1 + 1 > globalParameters.powersOfG.length then
    err (.tooManyCoefficients (polynomial.length - 1 + 1) globalParameters.powersOfG.length)
  else ok (List.zipWith (fun c g => c • g) polynomial globalParameters.powersOfG).sum

variable [DecidableEq F]

/-- `generate_element_proof`: the commitment to `(f(X) - v) / (X - u)` at the
point `u` of index `element_index`, with `v` read from the evaluations. -/
def generateElementProof (elementIndex : ℕ) (polynomial : List F) (evaluations : Evaluations F)
    (globalParameters : UniversalParams G) (domain : Domain F) : Outcome KzgRsError (Proof G) :=
  let u := domain.element elementIndex
  if u = 0 then err .divisionByZeroPolynomial
  else do
    let v ← getIndex evaluations.evals elementIndex
    let fXV := add polynomial (trim [-v])
    -- `&f_x_v / &x_u` with `x_u = X - u`: long division by a monic polynomial
    -- of degree one is synthetic division, and its quotient is normalized
    let witnessPolynomial := trim (divLinear fXV u).1
    let proof ← commitPolynomial witnessPolynomial globalParameters
    ok ⟨proof⟩

/-- The commitment to the quotient of a polynomial by `X - u`: coefficient `j`
of the quotient is `∑ m, c (j + 1 + m) u ^ m`. -/
def quotientCommitment (globalParameters : UniversalParams G) (polynomial : List F) (u : F) : G :=
  ∑ j ∈ range polynomial.length,
    (∑ m ∈ range polynomial.length, polynomial.getD (j + 1 + m) 0 * u ^ m) •
      globalParameters.powersOfG.getD j 0

omit [DecidableEq F] in
/-- The quotient of `X` by `X - u` is `1`: its commitment is the first power. -/
theorem quotientCommitment_X (globalParameters : UniversalParams G) (k : ℕ) (u : F) :
    quotientCommitment globalParameters (0 :: 1 :: List.replicate k 0) u =
      globalParameters.powersOfG.getD 0 0 := by
  have hcoeff : ∀ i, (0 :: 1 :: List.replicate k (0 : F)).getD i 0 = if i = 1 then 1 else 0 := by
    rintro (_ | _ | i)
    · rfl
    · rfl
    · rw [List.getD_cons_succ, List.getD_cons_succ, List.getD_eq_getElem?_getD,
        List.getElem?_replicate]
      split <;> rfl
  have hpos : 0 ∈ range (0 :: 1 :: List.replicate k (0 : F)).length := by simp
  rw [quotientCommitment, sum_eq_single_of_mem 0 hpos fun j _ hj => ?_]
  · rw [sum_eq_single_of_mem 0 hpos fun m _ hm => by rw [hcoeff, if_neg (by omega), zero_mul],
      hcoeff, if_pos rfl, one_mul, pow_zero, one_smul]
  · rw [sum_eq_zero fun m _ => by rw [hcoeff, if_neg (by omega), zero_mul], zero_smul]

omit [DecidableEq F] in
/-- A polynomial of at most `N` coefficients commits, against at least `N`
powers, to the sum of its first `N` coefficients times the powers. -/
theorem commitPolynomial_of_length_le {polynomial : List F} {globalParameters : UniversalParams G}
    {N : ℕ} (hpos : 0 < N) (hlength : polynomial.length ≤ N)
    (hpowers : N ≤ globalParameters.powersOfG.length) :
    commitPolynomial polynomial globalParameters =
      ok (∑ j ∈ range N, polynomial.getD j 0 • globalParameters.powersOfG.getD j 0) := by
  rw [commitPolynomial, if_neg (by omega), sum_zipWith_smul hlength hpowers]

/-- Subtracting a constant adds no coefficient past the first. -/
theorem length_fXV_le (polynomial : List F) (v : F) :
    (add polynomial (trim [-v])).length ≤ max polynomial.length 1 := by
  have hconst : (trim [-v]).length ≤ 1 := (length_trim_le _).trans (by simp)
  refine (length_trim_le _).trans ?_
  rw [length_addAux]
  exact max_le_max le_rfl hconst

/-- The witness polynomial of `generate_element_proof`: its coefficient `j` is
`∑ m, c (j + 1 + m) u ^ m`, whatever the value `v` subtracted, which only
changes the constant coefficient. -/
theorem getD_witnessPolynomial (polynomial : List F) (v u : F) {N : ℕ}
    (hlength : polynomial.length ≤ N) (hpos : 0 < N) (j : ℕ) :
    (trim (divLinear (add polynomial (trim [-v])) u).1).getD j 0 =
      ∑ m ∈ range N, polynomial.getD (j + 1 + m) 0 * u ^ m := by
  have hdrop : ((add polynomial (trim [-v])).drop (j + 1)).length ≤ N := by
    have := length_fXV_le polynomial v
    rw [List.length_drop]
    omega
  rw [getD_trim, getD_divLinear_fst, ← List.take_of_length_le hdrop, eval_take_eq_sum]
  refine sum_congr rfl fun m _ => ?_
  have hcoeff : (add polynomial (trim [-v])).getD (j + 1 + m) 0 = polynomial.getD (j + 1 + m) 0 := by
    rw [add, getD_trim, getD_addAux, getD_trim, List.getD_eq_getElem?_getD (l := [-v]),
      List.getElem?_eq_none (by simp; omega), Option.getD_none, add_zero]
  rw [List.getD_eq_getElem?_getD, List.getElem?_drop, ← List.getD_eq_getElem?_getD, hcoeff]

/-- Away from zero, and with a value to read, the element proof is the
commitment to the quotient. -/
theorem generateElementProof_eq {elementIndex : ℕ} {polynomial : List F}
    {evaluations : Evaluations F} {globalParameters : UniversalParams G} {domain : Domain F}
    (hu : domain.element elementIndex ≠ 0) (hindex : elementIndex < evaluations.evals.length)
    (hpos : 0 < polynomial.length) (hpowers : polynomial.length ≤ globalParameters.powersOfG.length) :
    generateElementProof elementIndex polynomial evaluations globalParameters domain =
      ok ⟨quotientCommitment globalParameters polynomial (domain.element elementIndex)⟩ := by
  set u := domain.element elementIndex
  set v := evaluations.evals[elementIndex]
  have hwitness : (trim (divLinear (add polynomial (trim [-v])) u).1).length ≤ polynomial.length :=
    calc (trim (divLinear (add polynomial (trim [-v])) u).1).length
        ≤ (add polynomial (trim [-v])).length :=
          (length_trim_le _).trans (length_divLinear_fst _ u).le
      _ ≤ max polynomial.length 1 := length_fXV_le polynomial v
      _ = polynomial.length := max_eq_left hpos
  rw [generateElementProof, if_neg hu, bind_def, getIndex_of_lt hindex, ok_bind, bind_def,
    commitPolynomial_of_length_le hpos hwitness hpowers, ok_bind, quotientCommitment]
  congr 2
  exact sum_congr rfl fun j _ => by rw [getD_witnessPolynomial polynomial v u le_rfl hpos]

/-- The element proofs at all the points of a domain of `n` points, for a
polynomial of `n` coefficients and its values there. -/
theorem mapM_generateElementProof {polynomial : List F} {globalParameters : UniversalParams G}
    {domain : Domain F} (hsize : domain.size = polynomial.length) (hpos : 0 < polynomial.length)
    (hpowers : polynomial.length ≤ globalParameters.powersOfG.length) :
    (List.range polynomial.length).mapM (fun i =>
        generateElementProof i polynomial (encode polynomial domain) globalParameters domain) =
      ok ((List.range polynomial.length).map fun i =>
        ⟨quotientCommitment globalParameters polynomial (domain.element i)⟩) := by
  refine mapM_eq_ok_map fun i hi => generateElementProof_eq
    (Domain.element_ne_zero (hsize ▸ hpos) i) ?_ hpos hpowers
  rw [encode, Domain.fft, length_dft, hsize]
  exact List.mem_range.mp hi

section Fk20

variable {ε : Type}

/-- `toeplitz1`: the transform on `2 n` points of the points padded with `n`
zeros. -/
def toeplitz1 (K : ScalarField F) (globalParameters : List G) (polynomialDegree : ℕ) :
    Outcome ε (List G) :=
  if globalParameters.length ≠ polynomialDegree then .panic "assertion `left == right` failed"
  else if polynomialDegree ≠ 2 ^ polynomialDegree.log2 then
    .panic "assertion failed: polynomial_degree.is_power_of_two()"
  else do
    let domain ← expect (Domain.new K (polynomialDegree * 2)) "Domain should be able to build"
    let vectorExtended := globalParameters ++ List.replicate polynomialDegree 0
    ok (domain.fftG vectorExtended)

/-- `toeplitz2`: the transformed points times the transformed coefficients,
pointwise. -/
def toeplitz2 (K : ScalarField F) (coefficients : List F) (extendedVector : List G) :
    Outcome ε (List G) :=
  if coefficients.length ≠ 2 ^ coefficients.length.log2 then
    .panic "assertion failed: coefficients.len().is_power_of_two()"
  else do
    let domain ← expect (Domain.new K coefficients.length) "Domain should be able to build"
    let toeplitzCoefficientsFft := domain.fft coefficients
    ok (List.zipWith (fun v c => c • v) extendedVector toeplitzCoefficientsFft)

/-- `toeplitz3`: the inverse transform. -/
def toeplitz3 (K : ScalarField F) (hExtendedFft : List G) : Outcome ε (List G) := do
  let domain ← expect (Domain.new K hExtendedFft.length) "Domain should be able to build"
  ok (domain.ifftG hExtendedFft)

/-- `Toeplitz1Cache`: the points of `toeplitz1`, computed once. -/
structure Toeplitz1Cache (G : Type) where
  vector : List G

/-- `Toeplitz1Cache::with_size`. -/
def Toeplitz1Cache.withSize (K : ScalarField F) (globalParameters : UniversalParams G)
    (polynomialDegree : ℕ) : Outcome ε (Toeplitz1Cache G) := do
  let vector ← toeplitz1 K (globalParameters.powersOfG.take polynomialDegree).reverse
    polynomialDegree
  ok ⟨vector⟩

/-- The `extended_vector` of `fk20_batch_generate_elements_proofs`: the cached
points, or `toeplitz1` of the first `n` powers reversed. -/
def extendedVector (K : ScalarField F) (globalParameters : UniversalParams G)
    (polynomialDegree : ℕ) : Option (Toeplitz1Cache G) → Outcome ε (List G)
  | some cache => ok cache.vector
  | none => toeplitz1 K (globalParameters.powersOfG.take polynomialDegree).reverse polynomialDegree

/-- `fk20_batch_generate_elements_proofs`. -/
def fk20BatchGenerateElementsProofs (K : ScalarField F) (polynomial : List F)
    (globalParameters : UniversalParams G) (toeplitz1Cache : Option (Toeplitz1Cache G)) :
    Outcome ε (List (Proof G)) :=
  let polynomialDegree := polynomial.length
  if polynomialDegree > globalParameters.powersOfG.length then
    .panic "assertion failed: polynomial_degree <= global_parameters.powers_of_g.len()"
  else if polynomialDegree ≠ 2 ^ polynomialDegree.log2 then
    .panic "assertion failed: polynomial_degree.is_power_of_two()"
  else do
    let domain ← expect (Domain.new K polynomialDegree) "Domain should be able to build"
    let extendedVector ← extendedVector K globalParameters polynomialDegree toeplitz1Cache
    let toeplitzCoefficients := List.replicate polynomialDegree 0 ++ polynomial
    let hExtendedVector ← toeplitz2 K toeplitzCoefficients extendedVector
    let hVector ← toeplitz3 K hExtendedVector
    ok ((domain.fftG hVector).map fun g1 => ⟨g1⟩)

omit [DecidableEq F] in
theorem toeplitz1_of_new {K : ScalarField F} {globalParameters : List G} {polynomialDegree : ℕ}
    {domain : Domain F} (hlength : globalParameters.length = polynomialDegree)
    (hpow : polynomialDegree = 2 ^ polynomialDegree.log2)
    (hdomain : Domain.new K (polynomialDegree * 2) = some domain) :
    (toeplitz1 K globalParameters polynomialDegree : Outcome ε _) =
      ok (domain.fftG (globalParameters ++ List.replicate polynomialDegree 0)) := by
  rw [toeplitz1, if_neg (not_not.mpr hlength), if_neg (not_not.mpr hpow), bind_def, hdomain,
    expect_some, ok_bind]

omit [DecidableEq F] in
theorem toeplitz2_of_new {K : ScalarField F} {coefficients : List F} {domain : Domain F}
    (hpow : coefficients.length = 2 ^ coefficients.length.log2)
    (hdomain : Domain.new K coefficients.length = some domain) (extendedVector : List G) :
    (toeplitz2 K coefficients extendedVector : Outcome ε _) =
      ok (List.zipWith (fun v c => c • v) extendedVector (domain.fft coefficients)) := by
  rw [toeplitz2, if_neg (not_not.mpr hpow), bind_def, hdomain, expect_some, ok_bind]

omit [DecidableEq F] in
theorem toeplitz3_of_new {K : ScalarField F} {hExtendedFft : List G} {domain : Domain F}
    (hdomain : Domain.new K hExtendedFft.length = some domain) :
    (toeplitz3 K hExtendedFft : Outcome ε _) = ok (domain.ifftG hExtendedFft) := by
  rw [toeplitz3, bind_def, hdomain, expect_some, ok_bind]

omit [DecidableEq F] in
/-- The values at `u` of the Toeplitz products `h m = ∑ j, c (m + 1 + j) g j`,
taken as coefficients, are the commitment to the quotient by `X - u`. -/
theorem sum_pow_smul_toeplitz (globalParameters : UniversalParams G) (polynomial : List F)
    (u : F) :
    ∑ m ∈ range polynomial.length, u ^ m • ∑ j ∈ range polynomial.length,
        polynomial.getD (m + 1 + j) 0 • globalParameters.powersOfG.getD j 0 =
      quotientCommitment globalParameters polynomial u := by
  calc ∑ m ∈ range polynomial.length, u ^ m • ∑ j ∈ range polynomial.length,
        polynomial.getD (m + 1 + j) 0 • globalParameters.powersOfG.getD j 0
      = ∑ j ∈ range polynomial.length, ∑ m ∈ range polynomial.length,
          (polynomial.getD (j + 1 + m) 0 * u ^ m) • globalParameters.powersOfG.getD j 0 := by
        simp only [smul_sum, smul_smul]
        rw [sum_comm]
        refine sum_congr rfl fun j _ => sum_congr rfl fun m _ => ?_
        rw [mul_comm, show m + 1 + j = j + 1 + m by omega]
    _ = quotientCommitment globalParameters polynomial u := by
        simp only [quotientCommitment, sum_smul]

omit [DecidableEq F] in
/-- The last transform of FK20: on the domain of `n` points, the transform of a
vector whose first `n` entries are the Toeplitz products gives the commitments
to the quotients at the points of the domain. -/
theorem fftG_toeplitz {polynomial : List F} {globalParameters : UniversalParams G}
    {domain : Domain F} (hsize : domain.size = polynomial.length) {hVector : List G}
    (hrows : ∀ m < polynomial.length, hVector.getD m 0 = ∑ j ∈ range polynomial.length,
      polynomial.getD (m + 1 + j) 0 • globalParameters.powersOfG.getD j 0) :
    domain.fftG hVector = (List.range polynomial.length).map fun i =>
      quotientCommitment globalParameters polynomial (domain.element i) := by
  rw [Domain.fftG, dftM, hsize]
  refine List.map_congr_left fun i _ => ?_
  rw [Domain.element, ← sum_pow_smul_toeplitz]
  exact sum_congr rfl fun m hm => by rw [hrows m (mem_range.mp hm)]

omit [DecidableEq F] in
/-- `toeplitz1` of the first `n` powers reversed, for `n` a power of two, on a
field with a domain of `2 n` points. -/
theorem toeplitz1_powers {K : ScalarField F} {globalParameters : UniversalParams G} {n k : ℕ}
    (hdegree : n = 2 ^ k) (htwoAdicity : k + 1 ≤ K.twoAdicity)
    (hpowers : n ≤ globalParameters.powersOfG.length) :
    ∃ double : Domain F, Domain.new K (n * 2) = some double ∧ double.size = n * 2 ∧
      (toeplitz1 K (globalParameters.powersOfG.take n).reverse n : Outcome ε _) =
        ok (double.fftG ((globalParameters.powersOfG.take n).reverse ++ List.replicate n 0)) := by
  have hpow : n = 2 ^ n.log2 := by rw [hdegree, Nat.log2_two_pow]
  have hdouble : n * 2 = 2 ^ (k + 1) := by rw [hdegree, pow_succ]
  obtain ⟨double, hdoubleDomain, hdoubleSize⟩ := Domain.new_pow (K := K) htwoAdicity
  rw [← hdouble] at hdoubleDomain hdoubleSize
  have hlength : (globalParameters.powersOfG.take n).reverse.length = n := by
    rw [List.length_reverse, List.length_take, Nat.min_eq_left hpowers]
  exact ⟨double, hdoubleDomain, hdoubleSize, toeplitz1_of_new hlength hpow hdoubleDomain⟩

omit [DecidableEq F] in
/-- FK20 is the transform, on the domain of `n` points, of the cyclic
convolution on the domain that `toeplitz1` and `toeplitz2` build for `2 n`
points, when `toeplitz3` builds that domain again for its size. -/
theorem fk20BatchGenerateElementsProofs_eq_fftG (K : ScalarField F) {polynomial : List F}
    {globalParameters : UniversalParams G} {k : ℕ} (hdegree : polynomial.length = 2 ^ k)
    (hpowers : polynomial.length ≤ globalParameters.powersOfG.length) {domain double : Domain F}
    (hdomain : Domain.new K polynomial.length = some domain)
    (hdouble : Domain.new K (polynomial.length * 2) = some double)
    (hsame : Domain.new K double.size = some double) :
    (fk20BatchGenerateElementsProofs K polynomial globalParameters none : Outcome ε _) =
      ok ((domain.fftG (cyclicConv double.size
        ((globalParameters.powersOfG.take polynomial.length).reverse ++
          List.replicate polynomial.length 0)
        (List.replicate polynomial.length 0 ++ polynomial))).map fun g1 => ⟨g1⟩) := by
  obtain ⟨n, hn⟩ : ∃ n, polynomial.length = n := ⟨_, rfl⟩
  have hpow : n = 2 ^ n.log2 := by rw [← hn, hdegree, Nat.log2_two_pow]
  have hpowDouble : n * 2 = 2 ^ (n * 2).log2 := by
    rw [← hn, hdegree, ← pow_succ, Nat.log2_two_pow]
  have hlength : (globalParameters.powersOfG.take n).reverse.length = n := by
    rw [List.length_reverse, List.length_take, Nat.min_eq_left (hn ▸ hpowers)]
  have hcoefficients : (List.replicate n 0 ++ polynomial).length = n * 2 := by
    rw [List.length_append, List.length_replicate, hn, mul_two]
  have hzip : (List.zipWith (fun v c => c • v)
      (double.fftG ((globalParameters.powersOfG.take n).reverse ++ List.replicate n 0))
      (double.fft (List.replicate n 0 ++ polynomial))).length = double.size := by
    simp [Domain.fftG, Domain.fft]
  rw [hn] at hdouble
  simp only [fk20BatchGenerateElementsProofs, hn]
  rw [if_neg (not_lt.mpr (hn ▸ hpowers)), if_neg (not_not.mpr hpow), bind_def, ← hn, hdomain,
    expect_some, ok_bind, hn]
  rw [bind_def, extendedVector, toeplitz1_of_new hlength hpow hdouble, ok_bind, bind_def,
    toeplitz2_of_new (hcoefficients ▸ hpowDouble) (hcoefficients ▸ hdouble), ok_bind,
    bind_def, toeplitz3_of_new (hzip ▸ hsame), ok_bind, Domain.ifftG_zipWith_fftG]

omit [DecidableEq F] in
/-- On a field with a domain of `2 n` points, for `n` coefficients with `n` a
power of two and at least `n` powers, FK20 gives at each point of the domain of
`n` points the commitment to the quotient. -/
theorem fk20BatchGenerateElementsProofs_eq (K : ScalarField F) {polynomial : List F}
    {globalParameters : UniversalParams G} {k : ℕ} (hdegree : polynomial.length = 2 ^ k)
    (htwoAdicity : k + 1 ≤ K.twoAdicity)
    (hpowers : polynomial.length ≤ globalParameters.powersOfG.length) {domain : Domain F}
    (hdomain : Domain.new K polynomial.length = some domain) :
    (fk20BatchGenerateElementsProofs K polynomial globalParameters none : Outcome ε _) =
      ok ((List.range polynomial.length).map fun i =>
        ⟨quotientCommitment globalParameters polynomial (domain.element i)⟩) := by
  obtain ⟨double, hdouble, hdoubleSize⟩ := Domain.new_pow (K := K) htwoAdicity
  have hlength : polynomial.length * 2 = 2 ^ (k + 1) := by rw [hdegree, pow_succ]
  rw [← hlength] at hdouble hdoubleSize
  have hsize : domain.size = polynomial.length := by
    rw [Domain.size_of_new_of_clog_le (by rw [hdegree, Nat.clog_pow 2 k (by norm_num)]; omega)
      hdomain, hdegree, Nat.clog_pow 2 k (by norm_num)]
  rw [fk20BatchGenerateElementsProofs_eq_fftG K hdegree hpowers hdomain hdouble
      (hdoubleSize ▸ hdouble), hdoubleSize, mul_comm,
    fftG_toeplitz hsize fun m hm => getD_cyclicConv_toeplitz_take hpowers le_rfl hm, List.map_map]
  rfl

omit [DecidableEq F] in
/-- When the domain built for `2 n` points has at least `3 n - 1`, as past the
two-adic roots of a field with a small subgroup, the convolution of `toeplitz3`
does not wrap around into its first `n` entries, and FK20 gives `n` zero
points. -/
theorem fk20BatchGenerateElementsProofs_of_wide_double (K : ScalarField F) {polynomial : List F}
    {globalParameters : UniversalParams G} {k : ℕ} (hdegree : polynomial.length = 2 ^ k)
    (htwoAdicity : k ≤ K.twoAdicity)
    (hpowers : polynomial.length ≤ globalParameters.powersOfG.length) {double : Domain F}
    (hdouble : Domain.new K (polynomial.length * 2) = some double)
    (hwide : 3 * polynomial.length ≤ double.size + 1)
    (hsame : Domain.new K double.size = some double) :
    (fk20BatchGenerateElementsProofs K polynomial globalParameters none : Outcome ε _) =
      ok (List.replicate polynomial.length ⟨0⟩) := by
  obtain ⟨domain, hdomain, hsize⟩ := Domain.new_pow (K := K) htwoAdicity
  rw [← hdegree] at hdomain hsize
  have hlength : (globalParameters.powersOfG.take polynomial.length).length = polynomial.length := by
    rw [List.length_take, Nat.min_eq_left hpowers]
  rw [fk20BatchGenerateElementsProofs_eq_fftG K hdegree hpowers hdomain hdouble hsame, Domain.fftG,
    hsize, dftM_of_getD_eq_zero fun m hm => getD_cyclicConv_toeplitz_of_wide hlength le_rfl hwide hm,
    List.map_replicate]

omit [DecidableEq F] in
/-- A cache made by `with_size` for the number of coefficients holds what
`toeplitz1` computes in its place. -/
theorem extendedVector_withSize {K : ScalarField F} {globalParameters : UniversalParams G} {n : ℕ}
    {cache : Toeplitz1Cache G}
    (hcache : (Toeplitz1Cache.withSize K globalParameters n : Outcome ε _) = ok cache) :
    (extendedVector K globalParameters n (some cache) : Outcome ε _) =
      extendedVector K globalParameters n none := by
  rw [Toeplitz1Cache.withSize, bind_def, bind_eq_ok] at hcache
  obtain ⟨vector, hvector, hcache⟩ := hcache
  injection hcache with hcache
  rw [extendedVector, extendedVector, hvector, ← hcache]

omit [DecidableEq F] in
/-- With the cache of `with_size`, FK20 computes what it computes without. -/
theorem fk20BatchGenerateElementsProofs_withSize {K : ScalarField F} {polynomial : List F}
    {globalParameters : UniversalParams G} {cache : Toeplitz1Cache G}
    (hcache : (Toeplitz1Cache.withSize K globalParameters polynomial.length : Outcome ε _) =
      ok cache) :
    (fk20BatchGenerateElementsProofs K polynomial globalParameters (some cache) : Outcome ε _) =
      fk20BatchGenerateElementsProofs K polynomial globalParameters none := by
  simp only [fk20BatchGenerateElementsProofs, extendedVector_withSize hcache]

end Fk20

end G1

end Kzgrs
