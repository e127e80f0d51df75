import Mathlib.Data.Nat.Log
import Mathlib.NumberTheory.Padics.PadicVal.Basic
import NomosNode.Lib.Dft
import NomosNode.Lib.Outcome
import NomosNode.Lib.Bytes
import NomosNode.Lib.Slices

/-!
# KZG commitments and Reed-Solomon coding over an evaluation domain

`nomos-da/kzgrs`: evaluation domains, bytes as field elements and polynomials,
the `encode` and `decode` of `rs.rs`, and the commitments and proofs of `kzg.rs`.
The scalar field is a parameter with its two-adic roots of unity and its small
subgroup, if it has one: `GeneralEvaluationDomain::new` builds the radix-2
domain, and past it the mixed-radix one of `ark_poly`. A polynomial is its list
of coefficients, and KZG is algebraic: `verify_element_proof(i, v, C, π, D)`
holds when `C(X) - v = π(X) (X - D.element(i))`.
-/

namespace Kzgrs

open Outcome Coeffs

/-- `BYTES_PER_FIELD_ELEMENT`. -/
def bytesPerFieldElement : ℕ := 32

/-- `SMALL_SUBGROUP_BASE` `q`, `SMALL_SUBGROUP_BASE_ADICITY` `a` and
`LARGE_SUBGROUP_ROOT_OF_UNITY`, of order `2 ^ TWO_ADICITY * q ^ a`, whose power
`q ^ a` is the two-adic root, so that `get_root_of_unity` of a power of two is
the same with the subgroup as without. The base is odd and above one, as
`k_adicity` needs; the two-adic domains of such a field hold every `u16` share
index, as the `2 ^ 32` points of BLS12-381's do. -/
structure SmallSubgroup (F : Type) [Field F] (twoAdicity : ℕ) (twoAdicRootOfUnity : F) where
  base : ℕ
  adicity : ℕ
  largeSubgroupRootOfUnity : F
  isPrimitiveRoot : IsPrimitiveRoot largeSubgroupRootOfUnity (2 ^ twoAdicity * base ^ adicity)
  pow_base_pow_adicity : largeSubgroupRootOfUnity ^ base ^ adicity = twoAdicRootOfUnity
  odd_base : Odd base
  one_lt_base : 1 < base
  uInt16Size_le : UInt16.size ≤ 2 ^ twoAdicity

/-- The scalar field as the DA code uses it: its roots of unity of order
`2 ^ TWO_ADICITY`, the little-endian bytes of the canonical representative
of an element (`into_bigint().to_bytes_le()`), which read back as the element,
and the small subgroup, if the field has one. -/
structure ScalarField (F : Type) [Field F] where
  twoAdicity : ℕ
  twoAdicRootOfUnity : F
  isPrimitiveRoot : IsPrimitiveRoot twoAdicRootOfUnity (2 ^ twoAdicity)
  toBytesLe : F → Bytes
  length_toBytesLe : ∀ x, (toBytesLe x).length = bytesPerFieldElement
  leNat_toBytesLe : ∀ x, ((leNat (toBytesLe x) : ℕ) : F) = x
  smallSubgroup : Option (SmallSubgroup F twoAdicity twoAdicRootOfUnity) := none

/-- An evaluation domain: `size` points, the powers of a primitive root of unity
of that order. -/
structure Domain (F : Type) [Field F] where
  size : ℕ
  groupGen : F
  isPrimitiveRoot : IsPrimitiveRoot groupGen size

variable {F : Type} [Field F]

theorem ScalarField.isPrimitiveRoot_pow (K : ScalarField F) {m : ℕ} (h : m ≤ K.twoAdicity) :
    IsPrimitiveRoot (K.twoAdicRootOfUnity ^ 2 ^ (K.twoAdicity - m)) (2 ^ m) := by
  have hroot := K.isPrimitiveRoot.pow_of_dvd (p := 2 ^ (K.twoAdicity - m)) (by positivity)
    (pow_dvd_pow 2 (Nat.sub_le _ _))
  rwa [Nat.pow_div (Nat.sub_le _ _) (by norm_num), Nat.sub_sub_self h] at hroot

/-- The loop of `best_mixed_domain_size`: `r` doubled while it is below
`min_size`, at most `fuel` times. -/
def doubleWhileBelow (minSize : ℕ) : ℕ → ℕ → ℕ
  | 0, r => r
  | fuel + 1, r => if r < minSize then doubleWhileBelow minSize fuel (r * 2) else r

namespace SmallSubgroup

variable {T : ℕ} {ω : F} (S : SmallSubgroup F T ω)

/-- `get_root_of_unity(2 ^ j * q ^ b)`: the large subgroup root raised to
`q ^ (a - b)`, then squared `T - j` times. -/
theorem isPrimitiveRoot_pow {j b : ℕ} (hj : j ≤ T) (hb : b ≤ S.adicity) :
    IsPrimitiveRoot (S.largeSubgroupRootOfUnity ^ (S.base ^ (S.adicity - b) * 2 ^ (T - j)))
      (2 ^ j * S.base ^ b) := by
  have hbase : S.base ≠ 0 := by have := S.one_lt_base; omega
  have horder : 2 ^ T * S.base ^ S.adicity =
      S.base ^ (S.adicity - b) * 2 ^ (T - j) * (2 ^ j * S.base ^ b) :=
    calc 2 ^ T * S.base ^ S.adicity
        = 2 ^ (T - j) * 2 ^ j * (S.base ^ (S.adicity - b) * S.base ^ b) := by
          rw [pow_sub_mul_pow _ hj, pow_sub_mul_pow _ hb]
      _ = S.base ^ (S.adicity - b) * 2 ^ (T - j) * (2 ^ j * S.base ^ b) := by ring
  have hroot := S.isPrimitiveRoot.pow_of_dvd (by positivity) (Dvd.intro _ horder.symm)
  rwa [horder, Nat.mul_div_cancel_left _ (by positivity)] at hroot

/-- `best_mixed_domain_size(min_size)`: over `b ≤ SMALL_SUBGROUP_BASE_ADICITY`,
the size `q ^ b` doubled up to `TWO_ADICITY` times while below `min_size`, the
least of those that reach it, and `usize::MAX` if none does. -/
def bestMixedDomainSize (minSize : ℕ) : ℕ :=
  (List.range (S.adicity + 1)).foldl (fun best b =>
    let r := doubleWhileBelow minSize T (S.base ^ b)
    if r ≥ minSize then min best r else best) (2 ^ 64 - 1)

/-- `MixedRadixEvaluationDomain::new(n)`: the domain of `best_mixed_domain_size(n)`
points, when that size is `2 ^ j * q ^ b` within the adicities (the checks of
`new` and of `get_root_of_unity`), generated by `get_root_of_unity`. `k_adicity`
is `padicValNat` on the bases above one it is called with. -/
def mixedRadix (n : ℕ) : Option (Domain F) :=
  let size := S.bestMixedDomainSize n
  let twoAdicity := padicValNat 2 size
  let qAdicity := padicValNat S.base size
  if h : twoAdicity ≤ T ∧ qAdicity ≤ S.adicity ∧ size = 2 ^ twoAdicity * S.base ^ qAdicity then
    some ⟨size, S.largeSubgroupRootOfUnity ^ (S.base ^ (S.adicity - qAdicity) * 2 ^ (T - twoAdicity)),
      h.2.2 ▸ S.isPrimitiveRoot_pow h.1 h.2.1⟩
  else none

/-- The best size reaches `min_size` as long as `usize::MAX` does. -/
theorem le_bestMixedDomainSize {n : ℕ} (hn : n < 2 ^ 64) : n ≤ S.bestMixedDomainSize n := by
  unfold bestMixedDomainSize
  -- the fold keeps a best size of at least `n`
  suffices h : ∀ (bs : List ℕ) (best : ℕ), n ≤ best → n ≤ bs.foldl (fun best b =>
      let r := doubleWhileBelow n T (S.base ^ b)
      if r ≥ n then min best r else best) best from h _ _ (by omega)
  intro bs
  induction bs with
  | nil => exact fun _ h => h
  | cons b bs ih =>
    intro best hbest
    refine ih _ ?_
    dsimp only
    split_ifs with hr
    · exact le_min hbest hr
    · exact hbest

theorem mixedRadix_of_bestMixedDomainSize {n j b : ℕ} (hbest : S.bestMixedDomainSize n = 2 ^ j * S.base ^ b)
    (hj : j ≤ T) (hb : b ≤ S.adicity) :
    S.mixedRadix n = some ⟨2 ^ j * S.base ^ b,
      S.largeSubgroupRootOfUnity ^ (S.base ^ (S.adicity - b) * 2 ^ (T - j)), S.isPrimitiveRoot_pow hj hb⟩ := by
  have hbase : S.base ≠ 0 := by have := S.one_lt_base; omega
  have htwo : padicValNat 2 (2 ^ j * S.base ^ b) = j := by
    rw [padicValNat_base_pow_mul (by norm_num) (pow_ne_zero _ hbase),
      padicValNat.eq_zero_of_not_dvd S.odd_base.pow.not_two_dvd_nat, zero_add]
  have hq : padicValNat S.base (2 ^ j * S.base ^ b) = b := by
    have hndvd : ¬S.base ∣ 2 ^ j := fun hdvd => (Nat.ne_of_gt S.one_lt_base)
      (((Nat.coprime_two_right.mpr S.odd_base).pow_right j).eq_one_of_dvd hdvd)
    rw [mul_comm, padicValNat_base_pow_mul S.one_lt_base (by positivity),
      padicValNat.eq_zero_of_not_dvd hndvd, zero_add]
  simp only [mixedRadix, hbest, htwo, hq, hj, hb, and_self, dif_pos]

end SmallSubgroup

namespace Domain

/-- `GeneralEvaluationDomain::new(n)`: the radix-2 domain of the next power of
two, as long as the field has roots of unity of that order, and otherwise the
mixed-radix domain of a field with a small subgroup. -/
def new (K : ScalarField F) (n : ℕ) : Option (Domain F) :=
  if h : Nat.clog 2 n ≤ K.twoAdicity then
    some ⟨2 ^ Nat.clog 2 n, K.twoAdicRootOfUnity ^ 2 ^ (K.twoAdicity - Nat.clog 2 n),
      K.isPrimitiveRoot_pow h⟩
  else K.smallSubgroup.bind fun S => S.mixedRadix n

def element (d : Domain F) (i : ℕ) : F := d.groupGen ^ i

def fft (d : Domain F) (coeffs : List F) : List F := dft d.groupGen d.size coeffs

def ifft (d : Domain F) (evals : List F) : List F := idft d.groupGen d.size evals

/-- A domain builds for `n` points as long as the field has roots of unity of
order the next power of two, and it has that many points. -/
theorem new_of_clog_le {K : ScalarField F} {n : ℕ} (h : Nat.clog 2 n ≤ K.twoAdicity) :
    ∃ d, new K n = some d ∧ d.size = 2 ^ Nat.clog 2 n := by
  simp only [new, dif_pos h]
  exact ⟨_, rfl, rfl⟩

theorem size_of_new_of_clog_le {K : ScalarField F} {n : ℕ} {d : Domain F}
    (hclog : Nat.clog 2 n ≤ K.twoAdicity) (h : new K n = some d) : d.size = 2 ^ Nat.clog 2 n := by
  obtain ⟨d', hd', hsize⟩ := new_of_clog_le hclog
  rw [h, Option.some.injEq] at hd'
  rw [hd', hsize]

theorem new_of_twoAdicity_lt {K : ScalarField F} {n : ℕ} (h : K.twoAdicity < Nat.clog 2 n) :
    new K n = K.smallSubgroup.bind fun S => S.mixedRadix n :=
  dif_neg (not_le.mpr h)

/-- A domain has the next power of two of points, or falls back to the mixed
radix past the two-adic roots of a field with a small subgroup. -/
theorem size_of_new {K : ScalarField F} {n : ℕ} {d : Domain F} (h : new K n = some d) :
    d.size = 2 ^ Nat.clog 2 n ∨
      K.twoAdicity < Nat.clog 2 n ∧ ∃ S, K.smallSubgroup = some S := by
  rcases le_or_gt (Nat.clog 2 n) K.twoAdicity with hclog | hclog
  · exact Or.inl (size_of_new_of_clog_le hclog h)
  · rw [new_of_twoAdicity_lt hclog] at h
    obtain ⟨S, hS, -⟩ := Option.bind_eq_some_iff.mp h
    exact Or.inr ⟨hclog, S, hS⟩

/-- A domain for `n` points below `usize::MAX` has at least `n` points. -/
theorem le_size_of_new {K : ScalarField F} {n : ℕ} {d : Domain F} (h : new K n = some d)
    (hn : n < 2 ^ 64) : n ≤ d.size := by
  rcases le_or_gt (Nat.clog 2 n) K.twoAdicity with hclog | hclog
  · rw [size_of_new_of_clog_le hclog h]
    exact Nat.le_pow_clog (by decide) n
  · rw [new_of_twoAdicity_lt hclog] at h
    obtain ⟨S, -, hmixed⟩ := Option.bind_eq_some_iff.mp h
    dsimp only [SmallSubgroup.mixedRadix] at hmixed
    split at hmixed
    · cases hmixed
      exact S.le_bestMixedDomainSize hn
    · cases hmixed

/-- A domain for `2 ^ k` points has `2 ^ k` points. -/
theorem new_pow {K : ScalarField F} {k : ℕ} (h : k ≤ K.twoAdicity) :
    ∃ d, new K (2 ^ k) = some d ∧ d.size = 2 ^ k := by
  have hlog : Nat.clog 2 (2 ^ k) = k := Nat.clog_pow 2 k (by norm_num)
  obtain ⟨d, hd, hsize⟩ := new_of_clog_le (K := K) (n := 2 ^ k) (by rwa [hlog])
  exact ⟨d, hd, by rw [hsize, hlog]⟩

/-- The point of index `i` is the point of index `i` modulo the size. -/
theorem element_mod (d : Domain F) (i : ℕ) : d.element (i % d.size) = d.element i := by
  unfold element
  conv_rhs => rw [← Nat.div_add_mod i d.size, pow_add, pow_mul, d.isPrimitiveRoot.pow_eq_one,
    one_pow, one_mul]

end Domain

/-- `Evaluations`: values on the points of a domain. -/
structure Evaluations (F : Type) [Field F] where
  evals : List F
  domain : Domain F

/-- The errors of `kzgrs` this model can produce. -/
inductive KzgRsError
  | unpaddedDataError (expectedModulus currentSize : ℕ)
  | chunkSizeTooBig (size : ℕ)
  /-- `PolyCommitError(TooManyCoefficients)`. -/
  | tooManyCoefficients (numCoefficients numPowers : ℕ)
  | divisionByZeroPolynomial
  deriving DecidableEq

variable [DecidableEq F]

/-- `Evaluations::interpolate_by_ref`: `ifft` of the values, padded with zeros
to the size of the domain. -/
def Evaluations.interpolate (e : Evaluations F) : List F :=
  trim (e.domain.ifft e.evals)

theorem Evaluations.length_interpolate_le (e : Evaluations F) :
    e.interpolate.length ≤ e.domain.size :=
  (length_trim_le _).trans (by simp [Domain.ifft])

/-- Zeros interpolate to the empty polynomial. -/
theorem Evaluations.interpolate_of_forall_eq_zero {e : Evaluations F} (h : ∀ a ∈ e.evals, a = 0) :
    e.interpolate = [] :=
  trim_eq_nil_of_forall_eq_zero (idft_of_forall_eq_zero _ _ h)

/-- On a domain of `2 ^ k` points the interpolated polynomial has at most
`2 ^ k` coefficients. -/
theorem Evaluations.clog_length_interpolate_le {e : Evaluations F} {k : ℕ}
    (hsize : e.domain.size = 2 ^ k) : Nat.clog 2 e.interpolate.length ≤ k :=
  calc Nat.clog 2 e.interpolate.length
      ≤ Nat.clog 2 (2 ^ k) := Nat.clog_mono_right 2 (hsize ▸ e.length_interpolate_le)
    _ = k := Nat.clog_pow 2 k (by norm_num)

/-- Values that differ at the first two points need two coefficients: the
interpolated polynomial takes the values back on the domain, and a polynomial
of one coefficient is constant. -/
theorem Evaluations.one_lt_length_interpolate {e : Evaluations F} (hsize : 1 < e.domain.size)
    (hne : e.evals.getD 0 0 ≠ e.evals.getD 1 0) : 1 < e.interpolate.length := by
  by_contra hle
  have heval : ∀ l < e.domain.size,
      eval e.interpolate (e.domain.groupGen ^ l) = e.evals.getD l 0 := fun l hl => by
    rw [Evaluations.interpolate, eval_trim, Domain.ifft, eval_idft e.domain.isPrimitiveRoot _ hl]
  apply hne
  rw [← heval 0 (by omega), ← heval 1 hsize, eval_of_length_le_one (not_lt.mp hle),
    eval_of_length_le_one (not_lt.mp hle)]

/-- On a domain of one point a value interpolates to the constant polynomial. -/
theorem Evaluations.interpolate_singleton {d : Domain F} (h : d.size = 1) (a : F) :
    Evaluations.interpolate ⟨[a], d⟩ = trim [a] := by
  simp [Evaluations.interpolate, Domain.ifft, idft, h]

section Bytes

variable {ε : Type}

/-- `field_element_from_bytes_le`. -/
def fieldElementFromBytesLe (b : Bytes) : Outcome ε F :=
  if b.length ≤ bytesPerFieldElement then ok (leNat b : F)
  else .panic "assertion failed: b.len() <= BYTES_PER_FIELD_ELEMENT"

/-- `bytes_to_evaluations::<CHUNK_SIZE>`. -/
def bytesToEvaluations (chunkSize : ℕ) (data : Bytes) (domain : Domain F) :
    Outcome ε (Evaluations F) :=
  if chunkSize = 0 then .panic "attempt to calculate the remainder with a divisor of zero"
  else if data.length % chunkSize ≠ 0 then
    .panic "assertion failed: (data.len() % CHUNK_SIZE).is_zero()"
  else do
    let evals ← (data.chunks chunkSize).mapM fieldElementFromBytesLe
    ok ⟨evals, domain⟩

/-- `bytes_to_polynomial_unchecked::<CHUNK_SIZE>`. -/
def bytesToPolynomialUnchecked (chunkSize : ℕ) (data : Bytes) (domain : Domain F) :
    Outcome ε (Evaluations F × List F) := do
  let evals ← bytesToEvaluations chunkSize data domain
  ok (evals, evals.interpolate)

/-- `bytes_to_polynomial::<CHUNK_SIZE>`. -/
def bytesToPolynomial (chunkSize : ℕ) (data : Bytes) (domain : Domain F) :
    Outcome KzgRsError (Evaluations F × List F) :=
  if chunkSize > bytesPerFieldElement then err (.chunkSizeTooBig chunkSize)
  else if data.length % chunkSize ≠ 0 then
    err (.unpaddedDataError chunkSize data.length)
  else bytesToPolynomialUnchecked chunkSize data domain

omit [DecidableEq F] in
theorem fieldElementFromBytesLe_of_length_le {b : Bytes} (h : b.length ≤ bytesPerFieldElement) :
    (fieldElementFromBytesLe b : Outcome ε F) = ok (leNat b : F) :=
  if_pos h

omit [DecidableEq F] in
/-- On data cut evenly into chunks no longer than a field element, every chunk
is read as the field element of its little-endian value. -/
theorem bytesToEvaluations_of_dvd {chunkSize : ℕ} {data : Bytes} (domain : Domain F)
    (hpos : 0 < chunkSize) (hle : chunkSize ≤ bytesPerFieldElement)
    (h : data.length % chunkSize = 0) :
    (bytesToEvaluations chunkSize data domain : Outcome ε _) =
      ok ⟨(data.chunks chunkSize).map fun b => (leNat b : F), domain⟩ := by
  have hlengths := List.length_of_mem_chunks hpos (data.length / chunkSize) data
    (Nat.div_mul_cancel (Nat.dvd_of_mod_eq_zero h)).symm
  rw [bytesToEvaluations, if_neg hpos.ne', if_neg (not_not.mpr h), bind_def,
    mapM_eq_ok_map fun b hb => fieldElementFromBytesLe_of_length_le ((hlengths b hb).trans_le hle),
    ok_bind]

theorem bytesToPolynomialUnchecked_of_dvd {chunkSize : ℕ} {data : Bytes} (domain : Domain F)
    (hpos : 0 < chunkSize) (hle : chunkSize ≤ bytesPerFieldElement)
    (h : data.length % chunkSize = 0) :
    (bytesToPolynomialUnchecked chunkSize data domain : Outcome ε _) =
      ok (⟨(data.chunks chunkSize).map fun b => (leNat b : F), domain⟩,
        Evaluations.interpolate ⟨(data.chunks chunkSize).map fun b => (leNat b : F), domain⟩) := by
  rw [bytesToPolynomialUnchecked, bind_def, bytesToEvaluations_of_dvd domain hpos hle h, ok_bind]

theorem bytesToPolynomial_of_dvd {chunkSize : ℕ} {data : Bytes} (domain : Domain F)
    (hle : chunkSize ≤ bytesPerFieldElement) (h : data.length % chunkSize = 0) :
    bytesToPolynomial chunkSize data domain = bytesToPolynomialUnchecked chunkSize data domain := by
  rw [bytesToPolynomial, if_neg (not_lt.mpr hle), if_neg (not_not.mpr h)]

end Bytes

/-! ## Reed-Solomon -/

/-- `rs::encode`: the values of the polynomial on the domain. -/
def encode (polynomial : List F) (domain : Domain F) : Evaluations F :=
  ⟨domain.fft polynomial, domain⟩

/-- `Field::inverse`. -/
def inverse (a : F) : Option F := if a = 0 then none else some a⁻¹

/-- One step of the inner loop of `lagrange_interpolate`: multiply by the
factor `(X - r_j) / (r_i - r_j)` of the basis polynomial of root `i`. -/
def lagrangeFactor {ε : Type} (rootsOfUnity : List F) (i : ℕ) (summand : List F) (j : ℕ) :
    Outcome ε (List F) :=
  if i ≠ j then do
    let weightAdjustment ← expect
      (inverse (rootsOfUnity.getD i 0 - rootsOfUnity.getD j 0))
      ("Roots of unity are/should not repeated. If this panics it means we have no " ++
        "coefficients enough in the evaluation domain")
    ok (naiveMul summand
      (trim [-(weightAdjustment * rootsOfUnity.getD j 0), weightAdjustment]))
  else ok summand

/-- The inner loop of `lagrange_interpolate`: the point of index `i` times the
Lagrange basis polynomial of its root. -/
def lagrangeSummand {ε : Type} (points rootsOfUnity : List F) (i : ℕ) : Outcome ε (List F) :=
  (List.range points.length).foldlM (lagrangeFactor rootsOfUnity i) (trim [points.getD i 0])

/-- `lagrange_interpolate`: the sum of the summands of all points. -/
def lagrangeInterpolate {ε : Type} (points rootsOfUnity : List F) : Outcome ε (List F) :=
  if points.length ≠ rootsOfUnity.length then .panic "assertion `left == right` failed"
  else (List.range rootsOfUnity.length).foldlM (fun result i => do
    let summand ← lagrangeSummand points rootsOfUnity i
    ok (add result summand)) (trim [0])

/-- `rs::decode`: interpolate the known points at their roots, and evaluate on
the domain, keeping the first `original_chunks_len` values. -/
def decode {ε : Type} (originalChunksLen : ℕ) (points : List (Option F)) (domain : Domain F) :
    Outcome ε (Evaluations F) := do
  let known := points.zipIdx.filterMap fun (e, i) => e.map fun e => (e, domain.element i)
  let coeffs ← lagrangeInterpolate (known.map Prod.fst) (known.map Prod.snd)
  ok ⟨(domain.fft coeffs).take originalChunksLen, domain⟩

/-- Interpolating values over a domain and evaluating the polynomial back on it
gives the values padded with zeros: `ifft` pads them before interpolating. -/
theorem encode_interpolate (d : Domain F) (evals : List F) (h : evals.length ≤ d.size) :
    (encode (Evaluations.interpolate ⟨evals, d⟩) d).evals =
      evals ++ List.replicate (d.size - evals.length) 0 := by
  have hlength : (trim (d.ifft evals)).length ≤ d.size :=
    (length_trim_le _).trans (by simp [Domain.ifft])
  simp only [encode, Evaluations.interpolate, Domain.fft, dft, List.take_of_length_le hlength,
    eval_trim]
  rw [← map_range_getD evals h]
  exact List.map_congr_left fun i hi => eval_idft d.isPrimitiveRoot evals (List.mem_range.mp hi)

/-- Lagrange interpolation of zeros at distinct roots never divides by zero, and
gives the zero polynomial. -/
theorem lagrangeInterpolate_of_eq_zero {ε : Type} {points rootsOfUnity : List F}
    (hzero : ∀ p ∈ points, p = 0) (hnodup : rootsOfUnity.Nodup)
    (hlength : points.length = rootsOfUnity.length) :
    (lagrangeInterpolate points rootsOfUnity : Outcome ε _) = ok [] := by
  have hpoint : ∀ i, points.getD i 0 = 0 := getD_of_forall_eq_zero hzero
  have hroots : ∀ i ∈ List.range rootsOfUnity.length, ∀ j ∈ List.range points.length, i ≠ j →
      rootsOfUnity.getD i 0 - rootsOfUnity.getD j 0 ≠ 0 := by
    intro i hi j hj hij
    rw [List.mem_range] at hi hj
    rw [hlength] at hj
    simp only [sub_ne_zero, List.getD_eq_getElem?_getD, List.getElem?_eq_getElem hi,
      List.getElem?_eq_getElem hj, Option.getD_some]
    exact fun h => hij ((hnodup.getElem_inj_iff).mp h)
  have hsummand : ∀ i ∈ List.range rootsOfUnity.length,
      (lagrangeSummand points rootsOfUnity i : Outcome ε _) = ok [] := by
    intro i hi
    have hinit : trim [points.getD i 0] = [] := by rw [hpoint, trim_singleton_zero]
    refine (foldlM_eq_ok_foldl (g := fun b _ => b) (fun b => b = []) ?_ hinit).1.trans
      (by rw [List.foldl_fixed, hinit])
    rintro s j rfl hj
    refine ⟨?_, rfl⟩
    by_cases hij : i = j
    · rw [lagrangeFactor, if_neg (not_not.mpr hij)]
    · rw [lagrangeFactor, if_pos hij, inverse, if_neg (hroots i hi j hj hij), expect_some,
        bind_def, ok_bind, naiveMul_nil_left]
  unfold lagrangeInterpolate
  rw [if_neg (by omega)]
  refine (foldlM_eq_ok_foldl (g := fun b _ => b) (fun b => b = []) ?_ trim_singleton_zero).1.trans
    (by simp)
  rintro b i rfl hi
  refine ⟨?_, rfl⟩
  rw [bind_def, hsummand i hi, ok_bind]
  rfl

theorem filterMap_zipIdx_replicate {α β : Type} (f : α × ℕ → Option β) (a : α) :
    ∀ (m i : ℕ), ((List.replicate m a).zipIdx i).filterMap f =
      (List.range' i m).filterMap fun j => f (a, j)
  | 0, _ => rfl
  | m + 1, i => by
    rw [List.replicate_succ, List.zipIdx_cons, List.filterMap_cons, List.range'_succ,
      List.filterMap_cons, filterMap_zipIdx_replicate f a m (i + 1)]

/-- Decoding from the last `k` of `2 k` points, all zero, gives zeros. -/
theorem decode_of_zero_suffix {ε : Type} (d : Domain F) (k : ℕ) (hsize : 2 * k ≤ d.size) :
    (decode k (List.replicate k none ++ List.replicate k (some 0)) d : Outcome ε _) =
      ok ⟨List.replicate k 0, d⟩ := by
  have hnodup : ((List.range' k k).map d.element).Nodup := by
    refine List.Nodup.map_on (fun x hx y hy hxy => ?_) List.nodup_range'
    rw [List.mem_range'_1] at hx hy
    exact d.isPrimitiveRoot.pow_inj (by omega) (by omega) hxy
  have hcoeffs : (lagrangeInterpolate ((List.range' k k).map fun _ => (0 : F))
      ((List.range' k k).map d.element) : Outcome ε _) = ok [] :=
    lagrangeInterpolate_of_eq_zero (by simp) hnodup (by simp)
  have hknown : List.filterMap (fun (_ : ℕ) => (none : Option (F × F))) (List.range' 0 k) ++
      List.filterMap (fun j => some ((0 : F), d.element j)) (List.range' (0 + k) k) =
        (List.range' k k).map fun j => ((0 : F), d.element j) := by
    simp
  simp only [decode, List.zipIdx_append, List.filterMap_append, filterMap_zipIdx_replicate,
    List.length_replicate, Option.map_none, Option.map_some, bind_def]
  rw [hknown, List.map_map, List.map_map, show (Prod.fst ∘ fun j => ((0 : F), d.element j)) = fun _ => 0 from rfl,
    show (Prod.snd ∘ fun j => ((0 : F), d.element j)) = d.element from rfl, hcoeffs, ok_bind]
  congr 2
  simp only [Domain.fft, dft, List.take_nil, eval_nil, List.map_const', List.length_range,
    List.take_replicate]
  rw [min_eq_left (by omega)]

/-! ## KZG -/

/-- A commitment: in the algebraic model, the committed polynomial. -/
structure Commitment (F : Type) where
  poly : List F
  deriving DecidableEq

/-- A proof: in the algebraic model, the witness polynomial. -/
structure Proof (F : Type) where
  w : List F
  deriving DecidableEq

/-- The global parameters: how many powers of the generator they hold, which
bounds the number of coefficients of a committed polynomial. -/
structure GlobalParameters where
  numPowers : ℕ

/-- `commit_polynomial`: `KZG10::commit` rejects more coefficients than powers. -/
def commitPolynomial (globalParameters : GlobalParameters) (polynomial : List F) :
    Outcome KzgRsError (Commitment F) :=
  if max polynomial.length 1 > globalParameters.numPowers then
    err (.tooManyCoefficients (max polynomial.length 1) globalParameters.numPowers)
  else ok ⟨polynomial⟩

omit [Field F] [DecidableEq F] in
theorem commitPolynomial_of_le {globalParameters : GlobalParameters} {polynomial : List F}
    (h : max polynomial.length 1 ≤ globalParameters.numPowers) :
    commitPolynomial globalParameters polynomial = ok ⟨polynomial⟩ :=
  if_neg (not_lt.mpr h)

/-- `verify_element_proof`: `C(X) - v = π(X) (X - u)` at the point `u` of index
`element_index`. -/
def verifyElementProof (elementIndex : ℕ) (element : F) (commitment : Commitment F)
    (proof : Proof F) (domain : Domain F) : Bool :=
  let u := domain.element elementIndex
  decide (add commitment.poly [-element] = naiveMul proof.w (trim [-u, 1]))

/-- The constant commitment to `v` with the empty witness proves `v` at every
point of every domain. -/
theorem verifyElementProof_const (i : ℕ) (v : F) (d : Domain F) :
    verifyElementProof i v ⟨[v]⟩ ⟨[]⟩ d = true := by
  simp [verifyElementProof, add, addAux]

/-- The empty commitment with the empty witness proves zero at every point. -/
theorem verifyElementProof_zero (i : ℕ) (d : Domain F) :
    verifyElementProof i 0 ⟨[]⟩ ⟨[]⟩ d = true := by
  simp [verifyElementProof, add, addAux]

/-- The check reads the index only through its point, so only modulo the size
of the domain. -/
theorem verifyElementProof_mod {i j : ℕ} {d : Domain F} (h : i % d.size = j % d.size) (element : F)
    (commitment : Commitment F) (proof : Proof F) :
    verifyElementProof i element commitment proof d =
      verifyElementProof j element commitment proof d := by
  simp only [verifyElementProof]
  rw [← d.element_mod i, h, d.element_mod]

/-- `fk20_batch_generate_elements_proofs`: the witness polynomials of the
polynomial at every point of the domain built from its number of
coefficients. -/
def fk20BatchGenerateElementsProofs {ε : Type} (K : ScalarField F) (polynomial : List F) :
    Outcome ε (List (Proof F)) := do
  let domain ← expect (Domain.new K polynomial.length) "Domain should be able to build"
  ok ((List.range domain.size).map fun i =>
    ⟨trim (divLinear polynomial (domain.element i)).1⟩)

/-- FK20 gives one proof for each point of the domain built from the number of
coefficients, not from the number of columns: a polynomial with few
coefficients gets few proofs. -/
theorem fk20BatchGenerateElementsProofs_length {ε : Type} (K : ScalarField F) {polynomial : List F}
    (h : Nat.clog 2 polynomial.length ≤ K.twoAdicity) :
    ∃ proofs, (fk20BatchGenerateElementsProofs K polynomial : Outcome ε _) = ok proofs ∧
      proofs.length = 2 ^ Nat.clog 2 polynomial.length := by
  obtain ⟨d, hd, hsize⟩ := Domain.new_of_clog_le h
  refine ⟨_, by rw [fk20BatchGenerateElementsProofs, hd, expect_some, bind_def, ok_bind], ?_⟩
  rw [List.length_map, List.length_range, hsize]

end Kzgrs
