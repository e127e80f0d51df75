import Mathlib.NumberTheory.LucasPrimality
import Mathlib.Tactic.NormNum.Prime
import Mathlib.Tactic.ReduceModChar
import NomosNode.Da.Kzgrs

/-!
# The scalar field of BLS12-381

`ark_bls12_381::Fr`, the field the DA code computes in: `ZMod r` for the prime
`r` of its `MontConfig`, with generator `7` and small subgroup base `3` of
power `1`. Its two-adic roots of unity have order `2 ^ 32`; past them
`GeneralEvaluationDomain::new` falls back to the roots of order `3 * 2 ^ 32`,
so that it builds a domain of `3 * 2 ^ 32` points for `2 ^ 33`.

`r` is prime by Lucas's test, with the witness `7` and the factorization of
`r - 1`.
-/

namespace Kzgrs.Bls12381

/-- The modulus of `Fr`, the order of the groups of BLS12-381. -/
def frModulus : ℕ :=
  52435875175126190479447740508185965837690552500527637822603658699938581184513

/-- The primes of `r - 1`, with their exponents. -/
def frModulusSubOneFactors : List (ℕ × ℕ) :=
  [(2, 32), (3, 1), (11, 1), (19, 1), (10177, 1), (125527, 1), (859267, 1), (906349, 2),
    (2508409, 1), (2529403, 1), (52437899, 1), (254760293, 2)]

theorem prod_frModulusSubOneFactors :
    (frModulusSubOneFactors.map fun f => f.1 ^ f.2).prod = frModulus - 1 := by
  norm_num [frModulusSubOneFactors, frModulus]

theorem prime_of_mem_frModulusSubOneFactors : ∀ f ∈ frModulusSubOneFactors, f.1.Prime := by
  simp only [frModulusSubOneFactors, List.forall_mem_cons, List.not_mem_nil, IsEmpty.forall_iff,
    implies_true, and_true]
  norm_num

theorem eq_of_prime_dvd_frModulus_sub_one {q : ℕ} (hq : q.Prime) (hdvd : q ∣ frModulus - 1) :
    ∃ f ∈ frModulusSubOneFactors, q = f.1 := by
  rw [← prod_frModulusSubOneFactors] at hdvd
  obtain ⟨x, hx, hqx⟩ := (Prime.dvd_prod_iff hq.prime).mp hdvd
  obtain ⟨f, hf, rfl⟩ := List.mem_map.mp hx
  exact ⟨f, hf, (Nat.prime_dvd_prime_iff_eq hq (prime_of_mem_frModulusSubOneFactors f hf)).mp
    (hq.dvd_of_dvd_pow hqx)⟩

theorem frModulus_prime : frModulus.Prime := by
  refine lucas_primality frModulus 7 (by unfold frModulus; reduce_mod_char) fun q hq hdvd => ?_
  obtain ⟨f, hf, rfl⟩ := eq_of_prime_dvd_frModulus_sub_one hq hdvd
  simp only [frModulusSubOneFactors, List.mem_cons, List.not_mem_nil, or_false] at hf
  rcases hf with rfl | rfl | rfl | rfl | rfl | rfl | rfl | rfl | rfl | rfl | rfl | rfl <;>
  · unfold frModulus
    reduce_mod_char
    decide

/-- `TWO_ADIC_ROOT_OF_UNITY`: the generator to the power `(r - 1) / 2 ^ 32`. -/
def twoAdicRootOfUnity : ZMod frModulus := 7 ^ ((frModulus - 1) / 2 ^ 32)

/-- `LARGE_SUBGROUP_ROOT_OF_UNITY`: the generator to the power
`(r - 1) / (2 ^ 32 * 3)`. -/
def largeSubgroupRootOfUnity : ZMod frModulus := 7 ^ ((frModulus - 1) / (2 ^ 32 * 3))

theorem isPrimitiveRoot_twoAdicRootOfUnity : IsPrimitiveRoot twoAdicRootOfUnity (2 ^ 32) := by
  have horder : orderOf twoAdicRootOfUnity = 2 ^ (31 + 1) := by
    refine orderOf_eq_prime_pow ?_ ?_
    · unfold twoAdicRootOfUnity frModulus
      rw [← pow_mul]
      reduce_mod_char
      decide
    · unfold twoAdicRootOfUnity frModulus
      rw [← pow_mul]
      reduce_mod_char
  rw [← horder]
  exact IsPrimitiveRoot.orderOf _

theorem isPrimitiveRoot_largeSubgroupRootOfUnity :
    IsPrimitiveRoot largeSubgroupRootOfUnity (2 ^ 32 * 3 ^ 1) := by
  have hprimes : ∀ p : ℕ, p.Prime → p ∣ 2 ^ 32 * 3 ^ 1 → p = 2 ∨ p = 3 := fun p hp hdvd =>
    ((Nat.Prime.dvd_mul hp).mp hdvd).imp
      (fun h => (Nat.prime_dvd_prime_iff_eq hp Nat.prime_two).mp (hp.dvd_of_dvd_pow h))
      (fun h => (Nat.prime_dvd_prime_iff_eq hp Nat.prime_three).mp (hp.dvd_of_dvd_pow h))
  have horder : orderOf largeSubgroupRootOfUnity = 2 ^ 32 * 3 ^ 1 := by
    refine orderOf_eq_of_pow_and_pow_div_prime (by norm_num) ?_ fun p hp hdvd => ?_
    · unfold largeSubgroupRootOfUnity frModulus
      rw [← pow_mul]
      reduce_mod_char
    · rcases hprimes p hp hdvd with rfl | rfl <;>
      · unfold largeSubgroupRootOfUnity frModulus
        rw [← pow_mul]
        reduce_mod_char
        decide
  rw [← horder]
  exact IsPrimitiveRoot.orderOf _

theorem largeSubgroupRootOfUnity_pow : largeSubgroupRootOfUnity ^ 3 ^ 1 = twoAdicRootOfUnity := by
  unfold largeSubgroupRootOfUnity twoAdicRootOfUnity
  rw [← pow_mul]
  norm_num [frModulus]

instance : Fact frModulus.Prime := ⟨frModulus_prime⟩

/-- `ark_bls12_381::Fr`. -/
abbrev Fr := ZMod frModulus

/-- The subgroup of order `3` beside the two-adic one. -/
def smallSubgroup : SmallSubgroup Fr 32 twoAdicRootOfUnity where
  base := 3
  adicity := 1
  largeSubgroupRootOfUnity := largeSubgroupRootOfUnity
  isPrimitiveRoot := isPrimitiveRoot_largeSubgroupRootOfUnity
  pow_base_pow_adicity := largeSubgroupRootOfUnity_pow
  odd_base := by decide
  one_lt_base := by decide
  uInt16Size_le := by decide

/-- `Fr` as the DA code uses it. -/
def fr : ScalarField Fr where
  twoAdicity := 32
  twoAdicRootOfUnity := twoAdicRootOfUnity
  isPrimitiveRoot := isPrimitiveRoot_twoAdicRootOfUnity
  toBytesLe x := leBytes bytesPerFieldElement x.val
  length_toBytesLe x := length_leBytes _ _
  leNat_toBytesLe x := by
    have hlt : frModulus < 256 ^ bytesPerFieldElement := by
      unfold frModulus bytesPerFieldElement
      norm_num
    rw [leNat_leBytes, Nat.mod_eq_of_lt ((ZMod.val_lt x).trans hlt), ZMod.natCast_zmod_val]
  smallSubgroup := some smallSubgroup

theorem bestMixedDomainSize_two_pow_thirty_three :
    smallSubgroup.bestMixedDomainSize (2 ^ 33) = 2 ^ 32 * 3 ^ 1 := by
  decide +kernel

theorem bestMixedDomainSize_three_mul_two_pow_thirty_two :
    smallSubgroup.bestMixedDomainSize (2 ^ 32 * 3 ^ 1) = 2 ^ 32 * 3 ^ 1 := by
  decide +kernel

/-- For `2 ^ 32` points `GeneralEvaluationDomain::new` builds the radix-2
domain; for `2 ^ 33`, past the two-adic roots, the mixed-radix domain of
`3 * 2 ^ 32` points, which it builds again for that many points. -/
theorem new_two_pow_thirty_three :
    ∃ d, Domain.new fr (2 ^ 33) = some d ∧ d.size = 2 ^ 32 * 3 ∧ Domain.new fr d.size = some d := by
  have hmixed := smallSubgroup.mixedRadix_of_bestMixedDomainSize
    bestMixedDomainSize_two_pow_thirty_three le_rfl le_rfl
  have hsame := smallSubgroup.mixedRadix_of_bestMixedDomainSize
    bestMixedDomainSize_three_mul_two_pow_thirty_two le_rfl le_rfl
  have hclog : fr.twoAdicity < Nat.clog 2 (2 ^ 33) := by
    rw [Nat.clog_pow 2 33 (by norm_num)]
    decide
  have hclogSame : fr.twoAdicity < Nat.clog 2 (2 ^ 32 * 3 ^ 1) :=
    (Nat.lt_clog_iff_pow_lt (by norm_num)).mpr (by decide)
  refine ⟨_, (Domain.new_of_twoAdicity_lt hclog).trans hmixed, by decide, ?_⟩
  exact (Domain.new_of_twoAdicity_lt hclogSame).trans hsame

end Kzgrs.Bls12381
