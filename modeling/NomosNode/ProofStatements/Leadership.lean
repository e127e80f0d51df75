import NomosNode.Cl.Merkle
import Mathlib.Tactic.NormNum
import Mathlib.Tactic.Positivity
import Mathlib.Tactic.Ring
import Mathlib.Tactic.Zify
import Mathlib.Tactic.Linarith
import Mathlib.Order.Interval.Set.Basic

/-!
# The public inputs of a leadership proof

`nomos-core/proof_statements/src/leadership.rs`. `LeaderPublic::new` scales
the two coefficients of the approximation of `1 - (1 - f) ^ (s / T)` by
`U256::MAX / u64::MAX` in checked `U256` arithmetic and unwraps every result.
The `f64` term `-ln(1 - f) * u64::MAX` enters as its saturating `u64` cast
`negFLn`.
-/

namespace ProofStatements

open Outcome Cl

variable {ε : Type}

structure LeaderPublic where
  cmRoot : Bytes32
  epochNonce : Bytes32
  slot : ℕ
  scaledPhiApprox : ℕ × ℕ
  nullifier : Nullifier
  evolvedCommitment : NoteCommitment
  deriving DecidableEq

/-- `phi_approx`: the threshold `stake * (t0 - t1 * stake)` in checked `U256`
arithmetic, unwrapping every step. -/
def phiApprox (stake : ℕ) (approx : ℕ × ℕ) : Outcome ε ℕ := do
  let t1Stake ← unwrap (checkedMul 256 approx.2 stake)
  let difference ← unwrap (checkedSub approx.1 t1Stake)
  unwrap (checkedMul 256 stake difference)

/-- Below the peak of the parabola none of the three steps fails. -/
theorem phiApprox_of_le {t0 t1 stake : ℕ} (ht0 : t0 < 2 ^ 256) (hcoeff : t1 * stake ≤ t0)
    (hbound : stake * t0 < 2 ^ 256) :
    (phiApprox stake (t0, t1) : Outcome ε ℕ) = ok (stake * (t0 - t1 * stake)) := by
  have hmul : t1 * stake < 2 ^ 256 := lt_of_le_of_lt hcoeff ht0
  have hdiff : stake * (t0 - t1 * stake) < 2 ^ 256 :=
    lt_of_le_of_lt (Nat.mul_le_mul_left _ (Nat.sub_le _ _)) hbound
  simp only [phiApprox, checkedMul_of_lt hmul, checkedSub_of_le hcoeff, checkedMul_of_lt hdiff,
    unwrap_some, bind_def, ok_bind]

/-- `s (b - a s)` grows on the stakes whose sum keeps `a (s + s')` below `b`. -/
theorem mul_sub_mul_le_of_le {a b s s' : ℕ} (hss' : s ≤ s') (hpeak : a * (s + s') ≤ b) :
    s * (b - a * s) ≤ s' * (b - a * s') := by
  have hs : a * s ≤ b := le_trans (Nat.mul_le_mul_left a (Nat.le_add_right s s')) hpeak
  have hs' : a * s' ≤ b := le_trans (Nat.mul_le_mul_left a (Nat.le_add_left s' s)) hpeak
  have hpeak' : (a : ℤ) * (s + s') ≤ b := by exact_mod_cast hpeak
  have hgap : (0 : ℤ) ≤ ((s' : ℤ) - s) * ((b : ℤ) - a * (s + s')) :=
    mul_nonneg (by omega) (by linarith)
  zify [hs, hs']
  nlinarith [hgap]

namespace LeaderPublic

def new (cmRoot epochNonce : Bytes32) (slot negFLn totalStake : ℕ) (nullifier : Nullifier)
    (evolvedCommitment : NoteCommitment) : Outcome ε LeaderPublic := do
  let totalStakeSq ← unwrap (checkedMul 256 totalStake totalStake)
  let doubleTotalStakeSq ← unwrap (checkedMul 256 totalStakeSq 2)
  let precision := 2 ^ 64 - 1
  let order := 2 ^ 256 - 1
  let orderDivPrecision ← unwrap (checkedDiv order precision)
  let orderDivPrecisionSq ← unwrap (checkedDiv orderDivPrecision precision)
  let negFLnSq ← unwrap (checkedMul 256 negFLn negFLn)
  let negFLnOrder ← unwrap (checkedMul 256 orderDivPrecision negFLn)
  let t0 ← unwrap (checkedDiv negFLnOrder totalStake)
  let t1 ← unwrap (checkedMul 256 orderDivPrecisionSq negFLnSq)
  let t1 ← unwrap (checkedDiv t1 doubleTotalStakeSq)
  ok { cmRoot, epochNonce, slot, nullifier, evolvedCommitment, scaledPhiApprox := (t0, t1) }

/-- The two scaled coefficients of `LeaderPublic::new`: `t0 = (U256::MAX / u64::MAX) *
neg_f_ln / T` and `t1 = (U256::MAX / u64::MAX / u64::MAX) * neg_f_ln ^ 2 / (2 T ^ 2)`. -/
def phiApproxCoefficients (negFLn totalStake : ℕ) : ℕ × ℕ :=
  ((2 ^ 256 - 1) / (2 ^ 64 - 1) * negFLn / totalStake,
    (2 ^ 256 - 1) / (2 ^ 64 - 1) / (2 ^ 64 - 1) * (negFLn * negFLn) /
      (totalStake * totalStake * 2))

/-- With a positive `u64` total stake no operation overflows or divides by zero. -/
theorem new_eq (cmRoot epochNonce : Bytes32) (slot : ℕ) (nullifier : Nullifier)
    (evolvedCommitment : NoteCommitment) {negFLn totalStake : ℕ} (hpos : 0 < totalStake)
    (hstake : totalStake < 2 ^ 64) (hneg : negFLn < 2 ^ 64) :
    (new cmRoot epochNonce slot negFLn totalStake nullifier evolvedCommitment :
      Outcome ε LeaderPublic) = ok ⟨cmRoot, epochNonce, slot,
        phiApproxCoefficients negFLn totalStake, nullifier, evolvedCommitment⟩ := by
  have hp : 0 < 2 ^ 64 - 1 := by norm_num
  have hq1 : (2 ^ 256 - 1) / (2 ^ 64 - 1) * (2 ^ 64 - 1) ≤ 2 ^ 256 - 1 :=
    Nat.div_mul_le_self _ _
  have hq2 : (2 ^ 256 - 1) / (2 ^ 64 - 1) / (2 ^ 64 - 1) * (2 ^ 64 - 1) ≤
      (2 ^ 256 - 1) / (2 ^ 64 - 1) := Nat.div_mul_le_self _ _
  have hn : negFLn ≤ 2 ^ 64 - 1 := by omega
  have hsq : totalStake * totalStake < 2 ^ 256 :=
    lt_of_lt_of_le (Nat.mul_lt_mul'' hstake hstake) (by norm_num)
  have hdouble : totalStake * totalStake * 2 < 2 ^ 256 :=
    lt_of_lt_of_le (Nat.mul_lt_mul_of_pos_right (Nat.mul_lt_mul'' hstake hstake)
      (by norm_num : 0 < 2)) (by norm_num)
  have hnsq : negFLn * negFLn < 2 ^ 256 :=
    lt_of_lt_of_le (Nat.mul_lt_mul'' hneg hneg) (by norm_num)
  have horder : (2 ^ 256 - 1) / (2 ^ 64 - 1) * negFLn < 2 ^ 256 :=
    calc (2 ^ 256 - 1) / (2 ^ 64 - 1) * negFLn
        ≤ (2 ^ 256 - 1) / (2 ^ 64 - 1) * (2 ^ 64 - 1) := Nat.mul_le_mul_left _ hn
      _ < 2 ^ 256 := lt_of_le_of_lt hq1 (by norm_num)
  have horder2 : (2 ^ 256 - 1) / (2 ^ 64 - 1) / (2 ^ 64 - 1) * (negFLn * negFLn) < 2 ^ 256 :=
    calc (2 ^ 256 - 1) / (2 ^ 64 - 1) / (2 ^ 64 - 1) * (negFLn * negFLn)
        ≤ (2 ^ 256 - 1) / (2 ^ 64 - 1) / (2 ^ 64 - 1) * (2 ^ 64 - 1) * (2 ^ 64 - 1) := by
          rw [Nat.mul_assoc]
          exact Nat.mul_le_mul_left _ (Nat.mul_le_mul hn hn)
      _ ≤ (2 ^ 256 - 1) / (2 ^ 64 - 1) * (2 ^ 64 - 1) := Nat.mul_le_mul_right _ hq2
      _ < 2 ^ 256 := lt_of_le_of_lt hq1 (by norm_num)
  have hdpos : 0 < totalStake * totalStake * 2 := by positivity
  simp only [new, checkedMul_of_lt hsq, checkedMul_of_lt hdouble, checkedDiv_of_pos hp,
    checkedMul_of_lt hnsq, checkedMul_of_lt horder, checkedDiv_of_pos hpos,
    checkedMul_of_lt horder2, checkedDiv_of_pos hdpos, unwrap_some, bind_def, ok_bind]
  rfl

theorem new_ok (cmRoot epochNonce : Bytes32) (slot : ℕ) (nullifier : Nullifier)
    (evolvedCommitment : NoteCommitment) {negFLn totalStake : ℕ} (hpos : 0 < totalStake) (hstake : totalStake < 2 ^ 64) (hneg : negFLn < 2 ^ 64) :
    ∃ p : LeaderPublic, (new cmRoot epochNonce slot negFLn totalStake nullifier
      evolvedCommitment : Outcome ε LeaderPublic) = ok p ∧ p.cmRoot = cmRoot ∧
      p.epochNonce = epochNonce ∧ p.slot = slot ∧ p.nullifier = nullifier ∧
      p.evolvedCommitment = evolvedCommitment :=
  ⟨_, new_eq cmRoot epochNonce slot nullifier evolvedCommitment hpos hstake hneg,
    rfl, rfl, rfl, rfl, rfl⟩

/-- `LeaderPublic::check_winning`: the ticket the note draws at the epoch nonce and
slot (a SHA-256 digest read as a `U256`) against the threshold of its value. -/
def checkWinning (self : LeaderPublic) (value ticket : ℕ) : Outcome ε Bool := do
  let threshold ← phiApprox value self.scaledPhiApprox
  ok (decide (ticket < threshold))

/-- The second coefficient times twice the total stake stays below the first: the
parabola `s (t0 - t1 s)` peaks at or past the total stake. -/
theorem phiApproxCoefficients_snd_le {negFLn totalStake : ℕ} (hpos : 0 < totalStake)
    (hneg : negFLn ≤ 2 ^ 64 - 1) :
    (phiApproxCoefficients negFLn totalStake).2 * (2 * totalStake) ≤
      (phiApproxCoefficients negFLn totalStake).1 := by
  set q := (2 ^ 256 - 1) / (2 ^ 64 - 1)
  set t1 := q / (2 ^ 64 - 1) * (negFLn * negFLn) / (totalStake * totalStake * 2)
  have hq : q / (2 ^ 64 - 1) * (2 ^ 64 - 1) ≤ q := Nat.div_mul_le_self _ _
  have ht1 : t1 * (totalStake * totalStake * 2) ≤ q / (2 ^ 64 - 1) * (negFLn * negFLn) :=
    Nat.div_mul_le_self _ _
  have hsq : q / (2 ^ 64 - 1) * (negFLn * negFLn) ≤ q * negFLn :=
    calc q / (2 ^ 64 - 1) * (negFLn * negFLn)
        = q / (2 ^ 64 - 1) * negFLn * negFLn := (Nat.mul_assoc _ _ _).symm
      _ ≤ q / (2 ^ 64 - 1) * (2 ^ 64 - 1) * negFLn :=
          Nat.mul_le_mul_right _ (Nat.mul_le_mul_left _ hneg)
      _ ≤ q * negFLn := Nat.mul_le_mul_right _ hq
  show t1 * (2 * totalStake) ≤ q * negFLn / totalStake
  rw [Nat.le_div_iff_mul_le hpos]
  calc t1 * (2 * totalStake) * totalStake = t1 * (totalStake * totalStake * 2) := by ring
    _ ≤ q * negFLn := ht1.trans hsq

/-- The first coefficient times a stake up to the total stake fits in 256 bits. -/
theorem phiApproxCoefficients_fst_mul_lt {negFLn totalStake stake : ℕ}
    (hstake : stake ≤ totalStake) (hneg : negFLn ≤ 2 ^ 64 - 1) :
    stake * (phiApproxCoefficients negFLn totalStake).1 < 2 ^ 256 := by
  set q := (2 ^ 256 - 1) / (2 ^ 64 - 1)
  have hq : q * (2 ^ 64 - 1) ≤ 2 ^ 256 - 1 := Nat.div_mul_le_self _ _
  calc stake * (q * negFLn / totalStake)
      ≤ totalStake * (q * negFLn / totalStake) := Nat.mul_le_mul_right _ hstake
    _ ≤ q * negFLn := Nat.mul_div_le _ _
    _ ≤ q * (2 ^ 64 - 1) := Nat.mul_le_mul_left _ hneg
    _ < 2 ^ 256 := lt_of_le_of_lt hq (by norm_num)

/-- Every stake up to the total stake gets its threshold `s (t0 - t1 s)`. -/
theorem phiApprox_coefficients {negFLn totalStake stake : ℕ} (hpos : 0 < totalStake)
    (hneg : negFLn ≤ 2 ^ 64 - 1) (hstake : stake ≤ totalStake) :
    (phiApprox stake (phiApproxCoefficients negFLn totalStake) : Outcome ε ℕ) =
      ok (stake * ((phiApproxCoefficients negFLn totalStake).1 -
        (phiApproxCoefficients negFLn totalStake).2 * stake)) := by
  have hpeak := phiApproxCoefficients_snd_le hpos hneg
  have hcoeff : (phiApproxCoefficients negFLn totalStake).2 * stake ≤
      (phiApproxCoefficients negFLn totalStake).1 :=
    le_trans (Nat.mul_le_mul_left _ (by omega)) hpeak
  have ht0 : (phiApproxCoefficients negFLn totalStake).1 < 2 ^ 256 :=
    lt_of_le_of_lt (Nat.le_mul_of_pos_left _ hpos)
      (phiApproxCoefficients_fst_mul_lt le_rfl hneg)
  exact phiApprox_of_le ht0 hcoeff (phiApproxCoefficients_fst_mul_lt hstake hneg)

/-- The threshold grows with the stake up to the total stake. -/
theorem threshold_monotoneOn {negFLn totalStake : ℕ} (hpos : 0 < totalStake)
    (hneg : negFLn ≤ 2 ^ 64 - 1) :
    MonotoneOn (fun stake => stake * ((phiApproxCoefficients negFLn totalStake).1 -
      (phiApproxCoefficients negFLn totalStake).2 * stake)) (Set.Iic totalStake) := by
  intro s hs s' hs' hss'
  apply mul_sub_mul_le_of_le hss'
  calc (phiApproxCoefficients negFLn totalStake).2 * (s + s')
      ≤ (phiApproxCoefficients negFLn totalStake).2 * (2 * totalStake) :=
        Nat.mul_le_mul_left _ (by simp only [Set.mem_Iic] at hs hs'; omega)
    _ ≤ (phiApproxCoefficients negFLn totalStake).1 := phiApproxCoefficients_snd_le hpos hneg

/-- For a positive `u64` total stake and any `u64` value of the logarithm term, the public
inputs build, `phi_approx` unwraps no `None` for a stake up to the total stake, and the
threshold it returns grows with the stake. -/
theorem phiApprox_safe_monotone (cmRoot epochNonce : Bytes32) (slot : ℕ) (nullifier : Nullifier)
    (evolvedCommitment : NoteCommitment) {negFLn totalStake : ℕ} (hpos : 1 ≤ totalStake)
    (hstake : totalStake < 2 ^ 64) (hneg : negFLn ≤ 2 ^ 64 - 1) :
    ∃ p : LeaderPublic, (new cmRoot epochNonce slot negFLn totalStake nullifier
        evolvedCommitment : Outcome ε LeaderPublic) = ok p ∧
      ∃ threshold : ℕ → ℕ,
        (∀ stake ≤ totalStake,
          (phiApprox stake p.scaledPhiApprox : Outcome ε ℕ) = ok (threshold stake)) ∧
        MonotoneOn threshold (Set.Iic totalStake) :=
  ⟨_, new_eq cmRoot epochNonce slot nullifier evolvedCommitment hpos hstake (by omega), _,
    fun _ hstake' => phiApprox_coefficients hpos hneg hstake', threshold_monotoneOn hpos hneg⟩

/-- A total stake of 1000 and the logarithm term of an active slot coefficient of
one half, `-ln(1/2) * u64::MAX` saturated to `u64`. -/
theorem phiApprox_safe_monotone_half_rate :
    1 ≤ 1000 ∧ 1000 < 2 ^ 64 ∧ 12786308645202655659 ≤ 2 ^ 64 - 1 ∧
      ∃ p : LeaderPublic, (new Bytes32.zero Bytes32.zero 0 12786308645202655659 1000 ⟨Bytes32.zero⟩
          ⟨Bytes32.zero⟩ : Outcome Unit LeaderPublic) = ok p ∧
        ∃ threshold : ℕ → ℕ,
          (∀ stake ≤ 1000, (phiApprox stake p.scaledPhiApprox : Outcome Unit ℕ) = ok (threshold stake)) ∧
          MonotoneOn threshold (Set.Iic 1000) :=
  ⟨by norm_num, by norm_num, by norm_num,
    phiApprox_safe_monotone Bytes32.zero Bytes32.zero 0 ⟨Bytes32.zero⟩ ⟨Bytes32.zero⟩ (by norm_num)
      (by norm_num) (by norm_num)⟩

end LeaderPublic

end ProofStatements
