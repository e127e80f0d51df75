import NomosNode.Engine.Time

/-!
# The ledger configuration

`ledger/nomos-ledger/src/config.rs`. The snapshots of an epoch are slots of
the previous epoch: the stake distribution is read at its first slot, and the
nonce `(buffer + stabilization)` base periods later. `nonce_snapshot` clamps
in saturating arithmetic; `stake_distribution_snapshot` subtracts one from a
`u32` epoch and multiplies in `u64`, both checked.
-/

namespace NomosLedger

open Outcome CryptarchiaEngine

variable {ε : Type}

structure Config where
  epochConfig : EpochConfig
  consensusConfig : CryptarchiaEngine.Config

namespace Config

def basePeriodLength (self : Config) : ℕ := self.consensusConfig.basePeriodLength

def epochLength (self : Config) : ℕ := self.epochConfig.epochLength self.basePeriodLength

def nonceSnapshot (self : Config) (epoch : Epoch) : Slot :=
  let offset := saturatingMul 64 self.basePeriodLength
    (saturatingAdd 64 self.epochConfig.epochPeriodNonceBuffer
      self.epochConfig.epochStakeDistributionStabilization)
  let base := saturatingMul 64 (epoch - 1) self.epochLength
  saturatingAdd 64 base offset

def stakeDistributionSnapshot (self : Config) (epoch : Epoch) : Outcome ε Slot := do
  let e ← subChecked epoch 1
  mulChecked 64 e self.epochLength

def epoch (self : Config) (slot : Slot) : Outcome ε Epoch :=
  self.epochConfig.epoch slot self.basePeriodLength

theorem epochLength_pos (self : Config) : 0 < self.epochLength :=
  self.epochConfig.epochLength_pos self.consensusConfig.basePeriodLength_pos

theorem epoch_eq_ok {self : Config} {slot : Slot} {e : Epoch} :
    (self.epoch slot : Outcome ε Epoch) = ok e ↔ e = slot / self.epochLength ∧ e < 2 ^ 32 :=
  EpochConfig.epoch_eq_ok

end Config

/-- The configuration of the ledger's tests: stabilization and buffer `3`,
nonce stabilization `4`, `k = 5` and `f = 1/2`, so that the base period is
`10` slots, and `neg_f_ln` the cast of `ln 2 * u64::MAX`. -/
def testConfig : Config where
  epochConfig := ⟨3, by decide, by decide, 3, by decide, by decide, 4, by decide, by decide⟩
  consensusConfig := ⟨5, by decide, 10, by decide, 12786308645202655659, by decide⟩

example : testConfig.epochLength = 100 := by decide
example : testConfig.nonceSnapshot 1 = 60 ∧ testConfig.nonceSnapshot 2 = 160 := by decide

end NomosLedger
