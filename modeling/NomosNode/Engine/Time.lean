import NomosNode.Engine.Cryptarchia
import Mathlib.Tactic.Ring

/-!
# Epochs

`consensus/cryptarchia-engine/src/time.rs`. An epoch is a `u32`, the number
of whole epoch lengths before a slot; the conversion from the `u64` quotient
panics when it does not fit. The epoch length is the sum of the three
`NonZero<u8>` parameters of the `EpochConfig` times the base period length,
in saturating `u64` arithmetic.
-/

namespace CryptarchiaEngine

open Outcome

variable {ε : Type}

abbrev Epoch := ℕ

structure EpochConfig where
  epochStakeDistributionStabilization : ℕ
  epochStakeDistributionStabilization_pos : 0 < epochStakeDistributionStabilization
  epochStakeDistributionStabilization_lt : epochStakeDistributionStabilization < 2 ^ 8
  epochPeriodNonceBuffer : ℕ
  epochPeriodNonceBuffer_pos : 0 < epochPeriodNonceBuffer
  epochPeriodNonceBuffer_lt : epochPeriodNonceBuffer < 2 ^ 8
  epochPeriodNonceStabilization : ℕ
  epochPeriodNonceStabilization_pos : 0 < epochPeriodNonceStabilization
  epochPeriodNonceStabilization_lt : epochPeriodNonceStabilization < 2 ^ 8

namespace EpochConfig

def epochLength (self : EpochConfig) (basePeriodLength : ℕ) : ℕ :=
  saturatingMul 64
    (saturatingAdd 64 (saturatingAdd 64 self.epochStakeDistributionStabilization
      self.epochPeriodNonceBuffer) self.epochPeriodNonceStabilization)
    basePeriodLength

def epoch (self : EpochConfig) (slot : Slot) (basePeriodLength : ℕ) : Outcome ε Epoch :=
  let e := slot / self.epochLength basePeriodLength
  if e < 2 ^ 32 then ok e else .panic "Epoch should build from a correct configuration"

/-- The three parameters are bytes, so their sum never saturates, and the
epoch length is positive for a positive base period. -/
theorem epochLength_pos (self : EpochConfig) {basePeriodLength : ℕ}
    (h : 0 < basePeriodLength) : 0 < self.epochLength basePeriodLength := by
  have h1 := self.epochStakeDistributionStabilization_pos
  unfold epochLength saturatingMul saturatingAdd
  have hsum : 0 < min (min (self.epochStakeDistributionStabilization +
      self.epochPeriodNonceBuffer) (2 ^ 64 - 1) + self.epochPeriodNonceStabilization)
      (2 ^ 64 - 1) := by
    apply lt_min <;> omega
  apply lt_min (Nat.mul_pos hsum h)
  omega

theorem epoch_eq_ok {self : EpochConfig} {slot : Slot} {basePeriodLength : ℕ} {e : Epoch} :
    (self.epoch slot basePeriodLength : Outcome ε Epoch) = ok e ↔
      e = slot / self.epochLength basePeriodLength ∧ e < 2 ^ 32 := by
  unfold epoch
  by_cases h : slot / self.epochLength basePeriodLength < 2 ^ 32
  · simp only [if_pos h, ok.injEq]
    constructor
    · rintro rfl
      exact ⟨rfl, h⟩
    · rintro ⟨rfl, -⟩
      rfl
  · simp only [if_neg h]
    constructor
    · intro h'
      cases h'
    · rintro ⟨rfl, he⟩
      exact absurd he h

/-- The only panic of `epoch` is the failed conversion to `u32`. -/
theorem epoch_eq_panic {self : EpochConfig} {slot : Slot} {basePeriodLength : ℕ} {m : String}
    (h : (self.epoch slot basePeriodLength : Outcome ε Epoch) = .panic m) :
    m = "Epoch should build from a correct configuration" := by
  unfold epoch at h
  dsimp only at h
  split_ifs at h
  exact (Outcome.panic.inj h).symm

end EpochConfig

/-! ## Slots on the wall clock

A `std::time::Duration` is a number of nanoseconds, and an `OffsetDateTime` the signed
number of nanoseconds from the Unix epoch. The range limits of `OffsetDateTime` and of
`tokio::time::Instant` are not modelled.
-/

/-- Nanoseconds in a second. -/
def nanosPerSecond : ℕ := 1000000000

/-- `SlotConfig`: the slot duration, and the start of the first epoch. -/
structure SlotConfig where
  slotDuration : ℕ
  chainStartTime : ℤ

/-- `Slot::from_offset_and_config`: genesis before the chain starts, and otherwise the
whole seconds since the start divided by the whole seconds of a slot (`as_secs`), which
panics on a slot shorter than a second. -/
def Slot.fromOffsetAndConfig (offsetDateTime : ℤ) (slotConfig : SlotConfig) :
    Outcome ε Slot :=
  let sinceStart := offsetDateTime - slotConfig.chainStartTime
  if sinceStart < 0 then ok 0
  else expect (checkedDiv (sinceStart.toNat / nanosPerSecond)
    (slotConfig.slotDuration / nanosPerSecond)) "slots tick should be at least a second"

/-- A `tokio::time::Interval`: the wall-clock time of its first tick, and its period. -/
structure Interval where
  start : ℤ
  period : ℕ

/-- The time of tick `j` of an interval that never misses a tick. -/
def Interval.tick (self : Interval) (j : ℕ) : ℤ := self.start + j * self.period

namespace SlotTimer

/-- `SlotTimer::current_slot`. -/
def currentSlot (config : SlotConfig) (now : ℤ) : Outcome ε Slot :=
  Slot.fromOffsetAndConfig now config

/-- `SlotTimer::slot_interval`: ticks every slot duration from `chain_start +
slot_duration * (current + 1) as u32`. `Duration * u32` panics past `u64` seconds, the
delay converts to a `std::time::Duration` only when it is not negative, and
`interval_at` asserts a positive period. The instant `Instant::now()` is the wall-clock
`now`. -/
def slotInterval (config : SlotConfig) (now : ℤ) : Outcome ε Interval := do
  let slotDuration := config.slotDuration
  let current ← currentSlot config now
  let next ← addChecked 64 current 1
  -- `u64::from(..) as u32` keeps the low 32 bits
  let factor := next % 2 ^ 32
  let offset ← if slotDuration * factor < 2 ^ 64 * nanosPerSecond then ok (slotDuration * factor)
    else .panic "overflow when multiplying duration by scalar"
  let nextSlotStart := config.chainStartTime + offset
  let delay := nextSlotStart - now
  if delay < 0 then .panic "could not set slot timer duration"
  else if slotDuration = 0 then .panic "`period` must be non-zero."
  else ok ⟨now + delay, slotDuration⟩

end SlotTimer

section SlotClock

variable {config : SlotConfig}

/-- With slots of at least a second, the slot of a time at or after the start is the
whole seconds since the start over the whole seconds of a slot. -/
theorem fromOffsetAndConfig_of_le (hduration : nanosPerSecond ≤ config.slotDuration) {t : ℤ}
    (ht : config.chainStartTime ≤ t) :
    (Slot.fromOffsetAndConfig t config : Outcome ε Slot) =
      ok ((t - config.chainStartTime).toNat / nanosPerSecond /
        (config.slotDuration / nanosPerSecond)) := by
  have hsecs : 0 < config.slotDuration / nanosPerSecond :=
    Nat.div_pos hduration (by decide)
  rw [Slot.fromOffsetAndConfig, if_neg (by omega), checkedDiv_of_pos hsecs, expect_some]

/-- With slots of at least a second, every time has a slot. -/
theorem fromOffsetAndConfig_ok (hduration : nanosPerSecond ≤ config.slotDuration) (t : ℤ) :
    ∃ slot, (Slot.fromOffsetAndConfig t config : Outcome ε Slot) = ok slot := by
  by_cases ht : config.chainStartTime ≤ t
  · exact ⟨_, fromOffsetAndConfig_of_le hduration ht⟩
  · exact ⟨0, if_pos (by omega)⟩

/-- `m` whole slot durations after the start lie in slot `m` or later: `as_secs` drops the
fraction of the slot duration, and the division the fraction of the time. -/
theorem le_fromOffsetAndConfig_slots (hduration : nanosPerSecond ≤ config.slotDuration)
    (m : ℕ) :
    ∃ slot, (Slot.fromOffsetAndConfig (config.chainStartTime + ((config.slotDuration * m : ℕ) : ℤ))
        config : Outcome ε Slot) = ok slot ∧ m ≤ slot := by
  set secs := config.slotDuration / nanosPerSecond
  have hsecs : 0 < secs := Nat.div_pos hduration (by decide)
  have hwhole : secs * m ≤ config.slotDuration * m / nanosPerSecond := by
    rw [Nat.le_div_iff_mul_le (by decide)]
    calc secs * m * nanosPerSecond = secs * nanosPerSecond * m := by ring
      _ ≤ config.slotDuration * m := Nat.mul_le_mul_right _ (Nat.div_mul_le_self _ _)
  refine ⟨_, fromOffsetAndConfig_of_le hduration (by omega), ?_⟩
  rw [show (config.chainStartTime + ((config.slotDuration * m : ℕ) : ℤ) -
    config.chainStartTime).toNat = config.slotDuration * m by omega,
    Nat.le_div_iff_mul_le hsecs, Nat.mul_comm]
  exact hwhole

/-- The slot interval starts `current + 1` slot durations after the start, as long as
that count fits in the `u32` it is cast to. -/
theorem slotInterval_eq {now : ℤ} {current : Slot}
    (hcurrent : (SlotTimer.currentSlot config now : Outcome ε Slot) = ok current)
    (hwrap : current + 1 < 2 ^ 32) {interval : Interval}
    (hinterval : (SlotTimer.slotInterval config now : Outcome ε Interval) = ok interval) :
    interval.start = config.chainStartTime + ((config.slotDuration * (current + 1) : ℕ) : ℤ) ∧
      interval.period = config.slotDuration := by
  have hnext : (addChecked 64 current 1 : Outcome ε ℕ) = ok (current + 1) :=
    addChecked_of_lt (lt_trans hwrap (by decide))
  simp only [SlotTimer.slotInterval, hcurrent, hnext, Nat.mod_eq_of_lt hwrap, bind_def,
    ok_bind] at hinterval
  by_cases hoverflow : config.slotDuration * (current + 1) < 2 ^ 64 * nanosPerSecond
  · rw [if_pos hoverflow] at hinterval
    split_ifs at hinterval
    cases hinterval
    refine ⟨?_, rfl⟩
    dsimp only
    omega
  · rw [if_neg hoverflow, panic_bind] at hinterval
    cases hinterval

end SlotClock

end CryptarchiaEngine
