import NomosNode.Ledger.Config

/-!
# The slot ticks of the time service

`nomos-services/time/src/backends/common.rs` and `system_time.rs`. `slot_timer` zips
the ticks of `SlotTimer::slot_interval` with the slots counted up from the slot it is
given, and the system-time backend gives it the slot of the moment it starts.

The interval's first tick is at the start of the next slot, but it carries the slot
current when the stream started: every tick is labelled with the slot before the one
the wall clock is in when it fires.
-/

namespace NomosTime

open Outcome CryptarchiaEngine

variable {ε : Type}

/-- `SlotTick`. -/
structure SlotTick where
  epoch : Epoch
  slot : Slot

/-- `slot_timer`: tick `j` of the slot interval, with the time it fires and the tick it
yields, numbered `current_slot + j` and carrying that slot's epoch. -/
def slotTimer (slotConfig : SlotConfig) (datetime : ℤ) (currentSlot : Slot)
    (epochConfig : EpochConfig) (basePeriodLength : ℕ) :
    Outcome ε (ℕ → ℤ × Outcome ε SlotTick) := do
  let interval ← SlotTimer.slotInterval slotConfig datetime
  ok fun j =>
    let slot := currentSlot + j
    (interval.tick j, do
      let epoch ← epochConfig.epoch slot basePeriodLength
      ok ⟨epoch, slot⟩)

structure SystemTimeBackendSettings where
  slotConfig : SlotConfig
  epochConfig : EpochConfig
  basePeriodLength : ℕ

/-- `SystemTimeBackend::tick_stream`, started at wall-clock time `localDate`. -/
def tickStream (settings : SystemTimeBackendSettings) (localDate : ℤ) :
    Outcome ε (ℕ → ℤ × Outcome ε SlotTick) := do
  let current ← Slot.fromOffsetAndConfig localDate settings.slotConfig
  slotTimer settings.slotConfig localDate current settings.epochConfig settings.basePeriodLength

/-- The ticks are numbered with consecutive slots from the slot at the start. -/
theorem tickStream_slot {settings : SystemTimeBackendSettings} {localDate : ℤ} {current : Slot}
    (hcurrent : (Slot.fromOffsetAndConfig localDate settings.slotConfig : Outcome ε Slot) =
      ok current)
    {ticks : ℕ → ℤ × Outcome ε SlotTick} (hticks : tickStream settings localDate = ok ticks)
    (j : ℕ) {tick : SlotTick} (htick : (ticks j).2 = ok tick) : tick.slot = current + j := by
  simp only [tickStream, slotTimer, hcurrent, bind_def, ok_bind, bind_eq_ok, ok.injEq] at hticks
  obtain ⟨interval, -, rfl⟩ := hticks
  obtain ⟨epoch, -, htick⟩ := bind_eq_ok.mp htick
  cases htick
  rfl

/-- For every slot duration of at least a second and every start time whose slot is below
`u32::MAX`, tick `j` fires in slot `current + j + 1` or later, while it carries slot
`current + j`: the wall clock is always at least one slot ahead of the ticks. -/
theorem tickStream_lags_wall_clock (settings : SystemTimeBackendSettings) {localDate : ℤ}
    {current : Slot} (hduration : nanosPerSecond ≤ settings.slotConfig.slotDuration)
    (hcurrent : (Slot.fromOffsetAndConfig localDate settings.slotConfig : Outcome ε Slot) =
      ok current)
    (hwrap : current + 1 < 2 ^ 32) {ticks : ℕ → ℤ × Outcome ε SlotTick}
    (hticks : tickStream settings localDate = ok ticks) (j : ℕ) :
    ∃ wallClockSlot, (Slot.fromOffsetAndConfig (ticks j).1 settings.slotConfig :
        Outcome ε Slot) = ok wallClockSlot ∧ current + j < wallClockSlot ∧
      ∀ tick, (ticks j).2 = ok tick → tick.slot = current + j := by
  have hticks' := hticks
  simp only [tickStream, slotTimer, hcurrent, bind_def, ok_bind, bind_eq_ok, ok.injEq] at hticks'
  obtain ⟨interval, hinterval, rfl⟩ := hticks'
  obtain ⟨hstart, hperiod⟩ := slotInterval_eq hcurrent hwrap hinterval
  have htime : interval.tick j = settings.slotConfig.chainStartTime +
      ((settings.slotConfig.slotDuration * (current + 1 + j) : ℕ) : ℤ) := by
    rw [Interval.tick, hstart, hperiod]
    push_cast
    ring
  obtain ⟨wallClockSlot, hslot, hle⟩ :=
    le_fromOffsetAndConfig_slots (ε := ε) hduration (current + 1 + j)
  rw [← htime] at hslot
  refine ⟨wallClockSlot, hslot, ?_, fun tick htick => tickStream_slot hcurrent hticks j htick⟩
  simp only [Slot] at hle ⊢
  omega

/-- The settings of the backend's test: one-second slots from time zero, and the
epoch configuration of the ledger's tests, epochs of `(3 + 3 + 4) * 10` slots. -/
def testSettings : SystemTimeBackendSettings where
  slotConfig := ⟨nanosPerSecond, 0⟩
  epochConfig := NomosLedger.testConfig.epochConfig
  basePeriodLength := 10

theorem tickStream_lags_wall_clock_at_chain_start :
    nanosPerSecond ≤ testSettings.slotConfig.slotDuration ∧
      (Slot.fromOffsetAndConfig 0 testSettings.slotConfig : Outcome Unit Slot) = ok 0 ∧
      0 + 1 < 2 ^ 32 ∧
      ∃ ticks : ℕ → ℤ × Outcome Unit SlotTick, tickStream testSettings 0 = ok ticks ∧
        ∀ j, ∃ wallClockSlot, (Slot.fromOffsetAndConfig (ticks j).1 testSettings.slotConfig :
            Outcome Unit Slot) = ok wallClockSlot ∧ 0 + j < wallClockSlot ∧
          ∀ tick, (ticks j).2 = ok tick → tick.slot = 0 + j :=
  ⟨le_rfl, rfl, by decide, _, rfl,
    @tickStream_lags_wall_clock Unit testSettings 0 0 le_rfl rfl (by decide) _ rfl⟩

end NomosTime
