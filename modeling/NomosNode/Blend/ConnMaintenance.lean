import NomosNode.Lib.Fixed
import NomosNode.Lib.Mealy

/-!
# Connection monitoring

`nomos-blend/core/src/conn_maintenance.rs`: a connection monitor counts, in
`U57F7` fixed point, the effective and drop messages of a peer during an
interval, then judges it malicious past its expected numbers scaled up by the
malicious tolerance, or unhealthy below them scaled down by the unhealthy one.
Whether the interval has elapsed is an input of `poll`. The thresholds are
computed as a debug build does, which panics on a tolerance above one. The
monitor behaves as one that counts whole messages since the last interval.
-/

namespace NomosBlend

open Outcome

/-- `U57F7`: 64 bits, 7 of them fractional. -/
abbrev U57F7 := FixedU 64 7

/-- `U57F7::ONE`. -/
def U57F7.one : U57F7 := FixedU.one (by decide)

/-- `ConnectionMonitorSettings`, without the interval. -/
structure ConnectionMonitorSettings where
  expectedEffectiveMessages : U57F7
  effectiveMessageMaliciousTolerance : U57F7
  effectiveMessageUnhealthyTolerance : U57F7
  expectedDropMessages : U57F7
  dropMessageMaliciousTolerance : U57F7
  dropMessageUnhealthyTolerance : U57F7

structure ConnectionMonitor where
  settings : ConnectionMonitorSettings
  effectiveMessages : U57F7
  dropMessages : U57F7

inductive ConnectionMonitorOutput
  | malicious
  | unhealthy
  | healthy
  deriving DecidableEq

namespace ConnectionMonitor

variable {ε : Type}

def new (settings : ConnectionMonitorSettings) : ConnectionMonitor :=
  ⟨settings, FixedU.zero, FixedU.zero⟩

/-- `record_message`: one more, unless it does not fit. -/
def recordMessage (value : U57F7) : U57F7 :=
  (value.checkedAdd U57F7.one).getD value

def recordEffectiveMessage (self : ConnectionMonitor) : ConnectionMonitor :=
  { self with effectiveMessages := recordMessage self.effectiveMessages }

def recordDropMessage (self : ConnectionMonitor) : ConnectionMonitor :=
  { self with dropMessages := recordMessage self.dropMessages }

def reset (self : ConnectionMonitor) : ConnectionMonitor :=
  { self with effectiveMessages := FixedU.zero, dropMessages := FixedU.zero }

def isMalicious (self : ConnectionMonitor) : Outcome ε Bool := do
  let effectiveThreshold ← self.settings.expectedEffectiveMessages.mul
    (← U57F7.one.add self.settings.effectiveMessageMaliciousTolerance)
  let dropThreshold ← self.settings.expectedDropMessages.mul
    (← U57F7.one.add self.settings.dropMessageMaliciousTolerance)
  ok (decide (effectiveThreshold < self.effectiveMessages) || decide (dropThreshold < self.dropMessages))

def isUnhealthy (self : ConnectionMonitor) : Outcome ε Bool := do
  let effectiveThreshold ← self.settings.expectedEffectiveMessages.mul
    (← U57F7.one.sub self.settings.effectiveMessageUnhealthyTolerance)
  let dropThreshold ← self.settings.expectedDropMessages.mul
    (← U57F7.one.sub self.settings.dropMessageUnhealthyTolerance)
  ok (decide (self.effectiveMessages < effectiveThreshold) || decide (self.dropMessages < dropThreshold))

/-- The judgement `poll` makes when the interval has elapsed; `is_unhealthy`
runs only for a peer that is not malicious. -/
def judge (self : ConnectionMonitor) : Outcome ε ConnectionMonitorOutput := do
  if ← self.isMalicious then ok .malicious
  else if ← self.isUnhealthy then ok .unhealthy
  else ok .healthy

/-- `poll`: when the interval has elapsed, the judgement, and the counts start
again. -/
def poll (self : ConnectionMonitor) (intervalReady : Bool) :
    Outcome ε (ConnectionMonitor × Option ConnectionMonitorOutput) :=
  if intervalReady then do
    let outcome ← self.judge
    ok (self.reset, some outcome)
  else ok (self, none)

@[simp] theorem settings_recordEffectiveMessage (self : ConnectionMonitor) :
    self.recordEffectiveMessage.settings = self.settings := rfl

@[simp] theorem settings_recordDropMessage (self : ConnectionMonitor) :
    self.recordDropMessage.settings = self.settings := rfl

@[simp] theorem settings_reset (self : ConnectionMonitor) : self.reset.settings = self.settings := rfl

/-- A poll answers only when the interval has elapsed, and then the counts
start again. -/
theorem poll_eq_ok {self self' : ConnectionMonitor} {intervalReady : Bool}
    {output : Option ConnectionMonitorOutput}
    (h : (self.poll intervalReady : Outcome ε _) = ok (self', output)) :
    (intervalReady = false ∧ self' = self ∧ output = none) ∨
      (intervalReady = true ∧ self' = self.reset ∧ ∃ outcome, self.judge = (ok outcome : Outcome ε _) ∧
        output = some outcome) := by
  unfold poll at h
  cases intervalReady with
  | false =>
    simp only [Bool.false_eq_true, if_false, ok.injEq, Prod.mk.injEq] at h
    exact .inl ⟨rfl, h.1.symm, h.2.symm⟩
  | true =>
    simp only [if_true, bind_def] at h
    obtain ⟨outcome, hjudge, hrest⟩ := bind_eq_ok.mp h
    simp only [ok.injEq, Prod.mk.injEq] at hrest
    exact .inr ⟨rfl, hrest.1.symm, outcome, hjudge, hrest.2.symm⟩

/-! ## The monitor as a machine, and what it counts -/

/-- What the handler does with a monitor: record a message, or poll. -/
inductive Input
  | effectiveMessage
  | dropMessage
  | poll (intervalReady : Bool)

def step (self : ConnectionMonitor) : Input → Outcome ε (ConnectionMonitor × Option ConnectionMonitorOutput)
  | .effectiveMessage => ok (self.recordEffectiveMessage, none)
  | .dropMessage => ok (self.recordDropMessage, none)
  | .poll intervalReady => self.poll intervalReady

/-- The monitor holding `effective` and `drop` whole messages, each held at
the largest whole `U57F7`. -/
def counted (settings : ConnectionMonitorSettings) (effective drop : ℕ) : ConnectionMonitor :=
  ⟨settings, FixedU.ofWhole (by decide) effective, FixedU.ofWhole (by decide) drop⟩

/-- A monitor that keeps the whole numbers of messages since the last elapsed
interval. -/
structure Counts where
  settings : ConnectionMonitorSettings
  effective : ℕ
  drop : ℕ

/-- The counting monitor: it judges the counts it kept, held at the largest
whole `U57F7`, as the monitor does. -/
def Counts.step (self : Counts) : Input → Outcome ε (Counts × Option ConnectionMonitorOutput)
  | .effectiveMessage => ok ({ self with effective := self.effective + 1 }, none)
  | .dropMessage => ok ({ self with drop := self.drop + 1 }, none)
  | .poll intervalReady =>
    if intervalReady then do
      let outcome ← (counted self.settings self.effective self.drop).judge
      ok ({ self with effective := 0, drop := 0 }, some outcome)
    else ok (self, none)

def Counts.toMonitor (self : Counts) : ConnectionMonitor := counted self.settings self.effective self.drop

theorem new_eq_counted (settings : ConnectionMonitorSettings) : new settings = counted settings 0 0 := by
  simp [new, counted]

theorem recordMessage_ofWhole (n : ℕ) :
    recordMessage (FixedU.ofWhole (by decide) n) = FixedU.ofWhole (by decide) (n + 1) :=
  FixedU.checkedAdd_one_ofWhole _ n

theorem reset_counted (settings : ConnectionMonitorSettings) (effective drop : ℕ) :
    (counted settings effective drop).reset = counted settings 0 0 := by
  simp [reset, counted]

/-- Each step of the monitor is the image of the counting monitor's step. -/
theorem step_toMonitor (self : Counts) (input : Input) :
    (self.toMonitor.step input : Outcome ε _) =
      (self.step input).bind fun r => ok (r.1.toMonitor, r.2) := by
  cases input with
  | effectiveMessage =>
    simp [step, Counts.step, Counts.toMonitor, counted, recordEffectiveMessage, recordMessage_ofWhole]
  | dropMessage =>
    simp [step, Counts.step, Counts.toMonitor, counted, recordDropMessage, recordMessage_ofWhole]
  | poll intervalReady =>
    cases intervalReady with
    | false => simp [step, Counts.step, poll]
    | true =>
      simp only [step, Counts.step, poll, if_true, bind_def, Counts.toMonitor, reset_counted]
      rcases (counted self.settings self.effective self.drop).judge (ε := ε) with _ | _ | _ | _ <;> rfl

/-- The monitor keeps count: over every run of records and polls from `new`,
it answers exactly as a monitor that keeps the whole numbers of effective and
drop messages recorded since the last elapsed interval, and judges those, each
held at the largest whole `U57F7`, when an interval elapses. -/
theorem run_counts_since_last_interval (settings : ConnectionMonitorSettings) (inputs : List Input) :
    Mealy.runOutcome (step (ε := ε)) (new settings) inputs =
      ((Mealy.runOutcome (Counts.step (ε := ε)) ⟨settings, 0, 0⟩ inputs).1.bind (ok ∘ Counts.toMonitor),
        (Mealy.runOutcome (Counts.step (ε := ε)) ⟨settings, 0, 0⟩ inputs).2) := by
  rw [new_eq_counted]
  exact Mealy.runOutcome_map Counts.toMonitor step_toMonitor inputs ⟨settings, 0, 0⟩

end ConnectionMonitor

end NomosBlend
