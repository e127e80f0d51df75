import NomosNode.Lib.Fixed
import NomosNode.Lib.Mealy
import NomosNode.Blend.ConnMaintenance
import NomosNode.DaNetwork.Monitor
import NomosNode.DaNetwork.DispersalExecutor
import NomosNode.DaNetwork.Sampling
import Mathlib.Analysis.Complex.Exponential
import Mathlib.Algebra.Order.Round

/-!
# Failure rates of DA peers

`nomos-da/network/core/src/swarm/common/monitor.rs` and `policy.rs`. For each
peer the monitor keeps a decaying rate of its dispersal, sampling and
replication failures: a failure decays its protocol's rate, then adds one, and
the peer is judged on its rates decayed to the present. The decay is the
parameter `timeDecay`, at most one, and `expTimeDecay` is the source's
`from_num` of the exponential. Over every run a rate is at most the failures
recorded since the peer's last reset (`run_judges_only_after_failures`).
-/

namespace DaMonitor

open Outcome NomosBlend Monitor

variable {κ ι ε : Type}

/-- The protocols whose failures the monitor tracks. -/
inductive Protocol
  | dispersal
  | sampling
  | replication
  deriving DecidableEq

/-- `MonitorEvent`. -/
inductive MonitorEvent (κ ι : Type)
  | executorDispersal (error : DispersalExecutor.DispersalError κ ι)
  | validatorDispersal (peerId : κ)
  | replication (peerId : κ)
  | sampling (error : SamplingProtocol.SamplingError κ ι)
  | noop

namespace MonitorEvent

/-- `MonitorEvent::peer_id`. -/
def peerId : MonitorEvent κ ι → Option κ
  | .executorDispersal (.io peerId _ _) => some peerId
  | .executorDispersal (.openStreamError peerId) => some peerId
  | .executorDispersal (.protocol ..) => none
  | .validatorDispersal peerId => some peerId
  | .replication peerId => some peerId
  | .sampling (.io peerId _ _) => some peerId
  | .sampling (.protocol _ peerId _) => some peerId
  | .sampling (.openStream peerId) => some peerId
  | .noop => none

/-- The protocol whose rate the arms of `record_event` update. -/
def protocol : MonitorEvent κ ι → Option Protocol
  | .executorDispersal _ | .validatorDispersal _ => some .dispersal
  | .replication _ => some .replication
  | .sampling _ => some .sampling
  | .noop => none

/-- `From<&DispersalExecutorEvent>`: only a stream that broke or did not open
counts against the peer. -/
def ofDispersalExecutorEvent : DispersalExecutor.DispersalExecutorEvent κ ι → MonitorEvent κ ι
  | .dispersalSuccess .. => .noop
  | .dispersalError error =>
    match error with
    | .io .. | .openStreamError .. => .executorDispersal error
    | .protocol .. => .noop

/-- `From<&SamplingEvent>`, on the requesting side's events. -/
def ofSamplingEvent : SamplingProtocol.SamplingEvent κ ι → MonitorEvent κ ι
  | .samplingSuccess .. => .noop
  | .samplingError error =>
    match error with
    | .io .. | .openStream .. => .sampling error
    | .protocol .. => .noop

end MonitorEvent

/-- `PeerStats`. -/
structure PeerStats where
  dispersalFailuresRate : U57F7
  samplingFailuresRate : U57F7
  replicationFailuresRate : U57F7
  lastDispersalFailure : Option ℕ
  lastSamplingFailure : Option ℕ
  lastReplicationFailure : Option ℕ

/-- `compute_failure_rate`: the rate decayed by the time since the last
failure, if any has passed. -/
def computeFailureRate (timeDecay : ℕ → ℕ → U57F7) (now lastFailure : ℕ) (failureRate : U57F7)
    (failureTimeWindow : ℕ) (decayFactor : U57F7) : Outcome ε U57F7 :=
  let elapsed := now - lastFailure
  if 0 < elapsed then do
    let decay ← (timeDecay elapsed failureTimeWindow).mul decayFactor
    failureRate.mul decay
  else ok failureRate

namespace PeerStats

variable (timeDecay : ℕ → ℕ → U57F7)

/-- `PeerStats::default()`. -/
def default : PeerStats := ⟨FixedU.zero, FixedU.zero, FixedU.zero, none, none, none⟩

def rate (self : PeerStats) : Protocol → U57F7
  | .dispersal => self.dispersalFailuresRate
  | .sampling => self.samplingFailuresRate
  | .replication => self.replicationFailuresRate

def lastFailure (self : PeerStats) : Protocol → Option ℕ
  | .dispersal => self.lastDispersalFailure
  | .sampling => self.lastSamplingFailure
  | .replication => self.lastReplicationFailure

/-- The arm of `record_event` for a failure of `protocol` at `now`, once its
new rate is computed. -/
def setFailure (self : PeerStats) (now : ℕ) (rate : U57F7) : Protocol → PeerStats
  | .dispersal => { self with dispersalFailuresRate := rate, lastDispersalFailure := some now }
  | .sampling => { self with samplingFailuresRate := rate, lastSamplingFailure := some now }
  | .replication => { self with replicationFailuresRate := rate, lastReplicationFailure := some now }

/-- The three `compute_*_failure_rate` methods: the protocol's rate decayed to
`now`, a protocol that never failed counting as failed at `now`. -/
def computeProtocolFailureRate (self : PeerStats) (protocol : Protocol) (now window : ℕ)
    (factor : U57F7) : Outcome ε U57F7 :=
  computeFailureRate timeDecay now ((self.lastFailure protocol).getD now) (self.rate protocol) window factor

def computeDispersalFailureRate (self : PeerStats) (now window : ℕ) (factor : U57F7) :
    Outcome ε U57F7 :=
  self.computeProtocolFailureRate timeDecay .dispersal now window factor

def computeSamplingFailureRate (self : PeerStats) (now window : ℕ) (factor : U57F7) :
    Outcome ε U57F7 :=
  self.computeProtocolFailureRate timeDecay .sampling now window factor

def computeReplicationFailureRate (self : PeerStats) (now window : ℕ) (factor : U57F7) :
    Outcome ε U57F7 :=
  self.computeProtocolFailureRate timeDecay .replication now window factor

/-- `get_updated_stats`: every rate decayed to `now`. -/
def getUpdatedStats (self : PeerStats) (now timeWindow : ℕ) (decayFactor : U57F7) :
    Outcome ε PeerStats := do
  let dispersal ← self.computeDispersalFailureRate timeDecay now timeWindow decayFactor
  let sampling ← self.computeSamplingFailureRate timeDecay now timeWindow decayFactor
  let replication ← self.computeReplicationFailureRate timeDecay now timeWindow decayFactor
  ok { self with
    dispersalFailuresRate := dispersal
    samplingFailuresRate := sampling
    replicationFailuresRate := replication }

@[simp] theorem rate_default (protocol : Protocol) : (default.rate protocol).bits = 0 := by
  cases protocol <;> rfl

@[simp] theorem rate_setFailure_self (self : PeerStats) (now : ℕ) (rate : U57F7) (protocol : Protocol) :
    (self.setFailure now rate protocol).rate protocol = rate := by
  cases protocol <;> rfl

theorem rate_setFailure_of_ne (self : PeerStats) (now : ℕ) (rate : U57F7) {protocol other : Protocol}
    (h : other ≠ protocol) : (self.setFailure now rate protocol).rate other = self.rate other := by
  cases protocol <;> cases other <;> first | rfl | exact absurd rfl h

end PeerStats

/-- `PeerHealthPolicy`. -/
structure PeerHealthPolicy (S : Type) where
  isPeerMalicious : S → Bool
  isPeerUnhealthy : S → Bool

/-- `DAConnectionPolicySettings`, without the minimum numbers of peers, which
only the balancer reads. -/
structure DAConnectionPolicySettings where
  maxDispersalFailures : ℕ
  maxSamplingFailures : ℕ
  maxReplicationFailures : ℕ
  maliciousThreshold : ℕ

/-- The `max_*_failures` of a protocol. -/
def DAConnectionPolicySettings.maxFailures (self : DAConnectionPolicySettings) : Protocol → ℕ
  | .dispersal => self.maxDispersalFailures
  | .sampling => self.maxSamplingFailures
  | .replication => self.maxReplicationFailures

namespace DAConnectionPolicy

def isPeerMalicious (settings : DAConnectionPolicySettings) (stats : PeerStats) : Bool :=
  stats.dispersalFailuresRate.geWhole settings.maliciousThreshold ||
    stats.samplingFailuresRate.geWhole settings.maliciousThreshold ||
    stats.replicationFailuresRate.geWhole settings.maliciousThreshold

def isPeerUnhealthy (settings : DAConnectionPolicySettings) (stats : PeerStats) : Bool :=
  stats.dispersalFailuresRate.geWhole settings.maxDispersalFailures ||
    stats.samplingFailuresRate.geWhole settings.maxSamplingFailures ||
    stats.replicationFailuresRate.geWhole settings.maxReplicationFailures

/-- `impl PeerHealthPolicy for DAConnectionPolicy`. -/
def toPeerHealthPolicy (settings : DAConnectionPolicySettings) : PeerHealthPolicy PeerStats :=
  ⟨isPeerMalicious settings, isPeerUnhealthy settings⟩

/-- Three protocols, one of whose rates reaches the threshold. -/
theorem exists_protocol_iff {P : Protocol → Prop} :
    (∃ protocol, P protocol) ↔ P .dispersal ∨ P .sampling ∨ P .replication := by
  constructor
  · rintro ⟨protocol, hp⟩
    cases protocol
    · exact .inl hp
    · exact .inr (.inl hp)
    · exact .inr (.inr hp)
  · rintro (hp | hp | hp)
    · exact ⟨_, hp⟩
    · exact ⟨_, hp⟩
    · exact ⟨_, hp⟩

theorem isPeerMalicious_eq_true {settings : DAConnectionPolicySettings} {stats : PeerStats} :
    isPeerMalicious settings stats = true ↔
      ∃ protocol, settings.maliciousThreshold * 2 ^ 7 ≤ (stats.rate protocol).bits := by
  rw [exists_protocol_iff]
  simp [isPeerMalicious, PeerStats.rate, or_assoc]

theorem isPeerUnhealthy_eq_true {settings : DAConnectionPolicySettings} {stats : PeerStats} :
    isPeerUnhealthy settings stats = true ↔
      ∃ protocol, settings.maxFailures protocol * 2 ^ 7 ≤ (stats.rate protocol).bits := by
  rw [exists_protocol_iff]
  simp [isPeerUnhealthy, PeerStats.rate, DAConnectionPolicySettings.maxFailures, or_assoc]

end DAConnectionPolicy

/-- `DAConnectionMonitorSettings`. -/
structure DAConnectionMonitorSettings where
  failureTimeWindow : ℕ
  timeDecayFactor : U57F7

/-- `DAConnectionMonitor`. -/
structure DAConnectionMonitor (κ : Type) where
  peerStats : κ → Option PeerStats
  policy : PeerHealthPolicy PeerStats
  settings : DAConnectionMonitorSettings

/-- A call of the behaviour into the monitor: `record_event` at the instant it
reads, or `reset_peer`. -/
inductive Call (κ ι : Type)
  | recordEvent (now : ℕ) (event : MonitorEvent κ ι)
  | resetPeer (peerId : κ)

namespace DAConnectionMonitor

variable [DecidableEq κ] (timeDecay : ℕ → ℕ → U57F7)

def new (settings : DAConnectionMonitorSettings) (policy : PeerHealthPolicy PeerStats) :
    DAConnectionMonitor κ :=
  ⟨fun _ => none, policy, settings⟩

/-- `evaluate_peer`: a peer without stats is healthy. -/
def evaluatePeer (self : DAConnectionMonitor κ) (now : ℕ) (peerId : κ) : Outcome ε PeerStatus :=
  match self.peerStats peerId with
  | some stats => do
    let stats ← stats.getUpdatedStats timeDecay now self.settings.failureTimeWindow
      self.settings.timeDecayFactor
    if self.policy.isPeerMalicious stats then ok .malicious
    else if self.policy.isPeerUnhealthy stats then ok .unhealthy
    else ok .healthy
  | none => ok .healthy

/-- An arm of `record_event` for a failure: the decayed rate plus one. -/
def recordFailure (self : DAConnectionMonitor κ) (stats : PeerStats) (now : ℕ) (protocol : Protocol) :
    Outcome ε PeerStats := do
  let rate ← stats.computeProtocolFailureRate timeDecay protocol now self.settings.failureTimeWindow
    self.settings.timeDecayFactor
  let rate ← rate.add U57F7.one
  ok (stats.setFailure now rate protocol)

/-- `record_event`: the stats of the event's peer, made if it has none, take
the failure; then the peer is judged. -/
def recordEvent (self : DAConnectionMonitor κ) (now : ℕ) (event : MonitorEvent κ ι) :
    Outcome ε (DAConnectionMonitor κ × Option (ConnectionMonitorOutput κ)) :=
  match event.peerId with
  | none => ok (self, none)
  | some peerId => do
    let stats := (self.peerStats peerId).getD PeerStats.default
    let stats ← (match event.protocol with
      | some protocol => self.recordFailure timeDecay stats now protocol
      | none => ok stats)
    let self := { self with peerStats := Function.update self.peerStats peerId (some stats) }
    let peerStatus ← self.evaluatePeer timeDecay now peerId
    ok (self, some ⟨peerId, peerStatus⟩)

/-- `reset_peer`. -/
def resetPeer (self : DAConnectionMonitor κ) (peerId : κ) : DAConnectionMonitor κ :=
  { self with peerStats := Function.update self.peerStats peerId none }

def step (self : DAConnectionMonitor κ) :
    Call κ ι → Outcome ε (DAConnectionMonitor κ × Option (ConnectionMonitorOutput κ))
  | .recordEvent now event => self.recordEvent timeDecay now event
  | .resetPeer peerId => ok (self.resetPeer peerId, none)

end DAConnectionMonitor

/-! ## Failure rates against failures -/

section Counting

variable [DecidableEq κ]

/-- The failures of each peer and protocol after a call: a failure event adds
one, a reset of the peer forgets them. -/
def countStep (count : κ → Protocol → ℕ) : Call κ ι → κ → Protocol → ℕ
  | .recordEvent _ event => fun peer protocol =>
    if event.peerId = some peer ∧ event.protocol = some protocol then count peer protocol + 1
    else count peer protocol
  | .resetPeer peerId => fun peer protocol => if peerId = peer then 0 else count peer protocol

/-- The failures of each peer and protocol recorded since the peer was last
reset. -/
def failuresSinceReset (calls : List (Call κ ι)) : κ → Protocol → ℕ :=
  calls.foldl countStep fun _ _ => 0

/-- Every failure rate is at most as many whole failures as `count` says. -/
def RatesWithin (count : κ → Protocol → ℕ) (self : DAConnectionMonitor κ) : Prop :=
  ∀ peer stats, self.peerStats peer = some stats →
    ∀ protocol, (stats.rate protocol).bits ≤ count peer protocol * 2 ^ 7

/-- A judgement backed by failures: a peer judged malicious has reached
`malicious_threshold` failures of one protocol, one judged unhealthy the
maximum of one protocol. -/
def Justified (policy : DAConnectionPolicySettings) (count : κ → Protocol → ℕ) :
    Option (ConnectionMonitorOutput κ) → Prop
  | some ⟨peer, .malicious⟩ => ∃ protocol, policy.maliciousThreshold ≤ count peer protocol
  | some ⟨peer, .unhealthy⟩ => ∃ protocol, policy.maxFailures protocol ≤ count peer protocol
  | _ => True

@[simp] theorem countStep_recordEvent (count : κ → Protocol → ℕ) (now : ℕ) (event : MonitorEvent κ ι)
    (peer : κ) (protocol : Protocol) :
    countStep count (.recordEvent now event) peer protocol =
      if event.peerId = some peer ∧ event.protocol = some protocol then count peer protocol + 1
      else count peer protocol := rfl

@[simp] theorem countStep_resetPeer (count : κ → Protocol → ℕ) (peerId peer : κ) (protocol : Protocol) :
    countStep count (.resetPeer peerId : Call κ ι) peer protocol =
      if peerId = peer then 0 else count peer protocol := rfl

omit [DecidableEq κ] in
theorem ratesWithin_new (count : κ → Protocol → ℕ) (settings : DAConnectionMonitorSettings)
    (policy : PeerHealthPolicy PeerStats) : RatesWithin count (DAConnectionMonitor.new settings policy) := by
  intro peer stats h
  cases h

/-- The stats of one peer replaced by stats within its new counts, the other
peers' counts unchanged. -/
theorem ratesWithin_update {count count' : κ → Protocol → ℕ} {self : DAConnectionMonitor κ}
    {peer : κ} {stats : PeerStats} (hrates : RatesWithin count self)
    (hother : ∀ p, p ≠ peer → count' p = count p)
    (hstats : ∀ protocol, (stats.rate protocol).bits ≤ count' peer protocol * 2 ^ 7) :
    RatesWithin count' { self with peerStats := Function.update self.peerStats peer (some stats) } := by
  intro p s hs protocol
  by_cases hp : p = peer
  · subst hp
    obtain rfl : stats = s := by simpa using hs
    exact hstats protocol
  · simp only [Function.update_of_ne hp] at hs
    rw [hother p hp]
    exact hrates p s hs protocol

theorem ratesWithin_resetPeer {count : κ → Protocol → ℕ} {self : DAConnectionMonitor κ} (peerId : κ)
    (hrates : RatesWithin count self) :
    RatesWithin (countStep count (.resetPeer peerId : Call κ ι)) (self.resetPeer peerId) := by
  intro p s hs protocol
  by_cases hp : p = peerId
  · subst hp
    simp [DAConnectionMonitor.resetPeer] at hs
  · simp only [DAConnectionMonitor.resetPeer, Function.update_of_ne hp] at hs
    rw [countStep_resetPeer, if_neg (Ne.symm hp)]
    exact hrates p s hs protocol

omit [DecidableEq κ] in
/-- The stats `record_event` starts from, made if the peer has none. -/
theorem rate_getD_le {count : κ → Protocol → ℕ} {self : DAConnectionMonitor κ}
    (hrates : RatesWithin count self) (peer : κ) (protocol : Protocol) :
    (((self.peerStats peer).getD PeerStats.default).rate protocol).bits ≤ count peer protocol * 2 ^ 7 := by
  cases hs : self.peerStats peer with
  | none => simp
  | some stats => exact hrates peer stats hs protocol

end Counting

section Rates

variable [DecidableEq κ] (timeDecay : ℕ → ℕ → U57F7)
  (hdecay : ∀ elapsed window, timeDecay elapsed window ≤ U57F7.one)

include hdecay

/-- Decay never grows a rate: both factors are at most one. -/
theorem bits_le_of_computeFailureRate {now lastFailure window : ℕ} {failureRate factor r : U57F7}
    (hfactor : factor ≤ U57F7.one)
    (h : (computeFailureRate timeDecay now lastFailure failureRate window factor : Outcome ε U57F7) = ok r) :
    r.bits ≤ failureRate.bits := by
  unfold computeFailureRate at h
  dsimp only at h
  split at h
  · obtain ⟨decay, hmul, hr⟩ := bind_eq_ok.mp h
    have hle : decay.bits ≤ 2 ^ 7 :=
      calc decay.bits ≤ (timeDecay (now - lastFailure) window).bits :=
            FixedU.bits_le_of_mul_eq_ok (FixedU.le_iff_bits.mp hfactor) hmul
        _ ≤ 2 ^ 7 := FixedU.le_iff_bits.mp (hdecay _ _)
    exact FixedU.bits_le_of_mul_eq_ok hle hr
  · obtain rfl := ok.inj h
    exact le_refl _

theorem rate_le_of_getUpdatedStats {stats stats' : PeerStats} {now window : ℕ} {factor : U57F7}
    (hfactor : factor ≤ U57F7.one)
    (h : (stats.getUpdatedStats timeDecay now window factor : Outcome ε PeerStats) = ok stats') :
    ∀ protocol, (stats'.rate protocol).bits ≤ (stats.rate protocol).bits := by
  simp only [PeerStats.getUpdatedStats, bind_def] at h
  obtain ⟨dispersal, hd, h⟩ := bind_eq_ok.mp h
  obtain ⟨sampling, hs, h⟩ := bind_eq_ok.mp h
  obtain ⟨replication, hr, h⟩ := bind_eq_ok.mp h
  obtain rfl := ok.inj h
  intro protocol
  cases protocol with
  | dispersal => exact bits_le_of_computeFailureRate timeDecay hdecay hfactor hd
  | sampling => exact bits_le_of_computeFailureRate timeDecay hdecay hfactor hs
  | replication => exact bits_le_of_computeFailureRate timeDecay hdecay hfactor hr

omit [DecidableEq κ] in
/-- A failure adds one to its protocol's decayed rate and leaves the others. -/
theorem rate_of_recordFailure {self : DAConnectionMonitor κ} {stats stats' : PeerStats} {now : ℕ}
    {protocol : Protocol} (hfactor : self.settings.timeDecayFactor ≤ U57F7.one)
    (h : (self.recordFailure timeDecay stats now protocol : Outcome ε PeerStats) = ok stats') :
    (stats'.rate protocol).bits ≤ (stats.rate protocol).bits + 2 ^ 7 ∧
      ∀ other, other ≠ protocol → stats'.rate other = stats.rate other := by
  simp only [DAConnectionMonitor.recordFailure, bind_def] at h
  obtain ⟨decayed, hdecayed, h⟩ := bind_eq_ok.mp h
  obtain ⟨rate, hrate, h⟩ := bind_eq_ok.mp h
  obtain rfl := ok.inj h
  have hle := bits_le_of_computeFailureRate timeDecay hdecay hfactor hdecayed
  have hadd : rate.bits = decayed.bits + 2 ^ 7 := FixedU.bits_of_add_eq_ok hrate
  refine ⟨?_, fun other hother => PeerStats.rate_setFailure_of_ne _ _ _ hother⟩
  rw [PeerStats.rate_setFailure_self, hadd]
  exact Nat.add_le_add_right hle _

omit [DecidableEq κ] in
/-- A judgement is backed by the failures the rates are within. -/
theorem evaluatePeer_justified (policy : DAConnectionPolicySettings) {count : κ → Protocol → ℕ}
    {self : DAConnectionMonitor κ} {now : ℕ} {peer : κ} {status : PeerStatus}
    (hpolicy : self.policy = DAConnectionPolicy.toPeerHealthPolicy policy)
    (hfactor : self.settings.timeDecayFactor ≤ U57F7.one) (hrates : RatesWithin count self)
    (h : (self.evaluatePeer timeDecay now peer : Outcome ε PeerStatus) = ok status) :
    Justified policy count (some ⟨peer, status⟩) := by
  unfold DAConnectionMonitor.evaluatePeer at h
  split at h
  · rename_i stats hstats
    simp only [bind_def] at h
    obtain ⟨updated, hupdated, h⟩ := bind_eq_ok.mp h
    have hcount : ∀ protocol n, n * 2 ^ 7 ≤ (updated.rate protocol).bits → n ≤ count peer protocol := by
      intro protocol n hn
      have hbound : n * 2 ^ 7 ≤ count peer protocol * 2 ^ 7 :=
        calc n * 2 ^ 7 ≤ (updated.rate protocol).bits := hn
          _ ≤ (stats.rate protocol).bits :=
            rate_le_of_getUpdatedStats timeDecay hdecay hfactor hupdated protocol
          _ ≤ count peer protocol * 2 ^ 7 := hrates peer stats hstats protocol
      exact Nat.le_of_mul_le_mul_right hbound (Nat.two_pow_pos 7)
    rw [hpolicy] at h
    split at h
    · rename_i hmalicious
      obtain rfl := ok.inj h
      obtain ⟨protocol, hp⟩ := DAConnectionPolicy.isPeerMalicious_eq_true.mp hmalicious
      exact ⟨protocol, hcount protocol _ hp⟩
    · split at h
      · rename_i hunhealthy
        obtain rfl := ok.inj h
        obtain ⟨protocol, hp⟩ := DAConnectionPolicy.isPeerUnhealthy_eq_true.mp hunhealthy
        exact ⟨protocol, hcount protocol _ hp⟩
      · obtain rfl := ok.inj h
        trivial
  · obtain rfl := ok.inj h
    trivial

/-- `record_event` keeps the rates within the failures, counting the one it
records, and the peer it answers about is judged by the new state. -/
theorem recordEvent_ratesWithin {count : κ → Protocol → ℕ} {self self' : DAConnectionMonitor κ}
    {now : ℕ} {event : MonitorEvent κ ι} {out : Option (ConnectionMonitorOutput κ)}
    (hfactor : self.settings.timeDecayFactor ≤ U57F7.one) (hrates : RatesWithin count self)
    (h : (self.recordEvent timeDecay now event : Outcome ε _) = ok (self', out)) :
    RatesWithin (countStep count (.recordEvent now event)) self' ∧ self'.policy = self.policy ∧
      self'.settings = self.settings ∧
      (out = none ∨ ∃ peer status, out = some ⟨peer, status⟩ ∧
        (self'.evaluatePeer timeDecay now peer : Outcome ε PeerStatus) = ok status) := by
  unfold DAConnectionMonitor.recordEvent at h
  split at h
  · rename_i hnone
    obtain ⟨rfl, rfl⟩ := Prod.mk.inj (ok.inj h)
    have hcount : countStep count (.recordEvent now event) = count := by
      funext peer protocol
      simp [hnone]
    rw [hcount]
    exact ⟨hrates, rfl, rfl, .inl rfl⟩
  · rename_i peerId hpeer
    simp only [bind_def] at h
    obtain ⟨stats, hstats, h⟩ := bind_eq_ok.mp h
    obtain ⟨status, hstatus, h⟩ := bind_eq_ok.mp h
    obtain ⟨rfl, rfl⟩ := Prod.mk.inj (ok.inj h)
    refine ⟨ratesWithin_update hrates ?_ ?_, rfl, rfl, .inr ⟨peerId, status, rfl, hstatus⟩⟩
    · intro p hp
      funext protocol
      simp [hpeer, Ne.symm hp]
    · intro protocol
      have hbefore := rate_getD_le hrates peerId protocol
      split at hstats
      · rename_i recorded hprotocol
        obtain ⟨hle, hothers⟩ := rate_of_recordFailure timeDecay hdecay hfactor hstats
        by_cases hp : protocol = recorded
        · subst hp
          simp only [countStep_recordEvent, hpeer, hprotocol, and_self, if_true]
          omega
        · rw [hothers protocol hp]
          simpa [hpeer, hprotocol, Ne.symm hp] using hbefore
      · rename_i hprotocol
        obtain rfl := ok.inj hstats
        simpa [hpeer, hprotocol] using hbefore

/-- Each call keeps the rates within the failures since the last reset, and
every judgement it makes is backed by them. -/
theorem step_ratesWithin (policy : DAConnectionPolicySettings) {count : κ → Protocol → ℕ}
    {self self' : DAConnectionMonitor κ} {call : Call κ ι} {out : Option (ConnectionMonitorOutput κ)}
    (hpolicy : self.policy = DAConnectionPolicy.toPeerHealthPolicy policy)
    (hfactor : self.settings.timeDecayFactor ≤ U57F7.one) (hrates : RatesWithin count self)
    (h : (self.step timeDecay call : Outcome ε _) = ok (self', out)) :
    RatesWithin (countStep count call) self' ∧ self'.policy = self.policy ∧
      self'.settings = self.settings ∧ Justified policy (countStep count call) out := by
  cases call with
  | recordEvent now event =>
    obtain ⟨hr, hp, hs, hout⟩ := recordEvent_ratesWithin timeDecay hdecay hfactor hrates h
    refine ⟨hr, hp, hs, ?_⟩
    rcases hout with rfl | ⟨peer, status, rfl, hstatus⟩
    · trivial
    · exact evaluatePeer_justified timeDecay hdecay policy (hp.trans hpolicy) (hs ▸ hfactor) hr hstatus
  | resetPeer peerId =>
    obtain ⟨rfl, rfl⟩ := Prod.mk.inj (ok.inj h)
    exact ⟨ratesWithin_resetPeer peerId hrates, rfl, rfl, trivial⟩

/-- The DA monitor judges by failures: over every run of events and resets
from a new monitor with the DA policy, when the time decay factor is at most
one, every failure rate of the final state is at most the number of failures
of its protocol recorded for the peer since the peer was last reset, and every
judgement of the run is backed by those of the calls up to it: a peer judged
malicious had `malicious_threshold` failures of one protocol since its last
reset, and one judged unhealthy had that protocol's `max_*_failures`. -/
theorem run_judges_only_after_failures (settings : DAConnectionMonitorSettings)
    (policy : DAConnectionPolicySettings) (hfactor : settings.timeDecayFactor ≤ U57F7.one)
    (calls : List (Call κ ι)) :
    (∀ final, (Mealy.runOutcome (DAConnectionMonitor.step timeDecay (ε := ε))
        (DAConnectionMonitor.new settings (DAConnectionPolicy.toPeerHealthPolicy policy)) calls).1 =
          ok final → RatesWithin (failuresSinceReset calls) final) ∧
      ∀ k output, (Mealy.runOutcome (DAConnectionMonitor.step timeDecay (ε := ε))
          (DAConnectionMonitor.new settings (DAConnectionPolicy.toPeerHealthPolicy policy)) calls).2[k]? =
            some output → Justified policy (failuresSinceReset (calls.take (k + 1))) output := by
  -- the invariant: the policy and the settings stay, and the rates are within
  -- the failures counted so far
  have hstep : ∀ (count : κ → Protocol → ℕ) (self : DAConnectionMonitor κ) (call : Call κ ι) self' out,
      (self.policy = DAConnectionPolicy.toPeerHealthPolicy policy ∧ self.settings = settings ∧
        RatesWithin count self) →
      (self.step timeDecay call : Outcome ε _) = ok (self', out) →
      (self'.policy = DAConnectionPolicy.toPeerHealthPolicy policy ∧ self'.settings = settings ∧
        RatesWithin (countStep count call) self') ∧ Justified policy (countStep count call) out := by
    rintro count self call self' out ⟨hpolicy, hsettings, hrates⟩ h
    obtain ⟨hr, hp, hs, hj⟩ :=
      step_ratesWithin timeDecay hdecay policy hpolicy (hsettings ▸ hfactor) hrates h
    exact ⟨⟨hp.trans hpolicy, hs.trans hsettings, hr⟩, hj⟩
  obtain ⟨hend, houts⟩ := Mealy.runOutcome_invariant_ghost countStep _ _ hstep calls (fun _ _ => 0)
    (DAConnectionMonitor.new settings (DAConnectionPolicy.toPeerHealthPolicy policy))
    ⟨rfl, rfl, ratesWithin_new _ _ _⟩
  exact ⟨fun final h => (hend final h).2.2, houts⟩

end Rates

/-! ## The decay of the source -/

/-- A real number at most `n` rounds to at most `n`. -/
theorem toNat_round_le_of_le {x : ℝ} {n : ℕ} (h : x ≤ n) : (round x).toNat ≤ n := by
  have hround : round x ≤ n := by
    rw [round_eq, Int.floor_le_iff]
    push_cast
    linarith
  omega

theorem exp_neg_div_mul_le (elapsed window : ℕ) :
    Real.exp (-(elapsed / window : ℝ)) * 2 ^ 7 ≤ ((2 ^ 7 : ℕ) : ℝ) := by
  have hexp : Real.exp (-(elapsed / window : ℝ)) ≤ 1 :=
    Real.exp_le_one_iff.mpr (neg_nonpos.mpr (by positivity))
  have hle : Real.exp (-(elapsed / window : ℝ)) * 2 ^ 7 ≤ 2 ^ 7 :=
    mul_le_of_le_one_left (by norm_num) hexp
  exact_mod_cast hle

/-- `U57F7::from_num((-elapsed / failure_time_window).exp())` on the exact
exponential, rounded to the nearest multiple of `2⁻⁷` (a tie, which the
exponential of a nonzero rational never is, rounded up); a zero window makes
the exponent `-∞` and the decay zero. -/
noncomputable def expTimeDecay (elapsed failureTimeWindow : ℕ) : U57F7 :=
  if failureTimeWindow = 0 then FixedU.zero
  else ⟨(round (Real.exp (-(elapsed / failureTimeWindow : ℝ)) * 2 ^ 7)).toNat,
    lt_of_le_of_lt (toNat_round_le_of_le (exp_neg_div_mul_le elapsed failureTimeWindow))
      (by norm_num)⟩

theorem expTimeDecay_le_one (elapsed failureTimeWindow : ℕ) :
    expTimeDecay elapsed failureTimeWindow ≤ U57F7.one := by
  rw [FixedU.le_iff_bits]
  unfold expTimeDecay
  split
  · exact Nat.zero_le _
  · exact toNat_round_le_of_le (exp_neg_div_mul_le elapsed failureTimeWindow)

/-- Three replication failures of peer `0`, a nanosecond apart. -/
def threeReplicationFailures : List (Call ℕ ℕ) :=
  [.recordEvent 0 (.replication 0), .recordEvent 1 (.replication 0), .recordEvent 2 (.replication 0)]

/-- The monitor of the source's decay, with a window of 10 nanoseconds. -/
theorem run_judges_only_after_failures_three_failures :
    (∀ elapsed window, expTimeDecay elapsed window ≤ U57F7.one) ∧ U57F7.one ≤ U57F7.one ∧
      (∀ final, (Mealy.runOutcome (DAConnectionMonitor.step expTimeDecay (ε := Unit))
          (DAConnectionMonitor.new ⟨10, U57F7.one⟩ (DAConnectionPolicy.toPeerHealthPolicy ⟨2, 2, 2, 3⟩))
          threeReplicationFailures).1 = ok final →
          RatesWithin (failuresSinceReset threeReplicationFailures) final) ∧
      ∀ k output, (Mealy.runOutcome (DAConnectionMonitor.step expTimeDecay (ε := Unit))
          (DAConnectionMonitor.new ⟨10, U57F7.one⟩ (DAConnectionPolicy.toPeerHealthPolicy ⟨2, 2, 2, 3⟩))
          threeReplicationFailures).2[k]? = some output →
        Justified ⟨2, 2, 2, 3⟩ (failuresSinceReset (threeReplicationFailures.take (k + 1))) output := by
  have hfactor : U57F7.one ≤ U57F7.one := FixedU.le_iff_bits.mpr (le_refl _)
  exact ⟨expTimeDecay_le_one, hfactor, run_judges_only_after_failures _ expTimeDecay_le_one
    ⟨10, U57F7.one⟩ ⟨2, 2, 2, 3⟩ hfactor threeReplicationFailures⟩

/-- Without decay the rate counts the failures: the peer is healthy after one,
unhealthy after two and malicious after three. -/
example : (Mealy.runOutcome (DAConnectionMonitor.step (fun _ _ => U57F7.one) (ε := Unit))
    (DAConnectionMonitor.new ⟨10, U57F7.one⟩ (DAConnectionPolicy.toPeerHealthPolicy ⟨2, 2, 2, 3⟩))
    threeReplicationFailures).2 = [some ⟨0, .healthy⟩, some ⟨0, .unhealthy⟩, some ⟨0, .malicious⟩] := by
  rfl


end DaMonitor
