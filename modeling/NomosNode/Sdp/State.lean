import NomosNode.Lib.Bytes

/-!
# Providers of the service declaration protocol

`nomos-sdp/src/lib.rs` and `state.rs`: a provider's record keeps the blocks of
its declaration, last reward and withdrawal, and its state is derived from the
record at each block: withdrawn, active while young or recently rewarded, or
inactive. An event moves a state to the next one or is refused. Block numbers
and periods are `UInt64`, whose `+` and `-` wrap as `wrapping_add` and
`wrapping_sub` do; the newtypes of the states are the constructors of
`ProviderState`.
-/

namespace NomosSdp

abbrev BlockNumber := UInt64

abbrev Nonce := Vector UInt8 16

structure ProviderId where
  bytes : Bytes32
  deriving DecidableEq

structure DeclarationId where
  bytes : Bytes32
  deriving DecidableEq

structure RewardId where
  bytes : Bytes32
  deriving DecidableEq

inductive ServiceType
  | blendNetwork
  | dataAvailability
  | executorNetwork
  | genericRestaking
  deriving DecidableEq

structure ServiceParameters (ContractAddress : Type) where
  lockPeriod : UInt64
  inactivityPeriod : UInt64
  retentionPeriod : UInt64
  rewardContract : ContractAddress
  timestamp : BlockNumber

structure ProviderInfo where
  providerId : ProviderId
  declarationId : DeclarationId
  created : BlockNumber
  rewarded : Option BlockNumber
  withdrawn : Option BlockNumber
  deriving DecidableEq

def ProviderInfo.new (blockNumber : BlockNumber) (providerId : ProviderId)
    (declarationId : DeclarationId) : ProviderInfo :=
  { providerId, declarationId, created := blockNumber, rewarded := none, withdrawn := none }

/-- `Locator`: a multiaddress, by its bytes. -/
structure Locator where
  addr : Bytes

/-- `Declaration`, its services as a function: a service type missing from the
map has no providers. -/
structure Declaration where
  declarationId : DeclarationId
  locators : List Locator
  services : ServiceType → List ProviderId

def Declaration.hasServiceProvider (self : Declaration) (serviceType : ServiceType)
    (providerId : ProviderId) : Bool :=
  decide (providerId ∈ self.services serviceType)

structure DeclarationUpdate where
  declarationId : DeclarationId
  providerId : ProviderId
  serviceType : ServiceType
  locators : List Locator

structure DeclarationMessage (Proof : Type) where
  serviceType : ServiceType
  locators : List Locator
  proofOfFunds : Proof
  providerId : ProviderId

/-- `DeclarationMessage::declaration_id`: Blake2b over the locators' addresses,
one after the other. -/
def DeclarationMessage.declarationId {Proof : Type} (blake2b : Bytes → Bytes32)
    (self : DeclarationMessage Proof) : DeclarationId :=
  ⟨blake2b (self.locators.flatMap Locator.addr)⟩

/-- `DeclarationUpdate::from(&DeclarationMessage)`. -/
def DeclarationUpdate.ofMessage {Proof : Type} (blake2b : Bytes → Bytes32)
    (message : DeclarationMessage Proof) : DeclarationUpdate :=
  { declarationId := message.declarationId blake2b
    providerId := message.providerId
    serviceType := message.serviceType
    locators := message.locators }

structure WithdrawMessage (Metadata : Type) where
  declarationId : DeclarationId
  serviceType : ServiceType
  providerId : ProviderId
  nonce : Nonce
  metadata : Option Metadata

structure RewardMessage (Metadata : Type) where
  declarationId : DeclarationId
  serviceType : ServiceType
  providerId : ProviderId
  nonce : Nonce
  metadata : Option Metadata

def RewardMessage.rewardId {Metadata : Type} (blake2b : Bytes → Bytes32)
    (self : RewardMessage Metadata) : RewardId :=
  ⟨blake2b (self.declarationId.bytes.toList ++ self.providerId.bytes.toList ++ self.nonce.toList)⟩

/-- `RewardMessage::try_from(WithdrawMessage)`: `Err(NoMetadata)` is `none`. -/
def RewardMessage.tryFrom {Metadata : Type} (withdraw : WithdrawMessage Metadata) :
    Option (RewardMessage Metadata) :=
  if withdraw.metadata.isNone then none
  else some
    { declarationId := withdraw.declarationId
      serviceType := withdraw.serviceType
      providerId := withdraw.providerId
      nonce := withdraw.nonce
      metadata := withdraw.metadata }

inductive EventType
  | declaration
  | reward
  | withdrawal
  deriving DecidableEq

inductive SdpMessage (Metadata Proof : Type)
  | declare (message : DeclarationMessage Proof)
  | reward (message : RewardMessage Metadata)
  | withdraw (message : WithdrawMessage Metadata)

namespace SdpMessage

variable {Metadata Proof : Type}

def providerId : SdpMessage Metadata Proof → ProviderId
  | .declare message => message.providerId
  | .reward message => message.providerId
  | .withdraw message => message.providerId

def declarationId (blake2b : Bytes → Bytes32) : SdpMessage Metadata Proof → DeclarationId
  | .declare message => message.declarationId blake2b
  | .reward message => message.declarationId
  | .withdraw message => message.declarationId

def serviceType : SdpMessage Metadata Proof → ServiceType
  | .declare message => message.serviceType
  | .reward message => message.serviceType
  | .withdraw message => message.serviceType

end SdpMessage

/-! ## The states and their transitions -/

inductive ActiveStateError
  | toActiveNotOnCreated
  | toActiveDuringWithdrawal
  | toWithdrawalWhileLocked
  | toWithdrawalInvalidEvent (eventType : EventType)
  deriving DecidableEq

inductive InactiveStateError
  | toActiveInvalidEvent (eventType : EventType)
  | toWithdrawalWhileLocked
  | toWithdrawalInvalidEvent (eventType : EventType)
  deriving DecidableEq

inductive WithdrawnStateError
  | toWithdrawnRewardedNotSameBlock
  | toWithdrawnRewardedInvalidEvent (eventType : EventType)
  deriving DecidableEq

inductive ProviderStateError
  | active (err : ActiveStateError)
  | inactive (err : InactiveStateError)
  | withdrawn (err : WithdrawnStateError)
  | withdrawnToActive
  | blockFromPast
  deriving DecidableEq

inductive ProviderState
  | active (info : ProviderInfo)
  | inactive (info : ProviderInfo)
  | withdrawn (info : ProviderInfo)
  deriving DecidableEq

/-- The withdrawal of an active or an inactive provider, which differ only in
their errors: refused while the lock period runs, up to `created + lock_period`
added with `wrapping_add`. -/
def tryIntoWithdrawnUnlocked {ε ContractAddress : Type} (whileLocked : ε)
    (invalidEvent : EventType → ε) (info : ProviderInfo) (blockNumber : BlockNumber)
    (eventType : EventType) (serviceParams : ServiceParameters ContractAddress) :
    Except ε ProviderInfo :=
  match eventType with
  | .withdrawal =>
    if info.created + serviceParams.lockPeriod ≥ blockNumber then .error whileLocked
    else .ok { info with withdrawn := some blockNumber }
  | eventType => .error (invalidEvent eventType)

theorem tryIntoWithdrawnUnlocked_withdrawal {ε ContractAddress : Type} (whileLocked : ε)
    (invalidEvent : EventType → ε) {info : ProviderInfo} {blockNumber : BlockNumber}
    {serviceParams : ServiceParameters ContractAddress}
    (hunlocked : info.created + serviceParams.lockPeriod < blockNumber) :
    tryIntoWithdrawnUnlocked whileLocked invalidEvent info blockNumber .withdrawal serviceParams =
      .ok { info with withdrawn := some blockNumber } := by
  simp only [tryIntoWithdrawnUnlocked, ge_iff_le, UInt64.not_le.mpr hunlocked, if_false]

namespace ActiveState

def tryIntoUpdated (info : ProviderInfo) (blockNumber : BlockNumber) (eventType : EventType) :
    Except ActiveStateError ProviderInfo :=
  match eventType with
  | .declaration => if info.created = blockNumber then .ok info else .error .toActiveNotOnCreated
  | .reward => .ok { info with rewarded := some blockNumber }
  | .withdrawal => .error .toActiveDuringWithdrawal

def tryIntoWithdrawn {ContractAddress : Type} (info : ProviderInfo) (blockNumber : BlockNumber)
    (eventType : EventType) (serviceParams : ServiceParameters ContractAddress) :
    Except ActiveStateError ProviderInfo :=
  tryIntoWithdrawnUnlocked .toWithdrawalWhileLocked .toWithdrawalInvalidEvent info blockNumber
    eventType serviceParams

end ActiveState

namespace InactiveState

def tryIntoActive (info : ProviderInfo) (blockNumber : BlockNumber) (eventType : EventType) :
    Except InactiveStateError ProviderInfo :=
  match eventType with
  | .reward => .ok { info with rewarded := some blockNumber }
  | eventType => .error (.toActiveInvalidEvent eventType)

def tryIntoWithdrawn {ContractAddress : Type} (info : ProviderInfo) (blockNumber : BlockNumber)
    (eventType : EventType) (serviceParams : ServiceParameters ContractAddress) :
    Except InactiveStateError ProviderInfo :=
  tryIntoWithdrawnUnlocked .toWithdrawalWhileLocked .toWithdrawalInvalidEvent info blockNumber
    eventType serviceParams

end InactiveState

/-- `WithdrawnState::try_into_withdrawn_rewarded`: a withdrawal is rewarded only
in its own block. -/
def WithdrawnState.tryIntoWithdrawnRewarded (info : ProviderInfo) (blockNumber : BlockNumber)
    (eventType : EventType) : Except WithdrawnStateError ProviderInfo :=
  if eventType = .reward then
    if info.withdrawn ≠ some blockNumber then .error .toWithdrawnRewardedNotSameBlock
    else .ok { info with rewarded := some blockNumber }
  else .error (.toWithdrawnRewardedInvalidEvent eventType)

namespace ProviderState

/-- `From<ProviderState> for ProviderInfo`. -/
def info : ProviderState → ProviderInfo
  | .active info | .inactive info | .withdrawn info => info

def tryFromInfo {ContractAddress : Type} (blockNumber : BlockNumber) (providerInfo : ProviderInfo)
    (serviceParams : ServiceParameters ContractAddress) : Except ProviderStateError ProviderState :=
  if providerInfo.created > blockNumber then .error .blockFromPast
  else if providerInfo.withdrawn.isSome then .ok (.withdrawn providerInfo)
  -- recently created providers count as active before their first reward
  else if providerInfo.created + serviceParams.inactivityPeriod > blockNumber then
    .ok (.active providerInfo)
  else match providerInfo.rewarded with
    | some rewarded =>
      if blockNumber - rewarded ≤ serviceParams.inactivityPeriod then .ok (.active providerInfo)
      else .ok (.inactive providerInfo)
    | none => .ok (.inactive providerInfo)

def lastBlockNumber (self : ProviderState) : BlockNumber :=
  match self.info.withdrawn, self.info.rewarded with
  | some withdrawnTimestamp, _ => withdrawnTimestamp
  | none, some rewardsTimestamp => rewardsTimestamp
  | none, none => self.info.created

def declarationId (self : ProviderState) : DeclarationId :=
  self.info.declarationId

def tryIntoActive (self : ProviderState) (blockNumber : BlockNumber) (eventType : EventType) :
    Except ProviderStateError ProviderState :=
  if self.lastBlockNumber > blockNumber then .error .blockFromPast
  else match self with
    | .active info =>
      ((ActiveState.tryIntoUpdated info blockNumber eventType).map .active).mapError .active
    | .inactive info =>
      ((InactiveState.tryIntoActive info blockNumber eventType).map .active).mapError .inactive
    | .withdrawn _ => .error .withdrawnToActive

def tryIntoWithdrawn {ContractAddress : Type} (self : ProviderState) (blockNumber : BlockNumber)
    (eventType : EventType) (serviceParams : ServiceParameters ContractAddress) :
    Except ProviderStateError ProviderState :=
  if self.lastBlockNumber > blockNumber then .error .blockFromPast
  else match self with
    | .active info =>
      ((ActiveState.tryIntoWithdrawn info blockNumber eventType serviceParams).map
        .withdrawn).mapError .active
    | .inactive info =>
      ((InactiveState.tryIntoWithdrawn info blockNumber eventType serviceParams).map
        .withdrawn).mapError .inactive
    | .withdrawn info =>
      ((WithdrawnState.tryIntoWithdrawnRewarded info blockNumber eventType).map
        .withdrawn).mapError .withdrawn

/-! ## The transitions of a provider that has not withdrawn -/

variable {ContractAddress : Type} {blockNumber : BlockNumber} {info : ProviderInfo}

theorem lastBlockNumber_of_withdrawn_none {self : ProviderState} (hwithdrawn : self.info.withdrawn = none) :
    self.lastBlockNumber = self.info.rewarded.getD self.info.created := by
  unfold lastBlockNumber
  rw [hwithdrawn]
  cases self.info.rewarded <;> rfl

/-- A record without a withdrawal, from its block on, is an active or an
inactive provider. -/
theorem tryFromInfo_of_withdrawn_none (serviceParams : ServiceParameters ContractAddress)
    (hcreated : info.created ≤ blockNumber) (hwithdrawn : info.withdrawn = none) :
    ∃ state, tryFromInfo blockNumber info serviceParams = .ok state ∧
      (state = .active info ∨ state = .inactive info) := by
  unfold tryFromInfo
  rw [if_neg (UInt64.not_lt.mpr hcreated), hwithdrawn]
  simp only [Option.isSome_none, Bool.false_eq_true, if_false]
  split
  · exact ⟨_, rfl, Or.inl rfl⟩
  · split
    · split
      · exact ⟨_, rfl, Or.inl rfl⟩
      · exact ⟨_, rfl, Or.inr rfl⟩
    · exact ⟨_, rfl, Or.inr rfl⟩

/-- An active or an inactive provider takes a reward from its last block on,
and is active after it. -/
theorem tryIntoActive_reward {self : ProviderState} (hself : self = .active info ∨ self = .inactive info)
    (hlast : self.lastBlockNumber ≤ blockNumber) :
    self.tryIntoActive blockNumber .reward = .ok (.active { info with rewarded := some blockNumber }) := by
  unfold tryIntoActive
  rw [if_neg (UInt64.not_lt.mpr hlast)]
  rcases hself with rfl | rfl <;> rfl

/-- An active or an inactive provider withdraws from its last block on, as soon
as `created + lock_period`, wrapped to 64 bits, is below the block. -/
theorem tryIntoWithdrawn_withdrawal {self : ProviderState} (serviceParams : ServiceParameters ContractAddress)
    (hself : self = .active info ∨ self = .inactive info) (hlast : self.lastBlockNumber ≤ blockNumber)
    (hunlocked : info.created + serviceParams.lockPeriod < blockNumber) :
    self.tryIntoWithdrawn blockNumber .withdrawal serviceParams =
      .ok (.withdrawn { info with withdrawn := some blockNumber }) := by
  unfold tryIntoWithdrawn
  rw [if_neg (UInt64.not_lt.mpr hlast)]
  rcases hself with rfl | rfl
  · simp only [ActiveState.tryIntoWithdrawn, tryIntoWithdrawnUnlocked_withdrawal _ _ hunlocked]
    rfl
  · simp only [InactiveState.tryIntoWithdrawn, tryIntoWithdrawnUnlocked_withdrawal _ _ hunlocked]
    rfl

end ProviderState

end NomosSdp
