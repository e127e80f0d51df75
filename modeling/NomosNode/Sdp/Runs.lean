import NomosNode.Sdp.Ledger

/-!
# Runs of the ledger

Two runs against backends that accept every call. `pending_rewards` is keyed by
provider alone while records are pending per block, so `discard_block` of one
block drops a reward requested at another, and that reward is requested again.
`try_into_withdrawn` ends the lock period at `created + lock_period` with
`wrapping_add`, so past `u64::MAX` a provider may withdraw inside its lock period.
-/

namespace NomosSdp

theorem RewardMessage.tryFrom_of_metadata_none {Metadata : Type} {withdraw : WithdrawMessage Metadata}
    (h : withdraw.metadata = none) : RewardMessage.tryFrom withdraw = none := by
  simp [RewardMessage.tryFrom, h]

namespace SdpLedger

variable {E Proof Metadata ContractAddress : Type}

/-- Backends that accept every call of a reward or a withdrawal and of
`mark_in_block`: the services have the parameters `serviceParams`, the
repository knows no provider and no declaration and stores every record, and
nonces and reward requests pass. -/
structure Accepting (B : Backends E Proof Metadata ContractAddress)
    (serviceParams : ServiceParameters ContractAddress) : Prop where
  getParameters : ∀ e serviceType, B.getParameters e serviceType = .ok serviceParams
  getProviderInfo : ∀ e providerId,
    B.getProviderInfo e providerId = .error (.providerNotFound providerId)
  getDeclaration : ∀ e declarationId,
    B.getDeclaration e declarationId = .error (.declarationNotFound declarationId)
  checkNonce : ∀ e providerId nonce, (B.checkNonce e providerId nonce).1 = .ok ()
  requestReward : ∀ e rewardContract rewardMessage,
    (B.requestReward e rewardContract rewardMessage).1 = .ok ()
  updateProviderInfo : ∀ e providerInfo, (B.updateProviderInfo e providerInfo).1 = .ok ()

/-- Backends over no state that accept every call, with the parameters
`serviceParams` for every service. -/
def acceptingBackends (serviceParams : ServiceParameters Unit) : Backends Unit Unit Unit Unit where
  getProviderInfo _ providerId := .error (.providerNotFound providerId)
  getDeclaration _ declarationId := .error (.declarationNotFound declarationId)
  updateProviderInfo _ _ := (.ok (), ())
  updateDeclaration _ _ := (.ok (), ())
  checkNonce _ _ _ := (.ok (), ())
  getParameters _ _ := .ok serviceParams
  verify _ _ _ := .ok ()
  requestReward _ _ _ := (.ok (), ())

theorem accepting_acceptingBackends (serviceParams : ServiceParameters Unit) :
    Accepting (acceptingBackends serviceParams) serviceParams :=
  ⟨fun _ _ => rfl, fun _ _ => rfl, fun _ _ => rfl, fun _ _ _ => rfl, fun _ _ _ => rfl,
    fun _ _ => rfl⟩

/-- The ledger with nothing pending, as the tests of the source build it. -/
def initial (backends : E) : SdpLedger E Metadata :=
  ⟨backends, fun _ => ∅, fun _ _ => none, fun _ => none, [], []⟩

/-- Service parameters with the lock period `u64::MAX`. -/
def maxLockParams : ServiceParameters Unit :=
  { lockPeriod := 18446744073709551615, inactivityPeriod := 1, retentionPeriod := 0,
    rewardContract := (), timestamp := 0 }

/-- A reward of the provider `[0; 32]`, under the declaration `[0; 32]`. -/
def rewardWithNonce (nonce : UInt8) : RewardMessage Unit :=
  { declarationId := ⟨Bytes32.zero⟩, serviceType := .blendNetwork, providerId := ⟨Bytes32.zero⟩,
    nonce := Vector.replicate 16 nonce, metadata := some () }

/-- A withdrawal of the same provider, without metadata. -/
def withdrawalWithoutMetadata : WithdrawMessage Unit :=
  { declarationId := ⟨Bytes32.zero⟩, serviceType := .blendNetwork, providerId := ⟨Bytes32.zero⟩,
    nonce := Vector.replicate 16 0, metadata := none }

variable {B : Backends E Proof Metadata ContractAddress}
  {serviceParams : ServiceParameters ContractAddress} (hB : Accepting B serviceParams)
  (blake2b : Bytes → Bytes32)

include hB

/-- The provider's state is derived from its pending record of the block, or
else from a new record. -/
theorem run_loadCurrentState (s : SdpLedger E Metadata) (blockNumber : BlockNumber)
    (providerId : ProviderId) (declarationId : DeclarationId) :
    (loadCurrentState B blockNumber providerId declarationId serviceParams).run s =
      (propagate .providerState (ProviderState.tryFromInfo blockNumber
        (((s.pendingProviders blockNumber).lookup providerId).getD
          (ProviderInfo.new blockNumber providerId declarationId)) serviceParams)).run s := by
  cases hlookup : (s.pendingProviders blockNumber).lookup providerId <;>
    simp [loadCurrentState, hlookup, hB.getProviderInfo]

/-- A reward for a provider that has not withdrawn, from its last block on, is
accepted; it is requested unless one is pending for the provider. -/
theorem processSdpMessage_reward (s : SdpLedger E Metadata) (blockNumber : BlockNumber)
    (rewardMessage : RewardMessage Metadata) (info : ProviderInfo)
    (hinfo : ((s.pendingProviders blockNumber).lookup rewardMessage.providerId).getD
      (ProviderInfo.new blockNumber rewardMessage.providerId rewardMessage.declarationId) = info)
    (hcreated : info.created ≤ blockNumber) (hwithdrawn : info.withdrawn = none)
    (hlast : info.rewarded.getD info.created ≤ blockNumber)
    (hdeclaration : info.declarationId = rewardMessage.declarationId) :
    ∃ e, processSdpMessage B blake2b blockNumber (.reward rewardMessage) s = .ok ()
      ((if s.pendingRewards rewardMessage.providerId = none then
          { s with backends := e }.insertPendingReward blockNumber rewardMessage
            (rewardMessage.rewardId blake2b)
        else { s with backends := e }).insertPendingProvider blockNumber rewardMessage.providerId
          { info with rewarded := some blockNumber }) := by
  obtain ⟨state, hstate, hcases⟩ :=
    ProviderState.tryFromInfo_of_withdrawn_none serviceParams hcreated hwithdrawn
  have hstateInfo : state.info = info := by rcases hcases with rfl | rfl <;> rfl
  have hlast' : state.lastBlockNumber ≤ blockNumber := by
    rw [ProviderState.lastBlockNumber_of_withdrawn_none (hstateInfo ▸ hwithdrawn), hstateInfo]
    exact hlast
  have hreward := ProviderState.tryIntoActive_reward hcases hlast'
  have hdeclarationId : state.declarationId = rewardMessage.declarationId := by
    rw [ProviderState.declarationId, hstateInfo, hdeclaration]
  let checked := (B.checkNonce s.backends rewardMessage.providerId rewardMessage.nonce).2
  by_cases hvacant : s.pendingRewards rewardMessage.providerId = none
  · refine ⟨(B.requestReward checked serviceParams.rewardContract rewardMessage).2, ?_⟩
    show (processSdpMessage B blake2b blockNumber (.reward rewardMessage)).run s = _
    simp [processSdpMessage, run_loadCurrentState hB, hinfo, hstate, hdeclarationId,
      processMessage, processReward, hreward, hB.checkNonce, checkDeclaration, hB.getDeclaration,
      hB.getParameters, SdpMessage.providerId, SdpMessage.declarationId, SdpMessage.serviceType,
      ProviderState.info, rewardOnce, hvacant, sendReward, hB.requestReward, checked]
  · refine ⟨checked, ?_⟩
    show (processSdpMessage B blake2b blockNumber (.reward rewardMessage)).run s = _
    simp [processSdpMessage, run_loadCurrentState hB, hinfo, hstate, hdeclarationId,
      processMessage, processReward, hreward, hB.checkNonce, checkDeclaration, hB.getDeclaration,
      hB.getParameters, SdpMessage.providerId, SdpMessage.declarationId, SdpMessage.serviceType,
      ProviderState.info, rewardOnce, hvacant, checked]

/-- A withdrawal without metadata, of a provider that has not withdrawn, from
its last block on and past the wrapped end of its lock period, is accepted. -/
theorem processSdpMessage_withdraw (s : SdpLedger E Metadata) (blockNumber : BlockNumber)
    (withdrawMessage : WithdrawMessage Metadata) (info : ProviderInfo)
    (hinfo : ((s.pendingProviders blockNumber).lookup withdrawMessage.providerId).getD
      (ProviderInfo.new blockNumber withdrawMessage.providerId withdrawMessage.declarationId) = info)
    (hcreated : info.created ≤ blockNumber) (hwithdrawn : info.withdrawn = none)
    (hlast : info.rewarded.getD info.created ≤ blockNumber)
    (hdeclaration : info.declarationId = withdrawMessage.declarationId)
    (hunlocked : info.created + serviceParams.lockPeriod < blockNumber)
    (hmetadata : withdrawMessage.metadata = none) :
    ∃ e, processSdpMessage B blake2b blockNumber (.withdraw withdrawMessage) s = .ok ()
      ({ s with backends := e }.insertPendingProvider blockNumber withdrawMessage.providerId
        { info with withdrawn := some blockNumber }) := by
  obtain ⟨state, hstate, hcases⟩ :=
    ProviderState.tryFromInfo_of_withdrawn_none serviceParams hcreated hwithdrawn
  have hstateInfo : state.info = info := by rcases hcases with rfl | rfl <;> rfl
  have hlast' : state.lastBlockNumber ≤ blockNumber := by
    rw [ProviderState.lastBlockNumber_of_withdrawn_none (hstateInfo ▸ hwithdrawn), hstateInfo]
    exact hlast
  have hwithdraw := ProviderState.tryIntoWithdrawn_withdrawal serviceParams hcases hlast' hunlocked
  have hdeclarationId : state.declarationId = withdrawMessage.declarationId := by
    rw [ProviderState.declarationId, hstateInfo, hdeclaration]
  refine ⟨(B.checkNonce s.backends withdrawMessage.providerId withdrawMessage.nonce).2, ?_⟩
  show (processSdpMessage B blake2b blockNumber (.withdraw withdrawMessage)).run s = _
  simp [processSdpMessage, run_loadCurrentState hB, hinfo, hstate, hdeclarationId,
    processMessage, processWithdraw, hwithdraw, hB.checkNonce, checkDeclaration, hB.getDeclaration,
    hB.getParameters, SdpMessage.providerId, SdpMessage.declarationId, SdpMessage.serviceType,
    ProviderState.info, rewardWithdrawal, RewardMessage.tryFrom_of_metadata_none hmetadata]

/-- `mark_in_block` of a block with one pending record stores it. -/
theorem markInBlock_storedInfos (s : SdpLedger E Metadata) (blockNumber : BlockNumber)
    (providerId : ProviderId) (info : ProviderInfo)
    (hpending : s.pendingProviders blockNumber = (∅ : PendingProviders).insert providerId info) :
    (markInBlock B blockNumber s).state.storedInfos = s.storedInfos ++ [info] := by
  show ((markInBlock B blockNumber).run s).state.storedInfos = _
  simp [markInBlock, hpending, markDeclarationInBlock, hB.updateProviderInfo, removePendingProviders, removePendingReward]
  split <;> rfl

/-- A reward for a provider at block `b`, a reward for it at another block `b'`,
the discard of `b'`, and a second reward at `b`: both rewards at `b` are
requested. -/
theorem rewardRequests_twice_in_block (s₀ : SdpLedger E Metadata) {b b' : BlockNumber} (hb : b ≠ b')
    (first second other : RewardMessage Metadata)
    (hsecond : second.providerId = first.providerId) (hother : other.providerId = first.providerId)
    (hdeclaration : second.declarationId = first.declarationId)
    (hpending : (s₀.pendingProviders b).lookup first.providerId = none)
    (hpending' : (s₀.pendingProviders b').lookup first.providerId = none)
    (hreward : s₀.pendingRewards first.providerId = none) :
    (run B blake2b [.processSdpMessage b (.reward first), .processSdpMessage b' (.reward other),
        .discardBlock b', .processSdpMessage b (.reward second)] s₀).rewardRequests =
      s₀.rewardRequests ++ [(b, first), (b, second)] := by
  obtain ⟨e₁, h₁⟩ := processSdpMessage_reward hB blake2b s₀ b first
    (ProviderInfo.new b first.providerId first.declarationId) (by rw [hpending]; rfl)
    (UInt64.le_refl b) rfl (UInt64.le_refl b) rfl
  rw [if_pos hreward] at h₁
  set s₁ := ({ s₀ with backends := e₁ }.insertPendingReward b first (first.rewardId blake2b)).insertPendingProvider b first.providerId { ProviderInfo.new b first.providerId first.declarationId with rewarded := some b } with hs₁
  obtain ⟨e₂, h₂⟩ := processSdpMessage_reward hB blake2b s₁ b' other
    (ProviderInfo.new b' other.providerId other.declarationId)
    (by rw [hother]; simp [hs₁, insertPendingProvider, insertPendingReward, Function.update_of_ne hb.symm, hpending'])
    (UInt64.le_refl b') rfl (UInt64.le_refl b') rfl
  have hpending₁ : s₁.pendingRewards other.providerId ≠ none := by
    simp [hs₁, insertPendingProvider, insertPendingReward, hother]
  rw [if_neg hpending₁] at h₂
  set info₂ := { ProviderInfo.new b' other.providerId other.declarationId with rewarded := some b' }
  set s₂ := { s₁ with backends := e₂ }.insertPendingProvider b' other.providerId info₂ with hs₂
  have hdiscarded : (s₂.discardBlock b').pendingRewards first.providerId = none := by
    rw [discardBlock_pendingRewards, if_pos]
    refine ⟨⟨other.providerId, info₂⟩, ?_, hother⟩
    simp [hs₂, insertPendingProvider]
  obtain ⟨e₄, h₄⟩ := processSdpMessage_reward hB blake2b (s₂.discardBlock b') b second
    { ProviderInfo.new b first.providerId first.declarationId with rewarded := some b }
    (by rw [hsecond]; simp [hs₂, hs₁, discardBlock, insertPendingProvider, insertPendingReward, Function.update_of_ne hb])
    (UInt64.le_refl b) rfl (UInt64.le_refl b) hdeclaration.symm
  rw [hsecond, if_pos hdiscarded] at h₄
  simp only [run, List.foldl, step, h₁, EStateM.Result.state_ok, h₂, h₄]
  simp [hs₂, hs₁, insertPendingProvider, insertPendingReward, discardBlock]
omit hB in
theorem rewardRequests_twice_at_block_one :
    (run (acceptingBackends maxLockParams) (fun _ => Bytes32.zero)
      [.processSdpMessage 1 (.reward (rewardWithNonce 1)), .processSdpMessage 2 (.reward (rewardWithNonce 3)),
        .discardBlock 2, .processSdpMessage 1 (.reward (rewardWithNonce 2))]
      (initial ())).rewardRequests = [(1, rewardWithNonce 1), (1, rewardWithNonce 2)] :=
  rewardRequests_twice_in_block (accepting_acceptingBackends maxLockParams) _ (initial ())
    (by decide) _ _ _ rfl rfl rfl rfl rfl rfl

/-- A provider withdraws in the block of its declaration when the end of its
lock period wraps past `u64::MAX`, and `mark_in_block` stores that record. -/
theorem withdrawn_inside_lock_period (s₀ : SdpLedger E Metadata) (blockNumber : BlockNumber)
    (withdrawMessage : WithdrawMessage Metadata) (hmetadata : withdrawMessage.metadata = none)
    (hempty : s₀.pendingProviders blockNumber = ∅)
    (hwrap : 2 ^ 64 ≤ blockNumber.toNat + serviceParams.lockPeriod.toNat) :
    (run B blake2b [.processSdpMessage blockNumber (.withdraw withdrawMessage),
        .markInBlock blockNumber] s₀).storedInfos =
      s₀.storedInfos ++ [{ ProviderInfo.new blockNumber withdrawMessage.providerId
        withdrawMessage.declarationId with withdrawn := some blockNumber }] := by
  have hunlocked : blockNumber + serviceParams.lockPeriod < blockNumber := by
    have hlock := serviceParams.lockPeriod.toNat_lt
    rw [UInt64.lt_iff_toNat_lt, UInt64.toNat_add]
    omega
  obtain ⟨e, hwithdraw⟩ := processSdpMessage_withdraw hB blake2b s₀ blockNumber withdrawMessage
    (ProviderInfo.new blockNumber withdrawMessage.providerId withdrawMessage.declarationId)
    (by rw [hempty]; rfl) (UInt64.le_refl _) rfl (UInt64.le_refl _) rfl hunlocked hmetadata
  simp only [run, List.foldl, step, hwithdraw, EStateM.Result.state_ok]
  rw [markInBlock_storedInfos hB _ _ withdrawMessage.providerId
    { ProviderInfo.new blockNumber withdrawMessage.providerId withdrawMessage.declarationId with
      withdrawn := some blockNumber } (by simp [insertPendingProvider, hempty])]
  rfl


omit hB in
theorem withdrawn_inside_lock_period_at_block_one :
    (run (acceptingBackends maxLockParams) (fun _ => Bytes32.zero)
      [.processSdpMessage 1 (.withdraw withdrawalWithoutMetadata), .markInBlock 1]
      (initial () : SdpLedger Unit Unit)).storedInfos =
      [{ ProviderInfo.new 1 ⟨Bytes32.zero⟩ ⟨Bytes32.zero⟩ with withdrawn := some 1 }] :=
  withdrawn_inside_lock_period (accepting_acceptingBackends maxLockParams) _ (initial ()) 1 _ rfl rfl
    (by decide)

end SdpLedger

end NomosSdp
