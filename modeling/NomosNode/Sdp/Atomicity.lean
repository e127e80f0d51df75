import NomosNode.Sdp.Ledger

/-!
# Message processing is atomic

`process_sdp_message` makes every check, and every call to the backends that
may fail, before it writes to the pending maps. So a message that fails leaves
the pending maps and the requests sent as they were, whatever the backends
answer, and one that succeeds writes the provider's record, a declaration's
update and at most one reward. Each method gets a triple over the relation
`EqUpToBackends`, which reads, calls and checks keep.
-/

namespace NomosSdp

namespace SdpMessage

variable {Metadata Proof : Type}

/-- The update a message leaves pending: a declaration's. -/
def declarationUpdate (blake2b : Bytes → Bytes32) :
    SdpMessage Metadata Proof → Option DeclarationUpdate
  | .declare message => some (DeclarationUpdate.ofMessage blake2b message)
  | _ => none

/-- The reward a message asks for: a reward's, or a withdrawal's with metadata. -/
def rewardMessage : SdpMessage Metadata Proof → Option (RewardMessage Metadata)
  | .reward message => some message
  | .withdraw message => RewardMessage.tryFrom message
  | .declare _ => none

end SdpMessage

theorem RewardMessage.providerId_tryFrom {Metadata : Type} {withdraw : WithdrawMessage Metadata}
    {reward : RewardMessage Metadata} (h : RewardMessage.tryFrom withdraw = some reward) :
    reward.providerId = withdraw.providerId := by
  unfold RewardMessage.tryFrom at h
  split at h
  · contradiction
  · cases h
    rfl

namespace SdpLedger

open EStateM Triple

variable {E Proof Metadata ContractAddress : Type}

/-- `s` is `s₀` with other backends. -/
def EqUpToBackends (s₀ s : SdpLedger E Metadata) : Prop :=
  ∃ e, s = { s₀ with backends := e }

section Frame

variable {α ε : Type} {s₀ : SdpLedger E Metadata}

theorem EqUpToBackends.refl (s₀ : SdpLedger E Metadata) : EqUpToBackends s₀ s₀ :=
  ⟨s₀.backends, rfl⟩

theorem keeps_read (f : E → α) :
    Keeps (EqUpToBackends s₀) (read f : LedgerM E Metadata ContractAddress α) :=
  fun _ h => h

theorem keeps_call (f : E → Except ε α × E) :
    Keeps (EqUpToBackends s₀) (call f : LedgerM E Metadata ContractAddress (Except ε α)) := by
  rintro s ⟨e, rfl⟩
  exact ⟨_, rfl⟩

theorem keeps_propagate (wrap : ε → SdpLedgerError ContractAddress) (r : Except ε α) :
    Keeps (EqUpToBackends s₀) (propagate wrap r : LedgerM E Metadata ContractAddress α) := by
  cases r
  · exact Keeps.throw _
  · exact Keeps.pure _

theorem keeps_failIf (cond : Bool) (err : SdpLedgerError ContractAddress) :
    Keeps (EqUpToBackends s₀) (failIf cond err : LedgerM E Metadata ContractAddress Unit) := by
  unfold failIf
  split
  · exact Keeps.throw _
  · exact Keeps.pure _

/-- A write to the pending maps, which leaves the backends alone, moves the
relation along. -/
theorem triple_modify {w : SdpLedger E Metadata → SdpLedger E Metadata}
    (hw : ∀ s e, w { s with backends := e } = { w s with backends := e })
    {R : SdpLedgerError ContractAddress → SdpLedger E Metadata → Prop} :
    Triple (EqUpToBackends s₀) (modify w) (fun _ => EqUpToBackends (w s₀)) R := by
  rintro s ⟨e, rfl⟩
  exact ⟨e, hw s₀ e⟩

theorem EqUpToBackends.pendingRewards {s : SdpLedger E Metadata} (h : EqUpToBackends s₀ s) :
    s.pendingRewards = s₀.pendingRewards := by
  obtain ⟨e, rfl⟩ := h
  rfl

end Frame

variable (B : Backends E Proof Metadata ContractAddress) (blake2b : Bytes → Bytes32)
  {s₀ : SdpLedger E Metadata}

theorem keeps_checkDeclaration (declarationId : DeclarationId) (refuse : Declaration → Bool)
    (err : SdpLedgerError ContractAddress) :
    Keeps (EqUpToBackends s₀) (checkDeclaration B declarationId refuse err) := by
  refine Keeps.bind (keeps_read _) fun declaration => ?_
  cases declaration
  · exact Keeps.pure _
  · exact keeps_failIf _ _

theorem keeps_loadCurrentState (blockNumber : BlockNumber) (providerId : ProviderId)
    (declarationId : DeclarationId) (serviceParams : ServiceParameters ContractAddress) :
    Keeps (EqUpToBackends s₀)
      (loadCurrentState B blockNumber providerId declarationId serviceParams) := by
  refine Keeps.bind Keeps.get fun s => Keeps.bind (keeps_read _) fun maybeProviderInfo => ?_
  split
  · exact keeps_propagate _ _
  · exact keeps_propagate _ _
  · exact keeps_propagate _ _
  · exact Keeps.throw _

/-- `s` is `s₀` after a reward request for `rewardMessage`, sent because none
was pending for the provider. -/
def Rewarded (blockNumber : BlockNumber) (rewardMessage : RewardMessage Metadata)
    (s₀ s : SdpLedger E Metadata) : Prop :=
  s₀.pendingRewards rewardMessage.providerId = none ∧
    EqUpToBackends (s₀.insertPendingReward blockNumber rewardMessage
      (rewardMessage.rewardId blake2b)) s

theorem sendReward_triple (blockNumber : BlockNumber) (rewardContract : ContractAddress)
    (rewardMessage : RewardMessage Metadata) :
    Triple (EqUpToBackends s₀) (sendReward B blake2b blockNumber rewardContract rewardMessage)
      (fun _ => EqUpToBackends (s₀.insertPendingReward blockNumber rewardMessage
        (rewardMessage.rewardId blake2b)))
      (fun _ => EqUpToBackends s₀) :=
  Triple.bind (keeps_call _) fun r =>
    Triple.bind (keeps_propagate _ r) fun _ => triple_modify fun _ _ => rfl

theorem rewardOnce_triple (blockNumber : BlockNumber) (rewardContract : ContractAddress)
    (rewardMessage : RewardMessage Metadata) :
    Triple (EqUpToBackends s₀) (rewardOnce B blake2b blockNumber rewardContract rewardMessage)
      (fun _ s => EqUpToBackends s₀ s ∨ Rewarded blake2b blockNumber rewardMessage s₀ s)
      (fun _ => EqUpToBackends s₀) := by
  refine Triple.get_bind fun s₁ => Triple.of_state fun hs₁ => Triple.ite (fun hvacant => ?_) fun _ => ?_
  · -- the ledger read is `s₀` up to backends, so the reward was vacant in `s₀` too
    have hnone : s₀.pendingRewards rewardMessage.providerId = none := by
      rw [← hs₁.pendingRewards]
      exact Option.isNone_iff_eq_none.mp hvacant
    exact Triple.conseq (sendReward_triple B blake2b blockNumber rewardContract rewardMessage)
      (fun s hs => hs.1) (fun _ s hs => Or.inr ⟨hnone, hs⟩) fun _ _ => id
  · exact (Triple.pure _).pre fun s hs => Or.inl hs.1

theorem processDeclare_triple (blockNumber : BlockNumber) (currentState : ProviderState)
    (declarationMessage : DeclarationMessage Proof) :
    Triple (EqUpToBackends s₀) (processDeclare B blake2b blockNumber currentState declarationMessage)
      (fun _ => EqUpToBackends (s₀.insertPendingDeclaration blockNumber
        declarationMessage.providerId (DeclarationUpdate.ofMessage blake2b declarationMessage)))
      (fun _ => EqUpToBackends s₀) := by
  refine Triple.bind (keeps_propagate _ _) fun _ => ?_
  refine Triple.bind (keeps_checkDeclaration B _ _ _) fun _ => ?_
  refine Triple.bind Keeps.get fun _ => Triple.bind (keeps_failIf _ _) fun _ => ?_
  refine Triple.bind (keeps_read _) fun verified => Triple.bind (keeps_propagate _ verified) fun _ => ?_
  exact Triple.bind (triple_modify fun _ _ => rfl) fun _ => Triple.ret _

theorem processReward_triple (blockNumber : BlockNumber) (currentState : ProviderState)
    (rewardMessage : RewardMessage Metadata) (serviceParams : ServiceParameters ContractAddress) :
    Triple (EqUpToBackends s₀)
      (processReward B blake2b blockNumber currentState rewardMessage serviceParams)
      (fun _ s => EqUpToBackends s₀ s ∨ Rewarded blake2b blockNumber rewardMessage s₀ s)
      (fun _ => EqUpToBackends s₀) := by
  refine Triple.bind (keeps_propagate _ _) fun _ => ?_
  refine Triple.bind (keeps_call _) fun checked => Triple.bind (keeps_propagate _ checked) fun _ => ?_
  refine Triple.bind (keeps_checkDeclaration B _ _ _) fun _ => ?_
  exact Triple.bind (rewardOnce_triple B blake2b _ _ _) fun _ => Triple.ret _

theorem rewardWithdrawal_triple (blockNumber : BlockNumber) (pendingState : ProviderState)
    (withdrawMessage : WithdrawMessage Metadata) (serviceParams : ServiceParameters ContractAddress) :
    Triple (EqUpToBackends s₀)
      (rewardWithdrawal B blake2b blockNumber pendingState withdrawMessage serviceParams)
      (fun _ s => EqUpToBackends s₀ s ∨ ∃ reward, RewardMessage.tryFrom withdrawMessage = some reward ∧
        Rewarded blake2b blockNumber reward s₀ s)
      (fun _ => EqUpToBackends s₀) := by
  refine Triple.get_bind fun s₁ => Triple.of_state fun hs₁ => ?_
  split
  · rename_i reward hvacant hreward
    have hnone : s₀.pendingRewards reward.providerId = none := by
      rw [RewardMessage.providerId_tryFrom hreward, ← hs₁.pendingRewards]
      exact hvacant
    refine Triple.bind ((keeps_propagate _ _).pre fun s hs => hs.1) fun _ => ?_
    refine Triple.bind (sendReward_triple B blake2b _ _ _) fun _ => ?_
    exact (Triple.pure _).pre fun s hs => Or.inr ⟨reward, hreward, hnone, hs⟩
  · exact (Triple.pure _).pre fun s hs => Or.inl hs.1

theorem processWithdraw_triple (blockNumber : BlockNumber) (currentState : ProviderState)
    (withdrawMessage : WithdrawMessage Metadata) (serviceParams : ServiceParameters ContractAddress) :
    Triple (EqUpToBackends s₀)
      (processWithdraw B blake2b blockNumber currentState withdrawMessage serviceParams)
      (fun _ s => EqUpToBackends s₀ s ∨ ∃ reward, RewardMessage.tryFrom withdrawMessage = some reward ∧
        Rewarded blake2b blockNumber reward s₀ s)
      (fun _ => EqUpToBackends s₀) := by
  refine Triple.bind (keeps_propagate _ _) fun pendingState => ?_
  refine Triple.bind (keeps_call _) fun checked => Triple.bind (keeps_propagate _ checked) fun _ => ?_
  refine Triple.bind (keeps_checkDeclaration B _ _ _) fun _ => ?_
  exact rewardWithdrawal_triple B blake2b _ pendingState _ _

/-- `s₀` with the update of a declaration inserted. -/
def withDeclaration (blockNumber : BlockNumber) (message : SdpMessage Metadata Proof)
    (s₀ : SdpLedger E Metadata) : SdpLedger E Metadata :=
  match message.declarationUpdate blake2b with
  | some update => s₀.insertPendingDeclaration blockNumber message.providerId update
  | none => s₀

/-- What a message that was accepted wrote, before the provider's record: its
declaration's update, and a reward it asked for, if none was pending. -/
def MessageWrites (blockNumber : BlockNumber) (message : SdpMessage Metadata Proof)
    (s₀ s : SdpLedger E Metadata) : Prop :=
  EqUpToBackends (withDeclaration blake2b blockNumber message s₀) s ∨
    ∃ reward, message.rewardMessage = some reward ∧
      Rewarded blake2b blockNumber reward (withDeclaration blake2b blockNumber message s₀) s

theorem processMessage_triple (blockNumber : BlockNumber) (currentState : ProviderState)
    (serviceParams : ServiceParameters ContractAddress) (message : SdpMessage Metadata Proof) :
    Triple (EqUpToBackends s₀) (processMessage B blake2b blockNumber currentState serviceParams message)
      (fun _ => MessageWrites blake2b blockNumber message s₀) (fun _ => EqUpToBackends s₀) := by
  cases message with
  | declare declarationMessage =>
    exact (processDeclare_triple B blake2b _ _ _).conseq (fun _ => id) (fun _ _ => Or.inl)
      fun _ _ => id
  | reward rewardMessage =>
    refine (processReward_triple B blake2b _ _ _ _).conseq (fun _ => id) (fun _ s hs => ?_)
      fun _ _ => id
    rcases hs with hs | hs
    · exact Or.inl hs
    · exact Or.inr ⟨rewardMessage, rfl, hs⟩
  | withdraw withdrawMessage =>
    exact (processWithdraw_triple B blake2b _ _ _ _).conseq (fun _ => id) (fun _ _ => id)
      fun _ _ => id

/-- The pending maps and the requests sent are as in `s₀`. -/
def PendingUnchanged (s₀ s : SdpLedger E Metadata) : Prop :=
  s.pendingProviders = s₀.pendingProviders ∧ s.pendingDeclarations = s₀.pendingDeclarations ∧
    s.pendingRewards = s₀.pendingRewards ∧ s.rewardRequests = s₀.rewardRequests

/-- What an accepted message changed: the provider's record of the block; the
provider's update of the block, for a declaration; and, for a message that asks
for a reward, either nothing or, if none was pending, one reward for the
provider and one request sent. -/
def Accepted (blockNumber : BlockNumber) (message : SdpMessage Metadata Proof)
    (s₀ s : SdpLedger E Metadata) : Prop :=
  (∃ info, s.pendingProviders = Function.update s₀.pendingProviders blockNumber
    ((s₀.pendingProviders blockNumber).insert message.providerId info)) ∧
  (∀ update, message.declarationUpdate blake2b = some update →
    s.pendingDeclarations = Function.update s₀.pendingDeclarations blockNumber
      (Function.update (s₀.pendingDeclarations blockNumber) message.providerId (some update))) ∧
  (message.declarationUpdate blake2b = none →
    s.pendingDeclarations = s₀.pendingDeclarations) ∧
  ((s.pendingRewards = s₀.pendingRewards ∧ s.rewardRequests = s₀.rewardRequests) ∨
    ∃ reward, message.rewardMessage = some reward ∧
      s₀.pendingRewards message.providerId = none ∧
      s.pendingRewards = Function.update s₀.pendingRewards message.providerId
        (some (reward.rewardId blake2b)) ∧
      s.rewardRequests = s₀.rewardRequests ++ [(blockNumber, reward)])

theorem pendingUnchanged_of_eqUpToBackends {s : SdpLedger E Metadata}
    (h : EqUpToBackends s₀ s) : PendingUnchanged s₀ s := by
  obtain ⟨e, rfl⟩ := h
  exact ⟨rfl, rfl, rfl, rfl⟩

theorem SdpMessage.providerId_rewardMessage {message : SdpMessage Metadata Proof}
    {reward : RewardMessage Metadata} (h : message.rewardMessage = some reward) :
    reward.providerId = message.providerId := by
  cases message with
  | declare _ => contradiction
  | reward _ => cases h; rfl
  | withdraw withdrawMessage => exact RewardMessage.providerId_tryFrom h

section Writes

variable {blockNumber : BlockNumber} {message : SdpMessage Metadata Proof}

/-- Inserting the declaration leaves the records and the rewards alone. -/
theorem withDeclaration_frame (blockNumber : BlockNumber) (message : SdpMessage Metadata Proof)
    (s₀ : SdpLedger E Metadata) :
    (withDeclaration blake2b blockNumber message s₀).pendingProviders = s₀.pendingProviders ∧
      (withDeclaration blake2b blockNumber message s₀).pendingRewards = s₀.pendingRewards ∧
      (withDeclaration blake2b blockNumber message s₀).rewardRequests = s₀.rewardRequests := by
  unfold withDeclaration
  split <;> exact ⟨rfl, rfl, rfl⟩

theorem withDeclaration_pendingDeclarations :
    (withDeclaration blake2b blockNumber message s₀).pendingDeclarations =
      match message.declarationUpdate blake2b with
      | some update => Function.update s₀.pendingDeclarations blockNumber
          (Function.update (s₀.pendingDeclarations blockNumber) message.providerId (some update))
      | none => s₀.pendingDeclarations := by
  unfold withDeclaration
  split <;> rfl

/-- A method's writes leave the records and the declarations where
`withDeclaration` has them. -/
theorem MessageWrites.pending {s : SdpLedger E Metadata}
    (h : MessageWrites blake2b blockNumber message s₀ s) :
    s.pendingProviders = (withDeclaration blake2b blockNumber message s₀).pendingProviders ∧
      s.pendingDeclarations =
        (withDeclaration blake2b blockNumber message s₀).pendingDeclarations := by
  obtain ⟨e, rfl⟩ | ⟨_, _, _, e, rfl⟩ := h <;> exact ⟨rfl, rfl⟩

/-- The writes of the method, and then the provider's record. -/
theorem accepted_of_messageWrites {s : SdpLedger E Metadata}
    (h : MessageWrites blake2b blockNumber message s₀ s) (info : ProviderInfo) :
    Accepted blake2b blockNumber message s₀
      (s.insertPendingProvider blockNumber message.providerId info) := by
  obtain ⟨hproviders, hrewards, hrequests⟩ := withDeclaration_frame blake2b blockNumber message s₀
  have hdeclarations := (withDeclaration_pendingDeclarations blake2b).symm ▸ h.pending.2
  refine ⟨⟨info, ?_⟩, fun update hupdate => ?_, fun hnone => ?_, ?_⟩
  · show Function.update s.pendingProviders _ _ = _
    rw [h.pending.1, hproviders]
  · rw [hupdate] at hdeclarations
    exact hdeclarations
  · rw [hnone] at hdeclarations
    exact hdeclarations
  · -- the reward, if one was sent, is for the message's provider
    obtain ⟨e, rfl⟩ | ⟨reward, hreward, hnone, e, rfl⟩ := h
    · exact Or.inl ⟨hrewards, hrequests⟩
    · have hprovider := SdpMessage.providerId_rewardMessage hreward
      rw [hrewards, hprovider] at hnone
      refine Or.inr ⟨reward, hreward, hnone, ?_, ?_⟩
      · show Function.update _ reward.providerId _ = _
        rw [hrewards, hprovider]
      · show _ ++ _ = _
        rw [hrequests]

end Writes

/-- Processing a message is atomic: from every ledger and whatever the backends
answer, a message that fails leaves the pending maps and the requests sent as
they were, and one that succeeds makes only the writes of `Accepted`. -/
theorem processSdpMessage_atomic (s₀ : SdpLedger E Metadata) (blockNumber : BlockNumber)
    (message : SdpMessage Metadata Proof) :
    Triple (· = s₀) (processSdpMessage B blake2b blockNumber message)
      (fun _ => Accepted blake2b blockNumber message s₀) (fun _ => PendingUnchanged s₀) := by
  refine Triple.conseq (P := EqUpToBackends s₀) (R := fun _ => EqUpToBackends s₀) ?_
    (fun s hs => hs ▸ EqUpToBackends.refl s₀) (fun _ _ => id)
    fun _ _ => pendingUnchanged_of_eqUpToBackends
  refine Triple.bind (keeps_read _) fun parameters => ?_
  refine Triple.bind (keeps_propagate _ parameters) fun serviceParams => ?_
  refine Triple.bind (keeps_loadCurrentState B _ _ _ _) fun currentState => ?_
  refine Triple.bind (keeps_failIf _ _) fun _ => ?_
  refine Triple.bind (processMessage_triple B blake2b _ currentState serviceParams message)
    fun pendingState => ?_
  exact (Triple.modify _).pre fun s hs => accepted_of_messageWrites blake2b hs pendingState.info

end SdpLedger

end NomosSdp
