import NomosNode.Sdp.State
import NomosNode.Lib.StateTriple
import Mathlib.Data.List.AList

/-!
# The ledger of the service declaration protocol

`nomos-sdp/src/ledger.rs`: each message of a block is checked against the
provider's state and the repositories, and what is accepted stays pending per
block until `mark_in_block` stores it or `discard_block` drops it; rewards are
requested at once and remembered in `pending_rewards`. The repositories, the
stake verifier and the reward sender are one parameter `Backends` over a shared
state, and the methods are programs of `EStateM`, stopped by an error where `?`
stops them. Two logs the source does not keep record the reward requests sent
and the provider records stored. The pending providers of a block are an
association list, in one of the orders a `HashMap` may have.
-/

namespace NomosSdp

inductive DeclarationsRepositoryError
  | providerNotFound (providerId : ProviderId)
  | declarationNotFound (declarationId : DeclarationId)
  | duplicateNonce
  | other

inductive ServicesRepositoryError
  | notFound (serviceType : ServiceType)
  | other

inductive RewardsSenderError (ContractAddress : Type)
  | notFound (contract : ContractAddress)
  | other

inductive StakesVerifierError
  | noStake
  | stakeTooLow
  | invalidProof
  | other

inductive SdpLedgerError (ContractAddress : Type)
  | providerState (err : ProviderStateError)
  | declarationsRepository (err : DeclarationsRepositoryError)
  | rewardsSender (err : RewardsSenderError ContractAddress)
  | servicesRepository (err : ServicesRepositoryError)
  | stakesVerifier (err : StakesVerifierError)
  | duplicateServiceDeclaration
  | serviceNotProvided (serviceType : ServiceType)
  | duplicateDeclarationInBlock
  | wrongDeclarationId

/-- `DeclarationsRepository`, `ServicesRepository`, `RewardsRequestSender` and
`StakesVerifier` over the state `E` they keep. -/
structure Backends (E Proof Metadata ContractAddress : Type) where
  getProviderInfo : E → ProviderId → Except DeclarationsRepositoryError ProviderInfo
  getDeclaration : E → DeclarationId → Except DeclarationsRepositoryError Declaration
  updateProviderInfo : E → ProviderInfo → Except DeclarationsRepositoryError Unit × E
  updateDeclaration : E → DeclarationUpdate → Except DeclarationsRepositoryError Unit × E
  checkNonce : E → ProviderId → Nonce → Except DeclarationsRepositoryError Unit × E
  getParameters : E → ServiceType →
    Except ServicesRepositoryError (ServiceParameters ContractAddress)
  verify : E → ProviderId → Proof → Except StakesVerifierError Unit
  requestReward : E → ContractAddress → RewardMessage Metadata →
    Except (RewardsSenderError ContractAddress) Unit × E

abbrev PendingProviders := AList fun _ : ProviderId => ProviderInfo

structure SdpLedger (E Metadata : Type) where
  backends : E
  pendingProviders : BlockNumber → PendingProviders
  pendingDeclarations : BlockNumber → ProviderId → Option DeclarationUpdate
  pendingRewards : ProviderId → Option RewardId
  /-- The reward requests that were sent, each with the block of its message. -/
  rewardRequests : List (BlockNumber × RewardMessage Metadata)
  /-- The provider records the repository accepted, in order. -/
  storedInfos : List ProviderInfo

namespace SdpLedger

variable {E Proof Metadata ContractAddress : Type}

/-! ## The writes to the pending maps -/

def insertPendingProvider (self : SdpLedger E Metadata) (blockNumber : BlockNumber)
    (providerId : ProviderId) (info : ProviderInfo) : SdpLedger E Metadata :=
  { self with
    pendingProviders := Function.update self.pendingProviders blockNumber
      ((self.pendingProviders blockNumber).insert providerId info) }

def insertPendingDeclaration (self : SdpLedger E Metadata) (blockNumber : BlockNumber)
    (providerId : ProviderId) (update : DeclarationUpdate) : SdpLedger E Metadata :=
  { self with
    pendingDeclarations := Function.update self.pendingDeclarations blockNumber
      (Function.update (self.pendingDeclarations blockNumber) providerId (some update)) }

def removePendingDeclaration (self : SdpLedger E Metadata) (blockNumber : BlockNumber)
    (providerId : ProviderId) : SdpLedger E Metadata :=
  { self with
    pendingDeclarations := Function.update self.pendingDeclarations blockNumber
      (Function.update (self.pendingDeclarations blockNumber) providerId none) }

/-- `entry.insert(reward_id)` after a reward request was sent for the message of
a block. -/
def insertPendingReward (self : SdpLedger E Metadata) (blockNumber : BlockNumber)
    (rewardMessage : RewardMessage Metadata) (rewardId : RewardId) : SdpLedger E Metadata :=
  { self with
    pendingRewards := Function.update self.pendingRewards rewardMessage.providerId (some rewardId)
    rewardRequests := self.rewardRequests ++ [(blockNumber, rewardMessage)] }

def removePendingReward (self : SdpLedger E Metadata) (providerId : ProviderId) :
    SdpLedger E Metadata :=
  { self with pendingRewards := Function.update self.pendingRewards providerId none }

/-- `pending_providers.remove(&block_number)`. -/
def removePendingProviders (self : SdpLedger E Metadata) (blockNumber : BlockNumber) :
    SdpLedger E Metadata :=
  { self with pendingProviders := Function.update self.pendingProviders blockNumber ∅ }

/-! ## Calls to the backends -/

abbrev LedgerM (E Metadata ContractAddress α : Type) :=
  EStateM (SdpLedgerError ContractAddress) (SdpLedger E Metadata) α

/-- A call that reads the backends. -/
def read {α : Type} (f : E → α) : LedgerM E Metadata ContractAddress α := fun s =>
  .ok (f s.backends) s

/-- A call that may write the backends, with its result. -/
def call {ε α : Type} (f : E → Except ε α × E) :
    LedgerM E Metadata ContractAddress (Except ε α) := fun s =>
  .ok (f s.backends).1 { s with backends := (f s.backends).2 }

/-- `?` on a result, its error converted by `From`. -/
def propagate {ε α : Type} (wrap : ε → SdpLedgerError ContractAddress) :
    Except ε α → LedgerM E Metadata ContractAddress α
  | .ok a => pure a
  | .error err => throw (wrap err)

/-- `if cond { return Err(err) }`. -/
def failIf (cond : Bool) (err : SdpLedgerError ContractAddress) :
    LedgerM E Metadata ContractAddress Unit :=
  if cond then throw err else pure ()

/-- `if let Err(err) = x { tracing::error!(..) }`: the error is logged and
dropped, and what `x` wrote stays written. -/
def ignoreError (x : LedgerM E Metadata ContractAddress Unit) :
    LedgerM E Metadata ContractAddress Unit := fun s =>
  match x s with
  | .ok () s' => .ok () s'
  | .error _ s' => .ok () s'

section Run

variable {α ε : Type} (s : SdpLedger E Metadata)

@[simp] theorem run_read (f : E → α) :
    (read f : LedgerM E Metadata ContractAddress α).run s = .ok (f s.backends) s := rfl

@[simp] theorem run_call (f : E → Except ε α × E) :
    (call f : LedgerM E Metadata ContractAddress (Except ε α)).run s =
      .ok (f s.backends).1 { s with backends := (f s.backends).2 } := rfl

@[simp] theorem run_propagate_ok (wrap : ε → SdpLedgerError ContractAddress) (a : α) :
    (propagate wrap (.ok a) : LedgerM E Metadata ContractAddress α).run s = .ok a s := rfl

@[simp] theorem run_failIf_false (err : SdpLedgerError ContractAddress) :
    (failIf false err : LedgerM E Metadata ContractAddress Unit).run s = .ok () s := rfl

@[simp] theorem run_ignoreError (x : LedgerM E Metadata ContractAddress Unit) :
    (ignoreError x).run s = .ok () (x.run s).state := by
  show (match x s with
    | .ok () s' => EStateM.Result.ok () s'
    | .error _ s' => .ok () s') = EStateM.Result.ok () (x s).state
  cases x s <;> rfl

end Run

/-! ## The methods -/

variable (B : Backends E Proof Metadata ContractAddress) (blake2b : Bytes → Bytes32)

/-- `if let Ok(declaration) = get_declaration(declaration_id) { if refuse { return
Err(err) } }`: a declaration the repository does not give is not checked. -/
def checkDeclaration (declarationId : DeclarationId) (refuse : Declaration → Bool)
    (err : SdpLedgerError ContractAddress) : LedgerM E Metadata ContractAddress Unit := do
  match ← read (B.getDeclaration · declarationId) with
  | .ok declaration => failIf (refuse declaration) err
  | .error _ => pure ()

/-- `request_reward(reward_contract, reward_message).await?` and then
`entry.insert(reward_id)`. -/
def sendReward (blockNumber : BlockNumber) (rewardContract : ContractAddress)
    (rewardMessage : RewardMessage Metadata) : LedgerM E Metadata ContractAddress Unit := do
  propagate .rewardsSender (← call (B.requestReward · rewardContract rewardMessage))
  modify (·.insertPendingReward blockNumber rewardMessage (rewardMessage.rewardId blake2b))

def processDeclare (blockNumber : BlockNumber) (currentState : ProviderState)
    (declarationMessage : DeclarationMessage Proof) :
    LedgerM E Metadata ContractAddress ProviderState := do
  -- the transition is checked before anything is inserted
  let pendingState ←
    propagate .providerState (currentState.tryIntoActive blockNumber .declaration)
  let providerId := declarationMessage.providerId
  checkDeclaration B (declarationMessage.declarationId blake2b)
    (·.hasServiceProvider declarationMessage.serviceType providerId) .duplicateServiceDeclaration
  failIf ((← get).pendingDeclarations blockNumber providerId).isSome .duplicateDeclarationInBlock
  propagate .stakesVerifier (← read (B.verify · providerId declarationMessage.proofOfFunds))
  modify (·.insertPendingDeclaration blockNumber providerId
    (DeclarationUpdate.ofMessage blake2b declarationMessage))
  pure pendingState

/-- The reward of `process_reward`: requested unless one is pending for the
provider. -/
def rewardOnce (blockNumber : BlockNumber) (rewardContract : ContractAddress)
    (rewardMessage : RewardMessage Metadata) : LedgerM E Metadata ContractAddress Unit := do
  if ((← get).pendingRewards rewardMessage.providerId).isNone then
    sendReward B blake2b blockNumber rewardContract rewardMessage

def processReward (blockNumber : BlockNumber) (currentState : ProviderState)
    (rewardMessage : RewardMessage Metadata) (serviceParams : ServiceParameters ContractAddress) :
    LedgerM E Metadata ContractAddress ProviderState := do
  let pendingState ← propagate .providerState (currentState.tryIntoActive blockNumber .reward)
  let providerId := rewardMessage.providerId
  propagate .declarationsRepository (← call (B.checkNonce · providerId rewardMessage.nonce))
  checkDeclaration B rewardMessage.declarationId
    (!·.hasServiceProvider rewardMessage.serviceType providerId)
    (.serviceNotProvided rewardMessage.serviceType)
  rewardOnce B blake2b blockNumber serviceParams.rewardContract rewardMessage
  pure pendingState

/-- The reward of `process_withdraw`: unless one is pending for the provider, a
withdrawal with metadata is rewarded, if the withdrawn state takes the reward. -/
def rewardWithdrawal (blockNumber : BlockNumber) (pendingState : ProviderState)
    (withdrawMessage : WithdrawMessage Metadata) (serviceParams : ServiceParameters ContractAddress) :
    LedgerM E Metadata ContractAddress ProviderState := do
  match (← get).pendingRewards withdrawMessage.providerId, RewardMessage.tryFrom withdrawMessage with
  | none, some rewardMessage =>
    let pendingState ← propagate .providerState
      (pendingState.tryIntoWithdrawn blockNumber .reward serviceParams)
    sendReward B blake2b blockNumber serviceParams.rewardContract rewardMessage
    pure pendingState
  | _, _ => pure pendingState

def processWithdraw (blockNumber : BlockNumber) (currentState : ProviderState)
    (withdrawMessage : WithdrawMessage Metadata) (serviceParams : ServiceParameters ContractAddress) :
    LedgerM E Metadata ContractAddress ProviderState := do
  let pendingState ← propagate .providerState
    (currentState.tryIntoWithdrawn blockNumber .withdrawal serviceParams)
  let providerId := withdrawMessage.providerId
  propagate .declarationsRepository (← call (B.checkNonce · providerId withdrawMessage.nonce))
  checkDeclaration B withdrawMessage.declarationId
    (!·.hasServiceProvider withdrawMessage.serviceType providerId)
    (.serviceNotProvided withdrawMessage.serviceType)
  rewardWithdrawal B blake2b blockNumber pendingState withdrawMessage serviceParams

/-- The provider's state at the block: from its pending record of the block, or
else from the repository, or else a new record created at the block. -/
def loadCurrentState (blockNumber : BlockNumber) (providerId : ProviderId)
    (declarationId : DeclarationId) (serviceParams : ServiceParameters ContractAddress) :
    LedgerM E Metadata ContractAddress ProviderState := do
  let maybePendingState := ((← get).pendingProviders blockNumber).lookup providerId
  let maybeProviderInfo ← read (B.getProviderInfo · providerId)
  match maybePendingState, maybeProviderInfo with
  | some providerInfo, _ =>
    propagate .providerState (ProviderState.tryFromInfo blockNumber providerInfo serviceParams)
  | none, .ok providerInfo =>
    propagate .providerState (ProviderState.tryFromInfo blockNumber providerInfo serviceParams)
  | none, .error (.providerNotFound _) =>
    propagate .providerState (ProviderState.tryFromInfo blockNumber
      (ProviderInfo.new blockNumber providerId declarationId) serviceParams)
  | none, .error err => throw (.declarationsRepository err)

/-- The `match message` of `process_sdp_message`. -/
def processMessage (blockNumber : BlockNumber) (currentState : ProviderState)
    (serviceParams : ServiceParameters ContractAddress) :
    SdpMessage Metadata Proof → LedgerM E Metadata ContractAddress ProviderState
  | .declare declarationMessage => processDeclare B blake2b blockNumber currentState declarationMessage
  | .reward rewardMessage => processReward B blake2b blockNumber currentState rewardMessage serviceParams
  | .withdraw withdrawMessage =>
    processWithdraw B blake2b blockNumber currentState withdrawMessage serviceParams

def processSdpMessage (blockNumber : BlockNumber) (message : SdpMessage Metadata Proof) :
    LedgerM E Metadata ContractAddress Unit := do
  let providerId := message.providerId
  let declarationId := message.declarationId blake2b
  let serviceParams ←
    propagate .servicesRepository (← read (B.getParameters · message.serviceType))
  let currentState ← loadCurrentState B blockNumber providerId declarationId serviceParams
  failIf (currentState.declarationId != declarationId) .wrongDeclarationId
  let pendingState ← processMessage B blake2b blockNumber currentState serviceParams message
  modify (·.insertPendingProvider blockNumber providerId pendingState.info)

def markDeclarationInBlock (blockNumber : BlockNumber) (providerInfo : ProviderInfo) :
    LedgerM E Metadata ContractAddress Unit := do
  let providerId := providerInfo.providerId
  match ← call (B.updateProviderInfo · providerInfo) with
  | .error err =>
    -- a provider that could not be stored loses its declaration
    modify (·.removePendingDeclaration blockNumber providerId)
    throw (.declarationsRepository err)
  | .ok () =>
    modify fun s => { s with storedInfos := s.storedInfos ++ [providerInfo] }
    let declarationUpdate := (← get).pendingDeclarations blockNumber providerId
    modify (·.removePendingDeclaration blockNumber providerId)
    if let some declarationUpdate := declarationUpdate then
      -- a declaration that could not be stored is only logged
      let _ ← call (B.updateDeclaration · declarationUpdate)

def markInBlock (blockNumber : BlockNumber) : LedgerM E Metadata ContractAddress Unit := do
  let updates := (← get).pendingProviders blockNumber
  modify (·.removePendingProviders blockNumber)
  updates.entries.forM fun entry => do
    -- rewards are marked in block by whoever manages them
    modify (·.removePendingReward entry.2.providerId)
    ignoreError (markDeclarationInBlock B blockNumber entry.2)

def discardBlock (self : SdpLedger E Metadata) (blockNumber : BlockNumber) :
    SdpLedger E Metadata :=
  { self with
    pendingDeclarations := Function.update self.pendingDeclarations blockNumber fun _ => none
    pendingProviders := Function.update self.pendingProviders blockNumber ∅
    pendingRewards := (self.pendingProviders blockNumber).entries.foldl
      (fun rewards entry => Function.update rewards entry.2.providerId none) self.pendingRewards }

/-- Clearing the keys of a list, one after the other. -/
theorem foldl_update_none_apply {α κ β : Type} [DecidableEq κ] (key : α → κ) (l : List α)
    (f : κ → Option β) (k : κ) :
    l.foldl (fun f x => Function.update f (key x) none) f k =
      if ∃ x ∈ l, key x = k then none else f k := by
  induction l generalizing f with
  | nil => simp
  | cons x l ih =>
    rw [List.foldl_cons, ih]
    by_cases hx : key x = k
    · simp [hx]
    · simp [Function.update_of_ne (Ne.symm hx), hx]

/-- `discard_block` drops the reward of every provider with a record pending at
the block. -/
theorem discardBlock_pendingRewards (self : SdpLedger E Metadata) (blockNumber : BlockNumber)
    (providerId : ProviderId) :
    (self.discardBlock blockNumber).pendingRewards providerId =
      if ∃ entry ∈ (self.pendingProviders blockNumber).entries, entry.2.providerId = providerId
      then none else self.pendingRewards providerId :=
  foldl_update_none_apply _ _ _ _

/-! ## Runs -/

inductive LedgerCall (Metadata Proof : Type)
  | processSdpMessage (blockNumber : BlockNumber) (message : SdpMessage Metadata Proof)
  | markInBlock (blockNumber : BlockNumber)
  | discardBlock (blockNumber : BlockNumber)

/-- The ledger after a call, whether the call succeeded or not. -/
def step : LedgerCall Metadata Proof → SdpLedger E Metadata → SdpLedger E Metadata
  | .processSdpMessage blockNumber message, s =>
    (processSdpMessage B blake2b blockNumber message s).state
  | .markInBlock blockNumber, s => (markInBlock B blockNumber s).state
  | .discardBlock blockNumber, s => s.discardBlock blockNumber

def run (calls : List (LedgerCall Metadata Proof)) (s : SdpLedger E Metadata) :
    SdpLedger E Metadata :=
  calls.foldl (fun s c => step B blake2b c s) s

end SdpLedger

end NomosSdp
