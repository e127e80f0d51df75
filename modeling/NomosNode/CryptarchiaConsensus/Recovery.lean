import NomosNode.CryptarchiaConsensus.Blocks
import NomosNode.Engine.ForkChoice

/-!
# Recovery of the consensus service

`nomos-services/cryptarchia-consensus`: `CryptarchiaConsensusState`,
`recovery_strategy` and `build_cryptarchia`. A restart rebuilds from the saved
security block when the tip, that block, its ledger state and the notes were
saved, and from genesis otherwise, replaying the stored blocks up to the saved
tip. `Cryptarchia::new` gives the starting block length 0 and slot 0, while the
density rule of `maxvalid_bg` counts from the slot of the fork, so a node
recovered from the security block and the node that saved it can end on
different tips after the same blocks. The leader's notes are carried and not
read; the walk of `get_blocks_in_range` runs with fuel.
-/

namespace CryptarchiaConsensus

open Outcome Cl NomosLedger CryptarchiaEngine NomosCore

variable {Id P Tx B BlobId N : Type} {ε : Type} [DecidableEq Id] [LeaderProof P]
  [DecidableEq BlobId]

/-- `CryptarchiaConsensusState`: what the service saves for its recovery. -/
structure ConsensusState (Id N : Type) where
  tip : Option Id
  securityBlock : Option Id
  securityLedgerState : Option LedgerState
  securityLeaderNotes : Option (List N)

/-- `CryptarchiaInitialisationStrategy`, with the fields of the two recovery
strategies. -/
inductive InitialisationStrategy (Id N : Type) where
  | genesis
  | recoveryFromGenesis (tip : Id)
  | recoveryFromSecurity (tip securityBlockId : Id) (securityLedgerState : LedgerState)
      (securityLeaderNotes : List N)

namespace ConsensusState

/-- `from_cryptarchia`, with the leader's notes at each block given by `notes`. -/
def fromCryptarchia (cryptarchia : Cryptarchia Id) (notes : Id → Option (List N)) :
    ConsensusState Id N :=
  let securityBlockHeader := cryptarchia.consensus.getSecurityBlockHeaderId
  { tip := some cryptarchia.tip
    securityBlock := securityBlockHeader
    securityLedgerState := securityBlockHeader.bind cryptarchia.ledger.state
    securityLeaderNotes := securityBlockHeader.bind notes }

/-- `recovery_strategy`: from the security block when everything for it was
saved, else from genesis when a tip was saved. The `expect`s of the source
cannot fail after its checks. -/
def recoveryStrategy (self : ConsensusState Id N) : InitialisationStrategy Id N :=
  match self.tip, self.securityBlock, self.securityLedgerState, self.securityLeaderNotes with
  | some tip, some securityBlockId, some securityLedgerState, some securityLeaderNotes =>
    .recoveryFromSecurity tip securityBlockId securityLedgerState securityLeaderNotes
  | some tip, _, _, _ => .recoveryFromGenesis tip
  | none, _, _, _ => .genesis

end ConsensusState

section Build

variable (H : Hashes) (order : IterOrder Id) (headerId : Header Id P → Id) (blobId : B → BlobId)
  (sampledBlobs : Block Id P Tx B → Option (Finset BlobId))
  (storage : Id → Option (Block Id P Tx B)) (fuel : ℕ)

/-- The stream of `get_blocks_in_range`: from `to` back to `from`, each block
read from storage and followed to its parent. -/
def blocksDownTo (fromId : Id) : ℕ → Id → Outcome ε (List (Block Id P Tx B))
  | 0, _ => .div
  | fuel + 1, id =>
    if id = fromId then ok [] else
    match storage id with
    | none => .panic "Could not retrieve block from storage during recovery"
    | some block => do
      let rest ← blocksDownTo fromId fuel block.header.parent
      ok (block :: rest)

/-- `get_blocks_in_range`: the stored blocks after `from` up to `to`, oldest
first. -/
def getBlocksInRange (fromId toId : Id) : Outcome ε (List (Block Id P Tx B)) := do
  let blocks ← blocksDownTo storage fromId fuel toId
  ok blocks.reverse

/-- `process_block` on each block in turn; the sampling relay answers
`sampledBlobs block` for each. -/
def processBlocks (cryptarchia : Cryptarchia Id) (blocks : List (Block Id P Tx B)) :
    Outcome ε (Cryptarchia Id) :=
  blocks.foldlM (fun cryptarchia block => do
    let processed ← processBlock H order headerId blobId (sampledBlobs block) cryptarchia block
    ok processed.1) cryptarchia

theorem processBlocks_cons (cryptarchia : Cryptarchia Id) (block : Block Id P Tx B)
    (blocks : List (Block Id P Tx B)) :
    (processBlocks H order headerId blobId sampledBlobs cryptarchia (block :: blocks) :
        Outcome ε (Cryptarchia Id)) =
      (processBlock H order headerId blobId (sampledBlobs block) cryptarchia block).bind
        fun processed => processBlocks H order headerId blobId sampledBlobs processed.1 blocks := by
  simp only [processBlocks, List.foldlM_cons, bind_def]
  cases (processBlock H order headerId blobId (sampledBlobs block) cryptarchia block :
    Outcome ε _) <;> rfl

/-- `recover_cryptarchia`: a new state rooted at `from`, then the stored blocks
up to `to`. -/
def recoverCryptarchia (fromHeaderId : Id) (fromLedgerState : LedgerState) (toHeaderId : Id)
    (ledgerConfig : NomosLedger.Config) : Outcome ε (Cryptarchia Id) := do
  let cryptarchia := Cryptarchia.new fromHeaderId fromLedgerState ledgerConfig
  let blocks ← getBlocksInRange storage fuel fromHeaderId toHeaderId
  processBlocks H order headerId blobId sampledBlobs cryptarchia blocks

def buildFromGenesis (genesisId : Id) (genesisState : LedgerState)
    (ledgerConfig : NomosLedger.Config) : Cryptarchia Id :=
  Cryptarchia.new genesisId genesisState ledgerConfig

def recoverFromGenesis (tip genesisId : Id) (genesisState : LedgerState)
    (ledgerConfig : NomosLedger.Config) : Outcome ε (Cryptarchia Id) :=
  recoverCryptarchia H order headerId blobId sampledBlobs storage fuel genesisId genesisState tip
    ledgerConfig

def recoverFromSecurity (tip securityBlockId : Id) (securityLedgerState : LedgerState)
    (ledgerConfig : NomosLedger.Config) : Outcome ε (Cryptarchia Id) :=
  recoverCryptarchia H order headerId blobId sampledBlobs storage fuel securityBlockId
    securityLedgerState tip ledgerConfig

/-- `build_cryptarchia`: the strategy of the saved state decides. -/
def buildCryptarchia (initialState : ConsensusState Id N) (genesisId : Id)
    (genesisState : LedgerState) (ledgerConfig : NomosLedger.Config) :
    Outcome ε (Cryptarchia Id) :=
  match initialState.recoveryStrategy with
  | .genesis => ok (buildFromGenesis genesisId genesisState ledgerConfig)
  | .recoveryFromGenesis tip =>
    recoverFromGenesis H order headerId blobId sampledBlobs storage fuel tip genesisId genesisState
      ledgerConfig
  | .recoveryFromSecurity tip securityBlockId securityLedgerState _ =>
    recoverFromSecurity H order headerId blobId sampledBlobs storage fuel tip securityBlockId
      securityLedgerState ledgerConfig

end Build

/-! ## Runs in the first epoch

Blocks whose ids are their slots, each with an accepted leader proof on a root
of the genesis leader tree and the nullifier of its slot. While every stored
ledger state is a first-epoch state under its own slot, the ledger accepts each
such block over a stored parent, so `process_block` moves the engine exactly as
`receive_block` does. -/

section FirstEpoch

variable (H : Hashes) {config : NomosLedger.Config} {r0 : Bytes32}

/-- The block at `slot` over `parent`: no transactions, no blobs. -/
def slotBlock (r0 : Bytes32) (slot parent : Slot) : Block Slot AcceptedProof Unit Unit :=
  ⟨⟨parent, slot, 0, ⟨Bytes32.zero⟩, ⟨slotNullifier slot, ⟨Bytes32.zero⟩, r0⟩, []⟩, [], []⟩

def slotBlocks (r0 : Bytes32) (blocks : List (Slot × Slot)) :
    List (Block Slot AcceptedProof Unit Unit) :=
  blocks.map fun b => slotBlock r0 b.1 b.2

/-- The same blocks as the engine receives them: `(id, parent, slot)`. -/
def engineBlocks (blocks : List (Slot × Slot)) : List (Slot × Slot × Slot) :=
  blocks.map fun b => (b.1, b.2, b.1)

/-- Every stored ledger state is a first-epoch state under its own slot, and the
ledger stores what the engine stores. -/
structure SlotStates (config : NomosLedger.Config) (r0 : Bytes32) (c : Cryptarchia Slot) :
    Prop where
  lockstep : c.Lockstep
  config_eq : c.ledger.config = config
  states : ∀ id s, c.ledger.states id = some s → FirstEpoch config r0 s ∧ s.slot = id

theorem new_slotStates {id : Slot} {s : LedgerState} (hs : FirstEpoch config r0 s)
    (hslot : s.slot = id) : SlotStates config r0 (Cryptarchia.new id s config) := by
  refine ⟨Cryptarchia.new_lockstep id s config, rfl, fun k s' hk => ?_⟩
  by_cases hkid : k = id
  · subst hkid
    simp only [Cryptarchia.new, Ledger.new, Function.update_self, Option.some.injEq] at hk
    exact hk ▸ ⟨hs, hslot⟩
  · simp [Cryptarchia.new, Ledger.new, hkid] at hk

/-- One block: over a stored parent at an earlier slot, the block is applied, and
the engine takes the state `receive_block` returns. -/
theorem SlotStates.processBlock {c : Cryptarchia Slot} (hc : SlotStates config r0 c)
    (order : IterOrder Slot) {slot parent : Slot} (hlt : parent < slot)
    (hepoch : slot < config.epochLength) (hbyte : slot < 256)
    {e : CryptarchiaEngine.Cryptarchia Slot}
    (he : c.consensus.receiveBlock order slot parent slot = ok e) :
    ∃ c', (CryptarchiaConsensus.processBlock H order Header.slot (fun _ : Unit => ()) (some ∅) c
        (slotBlock r0 slot parent) : Outcome ε _) = ok (c', true) ∧
      c'.consensus = e ∧ SlotStates config r0 c' := by
  obtain ⟨t, r, ht, -, -⟩ := CryptarchiaEngine.Cryptarchia.receiveBlock_eq_ok.mp he
  obtain ⟨p, hp, -, -⟩ := Branches.applyHeader_eq_ok.mp ht
  obtain ⟨s, hs⟩ := Option.ne_none_iff_exists'.mp
    ((hc.lockstep.keys parent).mpr (by rw [hp]; exact Option.some_ne_none _))
  obtain ⟨hfirst, hslot⟩ := hc.states parent s hs
  have hupdate : ∃ s', (s.tryUpdate H slot (⟨slotNullifier slot, ⟨Bytes32.zero⟩, r0⟩ :
      AcceptedProof) [] config : Outcome (LedgerError Slot) LedgerState) = ok s' ∧
      FirstEpoch config r0 s' ∧ s'.slot = slot :=
    hfirst.tryUpdate (by rw [hslot]; exact hlt) hepoch hbyte _
  obtain ⟨s', hs', hfirst', hslot'⟩ := hupdate
  have hledger : c.ledger.tryUpdate H slot parent slot
      (⟨slotNullifier slot, ⟨Bytes32.zero⟩, r0⟩ : AcceptedProof) [] =
      ok ⟨Function.update c.ledger.states slot (some s'), c.ledger.config⟩ :=
    Ledger.tryUpdate_eq_ok.mpr ⟨s, s', hs, by simp, by rw [hc.config_eq]; exact hs', rfl⟩
  have happly : c.tryApplyHeader H order Header.slot (slotBlock r0 slot parent).header =
      ok ⟨⟨Function.update c.ledger.states slot (some s'), c.ledger.config⟩, e⟩ :=
    Cryptarchia.tryApplyHeader_eq_ok.mpr ⟨_, e, hledger, he, rfl⟩
  refine ⟨_, processBlock_eq_applied.mpr ⟨∅, rfl, rfl, happly⟩, rfl,
    Cryptarchia.tryApplyHeader_lockstep hc.lockstep happly, hc.config_eq, fun id s'' hid => ?_⟩
  by_cases hid' : id = slot
  · subst hid'
    simp only [Function.update_self, Option.some.injEq] at hid
    exact hid ▸ ⟨hfirst', hslot'⟩
  · simp only [Function.update_of_ne hid'] at hid
    exact hc.states id s'' hid

/-- A run of such blocks, each over a stored parent at an earlier slot: the
service's engine ends where the engine's own run ends. -/
theorem SlotStates.processBlocks (order : IterOrder Slot) :
    ∀ (blocks : List (Slot × Slot)) {c : Cryptarchia Slot}
      {e : CryptarchiaEngine.Cryptarchia Slot}, SlotStates config r0 c →
      (∀ b ∈ blocks, b.2 < b.1 ∧ b.1 < config.epochLength ∧ b.1 < 256) →
      CryptarchiaEngine.Cryptarchia.receiveBlocks order c.consensus (engineBlocks blocks) = ok e →
      ∃ c', (CryptarchiaConsensus.processBlocks H order Header.slot (fun _ : Unit => ())
          (fun _ => some ∅) c (slotBlocks r0 blocks) : Outcome ε _) = ok c' ∧
        c'.consensus = e ∧ SlotStates config r0 c'
  | [], c, e, hc, _, he => by
    simp only [engineBlocks, List.map_nil, CryptarchiaEngine.Cryptarchia.receiveBlocks,
      ok.injEq] at he
    exact ⟨c, rfl, he, hc⟩
  | (slot, parent) :: rest, c, e, hc, hblocks, he => by
    simp only [engineBlocks, List.map_cons, CryptarchiaEngine.Cryptarchia.receiveBlocks,
      bind_def, bind_eq_ok] at he
    obtain ⟨e1, he1, hrest⟩ := he
    obtain ⟨hlt, hepoch, hbyte⟩ := hblocks (slot, parent) List.mem_cons_self
    obtain ⟨c1, hc1, hce1, hs1⟩ := hc.processBlock (ε := ε) H order hlt hepoch hbyte he1
    obtain ⟨c', h', hce', hs'⟩ := SlotStates.processBlocks order rest hs1
      (fun b hb => hblocks b (List.mem_cons_of_mem _ hb)) (by rw [hce1]; exact hrest)
    refine ⟨c', ?_, hce', hs'⟩
    rw [slotBlocks, List.map_cons, processBlocks_cons, hc1, ok_bind]
    exact h'

end FirstEpoch

/-! ## Recovery from the security block changes the fork choice -/

section SecurityRecovery

/-- The blocks `(slot, parent)` a node received before it stopped: a chain from
genesis `0` to the tip `45`, whose security block for `k = 5` is `40`. -/
def savedRun : List (Slot × Slot) := [(40, 0), (41, 40), (42, 41), (43, 42), (44, 43), (45, 44)]

/-- The blocks received after the restart, all below block `40`: `46` on the tip,
then a fork of seven blocks from `40`, inside the `s = 30` slots after it. -/
def laterRun : List (Slot × Slot) :=
  [(46, 45), (47, 40), (48, 47), (49, 48), (50, 49), (51, 50), (52, 51), (53, 52)]

/-- A block store holding `blocks` under their ids. -/
def storeOf (blocks : List (Block Slot AcceptedProof Unit Unit)) (id : Slot) :
    Option (Block Slot AcceptedProof Unit Unit) :=
  blocks.find? fun block => decide (block.header.slot = id)

/-- With the test configuration (`k = 5`, `s = 30`), a node that processed
`savedRun` from genesis saves the security block `40` and its ledger state; the
node rebuilt from that saved state by `build_cryptarchia` has the same tip `45`.
Both then process `laterRun`, in any order of the tips. At the fork from
block `40`, seven blocks deep on the local chain, the running node measures
density up to slot `40 + 30` and moves to the fork's tip `53`; the recovered
node, whose block `40` has slot 0, measures up to slot `30`, where neither chain
has a block, and keeps `46`. -/
theorem recovery_from_security_changes_tip (H : Hashes) :
    ∃ (r0 : Bytes32) (genesisState : LedgerState),
      (LedgerState.fromCommitments H [] 1 : Outcome (LedgerError Slot) LedgerState) =
        ok genesisState ∧
      ∀ order order' : IterOrder Slot, ∃ S R S' R' : Cryptarchia Slot,
        (processBlocks H order Header.slot (fun _ : Unit => ()) (fun _ => some ∅)
          (Cryptarchia.new 0 genesisState testConfig) (slotBlocks r0 savedRun) :
            Outcome Empty _) = ok S ∧
        S.consensus.getSecurityBlockHeaderId = some 40 ∧
        (buildCryptarchia H order' Header.slot (fun _ : Unit => ()) (fun _ => some ∅)
          (storeOf (slotBlocks r0 savedRun)) (savedRun.length + 1)
          (ConsensusState.fromCryptarchia S fun _ => some ([] : List Unit)) 0 genesisState
          testConfig : Outcome Empty _) = ok R ∧
        R.tip = S.tip ∧
        (processBlocks H order Header.slot (fun _ : Unit => ()) (fun _ => some ∅) S
          (slotBlocks r0 laterRun) : Outcome Empty _) = ok S' ∧
        (processBlocks H order' Header.slot (fun _ : Unit => ()) (fun _ => some ∅) R
          (slotBlocks r0 laterRun) : Outcome Empty _) = ok R' ∧
        S'.tip = 53 ∧ R'.tip = 46 := by
  obtain ⟨r0, s0, hs0, hs0eq⟩ := fromCommitments_nil (ε := LedgerError Slot) H
  refine ⟨r0, s0, hs0, fun order order' => ?_⟩
  -- the engines of both nodes, with the tips visited in increasing order; no step
  -- meets more than two tips or depends on their order
  have hrunS : (do
      let eS ← CryptarchiaEngine.Cryptarchia.receiveBlocks IterOrder.sorted
        (CryptarchiaEngine.Cryptarchia.new 0 testConfig.consensusConfig) (engineBlocks savedRun)
      let eS' ← CryptarchiaEngine.Cryptarchia.receiveBlocks IterOrder.sorted eS
        (engineBlocks laterRun)
      ok (CryptarchiaEngine.Cryptarchia.receiveBlocksTwoTips
            (CryptarchiaEngine.Cryptarchia.new 0 testConfig.consensusConfig)
            (engineBlocks savedRun) &&
          CryptarchiaEngine.Cryptarchia.receiveBlocksTwoTips eS (engineBlocks laterRun),
        eS.tip, eS.getSecurityBlockHeaderId, eS.branches.entries 40, eS'.tip) :
        Outcome (CryptarchiaEngine.Error Slot) _) =
      ok (true, 45, some 40, some ⟨40, 0, 40, 1⟩, 53) := by
    decide +kernel
  have hrunR : (do
      let eR ← CryptarchiaEngine.Cryptarchia.receiveBlocks IterOrder.sorted
        (CryptarchiaEngine.Cryptarchia.new 40 testConfig.consensusConfig)
        (engineBlocks savedRun.tail)
      let eR' ← CryptarchiaEngine.Cryptarchia.receiveBlocks IterOrder.sorted eR
        (engineBlocks laterRun)
      ok (CryptarchiaEngine.Cryptarchia.receiveBlocksTwoTips
            (CryptarchiaEngine.Cryptarchia.new 40 testConfig.consensusConfig)
            (engineBlocks savedRun.tail) &&
          CryptarchiaEngine.Cryptarchia.receiveBlocksTwoTips eR (engineBlocks laterRun),
        eR.tip, eR'.tip) : Outcome (CryptarchiaEngine.Error Slot) _) = ok (true, 45, 46) := by
    decide +kernel
  simp only [bind_def, bind_eq_ok, ok.injEq, Prod.mk.injEq, Bool.and_eq_true] at hrunS hrunR
  obtain ⟨eS, hS, eS', hS', ⟨htwoS, htwoS'⟩, htipS, hsecS, hentry, htipS'⟩ := hrunS
  obtain ⟨eR, hR, eR', hR', ⟨htwoR, htwoR'⟩, htipR, htipR'⟩ := hrunR
  have hslots : ∀ run ∈ [savedRun, savedRun.tail, laterRun],
      ∀ b ∈ run, b.2 < b.1 ∧ b.1 < testConfig.epochLength ∧ b.1 < 256 := by
    decide
  have hS0 : SlotStates testConfig r0 (Cryptarchia.new 0 s0 testConfig) :=
    new_slotStates (fromCommitments_nil_firstEpoch hs0eq) (by rw [hs0eq])
  obtain ⟨S, hSrun, hSc, hSs⟩ := SlotStates.processBlocks (ε := Empty) H order savedRun hS0
    (hslots _ (by simp)) ((CryptarchiaEngine.Cryptarchia.receiveBlocks_of_twoTips order htwoS).trans hS)
  obtain ⟨st, hst⟩ := Option.ne_none_iff_exists'.mp
    ((hSs.lockstep.keys 40).mpr (by rw [hSc, hentry]; exact Option.some_ne_none _))
  have hbuild : (buildCryptarchia H order' Header.slot (fun _ : Unit => ()) (fun _ => some ∅)
      (storeOf (slotBlocks r0 savedRun)) (savedRun.length + 1)
      (ConsensusState.fromCryptarchia S fun _ => some ([] : List Unit)) 0 s0 testConfig :
        Outcome Empty _) =
      processBlocks H order' Header.slot (fun _ : Unit => ()) (fun _ => some ∅)
        (Cryptarchia.new 40 st testConfig) (slotBlocks r0 savedRun.tail) := by
    have htip : S.tip = 45 := by rw [Cryptarchia.tip, hSc, htipS]
    simp only [buildCryptarchia, ConsensusState.recoveryStrategy, ConsensusState.fromCryptarchia,
      hSc, hsecS, Option.bind_some, Ledger.state, hst, recoverFromSecurity, recoverCryptarchia,
      htip]
    rfl
  obtain ⟨R, hRrun, hRc, hRs⟩ := SlotStates.processBlocks (ε := Empty) H order' savedRun.tail
    (new_slotStates (hSs.states 40 st hst).1 (hSs.states 40 st hst).2) (hslots _ (by simp))
    ((CryptarchiaEngine.Cryptarchia.receiveBlocks_of_twoTips order' htwoR).trans hR)
  obtain ⟨S', hSrun', hSc', -⟩ := SlotStates.processBlocks (ε := Empty) H order laterRun hSs
    (hslots _ (by simp)) (by rw [hSc]; exact (CryptarchiaEngine.Cryptarchia.receiveBlocks_of_twoTips order htwoS').trans hS')
  obtain ⟨R', hRrun', hRc', -⟩ := SlotStates.processBlocks (ε := Empty) H order' laterRun hRs
    (hslots _ (by simp)) (by rw [hRc]; exact (CryptarchiaEngine.Cryptarchia.receiveBlocks_of_twoTips order' htwoR').trans hR')
  refine ⟨S, R, S', R', hSrun, by rw [hSc, hsecS], hbuild.trans hRrun, ?_, hSrun', hRrun', ?_, ?_⟩
  · rw [Cryptarchia.tip, Cryptarchia.tip, hRc, hSc, htipR, htipS]
  · rw [Cryptarchia.tip, hSc', htipS']
  · rw [Cryptarchia.tip, hRc', htipR']

end SecurityRecovery

end CryptarchiaConsensus
