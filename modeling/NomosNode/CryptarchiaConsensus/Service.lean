import NomosNode.Core.Header
import NomosNode.Ledger.Chains
import NomosNode.Engine.Reachable

/-!
# The consensus service's chain state

`nomos-services/cryptarchia-consensus/src/lib.rs`: `try_apply_header` updates
the ledger, then the engine, and keeps the pair only when both succeed, so the
two store the same block ids and the tip's ledger state is always found.
`epoch_state_for_slot` returns nothing for a slot two or more epochs past the
tip, although the ledger accepts a block there. Block ids are a function of the
header; the engine visits its tips in any order.
-/

namespace CryptarchiaConsensus

open Outcome Cl NomosLedger CryptarchiaEngine NomosCore

variable {Id : Type} {ε : Type} {H : Hashes}

inductive Error (Id : Type) where
  | ledger (e : LedgerError Id)
  | consensus (e : CryptarchiaEngine.Error Id)

structure Cryptarchia (Id : Type) where
  ledger : Ledger Id
  consensus : CryptarchiaEngine.Cryptarchia Id

namespace Cryptarchia

def tip (self : Cryptarchia Id) : Id := self.consensus.tip

def tipState (self : Cryptarchia Id) : Outcome ε LedgerState :=
  expect (self.ledger.state self.tip) "tip state not available"

def genesis (self : Cryptarchia Id) : Id := self.consensus.genesis

def epochStateForSlot (self : Cryptarchia Id) (slot : Slot) : Outcome ε (Option EpochState) := do
  let tip := self.tip
  let state ← expect (self.ledger.state tip) "no state for tip"
  let requestedEpoch ← self.ledger.config.epoch slot
  if state.epochState.epoch = requestedEpoch then ok (some state.epochState)
  else if requestedEpoch = state.nextEpochState.epoch then ok (some state.nextEpochState)
  else ok none

variable [DecidableEq Id]

def new (headerId : Id) (ledgerState : LedgerState) (ledgerConfig : NomosLedger.Config) : Cryptarchia Id where
  consensus := CryptarchiaEngine.Cryptarchia.new headerId ledgerConfig.consensusConfig
  ledger := Ledger.new headerId ledgerState ledgerConfig

def tryApplyHeader {P : Type} [LeaderProof P] (H : Hashes) (order : IterOrder Id)
    (headerId : Header Id P → Id) (self : Cryptarchia Id) (header : Header Id P) :
    Outcome (Error Id) (Cryptarchia Id) := do
  let id := headerId header
  let parent := header.parent
  let slot := header.slot
  let ledger ← (self.ledger.tryUpdate H id parent slot header.leaderProof
    (header.orphanedLeaderProofs.map fun importedHeader =>
      (headerId importedHeader, LeaderProof.toOrphanProof importedHeader.leaderProof))).mapErr
    .ledger
  let consensus ← (self.consensus.receiveBlock order id parent slot).mapErr .consensus
  ok { ledger, consensus }

theorem tryApplyHeader_eq_ok {P : Type} [LeaderProof P] {order : IterOrder Id}
    {headerId : Header Id P → Id} {self c : Cryptarchia Id} {header : Header Id P} :
    self.tryApplyHeader H order headerId header = ok c ↔
      ∃ ledger consensus, self.ledger.tryUpdate H (headerId header) header.parent header.slot
          header.leaderProof (header.orphanedLeaderProofs.map fun importedHeader =>
            (headerId importedHeader, LeaderProof.toOrphanProof importedHeader.leaderProof)) =
          ok ledger ∧
        self.consensus.receiveBlock order (headerId header) header.parent header.slot =
          ok consensus ∧
        c = ⟨ledger, consensus⟩ := by
  simp only [tryApplyHeader, bind_def, bind_eq_ok, mapErr_eq_ok, ok.injEq]
  constructor
  · rintro ⟨ledger, hl, consensus, hc, rfl⟩
    exact ⟨ledger, consensus, hl, hc, rfl⟩
  · rintro ⟨ledger, consensus, hl, hc, rfl⟩
    exact ⟨ledger, hl, consensus, hc, rfl⟩

/-- The ledger and the engine store the same block ids; the engine stores
every branch under its own id, and its tips and its local chain are stored. -/
structure Lockstep (c : Cryptarchia Id) : Prop where
  keys : ∀ k, c.ledger.states k ≠ none ↔ c.consensus.branches.entries k ≠ none
  id_eq : ∀ {k b}, c.consensus.branches.entries k = some b → b.id = k
  tips_entry : ∀ {t}, t ∈ c.consensus.branches.tips → c.consensus.branches.entries t ≠ none
  localChain_entry : c.consensus.branches.entries c.consensus.localChain.id ≠ none

theorem new_lockstep (headerId : Id) (ledgerState : LedgerState) (ledgerConfig : NomosLedger.Config) :
    (new headerId ledgerState ledgerConfig).Lockstep where
  keys k := by
    by_cases hk : k = headerId
    · subst hk
      simp [new, Ledger.new, CryptarchiaEngine.Cryptarchia.new, Branches.fromGenesis]
    · simp [new, Ledger.new, CryptarchiaEngine.Cryptarchia.new, Branches.fromGenesis, hk]
  id_eq {k b} hb := by
    by_cases hk : k = headerId
    · subst hk
      simp only [new, CryptarchiaEngine.Cryptarchia.new, Branches.fromGenesis,
        Function.update_self, Option.some.injEq] at hb
      rw [← hb]
    · simp [new, CryptarchiaEngine.Cryptarchia.new, Branches.fromGenesis, hk] at hb
  tips_entry {t} ht := by
    simp only [new, CryptarchiaEngine.Cryptarchia.new, Branches.fromGenesis,
      Finset.mem_singleton] at ht
    subst ht
    simp [new, CryptarchiaEngine.Cryptarchia.new, Branches.fromGenesis]
  localChain_entry := by simp [new, CryptarchiaEngine.Cryptarchia.new, Branches.fromGenesis]

theorem new_state_tip (headerId : Id) (ledgerState : LedgerState)
    (ledgerConfig : NomosLedger.Config) :
    (new headerId ledgerState ledgerConfig).ledger.state
      (new headerId ledgerState ledgerConfig).tip = some ledgerState :=
  Ledger.new_states_self _ _ _

/-- A header that both the ledger and the engine accept is stored by both. -/
theorem tryApplyHeader_lockstep {P : Type} [LeaderProof P] {order : IterOrder Id}
    {headerId : Header Id P → Id} {self c : Cryptarchia Id} {header : Header Id P}
    (hself : self.Lockstep) (h : self.tryApplyHeader H order headerId header = ok c) :
    c.Lockstep := by
  obtain ⟨ledger, consensus, hl, hc, rfl⟩ := tryApplyHeader_eq_ok.mp h
  obtain ⟨parentState, newState, -, -, -, rfl⟩ := Ledger.tryUpdate_eq_ok.mp hl
  obtain ⟨⟨length, hentries⟩, htips, hlocal⟩ := CryptarchiaEngine.Cryptarchia.receiveBlock_shape hc
  have hold : ∀ {k}, k ≠ headerId header →
      consensus.branches.entries k = self.consensus.branches.entries k := by
    intro k hk
    rw [hentries, Function.update_of_ne hk]
  have hnew : consensus.branches.entries (headerId header) ≠ none := by
    rw [hentries, Function.update_self]
    exact Option.some_ne_none _
  have hgrow : ∀ {k}, self.consensus.branches.entries k ≠ none →
      consensus.branches.entries k ≠ none := by
    intro k hk
    by_cases hkh : k = headerId header
    · rw [hkh]
      exact hnew
    · rw [hold hkh]
      exact hk
  have hid : ∀ {k b}, consensus.branches.entries k = some b → b.id = k := by
    intro k b hb
    by_cases hkh : k = headerId header
    · rw [hkh, hentries, Function.update_self, Option.some.injEq] at hb
      rw [hkh, ← hb]
    · rw [hold hkh] at hb
      exact hself.id_eq hb
  refine ⟨fun k => ?_, hid, fun {t} ht => ?_, ?_⟩
  · dsimp only
    by_cases hkh : k = headerId header
    · rw [hkh, Function.update_self]
      exact ⟨fun _ => hnew, fun _ => Option.some_ne_none _⟩
    · rw [Function.update_of_ne hkh, hold hkh]
      exact hself.keys k
  · rw [htips] at ht
    rcases Finset.mem_insert.mp ht with rfl | ht
    · exact hnew
    · exact hgrow (hself.tips_entry (Finset.mem_of_mem_erase ht))
  · rcases hlocal with hlc | ⟨t, -, hte⟩
    · rw [hlc]
      exact hgrow hself.localChain_entry
    · rw [hid hte, hte]
      exact Option.some_ne_none _

/-- The states the service reaches from `Cryptarchia::new(genesis)` by the
headers that `try_apply_header` accepts; a rejected header leaves the state as
it was. -/
inductive Reachable (H : Hashes) (genesis : Id) (ledgerState : LedgerState)
    (ledgerConfig : NomosLedger.Config) : Cryptarchia Id → Prop
  | new : Reachable H genesis ledgerState ledgerConfig (new genesis ledgerState ledgerConfig)
  | apply {P : Type} [LeaderProof P] {c c' : Cryptarchia Id} (order : IterOrder Id)
      (headerId : Header Id P → Id) (header : Header Id P) :
      Reachable H genesis ledgerState ledgerConfig c →
      c.tryApplyHeader H order headerId header = ok c' →
      Reachable H genesis ledgerState ledgerConfig c'

theorem Reachable.lockstep {genesis : Id} {ledgerState : LedgerState} {ledgerConfig : NomosLedger.Config}
    {c : Cryptarchia Id} (h : Reachable H genesis ledgerState ledgerConfig c) : c.Lockstep := by
  induction h with
  | new => exact new_lockstep genesis ledgerState ledgerConfig
  | apply _ _ _ _ hstep ih => exact tryApplyHeader_lockstep ih hstep

/-- On every state the service reaches, the ledger and the engine store the
same block ids, and the tip has a ledger state: neither `tip_state` nor
`epoch_state_for_slot` panics on its lookup. -/
theorem reachable_lockstep {genesis : Id} {ledgerState : LedgerState} {ledgerConfig : NomosLedger.Config}
    {c : Cryptarchia Id} (h : Reachable H genesis ledgerState ledgerConfig c) :
    (∀ k, c.ledger.states k ≠ none ↔ c.consensus.branches.entries k ≠ none) ∧
    ∃ state, c.ledger.state c.tip = some state ∧
      (c.tipState : Outcome ε LedgerState) = ok state ∧
      ∀ slot, (c.epochStateForSlot slot : Outcome ε (Option EpochState)) ≠
        .panic "no state for tip" := by
  have hc := h.lockstep
  obtain ⟨state, hstate⟩ := Option.ne_none_iff_exists'.mp
    ((hc.keys c.tip).mpr hc.localChain_entry)
  refine ⟨hc.keys, state, hstate, by simp [tipState, Ledger.state, hstate], fun slot => ?_⟩
  simp only [epochStateForSlot, Ledger.state] at hstate ⊢
  simp only [hstate, expect_some, bind_def, ok_bind]
  cases he : (c.ledger.config.epoch slot : Outcome ε Epoch) with
  | ok e =>
    rw [ok_bind]
    split_ifs <;> simp
  | err e => simp
  | panic m =>
    rw [panic_bind, ne_eq, Outcome.panic.injEq, EpochConfig.epoch_eq_panic he]
    decide
  | div => simp

/-- From the service's genesis on the ledger genesis of the test configuration,
with hashes that return zero, the header of block `1` at slot 1, with an
accepted proof on the genesis root, is applied by the ledger and the engine:
both then store blocks `0` and `1`, and the tip has a ledger state. -/
theorem reachable_lockstep_one_block :
    ∃ (r0 : Bytes32) (s0 : LedgerState) (c : Cryptarchia ℕ),
      (LedgerState.fromCommitments ⟨fun _ => Bytes32.zero, fun _ => Bytes32.zero⟩ [] 1 :
        Outcome (LedgerError ℕ) LedgerState) = ok s0 ∧
      (new 0 s0 testConfig).tryApplyHeader ⟨fun _ => Bytes32.zero, fun _ => Bytes32.zero⟩
        IterOrder.sorted (fun _ => 1) (⟨0, 1, 0, ⟨Bytes32.zero⟩,
          (⟨⟨Vector.replicate 32 1⟩, ⟨Bytes32.zero⟩, r0⟩ : AcceptedProof), []⟩ :
          Header ℕ AcceptedProof) = ok c ∧
      (∀ k, c.ledger.states k ≠ none ↔ c.consensus.branches.entries k ≠ none) ∧
      c.ledger.states 1 ≠ none ∧
      ∃ state, c.ledger.state c.tip = some state ∧ (c.tipState : Outcome Empty LedgerState) = ok state := by
  obtain ⟨r0, s0, hs0, hs0eq⟩ := fromCommitments_nil (ε := LedgerError ℕ)
    ⟨fun _ => Bytes32.zero, fun _ => Bytes32.zero⟩
  obtain ⟨s1, hledger⟩ := Ledger.genesis_tryUpdate_one ⟨fun _ => Bytes32.zero, fun _ => Bytes32.zero⟩
    hs0eq ⟨Vector.replicate 32 1⟩ ⟨Bytes32.zero⟩
  obtain ⟨consensus, hconsensus⟩ : ∃ consensus,
      (CryptarchiaEngine.Cryptarchia.new 0 testConfig.consensusConfig).receiveBlock
        IterOrder.sorted 1 0 1 = ok consensus := by
    have hrun : (do
        let _ ← (CryptarchiaEngine.Cryptarchia.new 0 testConfig.consensusConfig).receiveBlock
          IterOrder.sorted 1 0 1
        ok () : Outcome (CryptarchiaEngine.Error ℕ) Unit) = ok () := by
      decide
    cases hc : (CryptarchiaEngine.Cryptarchia.new 0 testConfig.consensusConfig).receiveBlock
        IterOrder.sorted 1 0 1 with
    | ok c => exact ⟨c, rfl⟩
    | err e => rw [hc] at hrun; cases hrun
    | panic m => rw [hc] at hrun; cases hrun
    | div => rw [hc] at hrun; cases hrun
  have happly : (new 0 s0 testConfig).tryApplyHeader ⟨fun _ => Bytes32.zero, fun _ => Bytes32.zero⟩
      IterOrder.sorted (fun _ => 1) (⟨0, 1, 0, ⟨Bytes32.zero⟩,
        (⟨⟨Vector.replicate 32 1⟩, ⟨Bytes32.zero⟩, r0⟩ : AcceptedProof), []⟩ :
        Header ℕ AcceptedProof) = ok ⟨_, consensus⟩ :=
    tryApplyHeader_eq_ok.mpr ⟨_, consensus, hledger, hconsensus, rfl⟩
  obtain ⟨hkeys, state, hstate, htip, -⟩ :=
    reachable_lockstep (ε := Empty) (Reachable.apply IterOrder.sorted _ _ Reachable.new happly)
  exact ⟨r0, s0, _, hs0, happly, hkeys, by simp, state, hstate, htip⟩

omit [DecidableEq Id] in
/-- On a tip state whose snapshots are aligned, `epoch_state_for_slot` returns
the current snapshot for the tip's epoch, the next snapshot for the epoch
after, and nothing for a later epoch. -/
theorem epochStateForSlot_of_aligned {c : Cryptarchia Id} {state : LedgerState} {slot : Slot}
    {e : Epoch} (hstate : c.ledger.state c.tip = some state)
    (haligned : EpochsAligned c.ledger.config state)
    (he : (c.ledger.config.epoch slot : Outcome ε Epoch) = ok e) :
    (c.epochStateForSlot slot : Outcome ε (Option EpochState)) =
      ok (if state.epochState.epoch = e then some state.epochState
        else if e = state.epochState.epoch + 1 then some state.nextEpochState else none) := by
  simp only [epochStateForSlot, hstate, expect_some, bind_def, ok_bind, he, haligned.next_eq]
  split_ifs <;> rfl

/-- At genesis, with the test configuration's epochs of 100 slots, no epoch
state is available for slot 200, two epochs ahead, although the ledger moves
the genesis state to that slot, into epoch 2. -/
theorem epochStateForSlot_none_two_epochs_ahead (H : Hashes) :
    ∃ s0, (LedgerState.fromCommitments H [] 1 : Outcome (LedgerError ℕ) LedgerState) = ok s0 ∧
      ((new 0 s0 testConfig : Cryptarchia ℕ).epochStateForSlot 200 :
        Outcome Empty (Option EpochState)) = ok none ∧
      ∃ s, (s0.updateEpochState 200 testConfig : Outcome (LedgerError ℕ) LedgerState) = ok s ∧
        s.slot = 200 ∧ s.epochState.epoch = 2 := by
  obtain ⟨r0, s0, hs0, hs0eq⟩ := fromCommitments_nil (ε := LedgerError ℕ) H
  refine ⟨s0, hs0, ?_, ?_⟩
  · rw [epochStateForSlot_of_aligned (new_state_tip 0 s0 testConfig)
      (fromCommitments_aligned hs0)
      (show (testConfig.epoch 200 : Outcome Empty Epoch) = ok 2 from rfl), hs0eq]
    rfl
  · -- case 3 of `update_epoch_state`: both snapshots are taken from the state itself
    have h0 : (testConfig.epoch 0 : Outcome (LedgerError ℕ) Epoch) = ok 0 := rfl
    have h2 : (testConfig.epoch 200 : Outcome (LedgerError ℕ) Epoch) = ok 2 := rfl
    subst hs0eq
    refine ⟨⟨⟨[], {r0}⟩, ⟨[], {r0}⟩, ∅, Bytes32.zero, 200, ⟨3, Bytes32.zero, ⟨[], {r0}⟩, 1⟩,
      ⟨2, Bytes32.zero, ⟨[], {r0}⟩, 1⟩⟩, ?_, rfl, rfl⟩
    simp only [LedgerState.updateEpochState, h0, h2, bind_def, ok_bind,
      addChecked_of_lt (show 0 + 1 < 2 ^ 32 by norm_num),
      addChecked_of_lt (show 2 + 1 < 2 ^ 32 by norm_num)]
    rfl

end Cryptarchia

end CryptarchiaConsensus
