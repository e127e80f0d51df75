import NomosNode.Ledger.LedgerState

/-!
# Epoch bookkeeping along a chain

The ledger states reachable from `from_commitments` by successful calls of
`update_epoch_state` and `try_update`, and the invariant they keep: the
current epoch snapshot is for the epoch of the state's slot, and the next
snapshot for the epoch after. Each of the three cases of
`update_epoch_state` re-establishes it; the proof outputs and the nonce
update leave the slot and the snapshots alone. The note trees of such a state
keep their root histories, so a proof is applied only against the root of a
prefix of the commitments the ledger holds.
-/

namespace NomosLedger

open Outcome Cl CryptarchiaEngine

variable {Id : Type} {ε : Type} {H : Hashes} {config : Config}

inductive Reachable (Id : Type) (H : Hashes) (config : Config) : LedgerState → Prop
  | fromCommitments {s : LedgerState} (commitments : List NoteCommitment) (totalStake : ℕ) :
      (LedgerState.fromCommitments H commitments totalStake :
        Outcome (LedgerError Id) LedgerState) = ok s → Reachable Id H config s
  | updateEpochState {s s' : LedgerState} (slot : Slot) : Reachable Id H config s →
      (s.updateEpochState slot config : Outcome (LedgerError Id) LedgerState) = ok s' →
      Reachable Id H config s'
  | tryUpdate {s s' : LedgerState} {P : Type} [LeaderProof P] (slot : Slot) (proof : P)
      (orphanProofs : List OrphanProof) : Reachable Id H config s →
      (s.tryUpdate H slot proof orphanProofs config : Outcome (LedgerError Id) LedgerState) =
        ok s' → Reachable Id H config s'

/-- The epoch snapshots are those of the slot's epoch and of the next one. -/
structure EpochsAligned (config : Config) (s : LedgerState) : Prop where
  epoch_eq : s.epochState.epoch = s.slot / config.epochLength
  epoch_lt : s.epochState.epoch < 2 ^ 32
  next_eq : s.nextEpochState.epoch = s.epochState.epoch + 1

theorem EpochsAligned.epoch_ok {s : LedgerState} (h : EpochsAligned config s) :
    (config.epoch s.slot : Outcome ε Epoch) = ok s.epochState.epoch :=
  Config.epoch_eq_ok.mpr ⟨h.epoch_eq, h.epoch_lt⟩

theorem fromCommitments_aligned {commitments : List NoteCommitment} {totalStake : ℕ}
    {s : LedgerState}
    (h : (LedgerState.fromCommitments H commitments totalStake : Outcome ε LedgerState) = ok s) :
    EpochsAligned config s := by
  obtain ⟨tree, -, rfl⟩ := LedgerState.fromCommitments_eq_ok h
  exact ⟨by simp, by simp, rfl⟩

theorem updateEpochState_aligned {s s' : LedgerState} {slot : Slot} (hs : EpochsAligned config s)
    (h : (s.updateEpochState slot config : Outcome (LedgerError Id) LedgerState) = ok s') :
    EpochsAligned config s' := by
  obtain ⟨-, ce, ne, hce, hne, hcases⟩ := LedgerState.updateEpochState_eq_ok (ε := Empty) h
  have hce' := Config.epoch_eq_ok.mp hce
  have hne' := Config.epoch_eq_ok.mp hne
  have hcur : ce = s.epochState.epoch := by
    rw [hce'.1, hs.epoch_eq]
  rcases hcases with ⟨hsame, n, hn, rfl⟩ | ⟨-, hnext, hlt, rfl⟩ | ⟨-, -, hlt, rfl⟩
  · obtain ⟨t, -, rfl⟩ := EpochState.updateFromLedger_eq_ok.mp hn
    exact ⟨by rw [← hcur, hsame, hne'.1], hs.epoch_lt, hs.next_eq⟩
  · refine ⟨?_, ?_, ?_⟩
    · show s.nextEpochState.epoch = slot / config.epochLength
      rw [hs.next_eq, ← hcur, ← hnext, hne'.1]
    · show s.nextEpochState.epoch < 2 ^ 32
      rw [hs.next_eq, ← hcur, ← hnext]
      exact hne'.2
    · show ne + 1 = s.nextEpochState.epoch + 1
      rw [hs.next_eq, ← hcur, ← hnext]
  · exact ⟨hne'.1, hne'.2, rfl⟩

theorem tryUpdate_aligned {P : Type} [LeaderProof P] {s s' : LedgerState} {slot : Slot}
    {proof : P} {orphanProofs : List OrphanProof} (hs : EpochsAligned config s)
    (h : (s.tryUpdate H slot proof orphanProofs config : Outcome (LedgerError Id) LedgerState) =
      ok s') :
    EpochsAligned config s' := by
  obtain ⟨s1, h1, h2⟩ := LedgerState.tryUpdate_eq_ok.mp h
  have hs1 := updateEpochState_aligned hs h1
  obtain ⟨hslot, hepoch, hnext⟩ := LedgerState.tryApplyLeadership_frame h2
  exact ⟨by rw [hepoch, hslot]; exact hs1.epoch_eq, by rw [hepoch]; exact hs1.epoch_lt,
    by rw [hnext, hepoch]; exact hs1.next_eq⟩

theorem Reachable.aligned {s : LedgerState} (h : Reachable Id H config s) :
    EpochsAligned config s := by
  induction h with
  | fromCommitments _ _ hs => exact fromCommitments_aligned hs
  | updateEpochState _ _ h ih => exact updateEpochState_aligned ih h
  | tryUpdate _ _ _ _ h ih => exact tryUpdate_aligned ih h

/-- On every reachable state the current snapshot is for the epoch of the
state's slot and the next one for the epoch after; so in every `try_update`
from it the `assert_eq!` of `try_apply_proof` compares equal epochs (the
orphan proofs applied before it keep the snapshots), and the `u32`
subtraction of `stake_distribution_snapshot`, called by
`update_from_ledger` on the next snapshot, does not underflow. -/
theorem reachable_epochState {s : LedgerState} (h : Reachable Id H config s) :
    (config.epoch s.slot : Outcome ε Epoch) = ok s.epochState.epoch ∧
      s.nextEpochState.epoch = s.epochState.epoch + 1 ∧
      (∀ (slot : Slot) (orphanProofs : List OrphanProof) (s1 s2 : LedgerState),
        (s.updateEpochState slot config : Outcome (LedgerError Id) LedgerState) = ok s1 →
        (orphanProofs.foldlM
          (fun self o => self.tryApplyProofOutputs H o.cmRoot o.nullifier o.commitment) s1 :
          Outcome (LedgerError Id) LedgerState) = ok s2 →
        (config.epoch slot : Outcome ε Epoch) = ok s2.epochState.epoch) ∧
      (subChecked s.nextEpochState.epoch 1 : Outcome ε ℕ) = ok s.epochState.epoch := by
  have hs := h.aligned
  refine ⟨hs.epoch_ok, hs.next_eq, ?_, ?_⟩
  · intro slot orphanProofs s1 s2 h1 h2
    have hs1 := (h.updateEpochState slot h1).aligned
    obtain ⟨-, -, hepoch, -⟩ := LedgerState.foldlM_tryApplyProofOutputs_frame h2
    rw [hepoch, ← LedgerState.updateEpochState_slot h1]
    exact hs1.epoch_ok
  · rw [hs.next_eq, subChecked_of_le (Nat.le_add_left 1 _), Nat.add_sub_cancel]

/-- A leader proof that the verifier accepts: the ledger's bookkeeping does not
depend on how `verify` decides. -/
structure AcceptedProof where
  nullifier : Nullifier
  evolvedCommitment : NoteCommitment
  merkeRoot : Bytes32

instance : LeaderProof AcceptedProof where
  verify _ _ := true
  nullifier p := p.nullifier
  evolvedCommitment p := p.evolvedCommitment
  merkeRoot p := p.merkeRoot

/-- The genesis of `from_commitments` with no commitment and a total stake of
one: both trees hold the one root of the empty tree. -/
theorem fromCommitments_nil (H : Hashes) :
    ∃ r0 s0, (LedgerState.fromCommitments H [] 1 : Outcome ε LedgerState) = ok s0 ∧
      s0 = ⟨⟨[], {r0}⟩, ⟨[], {r0}⟩, ∅, Bytes32.zero, 0, ⟨1, Bytes32.zero, default, 1⟩,
        ⟨0, Bytes32.zero, default, 1⟩⟩ := by
  obtain ⟨r0, hr0⟩ : ∃ r, (NoteTree.fromIter H [] : Outcome ε NoteTree) = ok ⟨[], {r}⟩ :=
    NoteTree.fromIter_ok (by simp)
  exact ⟨r0, _, by simp only [LedgerState.fromCommitments, bind_def, hr0, ok_bind], rfl⟩

/-- With the test configuration, slot 1 after a state at slot 0 stays in epoch
0: only the next-epoch snapshot is refreshed, and it takes the state's nonce,
slot 0 being before the nonce snapshot of epoch 1 and at its stake snapshot. -/
theorem updateEpochState_one_of_slot_zero {s0 : LedgerState} (hslot : s0.slot = 0)
    (hnext : s0.nextEpochState.epoch = 1) :
    (s0.updateEpochState 1 testConfig : Outcome (LedgerError Id) LedgerState) =
      ok { s0 with
        slot := 1
        nextEpochState := ⟨1, s0.nonce, s0.nextEpochState.commitments,
          s0.nextEpochState.totalStake⟩ } := by
  refine LedgerState.updateEpochState_of_same (by rw [hslot]; exact Nat.zero_lt_one)
    (show (testConfig.epoch s0.slot : Outcome (LedgerError Id) Epoch) = ok 0 by rw [hslot]; rfl)
    (show (testConfig.epoch 1 : Outcome (LedgerError Id) Epoch) = ok 0 from rfl)
    (EpochState.updateFromLedger_eq_ok.mpr ⟨0, by rw [hnext]; rfl, ?_⟩)
  rw [hslot, hnext]
  rfl

/-- On that genesis, the test configuration applies a block at slot 1 with an
accepted proof on the genesis root. -/
theorem genesis_tryUpdate (H : Hashes) {r0 : Bytes32} {s0 : LedgerState}
    (hs0 : s0 = ⟨⟨[], {r0}⟩, ⟨[], {r0}⟩, ∅, Bytes32.zero, 0, ⟨1, Bytes32.zero, default, 1⟩,
      ⟨0, Bytes32.zero, default, 1⟩⟩) (nf : Nullifier) (cm : NoteCommitment) :
    ∃ s1, (s0.tryUpdate H 1 (⟨nf, cm, r0⟩ : AcceptedProof) [] testConfig :
        Outcome (LedgerError ℕ) LedgerState) = ok s1 ∧
      s1.slot = 1 ∧ s1.epochState = s0.epochState ∧
      s1.nextEpochState = ⟨1, Bytes32.zero, default, 1⟩ ∧
      s1.nonce = H.blake2b ("epoch-nonce".toUTF8.toList ++ s0.nonce.toList ++
        nf.bytes.toList ++ beBytes 8 1) ∧
      s1.nullifiers = insert nf ∅ ∧ s0.leadCommitments.roots ⊆ s1.leadCommitments.roots ∧
      s1.leadCommitments.commitments.length = 1 ∧ s1.spendCommitments.commitments.length = 1 := by
  have hu1 : (s0.updateEpochState 1 testConfig : Outcome (LedgerError ℕ) LedgerState) =
      ok { s0 with slot := 1, nextEpochState := ⟨1, Bytes32.zero, default, 1⟩ } := by
    subst hs0
    exact updateEpochState_one_of_slot_zero rfl rfl
  obtain ⟨s1, h1, hslot, hep, hnext, hnonce, hnull, hroots, hlead, hspend⟩ :=
    LedgerState.tryUpdate_of_valid (H := H) s0 1 (⟨nf, cm, r0⟩ : AcceptedProof) hu1
      (by subst hs0; rfl) (by subst hs0; exact Nat.one_pos)
      (by subst hs0; show 1 < 2 ^ 64; norm_num) (fun _ => rfl)
      (by subst hs0; exact Finset.mem_singleton_self r0)
      (by subst hs0; exact Finset.notMem_empty _)
      (by subst hs0; show 0 < 2 ^ 14; norm_num)
      (by subst hs0; show 0 < 2 ^ 14; norm_num)
  simp only at hslot hep hnext hnonce hnull hroots hlead hspend
  refine ⟨s1, h1, hslot, hep, hnext, hnonce, ?_, hroots, ?_, ?_⟩
  · rw [hnull, hs0]
    rfl
  · rw [hlead, hs0]
    rfl
  · rw [hspend, hs0]
    rfl

/-- A block in the epoch after the state's, with an accepted proof on a root of
the leader tree, a fresh nullifier and room in both trees, is applied: the
next-epoch snapshot becomes the current one. -/
theorem tryUpdate_of_next_epoch (H : Hashes) {s : LedgerState} {slot : Slot} {e : Epoch}
    {nf : Nullifier} {cm : NoteCommitment} {r : Bytes32} (hslot : s.slot < slot)
    (hce : (config.epoch s.slot : Outcome (LedgerError Id) Epoch) = ok e)
    (hne : (config.epoch slot : Outcome (LedgerError Id) Epoch) = ok (e + 1))
    (hlt : e + 1 + 1 < 2 ^ 32) (hnext : s.nextEpochState.epoch = e + 1)
    (hpos : 0 < s.nextEpochState.totalStake) (hstake : s.nextEpochState.totalStake < 2 ^ 64)
    (hroot : r ∈ s.leadCommitments.roots) (hfresh : nf ∉ s.nullifiers)
    (hlead : s.leadCommitments.commitments.length < maxNoteComms)
    (hspend : s.spendCommitments.commitments.length < maxNoteComms) :
    ∃ s', (s.tryUpdate H slot (⟨nf, cm, r⟩ : AcceptedProof) [] config :
        Outcome (LedgerError Id) LedgerState) = ok s' ∧ s'.epochState = s.nextEpochState := by
  obtain ⟨s', h', -, hep, -⟩ := LedgerState.tryUpdate_of_valid (H := H) s slot
    (⟨nf, cm, r⟩ : AcceptedProof) (LedgerState.updateEpochState_of_next hslot hce hne hlt)
    (by rw [hne]; exact congrArg ok hnext.symm) hpos hstake (fun _ => rfl) hroot hfresh hlead
    hspend
  exact ⟨s', h', hep⟩

/-- From the genesis of the test configuration, with hashes that return zero, a
block at slot 1 and a block at slot 100, the first of epoch 1: the snapshots
move on to epoch 1 and 2. -/
theorem reachable_epochState_next_epoch :
    ∃ (r0 : Bytes32) (s0 s1 s2 : LedgerState),
      (LedgerState.fromCommitments ⟨fun _ => Bytes32.zero, fun _ => Bytes32.zero⟩ [] 1 :
        Outcome (LedgerError ℕ) LedgerState) = ok s0 ∧
      (s0.tryUpdate ⟨fun _ => Bytes32.zero, fun _ => Bytes32.zero⟩ 1
        (⟨⟨Vector.replicate 32 1⟩, ⟨Bytes32.zero⟩, r0⟩ : AcceptedProof) [] testConfig :
        Outcome (LedgerError ℕ) LedgerState) = ok s1 ∧
      (s1.tryUpdate ⟨fun _ => Bytes32.zero, fun _ => Bytes32.zero⟩ 100
        (⟨⟨Vector.replicate 32 2⟩, ⟨Bytes32.zero⟩, r0⟩ : AcceptedProof) [] testConfig :
        Outcome (LedgerError ℕ) LedgerState) = ok s2 ∧
      (testConfig.epoch s2.slot : Outcome Empty Epoch) = ok s2.epochState.epoch ∧
      s2.nextEpochState.epoch = s2.epochState.epoch + 1 ∧ s2.epochState.epoch = 1 := by
  obtain ⟨r0, s0, hs0, hs0eq⟩ := fromCommitments_nil (ε := LedgerError ℕ)
    ⟨fun _ => Bytes32.zero, fun _ => Bytes32.zero⟩
  obtain ⟨s1, h1, hslot1, -, hnext1, -, hnull1, hroots1, hlead1, hspend1⟩ :=
    genesis_tryUpdate _ hs0eq ⟨Vector.replicate 32 1⟩ ⟨Bytes32.zero⟩
  subst hs0eq
  have hfresh : (⟨Vector.replicate 32 2⟩ : Nullifier) ∉
      (insert ⟨Vector.replicate 32 1⟩ ∅ : Finset Nullifier) := by decide
  obtain ⟨s2, h2, hep2⟩ : ∃ s2, (s1.tryUpdate ⟨fun _ => Bytes32.zero, fun _ => Bytes32.zero⟩ 100
      (⟨⟨Vector.replicate 32 2⟩, ⟨Bytes32.zero⟩, r0⟩ : AcceptedProof) [] testConfig :
      Outcome (LedgerError ℕ) LedgerState) = ok s2 ∧ s2.epochState = s1.nextEpochState :=
    tryUpdate_of_next_epoch _ (by rw [hslot1]; norm_num)
    (show (testConfig.epoch s1.slot : Outcome (LedgerError ℕ) Epoch) = ok 0 by rw [hslot1]; rfl)
    (show (testConfig.epoch 100 : Outcome (LedgerError ℕ) Epoch) = ok (0 + 1) from rfl)
    (by norm_num) (by rw [hnext1]) (by rw [hnext1]; exact Nat.one_pos)
    (by rw [hnext1]; show 1 < 2 ^ 64; norm_num) (hroots1 (Finset.mem_singleton_self r0))
    (by rw [hnull1]; exact hfresh) (by rw [hlead1]; show 1 < 2 ^ 14; norm_num)
    (by rw [hspend1]; show 1 < 2 ^ 14; norm_num)
  have hreach : Reachable ℕ ⟨fun _ => Bytes32.zero, fun _ => Bytes32.zero⟩ testConfig s2 :=
    ((Reachable.fromCommitments [] 1 hs0).tryUpdate 1 _ [] h1).tryUpdate 100 _ [] h2
  obtain ⟨hepoch, hnext, -, -⟩ := reachable_epochState (ε := Empty) hreach
  exact ⟨r0, _, s1, s2, hs0, h1, h2, hepoch, hnext, by rw [hep2, hnext1]⟩

/-! ## The roots a reachable ledger accepts

Each note tree of a reachable state, the two live ones and the two epoch
snapshots, keeps a root history: its valid roots are the roots of prefixes of
its commitments. `from_commitments` builds the trees with `from_iter` or as
default trees, `update_epoch_state` only copies them, and
`try_apply_proof_outputs` inserts into the live ones. -/

structure TreesHistory (Id : Type) (H : Hashes) (s : LedgerState) : Prop where
  lead : ∃ m, RootHistory (LedgerError Id) H m s.leadCommitments
  spend : ∃ m, RootHistory (LedgerError Id) H m s.spendCommitments
  epoch : ∃ m, RootHistory (LedgerError Id) H m s.epochState.commitments
  next : ∃ m, RootHistory (LedgerError Id) H m s.nextEpochState.commitments

theorem fromCommitments_treesHistory {commitments : List NoteCommitment} {totalStake : ℕ}
    {s : LedgerState}
    (h : (LedgerState.fromCommitments H commitments totalStake :
      Outcome (LedgerError Id) LedgerState) = ok s) :
    TreesHistory Id H s := by
  obtain ⟨tree, htree, rfl⟩ := LedgerState.fromCommitments_eq_ok h
  have hhist := RootHistory.fromIter htree
  exact ⟨⟨_, hhist⟩, ⟨_, hhist⟩, ⟨1, RootHistory.default⟩, ⟨1, RootHistory.default⟩⟩

theorem updateEpochState_treesHistory {s s' : LedgerState} {slot : Slot}
    (hs : TreesHistory Id H s)
    (h : (s.updateEpochState slot config : Outcome (LedgerError Id) LedgerState) = ok s') :
    TreesHistory Id H s' := by
  obtain ⟨-, ce, ne, -, -, hcases⟩ := LedgerState.updateEpochState_eq_ok (ε := Empty) h
  rcases hcases with ⟨-, n, hn, rfl⟩ | ⟨-, -, -, rfl⟩ | ⟨-, -, -, rfl⟩
  · -- before the stake snapshot the next snapshot takes the spend tree, after it keeps its own
    obtain ⟨t, -, rfl⟩ := EpochState.updateFromLedger_eq_ok.mp hn
    refine { hs with next := ?_ }
    show ∃ m, RootHistory _ H m
      (if s.slot < t then s.spendCommitments else s.nextEpochState.commitments)
    split
    · exact hs.spend
    · exact hs.next
  · exact { hs with epoch := hs.next, next := hs.spend }
  · exact { hs with epoch := hs.spend, next := hs.spend }

theorem tryApplyProofOutputs_treesHistory {s s' : LedgerState} {cmRoot : Bytes32}
    {nullifier : Nullifier} {cm : NoteCommitment} (hs : TreesHistory Id H s)
    (h : (s.tryApplyProofOutputs H cmRoot nullifier cm : Outcome (LedgerError Id) LedgerState) =
      ok s') :
    TreesHistory Id H s' := by
  obtain ⟨-, -, l, sp, hl, hsp, rfl⟩ := LedgerState.tryApplyProofOutputs_eq_ok.mp h
  obtain ⟨ml, hlead⟩ := hs.lead
  obtain ⟨msp, hspend⟩ := hs.spend
  exact { hs with lead := ⟨ml, hlead.insert hl⟩, spend := ⟨msp, hspend.insert hsp⟩ }

theorem foldlM_tryApplyProofOutputs_treesHistory {orphanProofs : List OrphanProof}
    {s s' : LedgerState} (hs : TreesHistory Id H s)
    (h : (orphanProofs.foldlM
      (fun self o => self.tryApplyProofOutputs H o.cmRoot o.nullifier o.commitment) s :
      Outcome (LedgerError Id) LedgerState) = ok s') :
    TreesHistory Id H s' :=
  foldlM_invariant (TreesHistory Id H) (fun _ _ _ hb h => tryApplyProofOutputs_treesHistory hb h)
    hs h

theorem tryUpdate_treesHistory {P : Type} [LeaderProof P] {s s' : LedgerState} {slot : Slot}
    {proof : P} {orphanProofs : List OrphanProof} (hs : TreesHistory Id H s)
    (h : (s.tryUpdate H slot proof orphanProofs config : Outcome (LedgerError Id) LedgerState) =
      ok s') :
    TreesHistory Id H s' := by
  obtain ⟨s1, h1, hlead⟩ := LedgerState.tryUpdate_eq_ok.mp h
  obtain ⟨s2, s3, h2, h3, rfl⟩ := LedgerState.tryApplyLeadership_eq_ok.mp hlead
  obtain ⟨-, -, -, -, hout⟩ := LedgerState.tryApplyProof_eq_ok.mp h3
  have hs3 := tryApplyProofOutputs_treesHistory
    (foldlM_tryApplyProofOutputs_treesHistory (updateEpochState_treesHistory hs h1) h2) hout
  exact ⟨hs3.lead, hs3.spend, hs3.epoch, hs3.next⟩

theorem Reachable.treesHistory {s : LedgerState} (h : Reachable Id H config s) :
    TreesHistory Id H s := by
  induction h with
  | fromCommitments _ _ hs => exact fromCommitments_treesHistory hs
  | updateEpochState _ _ h ih => exact updateEpochState_treesHistory ih h
  | tryUpdate _ _ _ _ h ih => exact tryUpdate_treesHistory ih h

/-- With the test configuration (epochs of 100 slots, nonce snapshot of epoch 1
at slot 60), two chains share their last state before the snapshot, the block
at slot 1, yet enter epoch 1 with different nonces: the chain whose next block
is at slot 100 takes the genesis nonce, since case 2 of `update_epoch_state`
copies the next-epoch snapshot without folding in the parent, while the chain
with a block at slot 60 first takes the nonce of the block at slot 1. -/
theorem epochNonce_misses_last_block (H : Hashes) :
    ∃ (cmRoot : Bytes32) (s0 s1 s2 s2' s3 : LedgerState),
      (LedgerState.fromCommitments H [] 1 : Outcome (LedgerError ℕ) LedgerState) = ok s0 ∧
      (s0.tryUpdate H 1 (⟨⟨Vector.replicate 32 1⟩, ⟨Bytes32.zero⟩, cmRoot⟩ : AcceptedProof) []
        testConfig : Outcome (LedgerError ℕ) LedgerState) = ok s1 ∧
      (s1.tryUpdate H 100 (⟨⟨Vector.replicate 32 2⟩, ⟨Bytes32.zero⟩, cmRoot⟩ : AcceptedProof) []
        testConfig : Outcome (LedgerError ℕ) LedgerState) = ok s2 ∧
      (s1.tryUpdate H 60 (⟨⟨Vector.replicate 32 2⟩, ⟨Bytes32.zero⟩, cmRoot⟩ : AcceptedProof) []
        testConfig : Outcome (LedgerError ℕ) LedgerState) = ok s2' ∧
      (s2'.tryUpdate H 100 (⟨⟨Vector.replicate 32 3⟩, ⟨Bytes32.zero⟩, cmRoot⟩ : AcceptedProof) []
        testConfig : Outcome (LedgerError ℕ) LedgerState) = ok s3 ∧
      s1.slot < testConfig.nonceSnapshot 1 ∧ testConfig.nonceSnapshot 1 ≤ s2'.slot ∧
      s2.epochState.nonce = s0.nonce ∧ s3.epochState.nonce = s1.nonce ∧
      s1.nonce = H.blake2b ("epoch-nonce".toUTF8.toList ++ s0.nonce.toList ++
        (Vector.replicate 32 1).toList ++ beBytes 8 1) := by
  obtain ⟨r0, s0, hs0, hs0eq⟩ := fromCommitments_nil (ε := LedgerError ℕ) H
  obtain ⟨s1, h1, hslot1, hep1, hnext1, hnonce1, hnull1, hroots1, hlead1, hspend1⟩ :=
    genesis_tryUpdate H hs0eq ⟨Vector.replicate 32 1⟩ ⟨Bytes32.zero⟩
  subst hs0eq
  have hfresh21 : (⟨Vector.replicate 32 2⟩ : Nullifier) ∉
      (insert ⟨Vector.replicate 32 1⟩ ∅ : Finset Nullifier) := by decide
  obtain ⟨s2, h2, hep2⟩ := tryUpdate_of_next_epoch H (by rw [hslot1]; norm_num)
    (show (testConfig.epoch s1.slot : Outcome (LedgerError ℕ) Epoch) = ok 0 by rw [hslot1]; rfl)
    (show (testConfig.epoch 100 : Outcome (LedgerError ℕ) Epoch) = ok (0 + 1) from rfl)
    (by norm_num) (by rw [hnext1]) (by rw [hnext1]; exact Nat.one_pos)
    (by rw [hnext1]; show 1 < 2 ^ 64; norm_num) (hroots1 (Finset.mem_singleton_self r0))
    (by rw [hnull1]; exact hfresh21) (by rw [hlead1]; show 1 < 2 ^ 14; norm_num)
    (by rw [hspend1]; show 1 < 2 ^ 14; norm_num)
  have hu2' : (s1.updateEpochState 60 testConfig : Outcome (LedgerError ℕ) LedgerState) =
      ok { s1 with slot := 60, nextEpochState := ⟨1, s1.nonce, default, 1⟩ } := by
    refine LedgerState.updateEpochState_of_same (by rw [hslot1]; norm_num)
      (show (testConfig.epoch s1.slot : Outcome (LedgerError ℕ) Epoch) = ok 0 by rw [hslot1]; rfl)
      (show (testConfig.epoch 60 : Outcome (LedgerError ℕ) Epoch) = ok 0 from rfl)
      (EpochState.updateFromLedger_eq_ok.mpr ⟨0, ?_, ?_⟩)
    · rw [hnext1]
      rfl
    · rw [hnext1, hslot1]
      rfl
  obtain ⟨s2', h2', hslot2', -, hnext2', -, hnull2', hroots2', hlead2', hspend2'⟩ :=
    LedgerState.tryUpdate_of_valid (H := H) s1 60
      (⟨⟨Vector.replicate 32 2⟩, ⟨Bytes32.zero⟩, r0⟩ : AcceptedProof) hu2'
      (by simp only; rw [hep1]; rfl) (by simp only; rw [hep1]; exact Nat.one_pos)
      (by simp only; rw [hep1]; show 1 < 2 ^ 64; norm_num) (fun _ => rfl)
      (hroots1 (Finset.mem_singleton_self r0))
      (by simp only; rw [hnull1]; exact hfresh21)
      (by simp only; rw [hlead1]; show 1 < 2 ^ 14; norm_num)
      (by simp only; rw [hspend1]; show 1 < 2 ^ 14; norm_num)
  simp only at hslot2' hnext2' hnull2' hroots2' hlead2' hspend2'
  have hfresh3 : (⟨Vector.replicate 32 3⟩ : Nullifier) ∉
      (insert ⟨Vector.replicate 32 2⟩ (insert ⟨Vector.replicate 32 1⟩ ∅) : Finset Nullifier) := by
    decide
  obtain ⟨s3, h3, hep3⟩ := tryUpdate_of_next_epoch H (by rw [hslot2']; norm_num)
    (show (testConfig.epoch s2'.slot : Outcome (LedgerError ℕ) Epoch) = ok 0 by rw [hslot2']; rfl)
    (show (testConfig.epoch 100 : Outcome (LedgerError ℕ) Epoch) = ok (0 + 1) from rfl)
    (by norm_num) (by rw [hnext2']) (by rw [hnext2']; exact Nat.one_pos)
    (by rw [hnext2']; show 1 < 2 ^ 64; norm_num)
    (hroots2' (hroots1 (Finset.mem_singleton_self r0)))
    (by rw [hnull2', hnull1]; exact hfresh3) (by rw [hlead2', hlead1]; show 2 < 2 ^ 14; norm_num)
    (by rw [hspend2', hspend1]; show 2 < 2 ^ 14; norm_num)
  refine ⟨r0, _, s1, s2, s2', s3, hs0, h1, h2, h2', h3, ?_, ?_, ?_, ?_, hnonce1⟩
  · rw [hslot1]
    decide
  · rw [hslot2']
    decide
  · rw [hep2, hnext1]
  · rw [hep3, hnext2']

/-! ## Chains inside the first epoch

A chain whose blocks all lie in epoch 0, each with an accepted proof on one root
of the genesis leader tree and the nullifier of its own slot, is applied block
after block: no epoch changes, the root stays valid, and a nullifier of a later
slot is fresh. -/

/-- The nullifier of the leader proof at `slot` in such a chain. -/
def slotNullifier (slot : Slot) : Nullifier := ⟨Vector.replicate 32 (UInt8.ofNat slot)⟩

theorem slotNullifier_inj {t t' : Slot} (ht : t < 256) (ht' : t' < 256)
    (h : slotNullifier t = slotNullifier t') : t = t' := by
  have hbyte : UInt8.ofNat t = UInt8.ofNat t' := by
    simpa [slotNullifier] using congrArg (fun n : Nullifier => n.bytes[0]) h
  have hmod := congrArg UInt8.toNat hbyte
  simp only [UInt8.toNat_ofNat', Nat.reducePow] at hmod
  simp only [Slot] at ht ht' ⊢
  omega

/-- A state of epoch 0 whose leader tree holds `r0`, whose nullifiers are those
of slots up to its own, and whose trees hold at most one commitment per slot. -/
structure FirstEpoch (config : Config) (r0 : Bytes32) (s : LedgerState) : Prop where
  slot_lt : s.slot < config.epochLength
  epoch_eq : s.epochState.epoch = 0
  stake_pos : 0 < s.epochState.totalStake
  stake_lt : s.epochState.totalStake < 2 ^ 64
  next_epoch_eq : s.nextEpochState.epoch = 1
  root_mem : r0 ∈ s.leadCommitments.roots
  nullifiers : ∀ n ∈ s.nullifiers, ∃ t ≤ s.slot, n = slotNullifier t
  lead_le : s.leadCommitments.commitments.length ≤ s.slot
  spend_le : s.spendCommitments.commitments.length ≤ s.slot

theorem fromCommitments_nil_firstEpoch {r0 : Bytes32} {s0 : LedgerState}
    (hs0 : s0 = ⟨⟨[], {r0}⟩, ⟨[], {r0}⟩, ∅, Bytes32.zero, 0, ⟨1, Bytes32.zero, default, 1⟩,
      ⟨0, Bytes32.zero, default, 1⟩⟩) : FirstEpoch config r0 s0 := by
  subst hs0
  exact ⟨config.epochLength_pos, rfl, Nat.one_pos, by norm_num, rfl,
    Finset.mem_singleton_self r0, by simp, le_rfl, le_rfl⟩

/-- One block of such a chain: a later slot of epoch 0 with an accepted proof on
`r0` and the slot's nullifier is applied, and the new state is again one. -/
theorem FirstEpoch.tryUpdate {r0 : Bytes32} {s : LedgerState} (hs : FirstEpoch config r0 s)
    {slot : Slot} (hlt : s.slot < slot) (hepoch : slot < config.epochLength) (hbyte : slot < 256)
    (cm : NoteCommitment) :
    ∃ s', (s.tryUpdate H slot (⟨slotNullifier slot, cm, r0⟩ : AcceptedProof) [] config :
        Outcome (LedgerError Id) LedgerState) = ok s' ∧ FirstEpoch config r0 s' ∧
      s'.slot = slot := by
  -- `omega` reads `Slot` only once it is unfolded to `ℕ`
  simp only [Slot] at hlt hbyte
  have hzero : ∀ t, t < config.epochLength → (config.epoch t : Outcome (LedgerError Id) Epoch) = ok 0 :=
    fun t ht => Config.epoch_eq_ok.mpr ⟨(Nat.div_eq_of_lt ht).symm, by norm_num⟩
  have hsnap : (config.stakeDistributionSnapshot s.nextEpochState.epoch :
      Outcome (LedgerError Id) Slot) = ok 0 := by
    rw [hs.next_epoch_eq, Config.stakeDistributionSnapshot_eq_ok]
    simp
  have hu := LedgerState.updateEpochState_of_same hlt (hzero s.slot hs.slot_lt)
    (hzero slot hepoch) (EpochState.updateFromLedger_eq_ok.mpr ⟨0, hsnap, rfl⟩)
  have hfresh : slotNullifier slot ∉ s.nullifiers := by
    intro hmem
    obtain ⟨t, ht, heq⟩ := hs.nullifiers _ hmem
    have := slotNullifier_inj hbyte (lt_of_le_of_lt ht (hlt.trans hbyte)) heq
    simp only [Slot] at ht this
    omega
  obtain ⟨s', h', hslot, hep, hnext, -, hnull, hroots, hlead, hspend⟩ :=
    LedgerState.tryUpdate_of_valid (H := H) s slot
      (⟨slotNullifier slot, cm, r0⟩ : AcceptedProof) hu
      (by rw [hzero slot hepoch, hs.epoch_eq]) hs.stake_pos hs.stake_lt (fun _ => rfl)
      hs.root_mem hfresh (by have := hs.lead_le; simp only [maxNoteComms]; omega)
      (by have := hs.spend_le; simp only [maxNoteComms]; omega)
  simp only at hslot hep hnext hnull hlead hspend
  simp only [Slot] at hslot
  refine ⟨s', h', ⟨?_, ?_, ?_, ?_, ?_, hroots hs.root_mem, ?_, ?_, ?_⟩, hslot⟩
  · rw [hslot]
    exact hepoch
  · rw [hep, hs.epoch_eq]
  · rw [hep]
    exact hs.stake_pos
  · rw [hep]
    exact hs.stake_lt
  · rw [hnext, hs.next_epoch_eq]
  · -- the new nullifier is the slot's own; the others are of earlier slots
    intro n hn
    rw [hnull, Finset.mem_insert] at hn
    rcases hn with rfl | hn
    · exact ⟨slot, hslot.ge, rfl⟩
    · obtain ⟨t, ht, rfl⟩ := hs.nullifiers n hn
      exact ⟨t, by rw [hslot]; exact ht.trans hlt.le, rfl⟩
  · have := hs.lead_le
    omega
  · have := hs.spend_le
    omega

end NomosLedger
