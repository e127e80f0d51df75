import NomosNode.Ledger.Config
import NomosNode.Ledger.NoteTree
import NomosNode.ProofStatements.Leadership

/-!
# Ledger states

`ledger/nomos-ledger/src/lib.rs`: a state holds the two note trees, the
nullifiers, the nonce, its slot and two epoch snapshots. `try_update` moves the
snapshots to the new slot (`update_epoch_state`), then applies the orphan proofs
and the leader proof through `try_apply_proof_outputs`: the root must be a root
of the leader tree or of the epoch's snapshot, the nullifier fresh, and the
evolved commitment joins both trees. Proofs are any type with the methods of
the `LeaderProof` trait.
-/

namespace NomosLedger

open Outcome Cl CryptarchiaEngine ProofStatements

variable {Id : Type} {ε : Type}

inductive LedgerError (Id : Type) where
  | doubleSpend (nullifier : Nullifier)
  | invalidSlot (parent block : Slot)
  | parentNotFound (id : Id)
  | orphanMissing (id : Id)
  | invalidProof
  | invalidRoot
  deriving DecidableEq

class LeaderProof (P : Type) where
  verify : P → LeaderPublic → Bool
  nullifier : P → Nullifier
  evolvedCommitment : P → NoteCommitment
  merkeRoot : P → Bytes32

structure OrphanProof where
  nullifier : Nullifier
  commitment : NoteCommitment
  cmRoot : Bytes32

def LeaderProof.toOrphanProof {P : Type} [LeaderProof P] (proof : P) : OrphanProof where
  nullifier := LeaderProof.nullifier proof
  commitment := LeaderProof.evolvedCommitment proof
  cmRoot := LeaderProof.merkeRoot proof

structure EpochState where
  epoch : Epoch
  nonce : Bytes32
  commitments : NoteTree
  totalStake : ℕ

structure LedgerState where
  leadCommitments : NoteTree
  spendCommitments : NoteTree
  nullifiers : Finset Nullifier
  nonce : Bytes32
  slot : Slot
  nextEpochState : EpochState
  epochState : EpochState

def EpochState.updateFromLedger (self : EpochState) (ledger : LedgerState) (config : Config) :
    Outcome ε EpochState := do
  let nonceSnapshotSlot := config.nonceSnapshot self.epoch
  let nonce := if ledger.slot < nonceSnapshotSlot then ledger.nonce else self.nonce
  let stakeSnapshotSlot ← config.stakeDistributionSnapshot self.epoch
  let commitments :=
    if ledger.slot < stakeSnapshotSlot then ledger.spendCommitments else self.commitments
  ok { epoch := self.epoch, nonce, commitments, totalStake := self.totalStake }

theorem Config.stakeDistributionSnapshot_eq_ok {config : Config} {e t : Epoch} :
    (config.stakeDistributionSnapshot e : Outcome ε Slot) = ok t ↔
      1 ≤ e ∧ (e - 1) * config.epochLength < 2 ^ 64 ∧ t = (e - 1) * config.epochLength := by
  unfold Config.stakeDistributionSnapshot subChecked mulChecked
  by_cases he : 1 ≤ e
  · by_cases hm : (e - 1) * config.epochLength < 2 ^ 64
    · simp only [if_pos he, if_pos hm, bind_def, ok_bind, ok.injEq]
      exact ⟨fun h => ⟨he, hm, h.symm⟩, fun h => h.2.2.symm⟩
    · simp only [if_pos he, if_neg hm, bind_def, ok_bind]
      constructor
      · intro h
        cases h
      · rintro ⟨-, h, -⟩
        exact absurd h hm
  · simp [he]

theorem EpochState.updateFromLedger_eq_ok {self n : EpochState} {ledger : LedgerState}
    {config : Config} :
    (self.updateFromLedger ledger config : Outcome ε EpochState) = ok n ↔
      ∃ t, (config.stakeDistributionSnapshot self.epoch : Outcome ε Slot) = ok t ∧
        n = ⟨self.epoch,
          if ledger.slot < config.nonceSnapshot self.epoch then ledger.nonce else self.nonce,
          if ledger.slot < t then ledger.spendCommitments else self.commitments,
          self.totalStake⟩ := by
  simp only [updateFromLedger, bind_def, bind_eq_ok, ok.injEq]
  constructor
  · rintro ⟨t, ht, rfl⟩
    exact ⟨t, ht, rfl⟩
  · rintro ⟨t, ht, rfl⟩
    exact ⟨t, ht, rfl⟩

namespace LedgerState

def updateEpochState (self : LedgerState) (slot : Slot) (config : Config) :
    Outcome (LedgerError Id) LedgerState :=
  if slot ≤ self.slot then err (.invalidSlot self.slot slot) else do
  let totalStake := self.epochState.totalStake
  let currentEpoch ← config.epoch self.slot
  let newEpoch ← config.epoch slot
  if currentEpoch = newEpoch then
    let nextEpochState ← self.nextEpochState.updateFromLedger self config
    ok { self with slot, nextEpochState }
  else
    let nextEpoch ← addChecked 32 currentEpoch 1
    if newEpoch = nextEpoch then
      let epochState := self.nextEpochState
      let epoch ← addChecked 32 newEpoch 1
      let nextEpochState :=
        { epoch, nonce := self.nonce, commitments := self.spendCommitments, totalStake }
      ok { self with slot, nextEpochState, epochState }
    else
      let epochState :=
        { epoch := newEpoch, nonce := self.nonce, commitments := self.spendCommitments,
          totalStake }
      let epoch ← addChecked 32 newEpoch 1
      let nextEpochState :=
        { epoch, nonce := self.nonce, commitments := self.spendCommitments, totalStake }
      ok { self with slot, nextEpochState, epochState }

def isNullified (self : LedgerState) (nullifier : Nullifier) : Bool :=
  decide (nullifier ∈ self.nullifiers)

def tryApplyProofOutputs (H : Hashes) (self : LedgerState) (cmRoot : Bytes32)
    (nullifier : Nullifier) (evolvedCommitment : NoteCommitment) :
    Outcome (LedgerError Id) LedgerState :=
  if !self.leadCommitments.isValidRoot cmRoot &&
      !self.epochState.commitments.isValidRoot cmRoot then err .invalidRoot
  else if self.isNullified nullifier then err (.doubleSpend nullifier)
  else do
  let leadCommitments ← self.leadCommitments.insert H evolvedCommitment
  let spendCommitments ← self.spendCommitments.insert H evolvedCommitment
  let nullifiers := insert nullifier self.nullifiers
  ok { self with leadCommitments, spendCommitments, nullifiers }

def tryApplyProof {P : Type} [LeaderProof P] (H : Hashes) (self : LedgerState) (slot : Slot)
    (proof : P) (config : Config) : Outcome (LedgerError Id) LedgerState := do
  let epoch ← config.epoch slot
  if epoch ≠ self.epochState.epoch then .panic "assertion `left == right` failed" else do
  let publicInputs ← LeaderPublic.new (LeaderProof.merkeRoot proof) self.epochState.nonce slot
    config.consensusConfig.negFLn self.epochState.totalStake (LeaderProof.nullifier proof)
    (LeaderProof.evolvedCommitment proof)
  if !LeaderProof.verify proof publicInputs then err .invalidProof else
  self.tryApplyProofOutputs H (LeaderProof.merkeRoot proof) (LeaderProof.nullifier proof)
    (LeaderProof.evolvedCommitment proof)

def updateNonce (H : Hashes) (self : LedgerState) (nullifier : Nullifier) (slot : Slot) :
    LedgerState :=
  { self with
    nonce := H.blake2b ("epoch-nonce".toUTF8.toList ++ self.nonce.toList ++
      nullifier.bytes.toList ++ beBytes 8 slot) }

def tryApplyLeadership {P : Type} [LeaderProof P] (H : Hashes) (self : LedgerState)
    (slot : Slot) (proof : P) (orphanProofs : List OrphanProof) (config : Config) :
    Outcome (LedgerError Id) LedgerState := do
  let self ← orphanProofs.foldlM
    (fun self o => self.tryApplyProofOutputs H o.cmRoot o.nullifier o.commitment) self
  let self ← self.tryApplyProof H slot proof config
  ok (self.updateNonce H (LeaderProof.nullifier proof) slot)

def tryUpdate {P : Type} [LeaderProof P] (H : Hashes) (self : LedgerState) (slot : Slot)
    (proof : P) (orphanProofs : List OrphanProof) (config : Config) :
    Outcome (LedgerError Id) LedgerState := do
  let self ← self.updateEpochState slot config
  self.tryApplyLeadership H slot proof orphanProofs config

def fromCommitments (H : Hashes) (commitments : List NoteCommitment) (totalStake : ℕ) :
    Outcome ε LedgerState := do
  let commitments ← NoteTree.fromIter H commitments
  ok { leadCommitments := commitments
       spendCommitments := commitments
       nullifiers := ∅
       nonce := Bytes32.zero
       slot := 0
       nextEpochState := ⟨1, Bytes32.zero, default, totalStake⟩
       epochState := ⟨0, Bytes32.zero, default, totalStake⟩ }

variable {H : Hashes} {config : Config}

/-- The three cases of `update_epoch_state`. -/
theorem updateEpochState_eq_ok {self s : LedgerState} {slot : Slot} :
    (self.updateEpochState slot config : Outcome (LedgerError Id) LedgerState) = ok s →
      self.slot < slot ∧ ∃ ce ne, (config.epoch self.slot : Outcome ε Epoch) = ok ce ∧
        (config.epoch slot : Outcome ε Epoch) = ok ne ∧
        ((ce = ne ∧ ∃ n, (self.nextEpochState.updateFromLedger self config :
            Outcome (LedgerError Id) EpochState) = ok n ∧
            s = { self with slot, nextEpochState := n }) ∨
         (ce ≠ ne ∧ ne = ce + 1 ∧ ne + 1 < 2 ^ 32 ∧
            s = { self with
              slot
              epochState := self.nextEpochState
              nextEpochState := ⟨ne + 1, self.nonce, self.spendCommitments,
                self.epochState.totalStake⟩ }) ∨
         (ce ≠ ne ∧ ne ≠ ce + 1 ∧ ne + 1 < 2 ^ 32 ∧
            s = { self with
              slot
              epochState := ⟨ne, self.nonce, self.spendCommitments, self.epochState.totalStake⟩
              nextEpochState := ⟨ne + 1, self.nonce, self.spendCommitments,
                self.epochState.totalStake⟩ })) := by
  intro h
  unfold updateEpochState at h
  by_cases hslot : slot ≤ self.slot
  · rw [if_pos hslot] at h
    cases h
  rw [if_neg hslot] at h
  simp only [bind_def, bind_eq_ok] at h
  obtain ⟨ce, hce, ne, hne, h⟩ := h
  have hce' := Config.epoch_eq_ok.mp hce
  have hne' := Config.epoch_eq_ok.mp hne
  refine ⟨Nat.lt_of_not_le hslot, ce, ne, Config.epoch_eq_ok.mpr hce', Config.epoch_eq_ok.mpr hne', ?_⟩
  by_cases hsame : ce = ne
  · rw [if_pos hsame, bind_eq_ok] at h
    obtain ⟨n, hn, hs⟩ := h
    exact Or.inl ⟨hsame, n, hn, (ok.inj hs).symm⟩
  · rw [if_neg hsame, bind_eq_ok] at h
    obtain ⟨e1, he1, h⟩ := h
    obtain ⟨-, rfl⟩ := addChecked_eq_ok.mp he1
    by_cases hnext : ne = ce + 1
    · rw [if_pos hnext, bind_eq_ok] at h
      obtain ⟨e2, he2, hs⟩ := h
      obtain ⟨hlt, rfl⟩ := addChecked_eq_ok.mp he2
      exact Or.inr (Or.inl ⟨hsame, hnext, hlt, (ok.inj hs).symm⟩)
    · rw [if_neg hnext, bind_eq_ok] at h
      obtain ⟨e2, he2, hs⟩ := h
      obtain ⟨hlt, rfl⟩ := addChecked_eq_ok.mp he2
      exact Or.inr (Or.inr ⟨hsame, hnext, hlt, (ok.inj hs).symm⟩)

theorem updateEpochState_slot {self s : LedgerState} {slot : Slot}
    (h : (self.updateEpochState slot config : Outcome (LedgerError Id) LedgerState) = ok s) :
    s.slot = slot := by
  obtain ⟨-, _, _, -, -, hcases⟩ := updateEpochState_eq_ok (ε := Empty) h
  rcases hcases with ⟨-, -, -, rfl⟩ | ⟨-, -, -, rfl⟩ | ⟨-, -, -, rfl⟩ <;> rfl

theorem updateEpochState_of_same {self : LedgerState} {slot : Slot} {e : Epoch}
    {n : EpochState} (hslot : self.slot < slot)
    (hce : (config.epoch self.slot : Outcome (LedgerError Id) Epoch) = ok e)
    (hne : (config.epoch slot : Outcome (LedgerError Id) Epoch) = ok e)
    (hn : (self.nextEpochState.updateFromLedger self config :
      Outcome (LedgerError Id) EpochState) = ok n) :
    (self.updateEpochState slot config : Outcome (LedgerError Id) LedgerState) =
      ok { self with slot, nextEpochState := n } := by
  simp only [updateEpochState, if_neg (Nat.not_le.mpr hslot), bind_def, hce, hne, ok_bind,
    ↓reduceIte, hn]

theorem updateEpochState_of_next {self : LedgerState} {slot : Slot} {e : Epoch}
    (hslot : self.slot < slot)
    (hce : (config.epoch self.slot : Outcome (LedgerError Id) Epoch) = ok e)
    (hne : (config.epoch slot : Outcome (LedgerError Id) Epoch) = ok (e + 1))
    (hlt : e + 1 + 1 < 2 ^ 32) :
    (self.updateEpochState slot config : Outcome (LedgerError Id) LedgerState) =
      ok { self with
        slot
        epochState := self.nextEpochState
        nextEpochState := ⟨e + 1 + 1, self.nonce, self.spendCommitments,
          self.epochState.totalStake⟩ } := by
  have hne' : e ≠ e + 1 := Nat.ne_of_lt (Nat.lt_add_one e)
  simp only [updateEpochState, if_neg (Nat.not_le.mpr hslot), bind_def, hce, hne, ok_bind,
    if_neg hne', addChecked_of_lt (Nat.lt_trans (Nat.lt_add_one _) hlt), ↓reduceIte,
    addChecked_of_lt hlt]

/-- The root check of `try_apply_proof_outputs` passes on a root of the leader
tree or of the epoch snapshot. -/
theorem rootCheck_of_valid {self : LedgerState} {cmRoot : Bytes32}
    (hroot : cmRoot ∈ self.leadCommitments.roots ∨ cmRoot ∈ self.epochState.commitments.roots) :
    (!self.leadCommitments.isValidRoot cmRoot && !self.epochState.commitments.isValidRoot cmRoot) =
      false := by
  simp only [NoteTree.isValidRoot, Bool.and_eq_false_iff, Bool.not_eq_false', decide_eq_true_eq]
  exact hroot

theorem tryApplyProofOutputs_eq_ok {self s : LedgerState} {cmRoot : Bytes32}
    {nullifier : Nullifier} {cm : NoteCommitment} :
    (self.tryApplyProofOutputs H cmRoot nullifier cm : Outcome (LedgerError Id) LedgerState) =
        ok s ↔
      (cmRoot ∈ self.leadCommitments.roots ∨ cmRoot ∈ self.epochState.commitments.roots) ∧
      nullifier ∉ self.nullifiers ∧
      ∃ l sp, (self.leadCommitments.insert H cm : Outcome (LedgerError Id) NoteTree) = ok l ∧
        (self.spendCommitments.insert H cm : Outcome (LedgerError Id) NoteTree) = ok sp ∧
        s = { self with
          leadCommitments := l
          spendCommitments := sp
          nullifiers := insert nullifier self.nullifiers } := by
  unfold tryApplyProofOutputs
  by_cases hroot : cmRoot ∈ self.leadCommitments.roots ∨
      cmRoot ∈ self.epochState.commitments.roots
  · rw [if_neg (by rw [rootCheck_of_valid hroot]; exact Bool.false_ne_true)]
    by_cases hnull : nullifier ∈ self.nullifiers
    · simp [isNullified, hnull]
    · simp only [isNullified, hnull, decide_false, Bool.false_eq_true, if_false, bind_def,
        bind_eq_ok, ok.injEq, hroot, not_false_eq_true, true_and]
      constructor
      · rintro ⟨l, hl, sp, hsp, rfl⟩
        exact ⟨l, sp, hl, hsp, rfl⟩
      · rintro ⟨l, sp, hl, hsp, rfl⟩
        exact ⟨l, hl, sp, hsp, rfl⟩
  · have hcond : (!self.leadCommitments.isValidRoot cmRoot &&
        !self.epochState.commitments.isValidRoot cmRoot) = true := by
      simp only [NoteTree.isValidRoot, Bool.and_eq_true, Bool.not_eq_true', decide_eq_false_iff_not]
      exact not_or.mp hroot
    simp [hcond, hroot]

theorem tryApplyProof_eq_ok {P : Type} [LeaderProof P] {self s : LedgerState} {slot : Slot}
    {proof : P} :
    (self.tryApplyProof H slot proof config : Outcome (LedgerError Id) LedgerState) = ok s ↔
      (config.epoch slot : Outcome (LedgerError Id) Epoch) = ok self.epochState.epoch ∧
      ∃ publicInputs, (LeaderPublic.new (LeaderProof.merkeRoot proof) self.epochState.nonce slot
          config.consensusConfig.negFLn self.epochState.totalStake (LeaderProof.nullifier proof)
          (LeaderProof.evolvedCommitment proof) : Outcome (LedgerError Id) LeaderPublic) =
          ok publicInputs ∧
        LeaderProof.verify proof publicInputs = true ∧
        (self.tryApplyProofOutputs H (LeaderProof.merkeRoot proof) (LeaderProof.nullifier proof)
          (LeaderProof.evolvedCommitment proof) : Outcome (LedgerError Id) LedgerState) = ok s := by
  simp only [tryApplyProof, bind_def, bind_eq_ok]
  constructor
  · rintro ⟨e, he, h⟩
    by_cases heq : e = self.epochState.epoch
    · subst heq
      rw [if_neg (not_not.mpr rfl), bind_eq_ok] at h
      obtain ⟨pub, hpub, h⟩ := h
      by_cases hv : LeaderProof.verify proof pub = true
      · rw [if_neg (by simp [hv])] at h
        exact ⟨he, pub, hpub, hv, h⟩
      · rw [if_pos (by simpa using hv)] at h
        cases h
    · rw [if_pos heq] at h
      cases h
  · rintro ⟨he, pub, hpub, hv, h⟩
    refine ⟨_, he, ?_⟩
    rw [if_neg (not_not.mpr rfl), bind_eq_ok]
    exact ⟨pub, hpub, by rw [if_neg (by simp [hv])]; exact h⟩

theorem tryApplyLeadership_eq_ok {P : Type} [LeaderProof P] {self s : LedgerState}
    {slot : Slot} {proof : P} {orphanProofs : List OrphanProof} :
    (self.tryApplyLeadership H slot proof orphanProofs config :
        Outcome (LedgerError Id) LedgerState) = ok s ↔
      ∃ s1 s2, (orphanProofs.foldlM
          (fun self o => self.tryApplyProofOutputs H o.cmRoot o.nullifier o.commitment) self :
          Outcome (LedgerError Id) LedgerState) = ok s1 ∧
        (s1.tryApplyProof H slot proof config : Outcome (LedgerError Id) LedgerState) = ok s2 ∧
        s = s2.updateNonce H (LeaderProof.nullifier proof) slot := by
  simp only [tryApplyLeadership, bind_def, bind_eq_ok, ok.injEq]
  constructor
  · rintro ⟨s1, h1, s2, h2, rfl⟩
    exact ⟨s1, s2, h1, h2, rfl⟩
  · rintro ⟨s1, s2, h1, h2, rfl⟩
    exact ⟨s1, h1, s2, h2, rfl⟩

theorem tryUpdate_eq_ok {P : Type} [LeaderProof P] {self s : LedgerState} {slot : Slot}
    {proof : P} {orphanProofs : List OrphanProof} :
    (self.tryUpdate H slot proof orphanProofs config : Outcome (LedgerError Id) LedgerState) =
        ok s ↔
      ∃ s1, (self.updateEpochState slot config : Outcome (LedgerError Id) LedgerState) = ok s1 ∧
        (s1.tryApplyLeadership H slot proof orphanProofs config :
          Outcome (LedgerError Id) LedgerState) = ok s := by
  simp only [tryUpdate, bind_def, bind_eq_ok]

/-- Applying proof outputs changes only the note trees and the nullifiers. -/
theorem tryApplyProofOutputs_frame {self s : LedgerState} {cmRoot : Bytes32}
    {nullifier : Nullifier} {cm : NoteCommitment}
    (h : (self.tryApplyProofOutputs H cmRoot nullifier cm :
      Outcome (LedgerError Id) LedgerState) = ok s) :
    s.slot = self.slot ∧ s.nonce = self.nonce ∧ s.epochState = self.epochState ∧
      s.nextEpochState = self.nextEpochState := by
  obtain ⟨-, -, l, sp, -, -, rfl⟩ := tryApplyProofOutputs_eq_ok.mp h
  exact ⟨rfl, rfl, rfl, rfl⟩

theorem foldlM_tryApplyProofOutputs_frame :
    ∀ {orphanProofs : List OrphanProof} {self s : LedgerState},
      (orphanProofs.foldlM
          (fun self o => self.tryApplyProofOutputs H o.cmRoot o.nullifier o.commitment) self :
          Outcome (LedgerError Id) LedgerState) = ok s →
      s.slot = self.slot ∧ s.nonce = self.nonce ∧ s.epochState = self.epochState ∧
        s.nextEpochState = self.nextEpochState := by
  intro orphanProofs self s h
  -- every step keeps the four fields of the state the fold started from
  refine foldlM_invariant (fun s : LedgerState => s.slot = self.slot ∧ s.nonce = self.nonce ∧
    s.epochState = self.epochState ∧ s.nextEpochState = self.nextEpochState) ?_
    ⟨rfl, rfl, rfl, rfl⟩ h
  intro s1 o s2 ⟨a1, b1, c1, d1⟩ h2
  obtain ⟨a2, b2, c2, d2⟩ := tryApplyProofOutputs_frame h2
  exact ⟨a2.trans a1, b2.trans b1, c2.trans c1, d2.trans d1⟩

/-- Leadership changes neither the slot nor the epoch snapshots. -/
theorem tryApplyLeadership_frame {P : Type} [LeaderProof P] {self s : LedgerState}
    {slot : Slot} {proof : P} {orphanProofs : List OrphanProof}
    (h : (self.tryApplyLeadership H slot proof orphanProofs config :
      Outcome (LedgerError Id) LedgerState) = ok s) :
    s.slot = self.slot ∧ s.epochState = self.epochState ∧
      s.nextEpochState = self.nextEpochState := by
  obtain ⟨s1, s2, h1, h2, rfl⟩ := tryApplyLeadership_eq_ok.mp h
  obtain ⟨a1, -, c1, d1⟩ := foldlM_tryApplyProofOutputs_frame h1
  obtain ⟨-, -, -, -, hout⟩ := tryApplyProof_eq_ok.mp h2
  obtain ⟨a2, -, c2, d2⟩ := tryApplyProofOutputs_frame hout
  exact ⟨a2.trans a1, c2.trans c1, d2.trans d1⟩

/-- A leader proof with no orphans that the verifier accepts, with a valid
root, a fresh nullifier and room in both trees, is applied. -/
theorem tryApplyLeadership_of_valid {P : Type} [LeaderProof P] {self : LedgerState}
    {slot : Slot} {proof : P}
    (hepoch : (config.epoch slot : Outcome (LedgerError Id) Epoch) = ok self.epochState.epoch)
    (hpos : 0 < self.epochState.totalStake) (hstake : self.epochState.totalStake < 2 ^ 64)
    (hverify : ∀ publicInputs, LeaderProof.verify proof publicInputs = true)
    (hroot : LeaderProof.merkeRoot proof ∈ self.leadCommitments.roots)
    (hfresh : LeaderProof.nullifier proof ∉ self.nullifiers)
    (hlead : self.leadCommitments.commitments.length < maxNoteComms)
    (hspend : self.spendCommitments.commitments.length < maxNoteComms) :
    ∃ rl rs, (self.tryApplyLeadership H slot proof [] config :
        Outcome (LedgerError Id) LedgerState) =
      ok (({ self with
        leadCommitments := ⟨self.leadCommitments.commitments ++
          [LeaderProof.evolvedCommitment proof], insert rl self.leadCommitments.roots⟩
        spendCommitments := ⟨self.spendCommitments.commitments ++
          [LeaderProof.evolvedCommitment proof], insert rs self.spendCommitments.roots⟩
        nullifiers := insert (LeaderProof.nullifier proof) self.nullifiers } : LedgerState).updateNonce
          H (LeaderProof.nullifier proof) slot) := by
  obtain ⟨rl, hl⟩ : ∃ rl, (self.leadCommitments.insert H (LeaderProof.evolvedCommitment proof) :
      Outcome (LedgerError Id) NoteTree) = ok ⟨self.leadCommitments.commitments ++
        [LeaderProof.evolvedCommitment proof], insert rl self.leadCommitments.roots⟩ :=
    NoteTree.insert_ok hlead
  obtain ⟨rs, hs⟩ : ∃ rs, (self.spendCommitments.insert H (LeaderProof.evolvedCommitment proof) :
      Outcome (LedgerError Id) NoteTree) = ok ⟨self.spendCommitments.commitments ++
        [LeaderProof.evolvedCommitment proof], insert rs self.spendCommitments.roots⟩ :=
    NoteTree.insert_ok hspend
  obtain ⟨pub, hpub, -⟩ := LeaderPublic.new_ok (ε := LedgerError Id)
    (LeaderProof.merkeRoot proof) self.epochState.nonce slot (LeaderProof.nullifier proof)
    (LeaderProof.evolvedCommitment proof) hpos hstake config.consensusConfig.negFLn_lt
  refine ⟨rl, rs, tryApplyLeadership_eq_ok.mpr ⟨self, _, rfl, ?_, rfl⟩⟩
  exact tryApplyProof_eq_ok.mpr ⟨hepoch, pub, hpub, hverify pub,
    tryApplyProofOutputs_eq_ok.mpr ⟨Or.inl hroot, hfresh, _, _, hl, hs, rfl⟩⟩

/-- `try_update` with a leader proof as in `tryApplyLeadership_of_valid`, seen
through the fields that a chain of blocks reads. -/
theorem tryUpdate_of_valid {P : Type} [LeaderProof P] (self : LedgerState) (slot : Slot)
    (proof : P) {s1 : LedgerState}
    (hs1 : (self.updateEpochState slot config : Outcome (LedgerError Id) LedgerState) = ok s1)
    (hepoch : (config.epoch slot : Outcome (LedgerError Id) Epoch) = ok s1.epochState.epoch)
    (hpos : 0 < s1.epochState.totalStake) (hstake : s1.epochState.totalStake < 2 ^ 64)
    (hverify : ∀ publicInputs, LeaderProof.verify proof publicInputs = true)
    (hroot : LeaderProof.merkeRoot proof ∈ s1.leadCommitments.roots)
    (hfresh : LeaderProof.nullifier proof ∉ s1.nullifiers)
    (hlead : s1.leadCommitments.commitments.length < maxNoteComms)
    (hspend : s1.spendCommitments.commitments.length < maxNoteComms) :
    ∃ s, (self.tryUpdate H slot proof [] config : Outcome (LedgerError Id) LedgerState) = ok s ∧
      s.slot = s1.slot ∧ s.epochState = s1.epochState ∧ s.nextEpochState = s1.nextEpochState ∧
      s.nonce = H.blake2b ("epoch-nonce".toUTF8.toList ++ s1.nonce.toList ++
        (LeaderProof.nullifier proof).bytes.toList ++ beBytes 8 slot) ∧
      s.nullifiers = insert (LeaderProof.nullifier proof) s1.nullifiers ∧
      s1.leadCommitments.roots ⊆ s.leadCommitments.roots ∧
      s.leadCommitments.commitments.length = s1.leadCommitments.commitments.length + 1 ∧
      s.spendCommitments.commitments.length = s1.spendCommitments.commitments.length + 1 := by
  obtain ⟨rl, rs, hl⟩ := tryApplyLeadership_of_valid (H := H) hepoch hpos hstake hverify hroot
    hfresh hlead hspend
  refine ⟨_, tryUpdate_eq_ok.mpr ⟨s1, hs1, hl⟩, rfl, rfl, rfl, rfl, rfl,
    Finset.subset_insert _ _, ?_, ?_⟩
  · simp only [updateNonce, List.length_append, List.length_singleton]
  · simp only [updateNonce, List.length_append, List.length_singleton]

/-- A leader proof that the verifier accepts, in the right epoch and with a
stake that fits, is judged by its outputs alone. -/
theorem tryApplyProof_of_verified {P : Type} [LeaderProof P] {self : LedgerState}
    {slot : Slot} {proof : P}
    (hepoch : (config.epoch slot : Outcome (LedgerError Id) Epoch) = ok self.epochState.epoch)
    (hpos : 0 < self.epochState.totalStake) (hstake : self.epochState.totalStake < 2 ^ 64)
    (hverify : ∀ publicInputs, LeaderProof.verify proof publicInputs = true) :
    (self.tryApplyProof H slot proof config : Outcome (LedgerError Id) LedgerState) =
      self.tryApplyProofOutputs H (LeaderProof.merkeRoot proof) (LeaderProof.nullifier proof)
        (LeaderProof.evolvedCommitment proof) := by
  obtain ⟨pub, hpub, -⟩ := LeaderPublic.new_ok (ε := LedgerError Id)
    (LeaderProof.merkeRoot proof) self.epochState.nonce slot (LeaderProof.nullifier proof)
    (LeaderProof.evolvedCommitment proof) hpos hstake config.consensusConfig.negFLn_lt
  simp only [tryApplyProof, bind_def, hepoch, ok_bind, ne_eq, not_true_eq_false, if_false, hpub,
    hverify pub, Bool.not_true, Bool.false_eq_true]

/-- With a valid root and a fresh nullifier, a leader tree at capacity panics
in `padded_leaves` instead of returning an error. -/
theorem tryApplyProofOutputs_of_full {self : LedgerState} {cmRoot : Bytes32}
    {nullifier : Nullifier} {cm : NoteCommitment}
    (hroot : cmRoot ∈ self.leadCommitments.roots ∨ cmRoot ∈ self.epochState.commitments.roots)
    (hfresh : nullifier ∉ self.nullifiers)
    (hfull : maxNoteComms ≤ self.leadCommitments.commitments.length) :
    (self.tryApplyProofOutputs H cmRoot nullifier cm : Outcome (LedgerError Id) LedgerState) =
      .panic "assertion failed: i < N" := by
  simp only [tryApplyProofOutputs, rootCheck_of_valid hroot, isNullified, hfresh, decide_false, Bool.false_eq_true,
    if_false, bind_def, NoteTree.insert_panic hfull, panic_bind]

/-- With a valid root, a nullifier already spent is refused with `DoubleSpend`
before anything is inserted. -/
theorem tryApplyProofOutputs_doubleSpend {self : LedgerState} {cmRoot : Bytes32}
    {nullifier : Nullifier} {cm : NoteCommitment}
    (hroot : cmRoot ∈ self.leadCommitments.roots ∨ cmRoot ∈ self.epochState.commitments.roots)
    (hspent : nullifier ∈ self.nullifiers) :
    (self.tryApplyProofOutputs H cmRoot nullifier cm : Outcome (LedgerError Id) LedgerState) =
      err (.doubleSpend nullifier) := by
  simp only [tryApplyProofOutputs, rootCheck_of_valid hroot, isNullified, hspent, decide_true,
    Bool.false_eq_true, if_false, if_true]

variable (Id) in
/-- With a valid root, a fresh nullifier and room in both trees, the outputs
are applied: the nullifier is spent, both trees gain the commitment, the leader
tree keeps its roots and the epoch snapshot is unchanged. -/
theorem tryApplyProofOutputs_of_fresh {self : LedgerState} {cmRoot : Bytes32}
    {nullifier : Nullifier} (cm : NoteCommitment)
    (hroot : cmRoot ∈ self.leadCommitments.roots ∨ cmRoot ∈ self.epochState.commitments.roots)
    (hfresh : nullifier ∉ self.nullifiers)
    (hlead : self.leadCommitments.commitments.length < maxNoteComms)
    (hspend : self.spendCommitments.commitments.length < maxNoteComms) :
    ∃ s, (self.tryApplyProofOutputs H cmRoot nullifier cm : Outcome (LedgerError Id) LedgerState) =
        ok s ∧ s.nullifiers = insert nullifier self.nullifiers ∧ s.epochState = self.epochState ∧
      self.leadCommitments.roots ⊆ s.leadCommitments.roots ∧
      s.leadCommitments.commitments.length = self.leadCommitments.commitments.length + 1 ∧
      s.spendCommitments.commitments.length = self.spendCommitments.commitments.length + 1 := by
  obtain ⟨rl, hl⟩ : ∃ rl, (self.leadCommitments.insert H cm : Outcome (LedgerError Id) NoteTree) =
      ok ⟨self.leadCommitments.commitments ++ [cm], insert rl self.leadCommitments.roots⟩ :=
    NoteTree.insert_ok hlead
  obtain ⟨rs, hs⟩ : ∃ rs, (self.spendCommitments.insert H cm : Outcome (LedgerError Id) NoteTree) =
      ok ⟨self.spendCommitments.commitments ++ [cm], insert rs self.spendCommitments.roots⟩ :=
    NoteTree.insert_ok hspend
  refine ⟨_, tryApplyProofOutputs_eq_ok.mpr ⟨hroot, hfresh, _, _, hl, hs, rfl⟩, rfl, rfl,
    Finset.subset_insert _ _, ?_, ?_⟩ <;>
    simp only [List.length_append, List.length_singleton]

theorem fromCommitments_eq_ok {commitments : List NoteCommitment} {totalStake : ℕ}
    {s : LedgerState} (h : (fromCommitments H commitments totalStake : Outcome ε LedgerState) = ok s) :
    ∃ tree, (NoteTree.fromIter H commitments : Outcome ε NoteTree) = ok tree ∧
      s = { leadCommitments := tree
            spendCommitments := tree
            nullifiers := ∅
            nonce := Bytes32.zero
            slot := 0
            nextEpochState := ⟨1, Bytes32.zero, default, totalStake⟩
            epochState := ⟨0, Bytes32.zero, default, totalStake⟩ } := by
  simp only [fromCommitments, bind_def, bind_eq_ok, ok.injEq] at h
  obtain ⟨tree, htree, rfl⟩ := h
  exact ⟨tree, htree, rfl⟩

end LedgerState

end NomosLedger
