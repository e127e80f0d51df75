import NomosNode.Ledger.Ledger
import NomosNode.Lib.Fresh

/-!
# Chains of ledger states

A chain is a sequence of ledger states, each the successful `try_update` of the
one before. An update spends the orphans' nullifiers and then the leader's,
each checked against the set and then inserted, and appends one commitment to
both note trees per nullifier (`Spends`); so no nullifier is spent twice along
a chain. A repeated nullifier is refused with `DoubleSpend` once the slot, the
orphans, the roots and the proof pass, and with the first of those that fails
otherwise; a block that passes every check on a full leader tree panics.
-/

namespace NomosLedger

open Outcome Cl CryptarchiaEngine Fresh

variable {Id : Type} {H : Hashes} {config : Config}

/-- The nullifiers a block spends, in the order `try_apply_leadership` checks
them: the orphans' first, then the leader's. -/
def spentNullifiers {P : Type} [LeaderProof P] (proof : P) (orphanProofs : List OrphanProof) :
    List Nullifier :=
  orphanProofs.map (·.nullifier) ++ [LeaderProof.nullifier proof]

/-- `s'` follows `s` by spending `spent`: every nullifier is fresh when it is
spent and is then in the set, and both note trees gain one commitment per
nullifier without going past capacity. -/
structure Spends (s : LedgerState) (spent : List Nullifier) (s' : LedgerState) : Prop where
  fresh : FreshIn spent s.nullifiers
  nullifiers_eq : s'.nullifiers = s.nullifiers ∪ spent.toFinset
  lead_length : s'.leadCommitments.commitments.length =
    s.leadCommitments.commitments.length + spent.length
  spend_length : s'.spendCommitments.commitments.length =
    s.spendCommitments.commitments.length + spent.length
  within_capacity : spent = [] ∨ s'.leadCommitments.commitments.length ≤ maxNoteComms ∧
    s'.spendCommitments.commitments.length ≤ maxNoteComms

namespace Spends

theorem of_frame {s s' : LedgerState} (hn : s'.nullifiers = s.nullifiers)
    (hl : s'.leadCommitments = s.leadCommitments)
    (hs : s'.spendCommitments = s.spendCommitments) : Spends s [] s' where
  fresh := freshIn_nil _
  nullifiers_eq := by simp [hn]
  lead_length := by simp [hl]
  spend_length := by simp [hs]
  within_capacity := Or.inl rfl

theorem append {s s1 s2 : LedgerState} {l l' : List Nullifier} (h1 : Spends s l s1)
    (h2 : Spends s1 l' s2) : Spends s (l ++ l') s2 where
  fresh := freshIn_append.mpr ⟨h1.fresh, by rw [← h1.nullifiers_eq]; exact h2.fresh⟩
  nullifiers_eq := by
    rw [h2.nullifiers_eq, h1.nullifiers_eq, List.toFinset_append, Finset.union_assoc]
  lead_length := by rw [h2.lead_length, h1.lead_length, List.length_append, Nat.add_assoc]
  spend_length := by rw [h2.spend_length, h1.spend_length, List.length_append, Nat.add_assoc]
  within_capacity := by
    rcases h2.within_capacity with rfl | hcap
    · rcases h1.within_capacity with rfl | ⟨hl, hs⟩
      · exact Or.inl rfl
      · refine Or.inr ⟨?_, ?_⟩
        · rw [h2.lead_length, List.length_nil, Nat.add_zero]
          exact hl
        · rw [h2.spend_length, List.length_nil, Nat.add_zero]
          exact hs
    · exact Or.inr hcap

end Spends

namespace LedgerState

theorem updateEpochState_spends {self s : LedgerState} {slot : Slot}
    (h : (self.updateEpochState slot config : Outcome (LedgerError Id) LedgerState) = ok s) :
    Spends self [] s := by
  obtain ⟨-, _, _, -, -, hcases⟩ := updateEpochState_eq_ok (ε := Empty) h
  rcases hcases with ⟨-, -, -, rfl⟩ | ⟨-, -, -, rfl⟩ | ⟨-, -, -, rfl⟩ <;>
    exact Spends.of_frame rfl rfl rfl

theorem tryApplyProofOutputs_spends {self s : LedgerState} {cmRoot : Bytes32}
    {nullifier : Nullifier} {cm : NoteCommitment}
    (h : (self.tryApplyProofOutputs H cmRoot nullifier cm :
      Outcome (LedgerError Id) LedgerState) = ok s) :
    Spends self [nullifier] s := by
  obtain ⟨-, hfresh, l, sp, hl, hsp, rfl⟩ := tryApplyProofOutputs_eq_ok.mp h
  obtain ⟨hlcap, hleq, -⟩ := NoteTree.insert_eq_ok hl
  obtain ⟨hscap, hseq, -⟩ := NoteTree.insert_eq_ok hsp
  have hllen : l.commitments.length = self.leadCommitments.commitments.length + 1 := by
    rw [hleq, List.length_append, List.length_singleton]
  have hslen : sp.commitments.length = self.spendCommitments.commitments.length + 1 := by
    rw [hseq, List.length_append, List.length_singleton]
  refine ⟨freshIn_singleton.mpr hfresh, ?_, hllen, hslen, Or.inr ⟨?_, ?_⟩⟩
  · rw [List.toFinset_cons, List.toFinset_nil, Finset.union_insert, Finset.union_empty]
  · show l.commitments.length ≤ maxNoteComms
    omega
  · show sp.commitments.length ≤ maxNoteComms
    omega

theorem foldlM_tryApplyProofOutputs_spends :
    ∀ {orphanProofs : List OrphanProof} {self s : LedgerState},
      (orphanProofs.foldlM
          (fun self o => self.tryApplyProofOutputs H o.cmRoot o.nullifier o.commitment) self :
          Outcome (LedgerError Id) LedgerState) = ok s →
      Spends self (orphanProofs.map (·.nullifier)) s := by
  intro orphanProofs
  induction orphanProofs with
  | nil =>
    intro self s h
    simp only [List.foldlM_nil, pure_def, ok.injEq] at h
    subst h
    exact Spends.of_frame rfl rfl rfl
  | cons o rest ih =>
    intro self s h
    simp only [List.foldlM_cons, bind_def, bind_eq_ok] at h
    obtain ⟨s1, h1, hrest⟩ := h
    exact (tryApplyProofOutputs_spends h1).append (ih hrest)

theorem tryApplyLeadership_spends {P : Type} [LeaderProof P] {self s : LedgerState}
    {slot : Slot} {proof : P} {orphanProofs : List OrphanProof}
    (h : (self.tryApplyLeadership H slot proof orphanProofs config :
      Outcome (LedgerError Id) LedgerState) = ok s) :
    Spends self (spentNullifiers proof orphanProofs) s := by
  obtain ⟨s1, s2, h1, h2, rfl⟩ := tryApplyLeadership_eq_ok.mp h
  obtain ⟨-, -, -, -, hout⟩ := tryApplyProof_eq_ok.mp h2
  have hnonce : Spends s2 [] (s2.updateNonce H (LeaderProof.nullifier proof) slot) :=
    Spends.of_frame rfl rfl rfl
  have hall := ((foldlM_tryApplyProofOutputs_spends h1).append
    (tryApplyProofOutputs_spends hout)).append hnonce
  rw [List.append_nil] at hall
  exact hall

theorem tryUpdate_spends {P : Type} [LeaderProof P] {self s : LedgerState} {slot : Slot}
    {proof : P} {orphanProofs : List OrphanProof}
    (h : (self.tryUpdate H slot proof orphanProofs config :
      Outcome (LedgerError Id) LedgerState) = ok s) :
    Spends self (spentNullifiers proof orphanProofs) s := by
  obtain ⟨s1, h1, h2⟩ := tryUpdate_eq_ok.mp h
  exact (updateEpochState_spends h1).append (tryApplyLeadership_spends h2)

/-- A block that passes every check of the ledger on a state whose leader tree
is full panics: the evolved commitment does not fit in `padded_leaves`. -/
theorem tryUpdate_of_full {P : Type} [LeaderProof P] {self s1 : LedgerState} {slot : Slot}
    {proof : P}
    (hs1 : (self.updateEpochState slot config : Outcome (LedgerError Id) LedgerState) = ok s1)
    (hepoch : (config.epoch slot : Outcome (LedgerError Id) Epoch) = ok s1.epochState.epoch)
    (hpos : 0 < s1.epochState.totalStake) (hstake : s1.epochState.totalStake < 2 ^ 64)
    (hverify : ∀ publicInputs, LeaderProof.verify proof publicInputs = true)
    (hroot : LeaderProof.merkeRoot proof ∈ s1.leadCommitments.roots)
    (hfresh : LeaderProof.nullifier proof ∉ s1.nullifiers)
    (hfull : maxNoteComms ≤ s1.leadCommitments.commitments.length) :
    (self.tryUpdate H slot proof [] config : Outcome (LedgerError Id) LedgerState) =
      .panic "assertion failed: i < N" := by
  simp only [tryUpdate, tryApplyLeadership, bind_def, hs1, ok_bind, List.foldlM_nil, pure_def,
    tryApplyProof_of_verified hepoch hpos hstake hverify,
    tryApplyProofOutputs_of_full (Or.inl hroot) hfresh hfull, panic_bind]

variable (Id) in
/-- Orphans with valid roots, room in both trees and fresh nullifiers are all
applied; the leader tree keeps its roots and the epoch snapshot is unchanged. -/
theorem foldlM_tryApplyProofOutputs_of_fresh :
    ∀ {orphanProofs : List OrphanProof} {self : LedgerState},
      (∀ p ∈ orphanProofs, p.cmRoot ∈ self.leadCommitments.roots ∨
        p.cmRoot ∈ self.epochState.commitments.roots) →
      self.leadCommitments.commitments.length + orphanProofs.length ≤ maxNoteComms →
      self.spendCommitments.commitments.length + orphanProofs.length ≤ maxNoteComms →
      FreshIn (orphanProofs.map (·.nullifier)) self.nullifiers →
      ∃ s, (orphanProofs.foldlM
          (fun self o => self.tryApplyProofOutputs H o.cmRoot o.nullifier o.commitment) self :
          Outcome (LedgerError Id) LedgerState) = ok s ∧
        s.epochState = self.epochState ∧ self.leadCommitments.roots ⊆ s.leadCommitments.roots := by
  intro orphanProofs
  induction orphanProofs with
  | nil => exact fun {self} _ _ _ _ => ⟨self, rfl, rfl, subset_rfl⟩
  | cons p rest ih =>
    intro self hroots hlead hspend hfresh
    rw [List.length_cons] at hlead hspend
    rw [List.map_cons] at hfresh
    obtain ⟨hp, hrest⟩ := freshIn_cons.mp hfresh
    obtain ⟨s1, h1, hnull, hep, hsub, hlead1, hspend1⟩ := tryApplyProofOutputs_of_fresh Id
      (H := H) p.commitment (hroots p List.mem_cons_self) hp (by omega) (by omega)
    have hroots1 : ∀ q ∈ rest, q.cmRoot ∈ s1.leadCommitments.roots ∨
        q.cmRoot ∈ s1.epochState.commitments.roots := fun q hq =>
      (hroots q (List.mem_cons_of_mem p hq)).imp (fun h => hsub h) (fun h => by rw [hep]; exact h)
    obtain ⟨s, hs, hep', hsub'⟩ := ih hroots1 (by omega) (by omega) (by rwa [hnull])
    refine ⟨s, ?_, hep'.trans hep, hsub.trans hsub'⟩
    rw [List.foldlM_cons, bind_def, h1, ok_bind, hs]

variable (Id) in
/-- Orphans with valid roots and room in both trees, up to the first one whose
nullifier was spent already, in the state or by an orphan before it: that one
is refused with `DoubleSpend`. By induction on the orphans before it. -/
theorem foldlM_tryApplyProofOutputs_doubleSpend {o : OrphanProof} (post : List OrphanProof) :
    ∀ {pre : List OrphanProof} {self : LedgerState},
      (∀ p ∈ pre ++ [o], p.cmRoot ∈ self.leadCommitments.roots ∨
        p.cmRoot ∈ self.epochState.commitments.roots) →
      self.leadCommitments.commitments.length + pre.length < maxNoteComms →
      self.spendCommitments.commitments.length + pre.length < maxNoteComms →
      FreshIn (pre.map (·.nullifier)) self.nullifiers →
      o.nullifier ∈ self.nullifiers ∪ (pre.map (·.nullifier)).toFinset →
      ((pre ++ o :: post).foldlM
          (fun self o => self.tryApplyProofOutputs H o.cmRoot o.nullifier o.commitment) self :
          Outcome (LedgerError Id) LedgerState) = err (.doubleSpend o.nullifier) := by
  intro pre
  induction pre with
  | nil =>
    intro self hroots _ _ _ hspent
    rw [List.map_nil, List.toFinset_nil, Finset.union_empty] at hspent
    rw [List.nil_append, List.foldlM_cons, bind_def,
      tryApplyProofOutputs_doubleSpend (hroots o (by simp)) hspent, err_bind]
  | cons p pre ih =>
    intro self hroots hlead hspend hfresh hspent
    rw [List.length_cons] at hlead hspend
    rw [List.map_cons] at hfresh hspent
    obtain ⟨hp, hpre⟩ := freshIn_cons.mp hfresh
    obtain ⟨s1, h1, hnull, hep, hsub, hlead1, hspend1⟩ := tryApplyProofOutputs_of_fresh Id
      (H := H) p.commitment (hroots p List.mem_cons_self) hp (by omega) (by omega)
    have hroots1 : ∀ q ∈ pre ++ [o], q.cmRoot ∈ s1.leadCommitments.roots ∨
        q.cmRoot ∈ s1.epochState.commitments.roots := fun q hq =>
      (hroots q (List.mem_cons_of_mem p hq)).imp (fun h => hsub h) (fun h => by rw [hep]; exact h)
    have hspent1 : o.nullifier ∈ s1.nullifiers ∪ (pre.map (·.nullifier)).toFinset := by
      rw [hnull, Finset.insert_union]
      rwa [List.toFinset_cons, Finset.union_insert] at hspent
    rw [List.cons_append, List.foldlM_cons, bind_def, h1, ok_bind]
    exact ih hroots1 (by omega) (by omega) (by rwa [hnull]) hspent1

/-- A block whose spends are not fresh, with valid roots, room in both trees
and a proof that the verifier accepts in the right epoch, is refused with
`DoubleSpend` of one of its nullifiers: the first orphan's that repeats one,
or else the leader proof's. -/
theorem tryApplyLeadership_doubleSpend {P : Type} [LeaderProof P] {self : LedgerState}
    {slot : Slot} {proof : P} {orphanProofs : List OrphanProof}
    (hepoch : (config.epoch slot : Outcome (LedgerError Id) Epoch) = ok self.epochState.epoch)
    (hpos : 0 < self.epochState.totalStake) (hstake : self.epochState.totalStake < 2 ^ 64)
    (hverify : ∀ publicInputs, LeaderProof.verify proof publicInputs = true)
    (hroots : ∀ root ∈ LeaderProof.merkeRoot proof :: orphanProofs.map (·.cmRoot),
      root ∈ self.leadCommitments.roots ∨ root ∈ self.epochState.commitments.roots)
    (hlead : self.leadCommitments.commitments.length + orphanProofs.length ≤ maxNoteComms)
    (hspend : self.spendCommitments.commitments.length + orphanProofs.length ≤ maxNoteComms)
    (hspent : ¬ FreshIn (spentNullifiers proof orphanProofs) self.nullifiers) :
    ∃ nullifier ∈ spentNullifiers proof orphanProofs,
      (self.tryApplyLeadership H slot proof orphanProofs config :
        Outcome (LedgerError Id) LedgerState) = err (.doubleSpend nullifier) := by
  have horphanRoots : ∀ p ∈ orphanProofs, p.cmRoot ∈ self.leadCommitments.roots ∨
      p.cmRoot ∈ self.epochState.commitments.roots := fun p hp =>
    hroots p.cmRoot (List.mem_cons_of_mem _ (List.mem_map_of_mem hp))
  by_cases horphans : FreshIn (orphanProofs.map (·.nullifier)) self.nullifiers
  · -- the orphans are applied, and the leader proof repeats a nullifier
    obtain ⟨s, hs, hep, hsub⟩ :=
      foldlM_tryApplyProofOutputs_of_fresh Id (H := H) horphanRoots hlead hspend horphans
    have hleader : LeaderProof.nullifier proof ∈ s.nullifiers := by
      rw [(foldlM_tryApplyProofOutputs_spends hs).nullifiers_eq]
      rw [spentNullifiers, freshIn_append, freshIn_singleton] at hspent
      exact not_not.mp fun h => hspent ⟨horphans, h⟩
    have hroot : LeaderProof.merkeRoot proof ∈ s.leadCommitments.roots ∨
        LeaderProof.merkeRoot proof ∈ s.epochState.commitments.roots :=
      (hroots _ List.mem_cons_self).imp (fun h => hsub h) (fun h => by rw [hep]; exact h)
    rw [← hep] at hepoch hpos hstake
    refine ⟨LeaderProof.nullifier proof, by simp [spentNullifiers], ?_⟩
    simp only [tryApplyLeadership, bind_def, hs, ok_bind,
      tryApplyProof_of_verified hepoch hpos hstake hverify,
      tryApplyProofOutputs_doubleSpend hroot hleader, err_bind]
  · -- the first orphan that repeats a nullifier is refused
    obtain ⟨pre, o, post, rfl, hpre, ho⟩ := exists_first_spent (fun o : OrphanProof => o.nullifier) horphans
    rw [List.length_append, List.length_cons] at hlead hspend
    have hdouble := foldlM_tryApplyProofOutputs_doubleSpend Id post (H := H)
      (fun p hp => horphanRoots p (by simp only [List.mem_append, List.mem_cons] at hp ⊢; tauto))
      (by omega) (by omega) hpre ho
    refine ⟨o.nullifier, by simp [spentNullifiers], ?_⟩
    simp only [tryApplyLeadership, bind_def, hdouble, err_bind]

end LedgerState

/-- Successive states along a chain: `s'` follows `s` by successful
`try_update`s that together spend `spent`. -/
inductive Chain (Id : Type) (H : Hashes) (config : Config) :
    LedgerState → List Nullifier → LedgerState → Prop
  | refl (s : LedgerState) : Chain Id H config s [] s
  | cons {P : Type} [LeaderProof P] {s s1 s2 : LedgerState} {slot : Slot} {proof : P}
      {orphanProofs : List OrphanProof} {spent : List Nullifier} :
      (s.tryUpdate H slot proof orphanProofs config : Outcome (LedgerError Id) LedgerState) =
        ok s1 →
      Chain Id H config s1 spent s2 →
      Chain Id H config s (spentNullifiers proof orphanProofs ++ spent) s2

theorem Chain.spends {s s' : LedgerState} {spent : List Nullifier}
    (h : Chain Id H config s spent s') : Spends s spent s' := by
  induction h with
  | refl s => exact Spends.of_frame rfl rfl rfl
  | cons hstep _ ih => exact (LedgerState.tryUpdate_spends hstep).append ih

/-- A chain that spends anything fits in the note trees: it spends at most
`MAX_NOTE_COMMS` nullifiers minus the commitments it starts from. -/
theorem Chain.spent_length_le {s s' : LedgerState} {spent : List Nullifier}
    (h : Chain Id H config s spent s') (hne : spent ≠ []) :
    s.leadCommitments.commitments.length + spent.length ≤ maxNoteComms := by
  have hs := h.spends
  rcases hs.within_capacity with hnil | ⟨hcap, -⟩
  · exact absurd hnil hne
  · rw [← hs.lead_length]
    exact hcap

/-- The genesis with no commitment, under hashes that return zero: its first
block makes a chain that spends one nullifier, within the trees. -/
theorem spent_length_le_first_block :
    ∃ (s0 s1 : LedgerState) (r0 : Bytes32),
      Chain ℕ ⟨fun _ => Bytes32.zero, fun _ => Bytes32.zero⟩ testConfig s0
        (spentNullifiers (⟨⟨Vector.replicate 32 1⟩, ⟨Bytes32.zero⟩, r0⟩ : AcceptedProof) [] ++ []) s1 ∧
      s0.leadCommitments.commitments.length +
        (spentNullifiers (⟨⟨Vector.replicate 32 1⟩, ⟨Bytes32.zero⟩, r0⟩ : AcceptedProof) [] ++
          []).length ≤ maxNoteComms := by
  obtain ⟨r0, s0, -, hs0eq⟩ := fromCommitments_nil (ε := LedgerError ℕ)
    ⟨fun _ => Bytes32.zero, fun _ => Bytes32.zero⟩
  obtain ⟨s1, h1, -⟩ := genesis_tryUpdate ⟨fun _ => Bytes32.zero, fun _ => Bytes32.zero⟩ hs0eq
    ⟨Vector.replicate 32 1⟩ ⟨Bytes32.zero⟩
  have hchain : Chain ℕ ⟨fun _ => Bytes32.zero, fun _ => Bytes32.zero⟩ testConfig s0
      (spentNullifiers (⟨⟨Vector.replicate 32 1⟩, ⟨Bytes32.zero⟩, r0⟩ : AcceptedProof) [] ++ []) s1 :=
    .cons h1 (.refl s1)
  exact ⟨s0, s1, r0, hchain, hchain.spent_length_le (by simp [spentNullifiers])⟩

variable [DecidableEq Id]

/-- A successful `try_update` stores under the new id a state that follows the
parent's state on a chain. -/
theorem Ledger.tryUpdate_chain {P : Type} [LeaderProof P] {self ledger : Ledger Id}
    {id parentId : Id} {slot : Slot} {proof : P} {orphanProofs : List (Id × OrphanProof)}
    (h : self.tryUpdate H id parentId slot proof orphanProofs = ok ledger) :
    ∃ parentState newState, self.states parentId = some parentState ∧
      ledger.states id = some newState ∧ ledger.config = self.config ∧
      Chain Id H self.config parentState (spentNullifiers proof (orphanProofs.map (·.2)))
        newState := by
  obtain ⟨parentState, newState, hp, -, hnew, rfl⟩ := Ledger.tryUpdate_eq_ok.mp h
  have hchain := Chain.cons hnew (Chain.refl newState)
  rw [List.append_nil] at hchain
  exact ⟨parentState, newState, hp, Function.update_self _ _ _, rfl, hchain⟩

/-- The genesis ledger with any state: a block at the parent's slot whose
orphan proof and leader proof share their nullifier is refused for its slot. -/
theorem tryUpdate_repeated_nullifier_invalidSlot (H : Hashes) (s0 : LedgerState)
    (nf : Nullifier) (cm : NoteCommitment) (root : Bytes32) :
    ((Ledger.new 0 s0 testConfig).tryUpdate H 1 0 s0.slot (⟨nf, cm, root⟩ : AcceptedProof)
        [(0, ⟨nf, cm, root⟩)] : Outcome (LedgerError ℕ) (Ledger ℕ)) =
      err (.invalidSlot s0.slot s0.slot) := by
  have hp : (Ledger.new 0 s0 testConfig).states 0 = some s0 := Ledger.new_states_self _ _ _
  have horphans : ∀ o ∈ [((0 : ℕ), (⟨nf, cm, root⟩ : OrphanProof))],
      (Ledger.new 0 s0 testConfig).states o.1 ≠ none := by
    simp
  simp only [Ledger.tryUpdate_of_parent hp horphans, LedgerState.tryUpdate,
    LedgerState.updateEpochState, le_refl, if_true, bind_def, err_bind]

/-- A genesis whose note trees are full: `from_commitments` accepts `2 ^ 14`
commitments, and the first block, at slot 1 with an accepted leader proof on
the genesis root and a fresh nullifier, panics when it inserts its evolved
commitment. -/
theorem tryUpdate_panics_at_capacity (H : Hashes) (cm : NoteCommitment) (nf : Nullifier) :
    ∃ r0 s0, (LedgerState.fromCommitments H (List.replicate maxNoteComms cm) 1 :
        Outcome (LedgerError ℕ) LedgerState) = ok s0 ∧ s0.leadCommitments.roots = {r0} ∧
      ((Ledger.new 0 s0 testConfig).tryUpdate H 1 0 1 (⟨nf, cm, r0⟩ : AcceptedProof) [] :
        Outcome (LedgerError ℕ) (Ledger ℕ)) = .panic "assertion failed: i < N" := by
  obtain ⟨r0, hr0⟩ : ∃ r, (NoteTree.fromIter H (List.replicate maxNoteComms cm) :
      Outcome (LedgerError ℕ) NoteTree) = ok ⟨List.replicate maxNoteComms cm, {r}⟩ :=
    NoteTree.fromIter_ok (by simp)
  let s0 : LedgerState := ⟨⟨List.replicate maxNoteComms cm, {r0}⟩,
    ⟨List.replicate maxNoteComms cm, {r0}⟩, ∅, Bytes32.zero, 0, ⟨1, Bytes32.zero, default, 1⟩,
    ⟨0, Bytes32.zero, default, 1⟩⟩
  have hs0 : (LedgerState.fromCommitments H (List.replicate maxNoteComms cm) 1 :
      Outcome (LedgerError ℕ) LedgerState) = ok s0 := by
    simp only [LedgerState.fromCommitments, bind_def, hr0, ok_bind]
    rfl
  have hu1 : (s0.updateEpochState 1 testConfig : Outcome (LedgerError ℕ) LedgerState) =
      ok { s0 with slot := 1, nextEpochState := ⟨1, Bytes32.zero, default, 1⟩ } :=
    updateEpochState_one_of_slot_zero rfl rfl
  have hpanic : (s0.tryUpdate H 1 (⟨nf, cm, r0⟩ : AcceptedProof) [] testConfig :
      Outcome (LedgerError ℕ) LedgerState) = .panic "assertion failed: i < N" :=
    LedgerState.tryUpdate_of_full hu1 rfl Nat.one_pos (by show 1 < 2 ^ 64; norm_num)
      (fun _ => rfl) (Finset.mem_singleton_self r0) (Finset.notMem_empty _)
      (by show maxNoteComms ≤ (List.replicate maxNoteComms cm).length; simp)
  have hp : (Ledger.new 0 s0 testConfig).states 0 = some s0 := Ledger.new_states_self _ _ _
  refine ⟨r0, s0, hs0, rfl, ?_⟩
  rw [Ledger.tryUpdate_of_parent hp (fun _ h => absurd h List.not_mem_nil), List.map_nil]
  show (LedgerState.tryUpdate H s0 1 _ [] testConfig).bind _ = _
  rw [hpanic]
  rfl

end NomosLedger
