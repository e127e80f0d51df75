import NomosNode.Ledger.Epochs

/-!
# The ledger: one state per block

`ledger/nomos-ledger/src/lib.rs`, `Ledger`. The ledger maps every block id
it has accepted to the state after that block. `try_update` looks up the
parent's state, checks that every orphan block is known, updates the
parent's state with the leader proof and the orphans' proofs, and stores the
result under the new id.
-/

namespace NomosLedger

open Outcome Cl CryptarchiaEngine

variable {Id : Type} [DecidableEq Id]

structure Ledger (Id : Type) where
  states : Id → Option LedgerState
  config : Config

namespace Ledger

def new (id : Id) (state : LedgerState) (config : Config) : Ledger Id where
  states := Function.update (fun _ => none) id (some state)
  config := config

@[simp] theorem new_states_self (id : Id) (state : LedgerState) (config : Config) :
    (new id state config).states id = some state := by
  simp [new]

def state (self : Ledger Id) (id : Id) : Option LedgerState := self.states id

def tryUpdate {P : Type} [LeaderProof P] (H : Hashes) (self : Ledger Id) (id parentId : Id)
    (slot : Slot) (proof : P) (orphanProofs : List (Id × OrphanProof)) :
    Outcome (LedgerError Id) (Ledger Id) := do
  let parentState ← match self.states parentId with
    | none => err (.parentNotFound parentId)
    | some s => ok s
  let (orphanIds, orphanProofs) := orphanProofs.unzip
  orphanIds.forM fun orphanId =>
    if self.states orphanId = none then err (.orphanMissing orphanId) else ok ()
  let newState ← parentState.tryUpdate H slot proof orphanProofs self.config
  ok { states := Function.update self.states id (some newState), config := self.config }

variable {H : Hashes}

theorem tryUpdate_eq_ok {P : Type} [LeaderProof P] {self ledger : Ledger Id} {id parentId : Id}
    {slot : Slot} {proof : P} {orphanProofs : List (Id × OrphanProof)} :
    (self.tryUpdate H id parentId slot proof orphanProofs = ok ledger) ↔
      ∃ parentState newState, self.states parentId = some parentState ∧
        (∀ o ∈ orphanProofs, self.states o.1 ≠ none) ∧
        (parentState.tryUpdate H slot proof (orphanProofs.map (·.2)) self.config :
          Outcome (LedgerError Id) LedgerState) = ok newState ∧
        ledger = { states := Function.update self.states id (some newState),
                   config := self.config } := by
  unfold tryUpdate
  cases hp : self.states parentId with
  | none => simp
  | some parentState =>
    have horphans : ((orphanProofs.unzip.1).forM fun orphanId =>
        if self.states orphanId = none then (err (.orphanMissing orphanId) :
          Outcome (LedgerError Id) PUnit) else ok ()) = ok ⟨⟩ ↔
        ∀ o ∈ orphanProofs, self.states o.1 ≠ none := by
      rw [forM_eq_ok, List.unzip_fst]
      simp only [List.mem_map, forall_exists_index, and_imp, forall_apply_eq_imp_iff₂]
      refine forall₂_congr fun o _ => ?_
      by_cases ho : self.states o.1 = none <;> simp [ho]
    simp only [bind_def, ok_bind, Option.some.injEq, exists_and_left, exists_eq_left',
      List.unzip_snd]
    rw [← horphans]
    cases (orphanProofs.unzip.1).forM fun orphanId =>
        if self.states orphanId = none then (err (.orphanMissing orphanId) :
          Outcome (LedgerError Id) PUnit) else ok () with
    | ok u =>
      simp only [ok_bind, bind_eq_ok, ok.injEq, true_and]
      exact exists_congr fun s => and_congr_right fun _ => eq_comm
    | err e => simp
    | panic m => simp
    | div => simp

/-- Once the parent is found and every orphan is known, `try_update` is the
parent state's update, stored under the new id. -/
theorem tryUpdate_of_parent {P : Type} [LeaderProof P] {self : Ledger Id} {id parentId : Id}
    {slot : Slot} {proof : P} {orphanProofs : List (Id × OrphanProof)} {parentState : LedgerState}
    (hp : self.states parentId = some parentState)
    (horphans : ∀ o ∈ orphanProofs, self.states o.1 ≠ none) :
    self.tryUpdate H id parentId slot proof orphanProofs =
      (parentState.tryUpdate H slot proof (orphanProofs.map (·.2)) self.config).bind
        fun newState => ok { states := Function.update self.states id (some newState),
                             config := self.config } := by
  have hcheck : ((orphanProofs.unzip.1).forM fun orphanId =>
      if self.states orphanId = none then (err (.orphanMissing orphanId) :
        Outcome (LedgerError Id) PUnit) else ok ()) = ok ⟨⟩ := by
    rw [forM_eq_ok, List.unzip_fst]
    intro x hx
    obtain ⟨o, ho, rfl⟩ := List.mem_map.mp hx
    simp [horphans o ho]
  simp only [tryUpdate, hp, bind_def, ok_bind, hcheck, List.unzip_snd]

/-- The ledger of the test configuration, on the genesis with no commitment,
applies block `1` at slot 1 on block `0` with an accepted proof on the genesis
root. -/
theorem genesis_tryUpdate_one (H : Hashes) {r0 : Bytes32} {s0 : LedgerState}
    (hs0 : s0 = ⟨⟨[], {r0}⟩, ⟨[], {r0}⟩, ∅, Bytes32.zero, 0, ⟨1, Bytes32.zero, default, 1⟩,
      ⟨0, Bytes32.zero, default, 1⟩⟩) (nf : Nullifier) (cm : NoteCommitment) :
    ∃ s1, (Ledger.new 0 s0 testConfig).tryUpdate H 1 0 1 (⟨nf, cm, r0⟩ : AcceptedProof) [] =
      ok ⟨Function.update (Ledger.new 0 s0 testConfig).states 1 (some s1), testConfig⟩ := by
  obtain ⟨s1, h1, -⟩ := genesis_tryUpdate H hs0 nf cm
  exact ⟨s1, tryUpdate_eq_ok.mpr ⟨s0, s1, new_states_self 0 s0 testConfig, (fun _ h => by cases h),
    h1, rfl⟩⟩

end Ledger

end NomosLedger
