import NomosNode.Ledger.LedgerState

/-!
# Block headers and their ids

`nomos-core/chain-defs/src/header/mod.rs` and `proofs/leader_proof.rs`: a
header's id is the Blake2b digest of what `update_hasher` writes, the fixed-width
fields, the leader proof's nullifier and evolved commitment, then the streams of
the orphaned headers one after another with no count or length. So the stream
does not determine the orphan list, nor does it contain the Merkle root of the
leader proof. The header is generic in its ids and leader proofs; a
`Risc0LeaderProof` is its public inputs, which `verify` compares.
-/

namespace NomosCore

open Cl NomosLedger CryptarchiaEngine ProofStatements

structure HeaderId where
  bytes : Bytes32
  deriving DecidableEq

structure ContentId where
  bytes : Bytes32
  deriving DecidableEq

structure Header (Id P : Type) where
  parent : Id
  slot : Slot
  contentSize : ℕ
  contentId : ContentId
  leaderProof : P
  orphanedLeaderProofs : List (Header Id P)

structure Risc0LeaderProof where
  publicInputs : LeaderPublic

instance : LeaderProof Risc0LeaderProof where
  verify self publicInputs := decide (publicInputs = self.publicInputs)
  nullifier self := self.publicInputs.nullifier
  evolvedCommitment self := self.publicInputs.evolvedCommitment
  merkeRoot self := self.publicInputs.cmRoot

namespace Header

variable {P : Type} [LeaderProof P]

mutual

def updateHasher : Header HeaderId P → Bytes
  | ⟨parent, slot, contentSize, contentId, leaderProof, orphanedLeaderProofs⟩ =>
    [1] ++ beBytes 4 contentSize ++ contentId.bytes.toList ++ beBytes 8 slot ++
      parent.bytes.toList ++ (LeaderProof.nullifier leaderProof).bytes.toList ++
      (LeaderProof.evolvedCommitment leaderProof).bytes.toList ++
      updateHasherList orphanedLeaderProofs

/-- `for proof in &self.orphaned_leader_proofs { proof.update_hasher(h) }`. -/
def updateHasherList : List (Header HeaderId P) → Bytes
  | [] => []
  | h :: hs => updateHasher h ++ updateHasherList hs

end

def id (H : Hashes) (self : Header HeaderId P) : HeaderId := ⟨H.blake2b (updateHasher self)⟩

/-- The stream of a header is its own fields followed by its orphans' streams. -/
theorem updateHasher_eq (h : Header HeaderId P) :
    updateHasher h = [1] ++ beBytes 4 h.contentSize ++ h.contentId.bytes.toList ++
      beBytes 8 h.slot ++ h.parent.bytes.toList ++
      (LeaderProof.nullifier h.leaderProof).bytes.toList ++
      (LeaderProof.evolvedCommitment h.leaderProof).bytes.toList ++
      updateHasherList h.orphanedLeaderProofs := by
  obtain ⟨parent, slot, contentSize, contentId, leaderProof, orphanedLeaderProofs⟩ := h
  rw [updateHasher]

/-- Two headers whose ids agree for every hash and whose contents for the
ledger differ: moving an orphan's own orphan up beside it changes the orphan
list, and replacing the Merkle root of a `Risc0LeaderProof` changes the root
the ledger checks; neither changes the stream. -/
theorem id_collisions (H : Hashes) (h b c : Header HeaderId Risc0LeaderProof)
    (root : Bytes32) :
    (({ h with orphanedLeaderProofs := [{ b with orphanedLeaderProofs := [] }, c] } :
        Header HeaderId Risc0LeaderProof).id H =
      ({ h with orphanedLeaderProofs := [{ b with orphanedLeaderProofs := [c] }] } :
        Header HeaderId Risc0LeaderProof).id H) ∧
    (({ h with leaderProof := ⟨{ h.leaderProof.publicInputs with cmRoot := root }⟩ } :
        Header HeaderId Risc0LeaderProof).id H = h.id H) ∧
    LeaderProof.merkeRoot
      (⟨{ h.leaderProof.publicInputs with cmRoot := root }⟩ : Risc0LeaderProof) = root := by
  refine ⟨?_, ?_, rfl⟩
  · -- both streams are `h`'s fields, `b`'s fields, then `c`'s stream
    simp only [id, updateHasher_eq, updateHasherList, List.append_nil, List.append_assoc]
  · simp only [id, updateHasher_eq]
    rfl

end Header

end NomosCore
