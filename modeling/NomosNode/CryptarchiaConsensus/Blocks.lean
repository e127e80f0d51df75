import NomosNode.CryptarchiaConsensus.Service
import NomosNode.Core.Block

/-!
# Processing a received block

`nomos-services/cryptarchia-consensus/src/lib.rs`, `process_block` and
`validate_block`. A received block is checked only for its blobs, each of
whose ids must be among the sampled ones; its header then goes through
`try_apply_header`. When both pass, the block is applied: the new state is
kept, and the block is stored under its id, its contents are marked in the
mempools and it is broadcast. Otherwise the old state is kept.

Nothing on this path reads the block's transactions, nor compares the
header's content id and size with the block's contents.
-/

namespace CryptarchiaConsensus

open Outcome Cl NomosLedger CryptarchiaEngine NomosCore

variable {Id P Tx B BlobId : Type} {ε : Type} [DecidableEq Id] [LeaderProof P]
  [DecidableEq BlobId]

/-- `validate_block`: every blob id of the block was sampled. -/
def validateBlock (blobId : B → BlobId) (block : Block Id P Tx B)
    (sampledBlobsIds : Finset BlobId) : Bool :=
  block.blBlobs.all fun blob => decide (blobId blob ∈ sampledBlobsIds)

/-- `process_block`, with the sampled blob ids that the sampling relay returns
(`none` when it fails). The second component says whether the block was
applied: stored, marked in the mempools, and broadcast. -/
def processBlock (H : Hashes) (order : IterOrder Id) (headerId : Header Id P → Id)
    (blobId : B → BlobId) (sampledBlobs : Option (Finset BlobId))
    (cryptarchia : Cryptarchia Id) (block : Block Id P Tx B) :
    Outcome ε (Cryptarchia Id × Bool) :=
  match sampledBlobs with
  | none => ok (cryptarchia, false)
  | some sampledBlobs =>
    if !validateBlock blobId block sampledBlobs then ok (cryptarchia, false) else
    match cryptarchia.tryApplyHeader H order headerId block.header with
    | .ok newState => ok (newState, true)
    | .err _ => ok (cryptarchia, false)
    | .panic m => .panic m
    | .div => .div

/-- A block is applied exactly when its blobs were sampled and its header is
accepted, and then the state is the one `try_apply_header` returns. -/
theorem processBlock_eq_applied {H : Hashes} {order : IterOrder Id}
    {headerId : Header Id P → Id} {blobId : B → BlobId} {sampledBlobs : Option (Finset BlobId)}
    {cryptarchia c : Cryptarchia Id} {block : Block Id P Tx B} :
    (processBlock H order headerId blobId sampledBlobs cryptarchia block : Outcome ε _) =
        ok (c, true) ↔
      ∃ sampled, sampledBlobs = some sampled ∧ validateBlock blobId block sampled = true ∧
        cryptarchia.tryApplyHeader H order headerId block.header = ok c := by
  unfold processBlock
  cases sampledBlobs with
  | none => simp
  | some sampled =>
    by_cases hvalid : validateBlock blobId block sampled = true
    · simp only [hvalid, Bool.not_true, Bool.false_eq_true, if_false, Option.some.injEq,
        exists_eq_left', true_and]
      cases cryptarchia.tryApplyHeader H order headerId block.header <;> simp
    · simp [hvalid]

/-- `process_block` does not read the block's transactions: a block whose
transactions are replaced, and whose content id then no longer matches them, is
applied exactly as the original, with the same new state. -/
theorem processBlock_ignores_transactions (H : Hashes) (order : IterOrder Id)
    (headerId : Header Id P → Id) (blobId : B → BlobId) (sampledBlobs : Option (Finset BlobId))
    (cryptarchia : Cryptarchia Id) (block : Block Id P Tx B) (txs : List Tx) :
    (processBlock H order headerId blobId sampledBlobs cryptarchia
        { block with clTransactions := txs } : Outcome ε _) =
      processBlock H order headerId blobId sampledBlobs cryptarchia block := by
  cases sampledBlobs <;> rfl

end CryptarchiaConsensus
