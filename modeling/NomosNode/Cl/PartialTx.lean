import NomosNode.Cl.Balance

/-!
# Partial transactions

`nomos-core/cl/src/partial_tx.rs`. A partial transaction commits to its inputs
and to its outputs through two Merkle roots over `MAX_INPUTS = MAX_OUTPUTS = 8`
padded leaves, and to its balance. The witness of an input (of an output) is
the input with its Merkle path, and checking it recomputes the root from the
leaf of the input's commitment.

`padded_leaves::<8>` panics on more than eight inputs, and `merkle::path`
and the indexing `self.inputs[idx]` panic on an index past them.
-/

namespace Cl

open Outcome

variable {ε : Type} (sha256 : Bytes → Bytes32)

def maxInputs : ℕ := 8

def maxOutputs : ℕ := 8

structure PtxRoot where
  bytes : Bytes32
  deriving DecidableEq

structure PartialTx where
  inputs : List Input
  outputs : List Output
  balance : Balance

structure PartialTxInputWitness where
  input : InputWitness
  path : List Merkle.PathNode

structure PartialTxOutputWitness where
  output : OutputWitness
  path : List Merkle.PathNode

namespace PartialTxWitness

def commit (self : PartialTxWitness) : PartialTx :=
  { inputs := self.inputs.map (InputWitness.commit sha256)
    outputs := self.outputs.map (OutputWitness.commit sha256)
    balance := self.balance.commit sha256 }

def inputWitness (self : PartialTxWitness) (idx : ℕ) : Outcome ε PartialTxInputWitness := do
  let inputBytes := self.inputs.map fun i => (i.commit sha256).toBytes
  let inputMerkleLeaves ← Merkle.paddedLeaves sha256 maxInputs inputBytes
  let path ← Merkle.path sha256 inputMerkleLeaves idx
  let input ← getIndex self.inputs idx
  ok { input, path }

def outputWitness (self : PartialTxWitness) (idx : ℕ) : Outcome ε PartialTxOutputWitness := do
  let outputBytes := self.outputs.map fun o => (o.commit sha256).toBytes
  let outputMerkleLeaves ← Merkle.paddedLeaves sha256 maxOutputs outputBytes
  let path ← Merkle.path sha256 outputMerkleLeaves idx
  let output ← getIndex self.outputs idx
  ok { output, path }

end PartialTxWitness

namespace PartialTx

def inputRoot (self : PartialTx) : Outcome ε Bytes32 := do
  let inputMerkleLeaves ← Merkle.paddedLeaves sha256 maxInputs (self.inputs.map Input.toBytes)
  Merkle.root sha256 inputMerkleLeaves

def outputRoot (self : PartialTx) : Outcome ε Bytes32 := do
  let outputMerkleLeaves ← Merkle.paddedLeaves sha256 maxOutputs (self.outputs.map Output.toBytes)
  Merkle.root sha256 outputMerkleLeaves

def root (self : PartialTx) : Outcome ε PtxRoot := do
  let inputRoot ← self.inputRoot sha256
  let outputRoot ← self.outputRoot sha256
  ok ⟨Merkle.node sha256 inputRoot outputRoot⟩

end PartialTx

def PartialTxInputWitness.inputRoot (self : PartialTxInputWitness) : Bytes32 :=
  Merkle.pathRoot sha256 (Merkle.leaf sha256 (self.input.commit sha256).toBytes) self.path

def PartialTxOutputWitness.outputRoot (self : PartialTxOutputWitness) : Bytes32 :=
  Merkle.pathRoot sha256 (Merkle.leaf sha256 (self.output.commit sha256).toBytes) self.path

variable {sha256}

theorem maxInputs_pow : maxInputs = 2 ^ maxInputs.log2 := by decide

theorem maxOutputs_pow : maxOutputs = 2 ^ maxOutputs.log2 := by decide

namespace PartialTxWitness

/-- The witness of an input below the count recomputes the input root of the
partial transaction. -/
theorem inputWitness_inputRoot (self : PartialTxWitness) (hlen : self.inputs.length ≤ maxInputs)
    {idx : ℕ} (hidx : idx < self.inputs.length) :
    ∃ w, (self.inputWitness sha256 idx : Outcome ε PartialTxInputWitness) = ok w ∧
      ((self.commit sha256).inputRoot sha256 : Outcome ε Bytes32) = ok (w.inputRoot sha256) := by
  have hbytes : (self.inputs.map fun i => (i.commit sha256).toBytes).length ≤ maxInputs := by
    rwa [List.length_map]
  obtain ⟨leaves, p, hleaves, hp, -, hroot⟩ :=
    @Merkle.pathRoot_paddedLeaves ε sha256 _ maxInputs_pow _ hbytes _ (by rwa [List.length_map])
  refine ⟨⟨self.inputs[idx], p⟩, ?_, ?_⟩
  · simp only [inputWitness, bind_def, hleaves, ok_bind, hp, getIndex_of_lt hidx]
  · -- the committed inputs hash to the same leaves
    simp only [PartialTx.inputRoot, commit, List.map_map, Function.comp_def, bind_def, hleaves,
      ok_bind, hroot, List.getElem_map]
    rfl

/-- The witness of an output below the count recomputes the output root of the
partial transaction. -/
theorem outputWitness_outputRoot (self : PartialTxWitness) (hlen : self.outputs.length ≤ maxOutputs)
    {idx : ℕ} (hidx : idx < self.outputs.length) :
    ∃ w, (self.outputWitness sha256 idx : Outcome ε PartialTxOutputWitness) = ok w ∧
      ((self.commit sha256).outputRoot sha256 : Outcome ε Bytes32) = ok (w.outputRoot sha256) := by
  have hbytes : (self.outputs.map fun o => (o.commit sha256).toBytes).length ≤ maxOutputs := by
    rwa [List.length_map]
  obtain ⟨leaves, p, hleaves, hp, -, hroot⟩ :=
    @Merkle.pathRoot_paddedLeaves ε sha256 _ maxOutputs_pow _ hbytes _ (by rwa [List.length_map])
  refine ⟨⟨self.outputs[idx], p⟩, ?_, ?_⟩
  · simp only [outputWitness, bind_def, hleaves, ok_bind, hp, getIndex_of_lt hidx]
  · simp only [PartialTx.outputRoot, commit, List.map_map, Function.comp_def, bind_def, hleaves,
      ok_bind, hroot, List.getElem_map]
    rfl

end PartialTxWitness

end Cl
