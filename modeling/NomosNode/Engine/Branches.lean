import NomosNode.Lib.Outcome
import NomosNode.Lib.IterOrder
import Mathlib.Logic.Function.Basic

/-!
# The block tree of the consensus engine

`consensus/cryptarchia-engine/src/lib.rs`, `Branch` and `Branches`: every
accepted header is a `Branch` with its id, parent, slot and length. The
`HashMap` of branches is a function named `entries`, the `HashSet` of tips a
`Finset` visited in an `IterOrder`, and indexing with `[]` panics on a missing
key. The loops of `lca` and `walk_back_before` run with fuel `length + 1`, which
the length invariant of the tree makes sufficient.
-/

namespace CryptarchiaEngine

open Outcome

variable {Id : Type} {ε : Type}

abbrev Slot := ℕ

structure Branch (Id : Type) where
  id : Id
  parent : Id
  slot : Slot
  length : ℕ
  deriving DecidableEq, Repr

inductive Error (Id : Type) where
  | parentMissing (id : Id)
  | orphanMissing (id : Id)
  deriving DecidableEq, Repr

structure Branches (Id : Type) where
  entries : Id → Option (Branch Id)
  tips : Finset Id

namespace Branches

def get (self : Branches Id) (id : Id) : Option (Branch Id) := self.entries id

/-- `self.branches[&id]`. -/
def index (self : Branches Id) (id : Id) : Outcome ε (Branch Id) :=
  expect (self.entries id) "no entry found for key"

/-- One iteration of the loops of `lca` and `walk_back_before`. -/
def up (self : Branches Id) (b : Branch Id) : Outcome ε (Branch Id) := self.index b.parent

/-- `self.tips.iter().map(|id| self.branches[id].clone()).collect()`. -/
def branches (self : Branches Id) (order : IterOrder Id) : Outcome ε (List (Branch Id)) :=
  (order.visit self.tips).mapM self.index

/-- Walk back the chain until the target slot. -/
def walkBackBefore (self : Branches Id) (branch : Branch Id) (slot : Slot) :
    Outcome ε (Branch Id) :=
  loop (fun current => slot < current.slot) self.up (branch.length + 1) branch

@[simp] theorem get_eq (self : Branches Id) (id : Id) : self.get id = self.entries id := rfl

theorem up_eq_ok {self : Branches Id} {b b' : Branch Id} :
    (self.up b : Outcome ε (Branch Id)) = ok b' ↔ self.entries b.parent = some b' := by
  unfold up index
  cases self.entries b.parent <;> simp

variable [DecidableEq Id]

def lca (self : Branches Id) (b1 b2 : Branch Id) : Outcome ε (Branch Id) := do
  -- first reduce branches to the same length
  let b1 ← loop (fun b1 => b2.length < b1.length) self.up (b1.length + 1) b1
  let b2 ← loop (fun b2 => b1.length < b2.length) self.up (b2.length + 1) b2
  -- then walk up the chain until we find the common ancestor
  let p ← loop (fun p => p.1.id ≠ p.2.id)
    (fun p => do
      let b1 ← self.up p.1
      let b2 ← self.up p.2
      ok (b1, b2))
    (b1.length + 1) (b1, b2)
  ok p.1

def fromGenesis (genesis : Id) : Branches Id where
  entries := Function.update (fun _ => none) genesis (some ⟨genesis, genesis, 0, 0⟩)
  tips := {genesis}

def applyHeader (self : Branches Id) (header parent : Id) (slot : Slot) :
    Outcome (Error Id) (Branches Id) :=
  match self.entries parent with
  | none => err (.parentMissing parent)
  | some p => do
    let length ← addChecked 64 p.length 1
    ok { entries := Function.update self.entries header (some ⟨header, parent, slot, length⟩)
         tips := insert header (self.tips.erase parent) }

end Branches

end CryptarchiaEngine
