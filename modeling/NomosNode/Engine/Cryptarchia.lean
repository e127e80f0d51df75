import NomosNode.Engine.Branches

/-!
# The consensus engine: fork choice and block reception

`consensus/cryptarchia-engine/src/lib.rs` and `config.rs`: `receive_block`
applies a header to the block tree and recomputes the local chain with
`maxvalid_bg`, the Ouroboros Genesis fork choice. `active_slot_coeff` is an
`f64` and is not modelled: the configuration keeps what the code derives from
it, `base_period_length = floor(k / f)` and the saturating `u64` cast of
`-ln(1 - f) * u64::MAX`.
-/

namespace CryptarchiaEngine

open Outcome

variable {Id : Type} {ε : Type}

structure Config where
  securityParam : ℕ
  securityParam_pos : 0 < securityParam
  basePeriodLength : ℕ
  basePeriodLength_pos : 0 < basePeriodLength
  negFLn : ℕ
  negFLn_lt : negFLn < 2 ^ 64

/-- The number of slots required to have great confidence at least `k` blocks
have been produced. -/
def Config.s (c : Config) : ℕ := saturatingMul 64 c.basePeriodLength 3

structure Cryptarchia (Id : Type) where
  localChain : Branch Id
  branches : Branches Id
  config : Config
  genesis : Id

namespace Cryptarchia

def tip (self : Cryptarchia Id) : Id := self.localChain.id

@[simp] theorem tip_eq (self : Cryptarchia Id) : self.tip = self.localChain.id := rfl

variable [DecidableEq Id]

def new (id : Id) (config : Config) : Cryptarchia Id where
  branches := Branches.fromGenesis id
  localChain := ⟨id, id, 0, 0⟩
  config := config
  genesis := id

/-- The body of the loop of `maxvalid_bg`: compare the running maximum `cmax`
with one fork. -/
def maxvalidBgStep (branches : Branches Id) (k s : ℕ) (cmax chain : Branch Id) :
    Outcome ε (Branch Id) := do
  let lowestCommonAncestor ← branches.lca cmax chain
  let m ← subChecked cmax.length lowestCommonAncestor.length
  if m ≤ k then
    -- Classic longest chain rule with parameter k
    ok (if cmax.length < chain.length then chain else cmax)
  else
    -- The chain is forking too much: select the chain that is the densest after
    -- the fork
    let densitySlot ← addChecked 64 lowestCommonAncestor.slot s
    let cmaxDensity ← branches.walkBackBefore cmax densitySlot
    let candidateDensity ← branches.walkBackBefore chain densitySlot
    ok (if cmaxDensity.length < candidateDensity.length then chain else cmax)

/-- Implementation of the fork choice rule of the Ouroboros Genesis paper: `k`
is the forking depth accepted without more analysis, `s` the number of slots
after the fork inspected for chain density. -/
def maxvalidBg (order : IterOrder Id) (localChain : Branch Id) (branches : Branches Id)
    (k s : ℕ) : Outcome ε (Branch Id) := do
  let forks ← branches.branches order
  forks.foldlM (maxvalidBgStep branches k s) localChain

def forkChoice (order : IterOrder Id) (self : Cryptarchia Id) : Outcome ε (Branch Id) :=
  maxvalidBg order self.localChain self.branches self.config.securityParam self.config.s

def receiveBlock (order : IterOrder Id) (self : Cryptarchia Id) (id parent : Id)
    (slot : Slot) : Outcome (Error Id) (Cryptarchia Id) := do
  let branches ← self.branches.applyHeader id parent slot
  let localChain ← forkChoice order { self with branches }
  ok { self with branches, localChain }

/-- The id `k` parents below the tip, or `none` when genesis is reached first
(`(0..k).try_fold(tip, ...)`). -/
def getSecurityBlockHeaderId (self : Cryptarchia Id) : Option Id :=
  (List.range self.config.securityParam).foldlM
    (fun header _ => do
      let branch ← self.branches.get header
      if header = branch.parent then none else some branch.parent)
    self.tip

end Cryptarchia

end CryptarchiaEngine
