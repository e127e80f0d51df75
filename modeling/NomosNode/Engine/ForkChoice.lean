import NomosNode.Engine.Ancestry
import NomosNode.Lib.RunningMax

/-!
# The fork choice over the tip set

`maxvalid_bg` folds over the tips in the order of their `HashSet`, comparing each
with the running maximum by the longest-chain rule when the fork is at most `k`
deep and by the density rule otherwise. The two rules together are not
transitive: a tree that `receive_block` builds has two orders of its tips under
which `maxvalid_bg` returns different branches. When no fork is deeper than `k`
it is the running maximum of the lengths, which does not depend on the order as
long as no two tips longer than the local chain have one length.
-/

namespace CryptarchiaEngine

open Outcome

variable {Id : Type} {ε : Type} [DecidableEq Id]

namespace Cryptarchia

section Shallow

variable {tree : Branches Id} {genesis : Id} {k s : ℕ}

/-- A comparison whose fork is at most `k` blocks deep is the longest-chain rule. -/
theorem maxvalidBgStep_of_shallow (wf : tree.WellFormed genesis) {cmax chain : Branch Id}
    (hcmax : tree.entries cmax.id = some cmax) (hchain : tree.entries chain.id = some chain)
    (hshallow : ∀ r, (tree.lca cmax chain : Outcome ε (Branch Id)) = ok r →
      cmax.length ≤ r.length + k) :
    (maxvalidBgStep tree k s cmax chain : Outcome ε (Branch Id)) =
      ok (RunningMax.step Branch.length cmax chain) := by
  obtain ⟨r, hr, -, hle⟩ := Branches.lca_ok (ε := ε) wf hcmax hchain
  have hdepth : cmax.length - r.length ≤ k := by
    have := hshallow r hr
    omega
  simp only [maxvalidBgStep, bind_def, hr, ok_bind, subChecked_of_le hle, if_pos hdepth]
  rfl

/-- When the local chain and every tip fork at most `k` blocks deep from every
tip, each comparison of `maxvalid_bg` is the longest-chain rule, and it keeps
the first longest of the local chain and the listed tips. -/
theorem maxvalidBg_of_shallow (wf : tree.WellFormed genesis) {localChain : Branch Id}
    (hlocal : tree.entries localChain.id = some localChain)
    (hshallow : ∀ b1 b2 r, tree.entries b1.id = some b1 → (b1 = localChain ∨ b1.id ∈ tree.tips) →
      tree.entries b2.id = some b2 → b2.id ∈ tree.tips →
      (tree.lca b1 b2 : Outcome ε (Branch Id)) = ok r → b1.length ≤ r.length + k)
    {order : IterOrder Id} {forks : List (Branch Id)}
    (hforks : (tree.branches order : Outcome ε (List (Branch Id))) = ok forks) :
    (maxvalidBg order localChain tree k s : Outcome ε (Branch Id)) =
      ok (forks.foldl (RunningMax.step Branch.length) localChain) := by
  have hlisted := fun b hb => Branches.mem_branches wf hforks b hb
  -- the running maximum is always the local chain or a listed tip, hence stored
  have hstep : ∀ cmax chain,
      (tree.entries cmax.id = some cmax ∧ (cmax = localChain ∨ cmax.id ∈ tree.tips)) →
      chain ∈ forks →
      (maxvalidBgStep tree k s cmax chain : Outcome ε (Branch Id)) =
        ok (RunningMax.step Branch.length cmax chain) ∧
      (tree.entries (RunningMax.step Branch.length cmax chain).id =
          some (RunningMax.step Branch.length cmax chain) ∧
        (RunningMax.step Branch.length cmax chain = localChain ∨
          (RunningMax.step Branch.length cmax chain).id ∈ tree.tips)) := by
    intro cmax chain hcmax hchain
    obtain ⟨hstored, hwhich⟩ := hcmax
    obtain ⟨htip, hentry⟩ := hlisted chain hchain
    refine ⟨maxvalidBgStep_of_shallow wf hstored hentry
      (hshallow cmax chain · hstored hwhich hentry htip), ?_⟩
    unfold RunningMax.step
    split_ifs
    · exact ⟨hentry, .inr htip⟩
    · exact ⟨hstored, hwhich⟩
  simp only [maxvalidBg, bind_def, hforks, ok_bind]
  exact (foldlM_eq_ok_foldl _ hstep ⟨hlocal, .inl rfl⟩).1

/-- In the longest-chain regime `maxvalid_bg` returns a longest branch of the
tree, and keeps the local chain when it is already one of them. -/
theorem maxvalidBg_longest_chain (wf : tree.WellFormed genesis) {localChain : Branch Id}
    (hlocal : tree.entries localChain.id = some localChain)
    (hshallow : ∀ b1 b2 r, tree.entries b1.id = some b1 → tree.entries b2.id = some b2 →
      (tree.lca b1 b2 : Outcome ε (Branch Id)) = ok r → b1.length - r.length ≤ k)
    (order : IterOrder Id) :
    ∃ r, (maxvalidBg order localChain tree k s : Outcome ε (Branch Id)) = ok r ∧
      tree.entries r.id = some r ∧ (∀ b, tree.entries b.id = some b → b.length ≤ r.length) ∧
      ((∀ b, tree.entries b.id = some b → b.length ≤ localChain.length) → r = localChain) := by
  obtain ⟨forks, hforks⟩ := Branches.branches_ok (ε := ε) wf order
  have hfold := maxvalidBg_of_shallow (k := k) (s := s) wf hlocal (fun b1 b2 r h1 _ h2 _ hr => by
    have := hshallow b1 b2 r h1 h2 hr
    omega) hforks
  obtain ⟨hmem, hle⟩ := RunningMax.foldl_mem_le (f := Branch.length) localChain forks
  refine ⟨_, hfold, ?_, ?_, fun hmax =>
    RunningMax.foldl_of_le fun b hb => hmax b (Branches.mem_branches wf hforks b hb).2⟩
  · rcases hmem with h | h
    · rw [h]
      exact hlocal
    · exact (Branches.mem_branches wf hforks _ h).2
  · -- every branch lies below a tip, and every tip is listed
    intro b hb
    obtain ⟨t, ht, hanc⟩ := wf.covered hb
    obtain ⟨bt, hbt⟩ := wf.tips_entry ht
    have hlisted : bt ∈ forks := mem_mapM_of_mem hforks ((order.mem_visit _ t).mpr ht)
      (by simp [Branches.index, hbt])
    exact (wf.length_le hanc hb hbt).trans (hle bt (List.mem_cons_of_mem _ hlisted))

/-- Blocks `1, 2` on genesis `0` and the fork `3` on genesis, `k = 2`, from the
local chain `3`: the fork choice moves to a longest branch. -/
theorem maxvalidBg_longest_chain_fork :
    ∃ tree : Branches ℕ, (do
        let t ← (Branches.fromGenesis 0).applyHeader 1 0 1
        let t ← t.applyHeader 2 1 2
        t.applyHeader 3 0 3) = ok tree ∧
      ∃ r, (maxvalidBg IterOrder.sorted ⟨3, 0, 3, 1⟩ tree 2 6 : Outcome Empty (Branch ℕ)) = ok r ∧
        tree.entries r.id = some r ∧ (∀ b, tree.entries b.id = some b → b.length ≤ r.length) ∧
        ((∀ b, tree.entries b.id = some b → b.length ≤ (⟨3, 0, 3, 1⟩ : Branch ℕ).length) →
          r = ⟨3, 0, 3, 1⟩) := by
  have wf1 := Branches.applyHeader_wellFormed (Branches.fromGenesis_wellFormed 0) (by decide)
    (show (Branches.fromGenesis 0).applyHeader 1 0 1 = ok _ from rfl)
  have wf2 := Branches.applyHeader_wellFormed wf1 (by decide)
    (show Branches.applyHeader _ 2 1 2 = ok _ from rfl)
  have wf3 := Branches.applyHeader_wellFormed wf2 (by decide)
    (show Branches.applyHeader _ 3 0 3 = ok _ from rfl)
  refine ⟨_, rfl, maxvalidBg_longest_chain wf3 (by decide) ?_ IterOrder.sorted⟩
  intro b1 b2 r h1 _ _
  have : b1.length ≤ 2 := by
    simp only [Branches.fromGenesis, Function.update_apply] at h1
    split_ifs at h1 <;> cases h1 <;> decide
  omega

end Shallow

/-- The tree that receiving `1, 2, 5, 6, 3, 4` (parents `0, 1, 0, 5, 1, 3`,
slots `1, 2, 3, 4, 20, 21`) builds from genesis `0`, with `k = 1` and `s = 9`,
and the local chain `2`: visiting the tips `2, 4, 6` in increasing order,
`4` beats `2` by length (fork depth 1) and `6` beats `4` by density (fork
depth 3); in decreasing order `2` beats `6` by density and `4`, then wins
back against `4` by density (fork depth 2). -/
theorem maxvalidBg_depends_on_order :
    ¬ ∀ (tree : Branches ℕ) (genesis : ℕ), tree.WellFormed genesis →
      ∀ localChain : Branch ℕ, tree.entries localChain.id = some localChain →
      ∀ (k s : ℕ) (o o' : IterOrder ℕ),
        (maxvalidBg o localChain tree k s : Outcome Empty (Branch ℕ)) =
          maxvalidBg o' localChain tree k s := by
  intro h
  let config : Config := ⟨1, Nat.one_pos, 3, by decide, 0, by decide⟩
  let blocks : List (ℕ × ℕ × Slot) :=
    [(1, 0, 1), (2, 1, 2), (5, 0, 3), (6, 5, 4), (3, 1, 20), (4, 3, 21)]
  have hrun : (do
      let c ← receiveBlocks IterOrder.sorted (new 0 config) blocks
      ok (c.branches.entries 2,
        (maxvalidBg IterOrder.sorted ⟨2, 1, 2, 2⟩ c.branches 1 9 : Outcome Empty (Branch ℕ)),
        (maxvalidBg IterOrder.sorted.reverse ⟨2, 1, 2, 2⟩ c.branches 1 9 :
          Outcome Empty (Branch ℕ))) : Outcome (Error ℕ) _) =
      ok (some ⟨2, 1, 2, 2⟩, ok ⟨6, 5, 4, 2⟩, ok ⟨2, 1, 2, 2⟩) := by
    decide
  cases hc : receiveBlocks IterOrder.sorted (new 0 config) blocks with
  | ok c =>
    simp only [hc, bind_def, ok_bind, ok.injEq, Prod.mk.injEq] at hrun
    obtain ⟨hlocal, hsorted, hreverse⟩ := hrun
    have wf := (Reachable.receiveBlocks .new (by decide) (by decide) hc).wellFormed
    have := h c.branches c.genesis wf.branches ⟨2, 1, 2, 2⟩ hlocal 1 9 IterOrder.sorted
      IterOrder.sorted.reverse
    rw [hsorted, hreverse] at this
    exact absurd this (by decide)
  | err e => rw [hc] at hrun; cases hrun
  | panic m => rw [hc] at hrun; cases hrun
  | div => rw [hc] at hrun; cases hrun

/-- When the local chain and every tip fork at most `k` blocks deep from every
tip, and no two tips longer than the local chain have one length,
`maxvalid_bg` returns the same branch for every order of the tips. -/
theorem maxvalidBg_order_independent {tree : Branches Id} {genesis : Id}
    (wf : tree.WellFormed genesis) {localChain : Branch Id}
    (hlocal : tree.entries localChain.id = some localChain) {k s : ℕ}
    (hshallow : ∀ b1 b2 r, tree.entries b1.id = some b1 → (b1 = localChain ∨ b1.id ∈ tree.tips) →
      tree.entries b2.id = some b2 → b2.id ∈ tree.tips →
      (tree.lca b1 b2 : Outcome ε (Branch Id)) = ok r → b1.length ≤ r.length + k)
    (hunique : ∀ t1 ∈ tree.tips, ∀ t2 ∈ tree.tips, ∀ b1 b2,
      tree.entries t1 = some b1 → tree.entries t2 = some b2 →
      localChain.length < b1.length → b1.length = b2.length → t1 = t2)
    (o o' : IterOrder Id) :
    (maxvalidBg o localChain tree k s : Outcome ε (Branch Id)) =
      maxvalidBg o' localChain tree k s := by
  obtain ⟨forks, hforks⟩ := Branches.branches_ok (ε := ε) wf o
  obtain ⟨forks', hforks'⟩ := Branches.branches_ok (ε := ε) wf o'
  rw [maxvalidBg_of_shallow wf hlocal hshallow hforks,
    maxvalidBg_of_shallow wf hlocal hshallow hforks', ok.injEq]
  have hperm : forks.Perm forks' := mapM_perm (IterOrder.visit_perm o o' tree.tips) hforks hforks'
  refine RunningMax.foldl_perm hperm ?_
  intro b1 hb1 b2 hb2 hlt heq
  obtain ⟨ht1, he1⟩ := Branches.mem_branches wf hforks b1 hb1
  obtain ⟨ht2, he2⟩ := Branches.mem_branches wf hforks b2 hb2
  have hid := hunique b1.id ht1 b2.id ht2 b1 b2 he1 he2 hlt heq
  rw [hid] at he1
  rw [he1] at he2
  exact Option.some.inj he2

/-- Genesis `0` with the chain `1, 2, 3` and the fork `4` on block `1`, `k = 2`,
from the local chain `4`: the tip `3` is three blocks above genesis, deeper
than `k`, yet every comparison of the fork choice forks at block `1`, and both
orders return `3`. -/
theorem maxvalidBg_order_independent_fork :
    ∃ tree : Branches ℕ, (do
        let t ← (Branches.fromGenesis 0).applyHeader 1 0 1
        let t ← t.applyHeader 2 1 2
        let t ← t.applyHeader 3 2 3
        t.applyHeader 4 1 4) = ok tree ∧
      (maxvalidBg IterOrder.sorted ⟨4, 1, 4, 2⟩ tree 2 6 : Outcome Empty (Branch ℕ)) =
        maxvalidBg IterOrder.sorted.reverse ⟨4, 1, 4, 2⟩ tree 2 6 := by
  have wf1 := Branches.applyHeader_wellFormed (Branches.fromGenesis_wellFormed 0) (by decide)
    (show (Branches.fromGenesis 0).applyHeader 1 0 1 = ok _ from rfl)
  have wf2 := Branches.applyHeader_wellFormed wf1 (by decide)
    (show Branches.applyHeader _ 2 1 2 = ok _ from rfl)
  have wf3 := Branches.applyHeader_wellFormed wf2 (by decide)
    (show Branches.applyHeader _ 3 2 3 = ok _ from rfl)
  have wf4 := Branches.applyHeader_wellFormed wf3 (by decide)
    (show Branches.applyHeader _ 4 1 4 = ok _ from rfl)
  have htips : insert 4 ((insert 3 ((insert 2 ((insert 1 ((Branches.fromGenesis 0).tips.erase
      0)).erase 1)).erase 2)).erase 1) = ({3, 4} : Finset ℕ) := by decide
  refine ⟨_, rfl, maxvalidBg_order_independent wf4 (by decide) ?_ ?_ _ _⟩
  · -- the compared branches are the tips `3` and `4`, which meet at block `1`
    intro b1 b2 r h1 hb1 h2 hb2 hr
    simp only [htips, Finset.mem_insert, Finset.mem_singleton] at hb1 hb2
    have hb2' : b2 = ⟨3, 2, 3, 3⟩ ∨ b2 = ⟨4, 1, 4, 2⟩ := by
      rcases hb2 with hb2 | hb2 <;> rw [hb2] at h2 <;>
        simp only [Branches.fromGenesis, Function.update_apply] at h2 <;> simp at h2 <;> subst h2 <;>
        simp
    have hb1' : b1 = ⟨3, 2, 3, 3⟩ ∨ b1 = ⟨4, 1, 4, 2⟩ := by
      rcases hb1 with rfl | hb1 | hb1
      · exact .inr rfl
      all_goals
        rw [hb1] at h1
        simp only [Branches.fromGenesis, Function.update_apply] at h1
        simp at h1
        subst h1
        simp
    rcases hb1' with rfl | rfl <;> rcases hb2' with rfl | rfl
    · obtain rfl : r = ⟨3, 2, 3, 3⟩ := ok.inj (hr.symm.trans (by decide))
      decide
    · obtain rfl : r = ⟨1, 0, 1, 1⟩ := ok.inj (hr.symm.trans (by decide))
      decide
    · obtain rfl : r = ⟨1, 0, 1, 1⟩ := ok.inj (hr.symm.trans (by decide))
      decide
    · obtain rfl : r = ⟨4, 1, 4, 2⟩ := ok.inj (hr.symm.trans (by decide))
      decide
  · intro t1 ht1 t2 ht2 b1 b2 h1 h2 hlt hlen
    simp only [htips, Finset.mem_insert, Finset.mem_singleton] at ht1 ht2
    rcases ht1 with rfl | rfl <;> rcases ht2 with rfl | rfl <;>
      simp only [Branches.fromGenesis, Function.update_apply] at h1 h2 <;>
      simp at h1 h2 <;> subst h1 h2 <;> simp at hlt hlen ⊢

section Orders

/-- `receive_block` reads the order of the tips only where it lists the new tip
set. -/
theorem receiveBlock_congr_visit {o o' : IterOrder Id} {self : Cryptarchia Id} {id parent : Id}
    {slot : Slot}
    (h : o.visit (insert id (self.branches.tips.erase parent)) =
      o'.visit (insert id (self.branches.tips.erase parent))) :
    self.receiveBlock o id parent slot = self.receiveBlock o' id parent slot := by
  simp only [receiveBlock, Branches.applyHeader]
  split
  · rfl
  · rename_i p _
    cases (addChecked 64 p.length 1 : Outcome (Error Id) ℕ) with
    | ok length => simp only [bind_def, ok_bind, forkChoice, maxvalidBg, Branches.branches, h]
    | _ => rfl

/-- Two orders that choose the same local chain give the same state: the tree
does not depend on the order. -/
theorem receiveBlock_eq_of_localChain {o o' : IterOrder Id} {self c c' : Cryptarchia Id}
    {id parent : Id} {slot : Slot} (h : self.receiveBlock o id parent slot = ok c)
    (h' : self.receiveBlock o' id parent slot = ok c') (hl : c.localChain = c'.localChain) :
    c = c' := by
  obtain ⟨t, r, ht, -, rfl⟩ := receiveBlock_eq_ok.mp h
  obtain ⟨t', r', ht', -, rfl⟩ := receiveBlock_eq_ok.mp h'
  rw [ht, ok.injEq] at ht'
  subst ht'
  simp only at hl
  rw [hl]

variable [LinearOrder Id]

/-- Every block of the run meets at most two tips, and the increasing and the
decreasing visit of them choose the same local chain. -/
def receiveBlocksTwoTips (c : Cryptarchia Id) : List (Id × Id × Slot) → Bool
  | [] => true
  | (id, parent, slot) :: rest =>
    match c.receiveBlock IterOrder.sorted id parent slot with
    | ok c1 =>
      decide ((insert id (c.branches.tips.erase parent)).card ≤ 2) &&
        (match c.receiveBlock IterOrder.sorted.reverse id parent slot with
          | ok c2 => decide (c2.localChain = c1.localChain)
          | _ => false) &&
        receiveBlocksTwoTips c1 rest
    | _ => false

/-- On a run that `receiveBlocksTwoTips` accepts, every order of the tips runs as
the increasing one. -/
theorem receiveBlocks_of_twoTips (o : IterOrder Id) :
    ∀ {c : Cryptarchia Id} {blocks : List (Id × Id × Slot)}, receiveBlocksTwoTips c blocks →
      receiveBlocks o c blocks = receiveBlocks IterOrder.sorted c blocks
  | _, [], _ => rfl
  | c, (id, parent, slot) :: rest, h => by
    cases h1 : c.receiveBlock IterOrder.sorted id parent slot with
    | ok c1 =>
      cases h2 : c.receiveBlock IterOrder.sorted.reverse id parent slot with
      | ok c2 =>
        simp only [receiveBlocksTwoTips, h1, h2, Bool.and_eq_true, decide_eq_true_eq] at h
        obtain ⟨⟨hcard, hl⟩, hrest⟩ := h
        have ho : c.receiveBlock o id parent slot = ok c1 := by
          rcases IterOrder.visit_of_card_le_two o hcard with hv | hv
          · rw [receiveBlock_congr_visit hv, h1]
          · rw [receiveBlock_congr_visit hv, h2, receiveBlock_eq_of_localChain h2 h1 hl]
        simp only [receiveBlocks, bind_def, ho, h1, ok_bind]
        exact receiveBlocks_of_twoTips o hrest
      | err e => simp [receiveBlocksTwoTips, h1, h2] at h
      | panic m => simp [receiveBlocksTwoTips, h1, h2] at h
      | div => simp [receiveBlocksTwoTips, h1, h2] at h
    | err e => simp [receiveBlocksTwoTips, h1] at h
    | panic m => simp [receiveBlocksTwoTips, h1] at h
    | div => simp [receiveBlocksTwoTips, h1] at h

end Orders

end Cryptarchia

end CryptarchiaEngine
