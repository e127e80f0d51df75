import NomosNode.Engine.WellFormed

/-!
# Reachable engine states

The states `Cryptarchia::new(genesis)` reaches by successful calls of
`receive_block` with fresh ids, and the invariant they keep: the tree is
well formed and the local chain is a stored branch. The fork choice returns
the running local chain or one of the tips, so the second part follows from
the first.
-/

namespace CryptarchiaEngine

open Outcome

variable {Id : Type} {ε : Type} [DecidableEq Id]

namespace Cryptarchia

structure WellFormed (c : Cryptarchia Id) : Prop where
  branches : c.branches.WellFormed c.genesis
  localChain_entry : c.branches.entries c.localChain.id = some c.localChain

theorem new_wellFormed (genesis : Id) (config : Config) :
    (new genesis config).WellFormed where
  branches := Branches.fromGenesis_wellFormed genesis
  localChain_entry := by simp [new, Branches.fromGenesis]

/-- A comparison of `maxvalid_bg` keeps the running maximum or takes the fork. -/
theorem maxvalidBgStep_eq_ok {branches : Branches Id} {k s : ℕ} {cmax chain r : Branch Id}
    (h : (maxvalidBgStep branches k s cmax chain : Outcome ε (Branch Id)) = ok r) :
    r = cmax ∨ r = chain := by
  simp only [maxvalidBgStep, bind_def, bind_eq_ok] at h
  obtain ⟨_, -, m, -, hm⟩ := h
  by_cases hk : m ≤ k
  · rw [if_pos hk, ok.injEq] at hm
    by_cases hlen : cmax.length < chain.length
    · exact Or.inr (by rw [← hm, if_pos hlen])
    · exact Or.inl (by rw [← hm, if_neg hlen])
  · rw [if_neg hk] at hm
    obtain ⟨_, -, d1, -, d2, -, hr⟩ := by simpa only [bind_eq_ok] using hm
    rw [ok.injEq] at hr
    by_cases hd : d1.length < d2.length
    · exact Or.inr (by rw [← hr, if_pos hd])
    · exact Or.inl (by rw [← hr, if_neg hd])

/-- The fork choice returns the local chain or a branch listed by `branches()`. -/
theorem maxvalidBg_mem {order : IterOrder Id} {localChain r : Branch Id}
    {branches : Branches Id} {k s : ℕ}
    (h : (maxvalidBg order localChain branches k s : Outcome ε (Branch Id)) = ok r) :
    ∃ forks, (branches.branches order : Outcome ε (List (Branch Id))) = ok forks ∧
      (r = localChain ∨ r ∈ forks) := by
  simp only [maxvalidBg, bind_def, bind_eq_ok] at h
  obtain ⟨forks, hforks, hfold⟩ := h
  exact ⟨forks, hforks, foldlM_mem (fun _ _ _ => maxvalidBgStep_eq_ok) hfold⟩

theorem receiveBlock_eq_ok {order : IterOrder Id} {self c : Cryptarchia Id} {id parent : Id}
    {slot : Slot} :
    self.receiveBlock order id parent slot = ok c ↔
      ∃ t r, self.branches.applyHeader id parent slot = ok t ∧
        (forkChoice order { self with branches := t } : Outcome (Error Id) (Branch Id)) = ok r ∧
        c = { self with branches := t, localChain := r } := by
  simp only [receiveBlock, bind_def, bind_eq_ok, ok.injEq]
  constructor
  · rintro ⟨t, ht, r, hr, rfl⟩
    exact ⟨t, r, ht, hr, rfl⟩
  · rintro ⟨t, r, ht, hr, rfl⟩
    exact ⟨t, ht, r, hr, rfl⟩

/-- A successful call stores the block under its id, makes it a tip in place of
its parent, and keeps the local chain or takes a branch stored under a tip. -/
theorem receiveBlock_shape {order : IterOrder Id} {self c : Cryptarchia Id} {id parent : Id}
    {slot : Slot} (h : self.receiveBlock order id parent slot = ok c) :
    (∃ length, c.branches.entries =
      Function.update self.branches.entries id (some ⟨id, parent, slot, length⟩)) ∧
    c.branches.tips = insert id (self.branches.tips.erase parent) ∧
    (c.localChain = self.localChain ∨
      ∃ t ∈ c.branches.tips, c.branches.entries t = some c.localChain) := by
  obtain ⟨t, r, ht, hr, rfl⟩ := receiveBlock_eq_ok.mp h
  obtain ⟨p, -, -, rfl⟩ := Branches.applyHeader_eq_ok.mp ht
  obtain ⟨forks, hforks, hr'⟩ := maxvalidBg_mem hr
  refine ⟨⟨p.length + 1, rfl⟩, rfl, ?_⟩
  rcases hr' with rfl | hmem
  · exact Or.inl rfl
  · exact Or.inr (Branches.mem_branches_tip hforks r hmem)

/-- A successful call with a fresh id keeps the state well formed. -/
theorem receiveBlock_wellFormed {order : IterOrder Id} {self c : Cryptarchia Id}
    {id parent : Id} {slot : Slot} (wf : self.WellFormed)
    (fresh : self.branches.entries id = none)
    (h : self.receiveBlock order id parent slot = ok c) : c.WellFormed := by
  obtain ⟨t, r, ht, hr, rfl⟩ := receiveBlock_eq_ok.mp h
  have wft := Branches.applyHeader_wellFormed wf.branches fresh ht
  have hlocal : t.entries self.localChain.id = some self.localChain := by
    obtain ⟨p, -, -, rfl⟩ := Branches.applyHeader_eq_ok.mp ht
    have hne : self.localChain.id ≠ id := by
      intro heq
      have hentry := wf.localChain_entry
      rw [heq, fresh] at hentry
      cases hentry
    simpa [Function.update_of_ne hne] using wf.localChain_entry
  obtain ⟨forks, hforks, hr'⟩ := maxvalidBg_mem hr
  refine ⟨wft, ?_⟩
  rcases hr' with rfl | hmem
  · exact hlocal
  · exact (Branches.mem_branches wft hforks r hmem).2

/-- The states reached from `Cryptarchia::new(genesis)` by successful calls of
`receive_block` whose id is fresh, each call visiting the tips in any order. -/
inductive Reachable (genesis : Id) (config : Config) : Cryptarchia Id → Prop
  | new : Reachable genesis config (Cryptarchia.new genesis config)
  | receive {c c' : Cryptarchia Id} (order : IterOrder Id) (id parent : Id) (slot : Slot) :
      Reachable genesis config c → c.branches.entries id = none → id ≠ parent →
      c.receiveBlock order id parent slot = ok c' → Reachable genesis config c'

theorem Reachable.wellFormed {genesis : Id} {config : Config} {c : Cryptarchia Id}
    (h : Reachable genesis config c) : c.WellFormed := by
  induction h with
  | new => exact new_wellFormed genesis config
  | receive _ _ _ _ _ fresh _ hstep ih => exact receiveBlock_wellFormed ih fresh hstep

/-- Receive the blocks `(id, parent, slot)` one after the other, stopping at the
first error. -/
def receiveBlocks (order : IterOrder Id) (c : Cryptarchia Id) :
    List (Id × Id × Slot) → Outcome (Error Id) (Cryptarchia Id)
  | [] => ok c
  | (id, parent, slot) :: rest => do
    let c' ← c.receiveBlock order id parent slot
    receiveBlocks order c' rest

theorem receiveBlock_entries {order : IterOrder Id} {self c : Cryptarchia Id}
    {id parent : Id} {slot : Slot} (h : self.receiveBlock order id parent slot = ok c)
    {k : Id} (hk : k ≠ id) : c.branches.entries k = self.branches.entries k := by
  obtain ⟨t, r, ht, -, rfl⟩ := receiveBlock_eq_ok.mp h
  obtain ⟨p, -, -, rfl⟩ := Branches.applyHeader_eq_ok.mp ht
  exact Function.update_of_ne hk _ _

/-- A run whose ids are distinct and not yet stored reaches a reachable state. -/
theorem Reachable.receiveBlocks {genesis : Id} {config : Config} {order : IterOrder Id} :
    ∀ {blocks : List (Id × Id × Slot)} {c c' : Cryptarchia Id},
      Reachable genesis config c → (blocks.map (·.1)).Nodup →
      (∀ b ∈ blocks, c.branches.entries b.1 = none ∧ b.1 ≠ b.2.1) →
      Cryptarchia.receiveBlocks order c blocks = ok c' → Reachable genesis config c' := by
  intro blocks
  induction blocks with
  | nil =>
    intro c c' hc _ _ h
    simp only [Cryptarchia.receiveBlocks, ok.injEq] at h
    exact h ▸ hc
  | cons b rest ih =>
    obtain ⟨id, parent, slot⟩ := b
    intro c c' hc hnodup hfresh h
    simp only [Cryptarchia.receiveBlocks, bind_def, bind_eq_ok] at h
    obtain ⟨c1, h1, hrest⟩ := h
    simp only [List.map_cons, List.nodup_cons, List.mem_map] at hnodup
    obtain ⟨hfirst, hfresh0⟩ := hfresh (id, parent, slot) List.mem_cons_self
    have hc1 := Reachable.receive order id parent slot hc hfirst hfresh0 h1
    refine ih hc1 hnodup.2 (fun b hb => ⟨?_, (hfresh b (List.mem_cons_of_mem _ hb)).2⟩) hrest
    have hne : b.1 ≠ id := fun heq => hnodup.1 ⟨b, hb, heq⟩
    rw [receiveBlock_entries h1 hne]
    exact (hfresh b (List.mem_cons_of_mem _ hb)).1

/-- Every reachable state is well formed (genesis is the only self-parented
branch, stored with length 0; parents are stored and one shorter; the tips
are stored and every branch lies below one; the local chain is stored), and
on it `lca`, `walk_back_before` and `branches()` return without a missed
lookup or an unfinished loop. -/
theorem reachable_wellFormed_total {genesis : Id} {config : Config} {c : Cryptarchia Id}
    (h : Reachable genesis config c) :
    c.WellFormed ∧
      (∀ b1 b2 : Branch Id, c.branches.entries b1.id = some b1 →
        c.branches.entries b2.id = some b2 →
        ∃ r, (c.branches.lca b1 b2 : Outcome ε (Branch Id)) = ok r) ∧
      (∀ (b : Branch Id) (slot : Slot), c.branches.entries b.id = some b →
        ∃ r, (c.branches.walkBackBefore b slot : Outcome ε (Branch Id)) = ok r) ∧
      (∀ order : IterOrder Id,
        ∃ bs, (c.branches.branches order : Outcome ε (List (Branch Id))) = ok bs) := by
  have wf := h.wellFormed
  refine ⟨wf, ?_, ?_, ?_⟩
  · intro b1 b2 h1 h2
    obtain ⟨r, hr, -, -⟩ := Branches.lca_ok wf.branches h1 h2
    exact ⟨r, hr⟩
  · intro b slot hb
    obtain ⟨r, hr, -⟩ := Branches.walkBackBefore_ok wf.branches hb slot
    exact ⟨r, hr⟩
  · exact Branches.branches_ok wf.branches

/-- The configuration of the engine's tests: `k = 1`, `f = 1`. -/
def forkConfig : Config := ⟨1, Nat.one_pos, 1, Nat.one_pos, 2 ^ 64 - 1, by decide⟩

/-- Blocks `1, 2, 3` with parents `0, 1, 0` at slots `1, 2, 3`: a chain of two
blocks on genesis `0` and a fork of one. -/
def forkBlocks : List (ℕ × ℕ × Slot) := [(1, 0, 1), (2, 1, 2), (3, 0, 3)]

/-- Receiving `forkBlocks` from `Cryptarchia::new(0)` succeeds; the local chain
stays on block `2`. -/
theorem receiveBlocks_forkBlocks :
    ∃ c, receiveBlocks IterOrder.sorted (new 0 forkConfig) forkBlocks = ok c ∧
      Reachable 0 forkConfig c ∧ c.branches.entries 2 = some ⟨2, 1, 2, 2⟩ ∧
      c.branches.entries 3 = some ⟨3, 0, 3, 1⟩ ∧ c.localChain = ⟨2, 1, 2, 2⟩ ∧
      c.config.securityParam = 1 := by
  have hrun : (do
      let c ← receiveBlocks IterOrder.sorted (new 0 forkConfig) forkBlocks
      ok (c.branches.entries 2, c.branches.entries 3, c.localChain, c.config.securityParam) :
        Outcome (Error ℕ) _) =
      ok (some ⟨2, 1, 2, 2⟩, some ⟨3, 0, 3, 1⟩, ⟨2, 1, 2, 2⟩, 1) := by
    decide
  cases hc : receiveBlocks IterOrder.sorted (new 0 forkConfig) forkBlocks with
  | ok c =>
    simp only [hc, bind_def, ok_bind, ok.injEq, Prod.mk.injEq] at hrun
    obtain ⟨h2, h3, hlocal, hk⟩ := hrun
    exact ⟨c, rfl, Reachable.receiveBlocks .new (by decide) (by decide) hc, h2, h3, hlocal, hk⟩
  | err e => rw [hc] at hrun; cases hrun
  | panic m => rw [hc] at hrun; cases hrun
  | div => rw [hc] at hrun; cases hrun

/-- After the fork, the state is well formed and `lca` of the two tips walks
down both branches to genesis and returns. -/
theorem reachable_wellFormed_total_fork :
    ∃ c, receiveBlocks IterOrder.sorted (new 0 forkConfig) forkBlocks = ok c ∧ c.WellFormed ∧
      ∃ r, (c.branches.lca ⟨2, 1, 2, 2⟩ ⟨3, 0, 3, 1⟩ : Outcome Empty (Branch ℕ)) = ok r := by
  obtain ⟨c, hc, hreach, h2, h3, -, -⟩ := receiveBlocks_forkBlocks
  obtain ⟨wf, hlca, -, -⟩ := reachable_wellFormed_total (ε := Empty) hreach
  exact ⟨c, hc, wf, hlca _ _ h2 h3⟩

end Cryptarchia

end CryptarchiaEngine
