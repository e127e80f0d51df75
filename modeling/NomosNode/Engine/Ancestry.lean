import NomosNode.Engine.Reachable

/-!
# Ancestry, the lowest common ancestor and the security block

On a well-formed tree a branch other than genesis is one longer than its parent,
so an ancestor is determined by its length. The three loops of `lca` bring both
branches to the shorter length and then walk them up in lockstep until they
meet, passing no common ancestor on the way: they return the lowest one.
`get_security_block_header_id` walks `k` parents down from the tip, and finds a
block exactly when the tip is at least `k` long: its ancestor `k` below it.
-/

namespace CryptarchiaEngine

open Outcome

variable {Id : Type} {ε : Type}

namespace Branches

variable {tree : Branches Id} {genesis : Id}

theorem Ancestor.entry_left {a c : Id} (h : tree.Ancestor a c) :
    ∃ b, tree.entries a = some b := by
  induction h with
  | refl hb => exact ⟨_, hb⟩
  | step _ _ ih => exact ih

/-- A stored parent is an ancestor. -/
theorem Ancestor.parent {c : Id} {b p : Branch Id} (hc : tree.entries c = some b)
    (hp : tree.entries b.parent = some p) : tree.Ancestor b.parent c :=
  .step hc (.refl hp)

theorem Ancestor.trans {a b c : Id} (hab : tree.Ancestor a b) (hbc : tree.Ancestor b c) :
    tree.Ancestor a c := by
  induction hbc with
  | refl _ => exact hab
  | step hc _ ih => exact .step hc ih

/-- The last step of an ancestry: `a` is `c` itself or an ancestor of its parent. -/
theorem Ancestor.eq_or_parent {a c : Id} {b : Branch Id} (h : tree.Ancestor a c)
    (hc : tree.entries c = some b) : a = c ∨ tree.Ancestor a b.parent := by
  cases h with
  | refl _ => exact .inl rfl
  | step hc' h' =>
    rw [hc, Option.some.injEq] at hc'
    subst hc'
    exact .inr h'

namespace WellFormed

/-- Genesis is stored as its own parent. -/
theorem eq_genesis_entry (wf : tree.WellFormed genesis) {b : Branch Id}
    (hb : tree.entries genesis = some b) : b = ⟨genesis, genesis, 0, 0⟩ := by
  rw [wf.genesis_entry, Option.some.injEq] at hb
  exact hb.symm

/-- A parent is no longer than its child: one shorter, or genesis itself. -/
theorem parent_length_le (wf : tree.WellFormed genesis) {c : Id} {b p : Branch Id}
    (hc : tree.entries c = some b) (hp : tree.entries b.parent = some p) :
    p.length ≤ b.length := by
  obtain ⟨q, hq, hsucc⟩ := wf.parent_entry hc
  rw [hp, Option.some.injEq] at hq
  subst hq
  by_cases hg : c = genesis
  · subst hg
    have hb := wf.eq_genesis_entry hc
    subst hb
    rw [wf.eq_genesis_entry hp]
  · rw [hsucc hg]
    exact Nat.le_succ _

/-- Lengths grow along the ancestry. -/
theorem length_le (wf : tree.WellFormed genesis) {a c : Id} (h : tree.Ancestor a c)
    {ba bc : Branch Id} (ha : tree.entries a = some ba) (hc : tree.entries c = some bc) :
    ba.length ≤ bc.length := by
  induction h generalizing bc with
  | refl _ =>
    rw [ha, Option.some.injEq] at hc
    rw [hc]
  | step hc' _ ih =>
    rw [hc, Option.some.injEq] at hc'
    subst hc'
    obtain ⟨p, hp, -⟩ := wf.parent_entry hc
    exact (ih hp).trans (wf.parent_length_le hc hp)

/-- An ancestor as long as the branch is the branch itself: below it every
ancestor is shorter, up to genesis, which is only its own ancestor. -/
theorem eq_of_length_eq (wf : tree.WellFormed genesis) {a c : Id} (h : tree.Ancestor a c)
    {ba bc : Branch Id} (ha : tree.entries a = some ba) (hc : tree.entries c = some bc)
    (hlen : ba.length = bc.length) : a = c := by
  induction h generalizing bc with
  | refl _ => rfl
  | @step c b hc' hanc ih =>
    rw [hc, Option.some.injEq] at hc'
    subst hc'
    obtain ⟨p, hp, hsucc⟩ := wf.parent_entry hc
    have hle := wf.length_le hanc ha hp
    by_cases hg : c = genesis
    · -- genesis is its own parent, so the ancestry stays at genesis
      subst hg
      have hb := wf.eq_genesis_entry hc
      subst hb
      exact ih hp (le_antisymm hle (hlen ▸ wf.parent_length_le hc hp))
    · have := hsucc hg
      omega

/-- Two ancestors of one branch: the shorter is an ancestor of the longer. -/
theorem total (wf : tree.WellFormed genesis) {x y c : Id} (hx : tree.Ancestor x c)
    (hy : tree.Ancestor y c) {bx b : Branch Id} (hbx : tree.entries x = some bx)
    (hb : tree.entries y = some b) (hle : b.length ≤ bx.length) : tree.Ancestor y x := by
  induction hx with
  | refl _ => exact hy
  | @step c bc hc hanc ih =>
    rcases hy.eq_or_parent hc with rfl | hy'
    · -- `y` is the branch itself, so `x`, between them, is as long as `y`
      have hxy : x = y := wf.eq_of_length_eq (.step hc hanc) hbx hb
        (le_antisymm (wf.length_le (.step hc hanc) hbx hb) hle)
      subst hxy
      exact .refl hbx
    · exact ih hy'

/-- An ancestor of a branch is determined by its length. -/
theorem eq_of_ancestor_length_eq (wf : tree.WellFormed genesis) {x y c : Id}
    (hx : tree.Ancestor x c) (hy : tree.Ancestor y c) {bx b : Branch Id}
    (hbx : tree.entries x = some bx) (hb : tree.entries y = some b)
    (hlen : bx.length = b.length) : x = y :=
  (wf.eq_of_length_eq (wf.total hx hy hbx hb (Nat.le_of_eq hlen.symm)) hb hbx hlen.symm).symm

/-- The walks of `lca` and `walk_back_before` stay on the ancestry of where
they start. -/
theorem upLoop_ancestor (wf : tree.WellFormed genesis) {cond : Branch Id → Bool}
    {b c : Branch Id} (hb : tree.entries b.id = some b) {fuel : ℕ}
    (h : (loop cond tree.up fuel b : Outcome ε (Branch Id)) = ok c) :
    tree.entries c.id = some c ∧ tree.Ancestor c.id b.id := by
  let inv := fun c : Branch Id => tree.entries c.id = some c ∧ tree.Ancestor c.id b.id
  have step : ∀ a a', inv a → cond a = true →
      (tree.up a : Outcome ε (Branch Id)) = ok a' → inv a' := by
    rintro a a' ⟨ha, hanc⟩ - hup
    have hp := up_eq_ok.mp hup
    have hid : a'.id = a.parent := wf.id_eq hp
    exact ⟨by rw [hid]; exact hp, by rw [hid]; exact (Ancestor.parent ha hp).trans hanc⟩
  exact (loop_invariant inv step fuel b c ⟨hb, .refl hb⟩ h).1

/-- The first two loops of `lca` bring both branches, along their ancestry, to
the length of the shorter one. -/
theorem lca_equalise (wf : tree.WellFormed genesis) {b1 b2 : Branch Id}
    (h1 : tree.entries b1.id = some b1) (h2 : tree.entries b2.id = some b2) :
    ∃ c1 c2,
      (loop (fun b1 => decide (b2.length < b1.length)) tree.up (b1.length + 1) b1 :
        Outcome ε (Branch Id)) = ok c1 ∧
      (loop (fun b2 => decide (c1.length < b2.length)) tree.up (b2.length + 1) b2 :
        Outcome ε (Branch Id)) = ok c2 ∧
      tree.entries c1.id = some c1 ∧ tree.entries c2.id = some c2 ∧
      tree.Ancestor c1.id b1.id ∧ tree.Ancestor c2.id b2.id ∧
      c1.length = min b1.length b2.length ∧ c2.length = c1.length := by
  have hcond1 : ∀ c, tree.entries c.id = some c → decide (b2.length < c.length) = true →
      min b1.length b2.length < c.length := by
    intro c _ h
    simp only [decide_eq_true_eq] at h
    omega
  obtain ⟨c1, hc1, hs1, hstop1, hle1⟩ := wf.upLoop_ok (ε := ε)
    (fun c hc h => Nat.lt_of_le_of_lt (Nat.zero_le _) (hcond1 c hc h)) h1 (Nat.lt_add_one _)
  simp only [decide_eq_false_iff_not, Nat.not_lt] at hstop1
  have hge1 := wf.upLoop_length_ge hcond1 h1 (Nat.min_le_left _ _) hc1
  have hcond2 : ∀ c, tree.entries c.id = some c → decide (c1.length < c.length) = true →
      c1.length < c.length := by
    intro c _ h
    simpa only [decide_eq_true_eq] using h
  obtain ⟨c2, hc2, hs2, hstop2, -⟩ := wf.upLoop_ok (ε := ε)
    (fun c hc h => Nat.lt_of_le_of_lt (Nat.zero_le _) (hcond2 c hc h)) h2 (Nat.lt_add_one _)
  simp only [decide_eq_false_iff_not, Nat.not_lt] at hstop2
  have hge2 := wf.upLoop_length_ge hcond2 h2 hstop1 hc2
  refine ⟨c1, c2, hc1, hc2, hs1, hs2, (wf.upLoop_ancestor h1 hc1).2,
    (wf.upLoop_ancestor h2 hc2).2, by omega, by omega⟩

variable [DecidableEq Id]

/-- The lockstep loop of `lca`, from two stored branches of one length: it
stops where they meet, on the ancestry of both, and every common ancestor of
where they started is an ancestor of where they meet. -/
theorem lcaLoop_lowest (wf : tree.WellFormed genesis) {c1 c2 : Branch Id}
    (h1 : tree.entries c1.id = some c1) (h2 : tree.entries c2.id = some c2)
    (hlen : c1.length = c2.length) :
    ∃ p, (loop (fun p : Branch Id × Branch Id => decide (p.1.id ≠ p.2.id))
        (fun p => do
          let b1 ← tree.up p.1
          let b2 ← tree.up p.2
          ok (b1, b2))
        (c1.length + 1) (c1, c2) : Outcome ε (Branch Id × Branch Id)) = ok p ∧
      tree.entries p.1.id = some p.1 ∧ p.1.id = p.2.id ∧
      tree.Ancestor p.1.id c1.id ∧ tree.Ancestor p.2.id c2.id ∧
      ∀ a, tree.Ancestor a c1.id → tree.Ancestor a c2.id → tree.Ancestor a p.1.id := by
  let inv := fun p : Branch Id × Branch Id =>
    tree.entries p.1.id = some p.1 ∧ tree.entries p.2.id = some p.2 ∧
      p.1.length = p.2.length ∧ tree.Ancestor p.1.id c1.id ∧ tree.Ancestor p.2.id c2.id ∧
      ∀ a, tree.Ancestor a c1.id → tree.Ancestor a c2.id →
        tree.Ancestor a p.1.id ∧ tree.Ancestor a p.2.id
  have step : ∀ p, inv p → decide (p.1.id ≠ p.2.id) = true →
      ∃ p', (do
          let b1 ← tree.up p.1
          let b2 ← tree.up p.2
          ok (b1, b2) : Outcome ε (Branch Id × Branch Id)) = ok p' ∧
        inv p' ∧ p'.1.length < p.1.length := by
    rintro ⟨q1, q2⟩ ⟨hq1, hq2, hl, ha1, ha2, hcommon⟩ hne
    dsimp only at hq1 hq2 hl ha1 ha2 hcommon
    simp only [ne_eq, decide_eq_true_eq] at hne
    obtain ⟨p1, p2, hup, hp1, hp2, hpar1, hpar2, hpl, hlt⟩ := wf.upPair_ok (ε := ε) hq1 hq2 hl hne
    have hbelow : ∀ a, tree.Ancestor a c1.id → tree.Ancestor a c2.id →
        tree.Ancestor a p1.id ∧ tree.Ancestor a p2.id := by
      intro a ha hb
      obtain ⟨haq1, haq2⟩ := hcommon a ha hb
      have hne1 : a ≠ q1.id := by
        rintro rfl
        exact hne (wf.eq_of_length_eq haq2 hq1 hq2 hl)
      have hne2 : a ≠ q2.id := by
        rintro rfl
        exact hne (wf.eq_of_length_eq haq1 hq2 hq1 hl.symm).symm
      rw [hpar1, hpar2]
      exact ⟨(haq1.eq_or_parent hq1).resolve_left hne1, (haq2.eq_or_parent hq2).resolve_left hne2⟩
    refine ⟨(p1, p2), hup, ⟨hp1, hp2, hpl, ?_, ?_, hbelow⟩, hlt⟩
    · rw [hpar1]
      exact (Ancestor.parent hq1 (hpar1 ▸ hp1)).trans ha1
    · rw [hpar2]
      exact (Ancestor.parent hq2 (hpar2 ▸ hp2)).trans ha2
  obtain ⟨p, hp, ⟨hp1, -, -, ha1, ha2, hcommon⟩, hstop⟩ :=
    loop_spec inv (fun p => p.1.length) step (c1.length + 1) (c1, c2)
      ⟨h1, h2, hlen, .refl h1, .refl h2, fun a ha hb => ⟨ha, hb⟩⟩ (Nat.lt_add_one _)
  simp only [ne_eq, decide_eq_false_iff_not, not_not] at hstop
  exact ⟨p, hp, hp1, hstop, ha1, ha2, fun a ha hb => (hcommon a ha hb).1⟩

end WellFormed

variable [DecidableEq Id]

/-- On a well-formed tree `lca` of two stored branches returns their lowest
common ancestor: an ancestor of both, below which lies every other common
ancestor. -/
theorem lca_lowest_common_ancestor (wf : tree.WellFormed genesis) {b1 b2 : Branch Id}
    (h1 : tree.entries b1.id = some b1) (h2 : tree.entries b2.id = some b2) :
    ∃ r, (tree.lca b1 b2 : Outcome ε (Branch Id)) = ok r ∧ tree.entries r.id = some r ∧
      tree.Ancestor r.id b1.id ∧ tree.Ancestor r.id b2.id ∧
      ∀ a, tree.Ancestor a b1.id → tree.Ancestor a b2.id → tree.Ancestor a r.id := by
  obtain ⟨c1, c2, hc1, hc2, hs1, hs2, ha1, ha2, hlen1, hlen2⟩ := wf.lca_equalise (ε := ε) h1 h2
  obtain ⟨p, hp, hps, hid, hp1, hp2, hlowest⟩ := wf.lcaLoop_lowest (ε := ε) hs1 hs2 hlen2.symm
  have hcommon : ∀ a, tree.Ancestor a b1.id → tree.Ancestor a b2.id →
      tree.Ancestor a c1.id ∧ tree.Ancestor a c2.id := by
    intro a ha hb
    obtain ⟨ba, hba⟩ := ha.entry_left
    have hle1 := wf.length_le ha hba h1
    have hle2 := wf.length_le hb hba h2
    exact ⟨wf.total ha1 ha hs1 hba (by omega), wf.total ha2 hb hs2 hba (by omega)⟩
  refine ⟨p.1, ?_, hps, hp1.trans ha1, hid ▸ hp2.trans ha2, fun a ha hb =>
    hlowest a (hcommon a ha hb).1 (hcommon a ha hb).2⟩
  simp only [bind_def] at hp
  simp only [lca, bind_def, hc1, hc2, ok_bind, hp]

/-- On the fork of `forkBlocks`, `lca` of the two tips is genesis, reached by
walking down both branches. -/
theorem lca_lowest_common_ancestor_fork :
    ∃ c, Cryptarchia.receiveBlocks IterOrder.sorted (Cryptarchia.new 0 Cryptarchia.forkConfig)
        Cryptarchia.forkBlocks = ok c ∧
      ∃ r, (c.branches.lca ⟨2, 1, 2, 2⟩ ⟨3, 0, 3, 1⟩ : Outcome Empty (Branch ℕ)) = ok r ∧
        c.branches.entries r.id = some r ∧ c.branches.Ancestor r.id 2 ∧ c.branches.Ancestor r.id 3 ∧
        ∀ a, c.branches.Ancestor a 2 → c.branches.Ancestor a 3 → c.branches.Ancestor a r.id := by
  obtain ⟨c, hc, hreach, h2, h3, -, -⟩ := Cryptarchia.receiveBlocks_forkBlocks
  exact ⟨c, hc, lca_lowest_common_ancestor hreach.wellFormed.branches h2 h3⟩

end Branches

namespace Cryptarchia

variable [DecidableEq Id] {tree : Branches Id} {genesis : Id}

/-- One step of the fold of `get_security_block_header_id`: the parent of the
header, unless the header is its own parent. -/
def securityStep (tree : Branches Id) (header : Id) (_ : ℕ) : Option Id := do
  let branch ← tree.get header
  if header = branch.parent then none else some branch.parent

theorem getSecurityBlockHeaderId_eq (c : Cryptarchia Id) :
    c.getSecurityBlockHeaderId =
      (List.range c.config.securityParam).foldlM (securityStep c.branches) c.tip := rfl

/-- A step goes down from every stored branch but genesis, the branch of
length 0. -/
theorem securityStep_eq_some (wf : tree.WellFormed genesis) {y z : Id} {b : Branch Id}
    (hy : tree.entries y = some b) (i : ℕ) :
    securityStep tree y i = some z ↔ 0 < b.length ∧ z = b.parent := by
  have hself : y = b.parent ↔ b.length = 0 := by
    constructor
    · intro hpar
      have hg := wf.self_parent hy hpar.symm
      subst hg
      rw [wf.eq_genesis_entry hy]
    · intro hlen
      have hg := wf.eq_genesis_of_length_zero hy hlen
      subst hg
      rw [wf.eq_genesis_entry hy]
  simp only [securityStep, Branches.get_eq, hy, Option.bind_eq_bind, Option.bind_some]
  by_cases hlen : b.length = 0
  · rw [if_pos (hself.mpr hlen)]
    simp [hlen]
  · rw [if_neg (mt hself.mp hlen), Option.some.injEq]
    constructor
    · rintro rfl
      exact ⟨Nat.pos_of_ne_zero hlen, rfl⟩
    · rintro ⟨-, rfl⟩
      rfl

/-- `n` steps down from a stored branch end at its ancestor `n` below it, and
give up when the branch is shorter than `n`. -/
theorem foldlM_securityStep (wf : tree.WellFormed genesis) {x : Id} {bx : Branch Id}
    (hx : tree.entries x = some bx) : ∀ n : ℕ,
      (∀ y, (List.range n).foldlM (securityStep tree) x = some y →
        n ≤ bx.length ∧ ∃ b, tree.entries y = some b ∧ tree.Ancestor y x ∧
          b.length = bx.length - n) ∧
      (n ≤ bx.length → ∃ y, (List.range n).foldlM (securityStep tree) x = some y)
  | 0 => ⟨fun y hy => ⟨Nat.zero_le _, bx, by cases hy; exact ⟨hx, .refl hx, rfl⟩⟩,
      fun _ => ⟨x, rfl⟩⟩
  | n + 1 => by
    obtain ⟨hsound, hcomplete⟩ := foldlM_securityStep wf hx n
    have hfold : ∀ z, (List.range (n + 1)).foldlM (securityStep tree) x = some z ↔
        ∃ y, (List.range n).foldlM (securityStep tree) x = some y ∧
          securityStep tree y n = some z := by
      intro z
      simp [List.range_succ, List.foldlM_append, Option.bind_eq_some_iff]
    constructor
    · intro z hz
      obtain ⟨y, hy, hstep⟩ := (hfold z).mp hz
      obtain ⟨hn, b, hb, hanc, hlen⟩ := hsound y hy
      obtain ⟨hpos, rfl⟩ := (securityStep_eq_some wf hb n).mp hstep
      obtain ⟨p, hp, hsucc⟩ := wf.parent_entry hb
      have hplen := hsucc fun hg => by
        subst hg
        rw [wf.eq_genesis_entry hb] at hpos
        exact absurd hpos (Nat.lt_irrefl 0)
      exact ⟨by omega, p, hp, (Branches.Ancestor.parent hb hp).trans hanc, by omega⟩
    · intro hn
      obtain ⟨y, hy⟩ := hcomplete (by omega)
      obtain ⟨-, b, hb, -, hlen⟩ := hsound y hy
      exact ⟨b.parent, (hfold _).mpr ⟨y, hy, (securityStep_eq_some wf hb n).mpr
        ⟨by omega, rfl⟩⟩⟩

/-- On every reachable state the security block exists exactly when the tip is
at least `k` long, and it is then the one ancestor of the tip `k` below it. -/
theorem getSecurityBlockHeaderId_spec {genesis : Id} {config : Config} {c : Cryptarchia Id}
    (h : Reachable genesis config c) :
    ((∃ hid, c.getSecurityBlockHeaderId = some hid) ↔
        c.config.securityParam ≤ c.localChain.length) ∧
      ∀ hid, c.getSecurityBlockHeaderId = some hid →
        ∃ b, c.branches.entries hid = some b ∧ c.branches.Ancestor hid c.tip ∧
          b.length = c.localChain.length - c.config.securityParam ∧
          ∀ a ba, c.branches.entries a = some ba → c.branches.Ancestor a c.tip →
            ba.length = c.localChain.length - c.config.securityParam → a = hid := by
  have wf := h.wellFormed
  obtain ⟨hsound, hcomplete⟩ :=
    foldlM_securityStep wf.branches wf.localChain_entry c.config.securityParam
  rw [getSecurityBlockHeaderId_eq]
  refine ⟨⟨fun ⟨hid, hh⟩ => (hsound hid hh).1, hcomplete⟩, fun hid hh => ?_⟩
  obtain ⟨-, b, hb, hanc, hlen⟩ := hsound hid hh
  exact ⟨b, hb, hanc, hlen, fun a ba ha hanc' hlen' =>
    wf.branches.eq_of_ancestor_length_eq hanc' hanc ha hb (hlen'.trans hlen.symm)⟩

/-- After the fork, with `k = 1`, the tip `2` is two blocks long and its
security block is the one below it. -/
theorem getSecurityBlockHeaderId_spec_fork :
    ∃ c, receiveBlocks IterOrder.sorted (new 0 forkConfig) forkBlocks = ok c ∧
      c.config.securityParam ≤ c.localChain.length ∧
      ∃ hid b, c.getSecurityBlockHeaderId = some hid ∧ c.branches.entries hid = some b ∧
        c.branches.Ancestor hid c.tip ∧ b.length = c.localChain.length - c.config.securityParam := by
  obtain ⟨c, hc, hreach, -, -, hlocal, hk1⟩ := receiveBlocks_forkBlocks
  obtain ⟨hiff, hspec⟩ := getSecurityBlockHeaderId_spec hreach
  have hk : c.config.securityParam ≤ c.localChain.length := by
    rw [hlocal, hk1]
    decide
  obtain ⟨hid, hhid⟩ := hiff.mpr hk
  obtain ⟨b, hb, hanc, hlen, -⟩ := hspec hid hhid
  exact ⟨c, hc, hk, hid, b, hhid, hb, hanc, hlen⟩

end Cryptarchia

end CryptarchiaEngine
