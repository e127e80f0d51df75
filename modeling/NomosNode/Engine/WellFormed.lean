import NomosNode.Engine.Cryptarchia

/-!
# Well-formed block trees

The invariant every tree built by `receive_block` from `Cryptarchia::new` keeps:
genesis is its own parent with length 0, every branch is stored under its id
with its parent stored and, but for genesis, one longer than its parent, and
every stored branch is an ancestor of a stored tip. `apply_header` does not
check that the new id is fresh, so the calls with a fresh id keep it. On a
well-formed tree the loops of `lca` and `walk_back_before` end, and no lookup
misses.
-/

namespace CryptarchiaEngine

open Outcome

variable {Id : Type} {ε : Type}

namespace Branches

/-- `a` is `c` or an ancestor of `c`. -/
inductive Ancestor (tree : Branches Id) : Id → Id → Prop
  | refl {a : Id} {b : Branch Id} : tree.entries a = some b → Ancestor tree a a
  | step {a c : Id} {b : Branch Id} :
      tree.entries c = some b → Ancestor tree a b.parent → Ancestor tree a c

structure WellFormed (tree : Branches Id) (genesis : Id) : Prop where
  genesis_entry : tree.entries genesis = some ⟨genesis, genesis, 0, 0⟩
  id_eq : ∀ {k b}, tree.entries k = some b → b.id = k
  self_parent : ∀ {k b}, tree.entries k = some b → b.parent = k → k = genesis
  parent_entry : ∀ {k b}, tree.entries k = some b →
    ∃ p, tree.entries b.parent = some p ∧ (k ≠ genesis → b.length = p.length + 1)
  tips_entry : ∀ {t}, t ∈ tree.tips → ∃ b, tree.entries t = some b
  covered : ∀ {k b}, tree.entries k = some b → ∃ t ∈ tree.tips, tree.Ancestor k t

/-- Ancestry survives any extension of the map. -/
theorem Ancestor.mono {self t : Branches Id}
    (ext : ∀ {k b}, self.entries k = some b → t.entries k = some b) {a c : Id}
    (h : self.Ancestor a c) : t.Ancestor a c := by
  induction h with
  | refl hb => exact .refl (ext hb)
  | step hc _ ih => exact .step (ext hc) ih

namespace WellFormed

variable {self : Branches Id} {genesis : Id}

theorem eq_genesis_of_length_zero (wf : self.WellFormed genesis) {k : Id} {b : Branch Id}
    (hk : self.entries k = some b) (hlen : b.length = 0) : k = genesis := by
  by_contra hne
  obtain ⟨p, _, hsucc⟩ := wf.parent_entry hk
  have := hsucc hne
  omega

/-- One step towards the root from a stored branch of positive length. -/
theorem up_ok (wf : self.WellFormed genesis) {b : Branch Id}
    (hb : self.entries b.id = some b) (hlen : 0 < b.length) :
    ∃ p, (self.up b : Outcome ε (Branch Id)) = ok p ∧ self.entries p.id = some p ∧
      p.length + 1 = b.length := by
  have hne : b.id ≠ genesis := by
    intro heq
    rw [heq, wf.genesis_entry] at hb
    cases hb
    exact absurd hlen (Nat.lt_irrefl 0)
  obtain ⟨p, hp, hsucc⟩ := wf.parent_entry hb
  refine ⟨p, up_eq_ok.mpr hp, ?_, (hsucc hne).symm⟩
  rwa [wf.id_eq hp]

/-- A stored branch with a positive slot is not genesis, so it has a parent. -/
theorem length_pos_of_slot (wf : self.WellFormed genesis) {b : Branch Id}
    (hb : self.entries b.id = some b) (hslot : 0 < b.slot) : 0 < b.length := by
  rcases Nat.eq_zero_or_pos b.length with h0 | hpos
  · have hg := wf.eq_genesis_of_length_zero hb h0
    rw [hg, wf.genesis_entry] at hb
    cases hb
    exact absurd hslot (Nat.lt_irrefl 0)
  · exact hpos

/-- A loop that walks to the parent while its test holds, and whose test holds
only above genesis, returns a stored branch at most as long as where it
started. -/
theorem upLoop_ok (wf : self.WellFormed genesis) {cond : Branch Id → Bool}
    (hcond : ∀ c, self.entries c.id = some c → cond c = true → 0 < c.length)
    {b : Branch Id} (hb : self.entries b.id = some b) {fuel : ℕ} (hfuel : b.length < fuel) :
    ∃ c, (loop cond self.up fuel b : Outcome ε (Branch Id)) = ok c ∧
      self.entries c.id = some c ∧ cond c = false ∧ c.length ≤ b.length := by
  have step : ∀ a, self.entries a.id = some a ∧ a.length ≤ b.length → cond a = true →
      ∃ a', (self.up a : Outcome ε (Branch Id)) = ok a' ∧
        (self.entries a'.id = some a' ∧ a'.length ≤ b.length) ∧ a'.length < a.length := by
    rintro a ⟨ha, hle⟩ hc
    obtain ⟨p, hup, hp, hlen⟩ := wf.up_ok (ε := ε) ha (hcond a ha hc)
    exact ⟨p, hup, ⟨hp, by omega⟩, by omega⟩
  obtain ⟨c, hc, ⟨hcs, hcle⟩, hstop⟩ :=
    loop_spec _ Branch.length step fuel b ⟨hb, le_refl _⟩ hfuel
  exact ⟨c, hc, hcs, hstop, hcle⟩

/-- The walk stops no lower than a length the test keeps it above. -/
theorem upLoop_length_ge (wf : self.WellFormed genesis) {cond : Branch Id → Bool} {m : ℕ}
    (hcond : ∀ c, self.entries c.id = some c → cond c = true → m < c.length)
    {b c : Branch Id} (hb : self.entries b.id = some b) (hm : m ≤ b.length) {fuel : ℕ}
    (h : (loop cond self.up fuel b : Outcome ε (Branch Id)) = ok c) : m ≤ c.length := by
  let inv := fun c : Branch Id => self.entries c.id = some c ∧ m ≤ c.length
  have step : ∀ a a', inv a → cond a = true →
      (self.up a : Outcome ε (Branch Id)) = ok a' → inv a' := by
    intro a a' ⟨ha, hle⟩ hc hup
    have hlt := hcond a ha hc
    obtain ⟨p, hup', hp, hlen⟩ := wf.up_ok (ε := ε) ha (by omega)
    rw [hup] at hup'
    cases hup'
    exact ⟨hp, by omega⟩
  exact (loop_invariant inv step fuel b c ⟨hb, hm⟩ h).1.2

/-- One round of the lockstep loop of `lca`: two different stored branches of
one length are not both genesis, so both step to their stored parents, again of
one length and one shorter. -/
theorem upPair_ok (wf : self.WellFormed genesis) {q1 q2 : Branch Id}
    (hq1 : self.entries q1.id = some q1) (hq2 : self.entries q2.id = some q2)
    (hl : q1.length = q2.length) (hne : q1.id ≠ q2.id) :
    ∃ p1 p2, (do
        let b1 ← self.up q1
        let b2 ← self.up q2
        ok (b1, b2) : Outcome ε (Branch Id × Branch Id)) = ok (p1, p2) ∧
      self.entries p1.id = some p1 ∧ self.entries p2.id = some p2 ∧
      p1.id = q1.parent ∧ p2.id = q2.parent ∧ p1.length = p2.length ∧ p1.length < q1.length := by
  have hpos : 0 < q1.length := by
    by_contra h0
    have g1 := wf.eq_genesis_of_length_zero hq1 (by omega)
    have g2 := wf.eq_genesis_of_length_zero hq2 (by omega)
    exact hne (g1.trans g2.symm)
  obtain ⟨p1, hu1, hp1, hl1⟩ := wf.up_ok (ε := ε) hq1 hpos
  obtain ⟨p2, hu2, hp2, hl2⟩ := wf.up_ok (ε := ε) hq2 (by omega)
  refine ⟨p1, p2, ?_, hp1, hp2, wf.id_eq (up_eq_ok.mp hu1), wf.id_eq (up_eq_ok.mp hu2),
    by omega, by omega⟩
  simp only [bind_def, hu1, hu2, ok_bind]

end WellFormed

theorem walkBackBefore_ok {tree : Branches Id} {genesis : Id} (wf : tree.WellFormed genesis)
    {b : Branch Id} (hb : tree.entries b.id = some b) (slot : Slot) :
    ∃ c, (tree.walkBackBefore b slot : Outcome ε (Branch Id)) = ok c ∧
      tree.entries c.id = some c := by
  have hcond : ∀ c, tree.entries c.id = some c → decide (slot < c.slot) = true →
      0 < c.length := by
    intro c hc h
    exact wf.length_pos_of_slot hc (Nat.lt_of_le_of_lt (Nat.zero_le _) (of_decide_eq_true h))
  obtain ⟨c, hc, hcs, -⟩ := wf.upLoop_ok hcond hb (Nat.lt_add_one _)
  exact ⟨c, hc, hcs⟩

theorem branches_ok {tree : Branches Id} {genesis : Id} (wf : tree.WellFormed genesis)
    (order : IterOrder Id) :
    ∃ bs, (tree.branches order : Outcome ε (List (Branch Id))) = ok bs := by
  apply mapM_ok
  intro x hx
  obtain ⟨b, hb⟩ := wf.tips_entry ((order.mem_visit _ x).mp hx)
  exact ⟨b, by simp [index, hb]⟩

/-- Every branch `branches()` returns is stored under a tip. -/
theorem mem_branches_tip {tree : Branches Id} {order : IterOrder Id} {bs : List (Branch Id)}
    (h : (tree.branches order : Outcome ε (List (Branch Id))) = ok bs) :
    ∀ b ∈ bs, ∃ t ∈ tree.tips, tree.entries t = some b := by
  intro b hb
  obtain ⟨x, hx, hxb⟩ := mem_of_mapM_eq_ok h b hb
  refine ⟨x, (order.mem_visit _ x).mp hx, ?_⟩
  unfold index at hxb
  cases hxe : tree.entries x with
  | none => rw [hxe] at hxb; cases hxb
  | some b' => rw [hxe] at hxb; cases hxb; rfl

/-- Every branch `branches()` returns is stored under its id, which is a tip. -/
theorem mem_branches {tree : Branches Id} {genesis : Id} (wf : tree.WellFormed genesis)
    {order : IterOrder Id} {bs : List (Branch Id)}
    (h : (tree.branches order : Outcome ε (List (Branch Id))) = ok bs) :
    ∀ b ∈ bs, b.id ∈ tree.tips ∧ tree.entries b.id = some b := by
  intro b hb
  obtain ⟨x, hx, hxe⟩ := mem_branches_tip h b hb
  rw [wf.id_eq hxe]
  exact ⟨hx, hxe⟩

variable [DecidableEq Id]

theorem fromGenesis_wellFormed (genesis : Id) :
    (fromGenesis genesis).WellFormed genesis where
  genesis_entry := by simp [fromGenesis]
  id_eq := by
    intro k b hk
    by_cases h : k = genesis
    · subst h
      simp only [fromGenesis, Function.update_self, Option.some.injEq] at hk
      rw [← hk]
    · simp [fromGenesis, h] at hk
  self_parent := by
    intro k b hk _
    by_contra h
    simp [fromGenesis, h] at hk
  parent_entry := by
    intro k b hk
    by_cases h : k = genesis
    · subst h
      simp only [fromGenesis, Function.update_self, Option.some.injEq] at hk
      subst hk
      exact ⟨⟨k, k, 0, 0⟩, by simp [fromGenesis], fun hne => absurd rfl hne⟩
    · simp [fromGenesis, h] at hk
  tips_entry := by
    intro t ht
    rw [show t = genesis from Finset.mem_singleton.mp ht]
    exact ⟨⟨genesis, genesis, 0, 0⟩, by simp [fromGenesis]⟩
  covered := by
    intro k b hk
    by_cases h : k = genesis
    · subst h
      exact ⟨k, Finset.mem_singleton_self k, .refl hk⟩
    · simp [fromGenesis, h] at hk

theorem applyHeader_eq_ok {self t : Branches Id} {header parent : Id} {slot : Slot} :
    self.applyHeader header parent slot = ok t ↔
      ∃ p, self.entries parent = some p ∧ p.length + 1 < 2 ^ 64 ∧
        t = { entries := Function.update self.entries header
                (some ⟨header, parent, slot, p.length + 1⟩)
              tips := insert header (self.tips.erase parent) } := by
  unfold applyHeader
  cases hp : self.entries parent with
  | none => simp
  | some p =>
    by_cases hlen : p.length + 1 < 2 ^ 64
    · simp only [addChecked_of_lt hlen, bind_def, ok_bind, ok.injEq]
      constructor
      · intro h
        exact ⟨p, rfl, hlen, h.symm⟩
      · rintro ⟨q, hq, -, rfl⟩
        cases hq
        rfl
    · simp only [addChecked_of_le (Nat.not_lt.mp hlen), bind_def, panic_bind]
      constructor
      · intro h
        cases h
      · rintro ⟨q, hq, hlt, -⟩
        cases hq
        exact absurd hlt hlen

/-- A fresh header keeps the tree well formed. -/
theorem applyHeader_wellFormed {self t : Branches Id} {genesis header parent : Id}
    {slot : Slot} (wf : self.WellFormed genesis) (fresh : self.entries header = none)
    (h : self.applyHeader header parent slot = ok t) : t.WellFormed genesis := by
  obtain ⟨p, hp, -, ht⟩ := applyHeader_eq_ok.mp h
  have hentries : t.entries =
      Function.update self.entries header (some ⟨header, parent, slot, p.length + 1⟩) := by
    rw [ht]
  have htips : t.tips = insert header (self.tips.erase parent) := by rw [ht]
  have old : ∀ {k b}, self.entries k = some b → k ≠ header := by
    intro k b hk heq
    rw [heq, fresh] at hk
    cases hk
  have ext : ∀ {k b}, self.entries k = some b → t.entries k = some b := by
    intro k b hk
    rw [hentries, Function.update_of_ne (old hk)]
    exact hk
  have hnew : t.entries header = some ⟨header, parent, slot, p.length + 1⟩ := by
    rw [hentries, Function.update_self]
  have hold : ∀ {k}, k ≠ header → t.entries k = self.entries k := by
    intro k hkh
    rw [hentries, Function.update_of_ne hkh]
  have hpar : parent ≠ header := old hp
  constructor
  · exact ext wf.genesis_entry
  · intro k b hk
    by_cases hkh : k = header
    · subst hkh
      rw [hnew, Option.some.injEq] at hk
      rw [← hk]
    · rw [hold hkh] at hk
      exact wf.id_eq hk
  · intro k b hk hself
    by_cases hkh : k = header
    · subst hkh
      rw [hnew, Option.some.injEq] at hk
      rw [← hk] at hself
      exact absurd hself hpar
    · rw [hold hkh] at hk
      exact wf.self_parent hk hself
  · intro k b hk
    by_cases hkh : k = header
    · subst hkh
      rw [hnew, Option.some.injEq] at hk
      rw [← hk]
      exact ⟨p, ext hp, fun _ => rfl⟩
    · rw [hold hkh] at hk
      obtain ⟨q, hq, hsucc⟩ := wf.parent_entry hk
      exact ⟨q, ext hq, hsucc⟩
  · intro tip htip
    rw [htips] at htip
    rcases Finset.mem_insert.mp htip with rfl | htip
    · exact ⟨_, hnew⟩
    · obtain ⟨b, hb⟩ := wf.tips_entry (Finset.mem_of_mem_erase htip)
      exact ⟨b, ext hb⟩
  · intro k b hk
    by_cases hkh : k = header
    · subst hkh
      exact ⟨k, by rw [htips]; exact Finset.mem_insert_self _ _, .refl hk⟩
    · rw [hold hkh] at hk
      obtain ⟨tip, htip, hanc⟩ := wf.covered hk
      have hanc' := hanc.mono ext
      by_cases hparent : tip = parent
      · -- the parent stops being a tip; its ancestors are now ancestors of the header
        subst hparent
        exact ⟨header, by rw [htips]; exact Finset.mem_insert_self _ _, .step hnew hanc'⟩
      · refine ⟨tip, ?_, hanc'⟩
        rw [htips]
        exact Finset.mem_insert_of_mem (Finset.mem_erase.mpr ⟨hparent, htip⟩)

/-- The last loop of `lca`: two stored branches of one length walk up together
until they meet, at the latest at genesis, never above where they started. -/
theorem lcaLoop_ok {tree : Branches Id} {genesis : Id} (wf : tree.WellFormed genesis)
    {b1 b2 : Branch Id} (h1 : tree.entries b1.id = some b1) (h2 : tree.entries b2.id = some b2)
    (hlen : b1.length = b2.length) :
    ∃ p, (loop (fun p : Branch Id × Branch Id => decide (p.1.id ≠ p.2.id))
        (fun p => do
          let b1 ← tree.up p.1
          let b2 ← tree.up p.2
          ok (b1, b2))
        (b1.length + 1) (b1, b2) : Outcome ε (Branch Id × Branch Id)) = ok p ∧
      tree.entries p.1.id = some p.1 ∧ p.1.length ≤ b1.length := by
  let inv := fun p : Branch Id × Branch Id =>
    tree.entries p.1.id = some p.1 ∧ tree.entries p.2.id = some p.2 ∧
      p.1.length = p.2.length ∧ p.1.length ≤ b1.length
  have step : ∀ p, inv p → decide (p.1.id ≠ p.2.id) = true →
      ∃ p', (do
          let b1 ← tree.up p.1
          let b2 ← tree.up p.2
          ok (b1, b2) : Outcome ε (Branch Id × Branch Id)) = ok p' ∧
        inv p' ∧ p'.1.length < p.1.length := by
    rintro ⟨c1, c2⟩ ⟨hc1, hc2, hl, hle⟩ hne
    dsimp only at hc1 hc2 hl hle
    simp only [ne_eq, decide_eq_true_eq] at hne
    obtain ⟨p1, p2, hup, hp1, hp2, -, -, hpl, hlt⟩ := wf.upPair_ok (ε := ε) hc1 hc2 hl hne
    exact ⟨(p1, p2), hup, ⟨hp1, hp2, hpl, show p1.length ≤ b1.length by omega⟩, hlt⟩
  obtain ⟨p, hp, hinv, -⟩ :=
    loop_spec inv (fun p => p.1.length) step (b1.length + 1) (b1, b2)
      ⟨h1, h2, hlen, le_refl _⟩ (Nat.lt_add_one _)
  exact ⟨p, hp, hinv.1, hinv.2.2.2⟩

/-- On a well-formed tree `lca` of two stored branches returns a stored branch
no longer than the first. -/
theorem lca_ok {tree : Branches Id} {genesis : Id} (wf : tree.WellFormed genesis)
    {b1 b2 : Branch Id} (h1 : tree.entries b1.id = some b1)
    (h2 : tree.entries b2.id = some b2) :
    ∃ c, (tree.lca b1 b2 : Outcome ε (Branch Id)) = ok c ∧ tree.entries c.id = some c ∧
      c.length ≤ b1.length := by
  have hcond1 : ∀ c, tree.entries c.id = some c → decide (b2.length < c.length) = true →
      0 < c.length := by
    intro c _ h
    simp only [decide_eq_true_eq] at h
    omega
  obtain ⟨c1, hc1, hs1, hstop1, hle1⟩ := wf.upLoop_ok (ε := ε) hcond1 h1 (Nat.lt_add_one _)
  simp only [decide_eq_false_iff_not, Nat.not_lt] at hstop1
  have hcond2 : ∀ c, tree.entries c.id = some c → decide (c1.length < c.length) = true →
      c1.length < c.length := by
    intro c _ h
    simpa only [decide_eq_true_eq] using h
  obtain ⟨c2, hc2, hs2, hstop2, -⟩ :=
    wf.upLoop_ok (ε := ε) (fun c hc h => Nat.lt_of_le_of_lt (Nat.zero_le _) (hcond2 c hc h))
      h2 (Nat.lt_add_one _)
  simp only [decide_eq_false_iff_not, Nat.not_lt] at hstop2
  have hge : c1.length ≤ c2.length := wf.upLoop_length_ge hcond2 h2 hstop1 hc2
  obtain ⟨p, hp, hps, hple⟩ := lcaLoop_ok (ε := ε) wf hs1 hs2 (by omega)
  refine ⟨p.1, ?_, hps, hple.trans hle1⟩
  simp only [bind_def] at hp
  simp only [lca, bind_def, hc1, hc2, ok_bind, hp]

end Branches

end CryptarchiaEngine
