import NomosNode.Lib.Outcome
import Mathlib.Data.List.Sort
import Mathlib.Data.Int.CardIntervalMod
import Mathlib.Data.Finset.Card

/-!
# Subnetwork assignations

Both versions of the assignation sort the peers, walk one shared cycle over the
sorted list, and let subnetwork `k` take the next `factor k` items of the cycle
into a hash set: `FillFromNodeList` with the replication factor everywhere,
`FillWithOriginalReplication` with the original replication below a pivot and
the dispersal factor above it. The cycle is the function from a position to the
peer the iterator yields there. A subnetwork of factor `f` has `min f n` members
among `n` distinct peers, and the assignation is balanced to within one.
-/

universe u

namespace SubnetworksAssignations

open Outcome

variable {ε : Type} {α : Type u} [LinearOrder α]

/-- `peers.sort_unstable()`: on a linear order every sort gives the one sorted
permutation, computed here by insertion sort. -/
def sortUnstable (peers : List α) : List α := peers.insertionSort (· ≤ ·)

theorem sortUnstable_perm (peers : List α) : (sortUnstable peers).Perm peers :=
  List.perm_insertionSort _ peers

theorem sortUnstable_eq_of_perm {peers peers' : List α} (h : peers.Perm peers') :
    sortUnstable peers = sortUnstable peers' :=
  List.Perm.eq_of_pairwise' (List.pairwise_insertionSort _ peers)
    (List.pairwise_insertionSort _ peers')
    ((sortUnstable_perm peers).trans (h.trans (sortUnstable_perm peers').symm))

theorem sortUnstable_ne_nil {peers : List α} (h : peers ≠ []) : sortUnstable peers ≠ [] :=
  fun hs => h (List.Perm.nil_eq (hs ▸ sortUnstable_perm peers)).symm

/-- The item that `peers.into_iter().cycle()` yields at position `t`. -/
def cycleAt (peers : List α) (h : peers ≠ []) (t : ℕ) : α :=
  peers.get ⟨t % peers.length, Nat.mod_lt t (List.length_pos_of_ne_nil h)⟩

/-- One subnetwork, `(0..factor).map(|_| cycle.next().unwrap()).collect()` into
a hash set, with the cycle at position `pos`. -/
def draw (cycle : ℕ → α) (pos factor : ℕ) : Finset α :=
  ((List.range' pos factor).map cycle).toFinset

/-- The subnetworks for a list of factors, each drawing from where the one
before it left the shared cycle. -/
def fillFrom (cycle : ℕ → α) : ℕ → List ℕ → List (Finset α)
  | _, [] => []
  | pos, factor :: factors => draw cycle pos factor :: fillFrom cycle (pos + factor) factors

/-- The body of both versions of `fill`, for the factors of the subnetworks in
order: assert that there are peers, sort them, and fill from one cycle. -/
def fillCycle (peers : List α) (factors : List ℕ) : Outcome ε (List (Finset α)) :=
  if h : peers = [] then .panic "assertion failed: !peers.is_empty()"
  else ok (fillFrom (cycleAt (sortUnstable peers) (sortUnstable_ne_nil h)) 0 factors)

namespace FillFromNodeList

/-- `FillFromNodeList::fill`: every subnetwork takes the replication factor. -/
def fill (peers : List α) (subnetworkSize replicationFactor : ℕ) :
    Outcome ε (List (Finset α)) :=
  fillCycle peers (List.replicate subnetworkSize replicationFactor)

end FillFromNodeList

namespace FillWithOriginalReplication

/-- The factor of a subnetwork: the original replication below the pivot, the
dispersal factor from it on. -/
def factor (dispersalFactor originalReplication : ℕ) (pivot : UInt16) (subnetwork : ℕ) : ℕ :=
  if subnetwork < pivot.toNat then originalReplication else dispersalFactor

/-- `FillWithOriginalReplication::fill`. -/
def fill (peers : List α) (subnetworkSize dispersalFactor originalReplication : ℕ)
    (pivot : UInt16) : Outcome ε (List (Finset α)) :=
  fillCycle peers ((List.range subnetworkSize).map (factor dispersalFactor originalReplication pivot))

end FillWithOriginalReplication

/-- `membership`: the ids, cast to `u16`, of the subnetworks that hold `id`;
the filter and the map are the two halves of its `filter_map`. -/
def membership (assignations : List (Finset α)) (id : α) : Finset UInt16 :=
  ((assignations.zipIdx.filter fun e => id ∈ e.1).map fun e => UInt16.ofNat e.2).toFinset

/-- `members_of`: the subnetwork at an id, panicking past the last one. -/
def membersOf (assignations : List (Finset α)) (networkId : UInt16) : Outcome ε (Finset α) :=
  getIndex assignations networkId.toNat

/-! ### The shared cycle -/

section Cycle

variable {l : List α} {h : l ≠ []}

omit [LinearOrder α] in
theorem cycleAt_congr {l' : List α} (hl : l = l') (h' : l' ≠ []) :
    cycleAt l h = cycleAt l' h' := by
  subst hl
  rfl

omit [LinearOrder α] in
theorem cycleAt_mem (t : ℕ) : cycleAt l h t ∈ l := List.get_mem _ _

omit [LinearOrder α] in
/-- On distinct peers two positions of the cycle yield the same peer exactly
when they are congruent modulo the number of peers. -/
theorem cycleAt_eq_get_iff (hl : l.Nodup) (t : ℕ) (i : Fin l.length) :
    cycleAt l h t = l.get i ↔ t ≡ i [MOD l.length] := by
  rw [cycleAt, hl.get_inj_iff, Fin.ext_iff, Nat.ModEq, Nat.mod_eq_of_lt i.isLt]

omit [LinearOrder α] in
/-- Fewer positions than peers yield distinct peers. -/
theorem nodup_map_cycleAt (hl : l.Nodup) (pos : ℕ) {f : ℕ} (hf : f ≤ l.length) :
    ((List.range' pos f).map (cycleAt l h)).Nodup := by
  refine List.Nodup.map_on (fun x hx y hy hxy => ?_) List.nodup_range'
  rw [List.mem_range'_1] at hx hy
  obtain ⟨i, hi⟩ := List.get_of_mem (cycleAt_mem (h := h) y)
  have hxi := (cycleAt_eq_get_iff hl x i).mp (hxy.trans hi.symm)
  have hyi := (cycleAt_eq_get_iff hl y i).mp hi.symm
  have hxy' : pos + (x - pos) ≡ pos + (y - pos) [MOD l.length] := by
    rw [Nat.add_sub_cancel' hx.1, Nat.add_sub_cancel' hy.1]
    exact hxi.trans hyi.symm
  have hmod := Nat.ModEq.add_left_cancel' pos hxy'
  rw [Nat.ModEq, Nat.mod_eq_of_lt (by omega), Nat.mod_eq_of_lt (by omega)] at hmod
  omega

/-- A subnetwork of factor `f` is drawn from a window of `f` positions, so a
larger factor only adds members. -/
theorem draw_mono (cycle : ℕ → α) (pos : ℕ) {f f' : ℕ} (hf : f ≤ f') :
    draw cycle pos f ⊆ draw cycle pos f' := by
  intro p hp
  simp only [draw, List.mem_toFinset, List.mem_map, List.mem_range'_1] at hp ⊢
  obtain ⟨t, ⟨hlo, hhi⟩, rfl⟩ := hp
  exact ⟨t, ⟨hlo, by omega⟩, rfl⟩

theorem draw_subset (pos f : ℕ) : draw (cycleAt l h) pos f ⊆ l.toFinset := by
  intro p hp
  simp only [draw, List.mem_toFinset, List.mem_map] at hp ⊢
  obtain ⟨t, -, rfl⟩ := hp
  exact cycleAt_mem t

/-- A subnetwork of factor `f` over `n` distinct peers has `min f n` members:
`f` distinct ones when its window is no longer than the cycle, every peer
otherwise. -/
theorem card_draw (hl : l.Nodup) (pos f : ℕ) :
    (draw (cycleAt l h) pos f).card = min f l.length := by
  by_cases hf : f ≤ l.length
  · rw [draw, List.toFinset_card_of_nodup (nodup_map_cycleAt hl pos hf), List.length_map,
      List.length_range', min_eq_left hf]
  · have hturn : (draw (cycleAt l h) pos l.length).card = l.length := by
      rw [draw, List.toFinset_card_of_nodup (nodup_map_cycleAt hl pos le_rfl), List.length_map,
        List.length_range']
    have hge := Finset.card_le_card (draw_mono (cycleAt l h) pos (Nat.le_of_not_le hf))
    have hle := Finset.card_le_card (draw_subset (h := h) pos f)
    rw [List.toFinset_card_of_nodup hl] at hle
    rw [min_eq_right (by omega)]
    omega

/-- Every subnetwork of a fill has `min f n` members for its factor `f`. -/
theorem map_card_fillFrom (hl : l.Nodup) (pos : ℕ) (factors : List ℕ) :
    (fillFrom (cycleAt l h) pos factors).map Finset.card = factors.map (min · l.length) := by
  induction factors generalizing pos with
  | nil => rfl
  | cons f factors ih => rw [fillFrom, List.map_cons, List.map_cons, card_draw hl, ih]

/-- Within a window no longer than the cycle a peer is drawn at most once: the
subnetwork holds it exactly when one position of the window yields it. -/
theorem countP_range'_cycleAt (hl : l.Nodup) (pos : ℕ) {f : ℕ} (hf : f ≤ l.length) (p : α) :
    (List.range' pos f).countP (fun t => cycleAt l h t = p) =
      if p ∈ draw (cycleAt l h) pos f then 1 else 0 := by
  have hcount : ((List.range' pos f).map (cycleAt l h)).count p =
      (List.range' pos f).countP (fun t => cycleAt l h t = p) := by
    rw [List.count_eq_countP, List.countP_map]
    exact List.countP_congr fun t _ => by simp
  rw [← hcount, (nodup_map_cycleAt hl pos hf).count]
  simp only [draw, List.mem_toFinset]

/-- Over subnetworks no larger than the cycle, a peer is in as many subnetworks
as there are positions of the whole walk that yield it. The induction is on the
factors, the walk of the rest starting where the first window ends. -/
theorem countP_fillFrom (hl : l.Nodup) (p : α) (pos : ℕ) {factors : List ℕ}
    (hfactors : ∀ f ∈ factors, f ≤ l.length) :
    (fillFrom (cycleAt l h) pos factors).countP (fun s => p ∈ s) =
      (List.range' pos factors.sum).countP (fun t => cycleAt l h t = p) := by
  induction factors generalizing pos with
  | nil => rfl
  | cons f factors ih =>
    have hf := hfactors f List.mem_cons_self
    have hrest := ih (pos + f) fun g hg => hfactors g (List.mem_cons_of_mem f hg)
    rw [fillFrom, List.countP_cons, hrest, List.sum_cons, ← List.range'_append_1,
      List.countP_append, countP_range'_cycleAt hl pos hf]
    simp only [decide_eq_true_eq]
    omega

/-- The positions below `T` that yield peer `i` of the list: one for each full
turn of the cycle, and one more when the last, partial turn reaches it. -/
theorem countP_range_cycleAt (hl : l.Nodup) (T : ℕ) (i : Fin l.length) :
    (List.range' 0 T).countP (fun t => cycleAt l h t = l.get i) =
      T / l.length + if (i : ℕ) < T % l.length then 1 else 0 := by
  have hcount := Nat.count_modEq_card T (List.length_pos_of_ne_nil h) i
  rw [Nat.mod_eq_of_lt i.isLt] at hcount
  rw [← hcount, Nat.count, ← List.range_eq_range']
  exact List.countP_congr fun t _ => by
    rw [decide_eq_true_iff, decide_eq_true_iff]
    exact cycleAt_eq_get_iff hl t i

/-- A ceiling that is not a floor is one more than the floor. -/
theorem add_pred_div_of_mod_pos {T n : ℕ} (hn : 0 < n) (h : 0 < T % n) :
    (T + n - 1) / n = T / n + 1 := by
  have hdm := Nat.div_add_mod T n
  have hlt := Nat.mod_lt T hn
  rw [Nat.mul_comm] at hdm
  apply Nat.div_eq_of_lt_le
  · rw [Nat.add_mul, Nat.one_mul]
    omega
  · rw [Nat.add_mul, Nat.add_mul, Nat.one_mul]
    omega

/-- Balance: when no factor exceeds the number of peers, every peer is in the
floor or the ceiling of the total factor over the number of peers subnetworks. -/
theorem countP_fillFrom_balanced (hl : l.Nodup) {factors : List ℕ}
    (hfactors : ∀ f ∈ factors, f ≤ l.length) {p : α} (hp : p ∈ l) :
    (fillFrom (cycleAt l h) 0 factors).countP (fun s => p ∈ s) = factors.sum / l.length ∨
      (fillFrom (cycleAt l h) 0 factors).countP (fun s => p ∈ s) =
        (factors.sum + l.length - 1) / l.length := by
  obtain ⟨i, rfl⟩ := List.get_of_mem hp
  rw [countP_fillFrom hl _ 0 hfactors, countP_range_cycleAt hl]
  by_cases hlast : (i : ℕ) < factors.sum % l.length
  · rw [if_pos hlast, add_pred_div_of_mod_pos (List.length_pos_of_ne_nil h) (by omega)]
    exact Or.inr rfl
  · rw [if_neg hlast]
    exact Or.inl rfl

end Cycle

/-! ### Both versions -/

theorem fillCycle_of_ne_nil {peers : List α} (h : peers ≠ []) (factors : List ℕ) :
    (fillCycle peers factors : Outcome ε (List (Finset α))) =
      ok (fillFrom (cycleAt (sortUnstable peers) (sortUnstable_ne_nil h)) 0 factors) :=
  dif_neg h

/-- The fill depends on the peers only through their sorted list, so every
permutation of them gives the same assignation. -/
theorem fillCycle_eq_of_perm {peers peers' : List α} (hperm : peers.Perm peers')
    (factors : List ℕ) :
    (fillCycle peers factors : Outcome ε (List (Finset α))) = fillCycle peers' factors := by
  by_cases hp : peers = []
  · have hp' : peers' = [] := by
      subst hp
      exact List.nil_perm.mp hperm
    rw [fillCycle, dif_pos hp, fillCycle, dif_pos hp']
  · have hp' : peers' ≠ [] := fun hp' => hp (List.perm_nil.mp (hp' ▸ hperm))
    rw [fillCycle_of_ne_nil hp, fillCycle_of_ne_nil hp',
      cycleAt_congr (sortUnstable_eq_of_perm hperm) (sortUnstable_ne_nil hp')]

section Fill

variable {peers : List α} (hne : peers ≠ []) (hnodup : peers.Nodup)
include hne hnodup

/-- Everything a fill promises, for any factors: it does not depend on the
order of the peers, subnetwork `k` has `min (factor k) n` members, and, when no
factor exceeds `n`, every peer is in the floor or the ceiling of the total
factor over `n` subnetworks. -/
theorem fillCycle_spec (factors : List ℕ) :
    ∃ assignations, (fillCycle peers factors : Outcome ε (List (Finset α))) = ok assignations ∧
      (∀ peers' : List α, peers'.Perm peers →
        (fillCycle peers' factors : Outcome ε (List (Finset α))) = ok assignations) ∧
      assignations.map Finset.card = factors.map (min · peers.length) ∧
      ((∀ f ∈ factors, f ≤ peers.length) → ∀ p ∈ peers,
        assignations.countP (fun s => p ∈ s) = factors.sum / peers.length ∨
        assignations.countP (fun s => p ∈ s) = (factors.sum + peers.length - 1) / peers.length) := by
  have hsorted := sortUnstable_perm peers
  have hl := hsorted.nodup_iff.mpr hnodup
  refine ⟨_, fillCycle_of_ne_nil hne factors, fun peers' hperm => ?_, ?_, fun hfactors p hp => ?_⟩
  · rw [fillCycle_eq_of_perm hperm, fillCycle_of_ne_nil hne]
  · rw [map_card_fillFrom hl, hsorted.length_eq]
  · rw [← hsorted.length_eq] at hfactors ⊢
    exact countP_fillFrom_balanced hl hfactors (hsorted.mem_iff.mpr hp)

end Fill

namespace FillFromNodeList

variable {peers : List α} (hne : peers ≠ []) (hnodup : peers.Nodup)
include hne hnodup

theorem fill_spec (subnetworkSize replicationFactor : ℕ) :
    ∃ assignations, (fill peers subnetworkSize replicationFactor :
        Outcome ε (List (Finset α))) = ok assignations ∧
      (∀ peers' : List α, peers'.Perm peers → (fill peers' subnetworkSize replicationFactor :
        Outcome ε (List (Finset α))) = ok assignations) ∧
      assignations.map Finset.card =
        List.replicate subnetworkSize (min replicationFactor peers.length) ∧
      (replicationFactor ≤ peers.length → ∀ p ∈ peers,
        assignations.countP (fun s => p ∈ s) =
          subnetworkSize * replicationFactor / peers.length ∨
        assignations.countP (fun s => p ∈ s) =
          (subnetworkSize * replicationFactor + peers.length - 1) / peers.length) := by
  obtain ⟨assignations, hfill, hperm, hcard, hbalanced⟩ :=
    fillCycle_spec (ε := ε) hne hnodup (List.replicate subnetworkSize replicationFactor)
  refine ⟨assignations, hfill, hperm, by rw [hcard, List.map_replicate], fun hr p hp => ?_⟩
  have hsum : (List.replicate subnetworkSize replicationFactor).sum =
      subnetworkSize * replicationFactor := by
    rw [List.sum_replicate_nat]
  rw [← hsum]
  exact hbalanced (fun f hf => List.eq_of_mem_replicate hf ▸ hr) p hp

-- the second subnetwork starts where the first stopped, and wraps around
example : (fill [2, 0, 1] 3 2 : Outcome Unit (List (Finset ℕ))) = ok [{0, 1}, {2, 0}, {1, 2}] := by
  decide

end FillFromNodeList

namespace FillWithOriginalReplication

/-- The factors add up to the original replication for each subnetwork below
the pivot, clamped to the subnetworks there are, and the dispersal factor for
the others. -/
theorem sum_factor (dispersalFactor originalReplication : ℕ) (pivot : UInt16) (size : ℕ) :
    ((List.range size).map (factor dispersalFactor originalReplication pivot)).sum =
      min pivot.toNat size * originalReplication +
        (size - min pivot.toNat size) * dispersalFactor := by
  induction size with
  | zero => simp
  | succ size ih =>
    rw [List.range_succ, List.map_append, List.sum_append, ih]
    simp only [List.map_cons, List.map_nil, List.sum_cons, List.sum_nil, factor]
    split_ifs with hbelow
    · -- below the pivot: the clamp grows with the size
      rw [min_eq_right hbelow.le, min_eq_right (by omega : size + 1 ≤ pivot.toNat),
        Nat.sub_self, Nat.sub_self]
      ring
    · rw [min_eq_left (by omega : pivot.toNat ≤ size), min_eq_left (by omega : pivot.toNat ≤ size + 1),
        show size + 1 - pivot.toNat = size - pivot.toNat + 1 by omega]
      ring

variable {peers : List α} (hne : peers ≠ []) (hnodup : peers.Nodup)
include hne hnodup

theorem fill_spec (subnetworkSize dispersalFactor originalReplication : ℕ) (pivot : UInt16) :
    ∃ assignations, (fill peers subnetworkSize dispersalFactor originalReplication pivot :
        Outcome ε (List (Finset α))) = ok assignations ∧
      (∀ peers' : List α, peers'.Perm peers →
        (fill peers' subnetworkSize dispersalFactor originalReplication pivot :
          Outcome ε (List (Finset α))) = ok assignations) ∧
      assignations.map Finset.card = (List.range subnetworkSize).map
        (fun k => min (factor dispersalFactor originalReplication pivot k) peers.length) ∧
      (originalReplication ≤ peers.length → dispersalFactor ≤ peers.length →
        (assignations.map Finset.card).sum =
          min pivot.toNat subnetworkSize * originalReplication +
            (subnetworkSize - min pivot.toNat subnetworkSize) * dispersalFactor ∧
        ∀ p ∈ peers,
          assignations.countP (fun s => p ∈ s) =
            (min pivot.toNat subnetworkSize * originalReplication +
              (subnetworkSize - min pivot.toNat subnetworkSize) * dispersalFactor) / peers.length ∨
          assignations.countP (fun s => p ∈ s) =
            (min pivot.toNat subnetworkSize * originalReplication +
              (subnetworkSize - min pivot.toNat subnetworkSize) * dispersalFactor +
                peers.length - 1) / peers.length) := by
  obtain ⟨assignations, hfill, hperm, hcard, hbalanced⟩ := fillCycle_spec (ε := ε) hne hnodup
    ((List.range subnetworkSize).map (factor dispersalFactor originalReplication pivot))
  refine ⟨assignations, hfill, hperm, by rw [hcard, List.map_map]; rfl, fun ho hd => ?_⟩
  have hfactors : ∀ f ∈ (List.range subnetworkSize).map
      (factor dispersalFactor originalReplication pivot), f ≤ peers.length := by
    intro f hf
    obtain ⟨k, -, rfl⟩ := List.mem_map.mp hf
    unfold factor
    split_ifs <;> assumption
  have hclamp : ((List.range subnetworkSize).map
      (factor dispersalFactor originalReplication pivot)).map (min · peers.length) =
      (List.range subnetworkSize).map (factor dispersalFactor originalReplication pivot) :=
    (List.map_congr_left fun f hf => min_eq_left (hfactors f hf)).trans (List.map_id' _)
  rw [← sum_factor]
  exact ⟨by rw [hcard, hclamp], hbalanced hfactors⟩

end FillWithOriginalReplication

open FillWithOriginalReplication in
theorem fill_order_independent_and_balanced {peers : List α} (hne : peers ≠ [])
    (hnodup : peers.Nodup) (subnetworkSize replicationFactor : ℕ)
    (dispersalFactor originalReplication : ℕ) (pivot : UInt16) :
    (∃ assignations, (FillFromNodeList.fill peers subnetworkSize replicationFactor :
        Outcome ε (List (Finset α))) = ok assignations ∧
      (∀ peers' : List α, peers'.Perm peers →
        (FillFromNodeList.fill peers' subnetworkSize replicationFactor :
          Outcome ε (List (Finset α))) = ok assignations) ∧
      assignations.map Finset.card =
        List.replicate subnetworkSize (min replicationFactor peers.length) ∧
      (replicationFactor ≤ peers.length → ∀ p ∈ peers,
        assignations.countP (fun s => p ∈ s) =
          subnetworkSize * replicationFactor / peers.length ∨
        assignations.countP (fun s => p ∈ s) =
          (subnetworkSize * replicationFactor + peers.length - 1) / peers.length)) ∧
    (∃ assignations, (fill peers subnetworkSize dispersalFactor originalReplication pivot :
        Outcome ε (List (Finset α))) = ok assignations ∧
      (∀ peers' : List α, peers'.Perm peers →
        (fill peers' subnetworkSize dispersalFactor originalReplication pivot :
          Outcome ε (List (Finset α))) = ok assignations) ∧
      assignations.map Finset.card = (List.range subnetworkSize).map
        (fun k => min (factor dispersalFactor originalReplication pivot k) peers.length) ∧
      (originalReplication ≤ peers.length → dispersalFactor ≤ peers.length →
        (assignations.map Finset.card).sum =
          min pivot.toNat subnetworkSize * originalReplication +
            (subnetworkSize - min pivot.toNat subnetworkSize) * dispersalFactor ∧
        ∀ p ∈ peers,
          assignations.countP (fun s => p ∈ s) =
            (min pivot.toNat subnetworkSize * originalReplication +
              (subnetworkSize - min pivot.toNat subnetworkSize) * dispersalFactor) / peers.length ∨
          assignations.countP (fun s => p ∈ s) =
            (min pivot.toNat subnetworkSize * originalReplication +
              (subnetworkSize - min pivot.toNat subnetworkSize) * dispersalFactor +
                peers.length - 1) / peers.length)) :=
  ⟨FillFromNodeList.fill_spec hne hnodup subnetworkSize replicationFactor,
    fill_spec hne hnodup subnetworkSize dispersalFactor originalReplication pivot⟩

open FillWithOriginalReplication in
theorem fill_order_independent_and_balanced_three_peers :
    ([0, 1, 2] : List ℕ) ≠ [] ∧ ([0, 1, 2] : List ℕ).Nodup ∧
    (∃ assignations, (FillFromNodeList.fill [0, 1, 2] 4 2 :
        Outcome Unit (List (Finset ℕ))) = ok assignations ∧
      (∀ peers' : List ℕ, peers'.Perm [0, 1, 2] →
        (FillFromNodeList.fill peers' 4 2 : Outcome Unit (List (Finset ℕ))) = ok assignations) ∧
      assignations.map Finset.card = List.replicate 4 (min 2 [0, 1, 2].length) ∧
      (2 ≤ [0, 1, 2].length → ∀ p ∈ [0, 1, 2],
        assignations.countP (fun s => p ∈ s) = 4 * 2 / [0, 1, 2].length ∨
        assignations.countP (fun s => p ∈ s) = (4 * 2 + [0, 1, 2].length - 1) / [0, 1, 2].length)) ∧
    (∃ assignations, (fill [0, 1, 2] 4 1 3 2 : Outcome Unit (List (Finset ℕ))) = ok assignations ∧
      (∀ peers' : List ℕ, peers'.Perm [0, 1, 2] →
        (fill peers' 4 1 3 2 : Outcome Unit (List (Finset ℕ))) = ok assignations) ∧
      assignations.map Finset.card =
        (List.range 4).map (fun k => min (factor 1 3 2 k) [0, 1, 2].length) ∧
      (3 ≤ [0, 1, 2].length → 1 ≤ [0, 1, 2].length →
        (assignations.map Finset.card).sum =
          min (2 : UInt16).toNat 4 * 3 + (4 - min (2 : UInt16).toNat 4) * 1 ∧
        ∀ p ∈ [0, 1, 2],
          assignations.countP (fun s => p ∈ s) =
            (min (2 : UInt16).toNat 4 * 3 + (4 - min (2 : UInt16).toNat 4) * 1) /
              [0, 1, 2].length ∨
          assignations.countP (fun s => p ∈ s) =
            (min (2 : UInt16).toNat 4 * 3 + (4 - min (2 : UInt16).toNat 4) * 1 +
              [0, 1, 2].length - 1) / [0, 1, 2].length)) :=
  ⟨by decide, by decide, fill_order_independent_and_balanced (by decide) (by decide) 4 2 1 3 2⟩

end SubnetworksAssignations
