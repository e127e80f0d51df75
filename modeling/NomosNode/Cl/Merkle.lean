import NomosNode.Lib.Bytes
import NomosNode.Lib.Outcome
import Mathlib.Logic.Function.Iterate
import Mathlib.Data.List.Induction

/-!
# Notes, nullifiers and Merkle roots

`nomos-core/cl/src/merkle.rs`: `padded_leaves` writes the leaf hashes into an
array of `N` zero digests, asserting each index is below `N`, and `root` then
overwrites, level by level, the first half of the array with the hashes of
consecutive pairs; `path` records the siblings of an index on a copy, and
`path_root` hashes a leaf up along a path. SHA-256 is a parameter. The in-place
loop of a level only overwrites entries below those it still reads, so after
`k` levels the first `2 ^ (L - k)` entries hold level `k`, and every path hashes
its leaf up to the root.
-/

namespace Cl

open Outcome

variable {ε : Type}

structure NoteCommitment where
  bytes : Bytes32
  deriving DecidableEq

structure Nullifier where
  bytes : Bytes32
  deriving DecidableEq

namespace Merkle

variable (sha256 : Bytes → Bytes32)

def leaf (data : Bytes) : Bytes32 := sha256 ("NOMOS_MERKLE_LEAF".toUTF8.toList ++ data)

def node (a b : Bytes32) : Bytes32 :=
  sha256 ("NOMOS_MERKLE_NODE".toUTF8.toList ++ a.toList ++ b.toList)

/-- The body of the loop of `padded_leaves`, at the element of index `i`. -/
def paddedLeavesStep (n : ℕ) (leaves : List Bytes32) : Bytes × ℕ → Outcome ε (List Bytes32)
  | (element, i) =>
    if i < n then ok (leaves.set i (leaf sha256 element))
    else .panic "assertion failed: i < N"

def paddedLeaves (n : ℕ) (elements : List Bytes) : Outcome ε (List Bytes32) :=
  elements.zipIdx.foldlM (paddedLeavesStep sha256 n) (List.replicate n Bytes32.zero)

def root (elements : List Bytes32) : Outcome ε Bytes32 :=
  let n := elements.length
  if n = 2 ^ n.log2 then
    let nodes := ((List.range n.log2).reverse.map (· + 1)).foldl
      (fun nodes h => (List.range (2 ^ (h - 1))).foldl
        (fun nodes i =>
          nodes.set i (node sha256 (nodes.getD (i * 2) Bytes32.zero)
            (nodes.getD (i * 2 + 1) Bytes32.zero)))
        nodes)
      elements
    ok (nodes.getD 0 Bytes32.zero)
  else .panic "assertion failed: n.is_power_of_two()"

/-- The inner loop of `root` and `path` at height `h`: the first `2 ^ (h - 1)`
entries are overwritten with the hashes of consecutive pairs. -/
def compressLevel (h : ℕ) (nodes : List Bytes32) : List Bytes32 :=
  (List.range (2 ^ (h - 1))).foldl
    (fun nodes i =>
      nodes.set i (node sha256 (nodes.getD (i * 2) Bytes32.zero)
        (nodes.getD (i * 2 + 1) Bytes32.zero)))
    nodes

/-- `PathNode`: the sibling hash, on the left or on the right. -/
inductive PathNode
  | left (siblingHash : Bytes32)
  | right (siblingHash : Bytes32)
  deriving DecidableEq

/-- One step of `path_root`. -/
def pathRootStep (computedHash : Bytes32) : PathNode → Bytes32
  | .left siblingHash => node sha256 siblingHash computedHash
  | .right siblingHash => node sha256 computedHash siblingHash

def pathRoot (leaf : Bytes32) (path : List PathNode) : Bytes32 :=
  path.foldl (pathRootStep sha256) leaf

/-- One level of `path`: record the sibling of the index, move the index to its
parent, and hash the level. -/
def pathStep : List Bytes32 × List PathNode × ℕ → ℕ → List Bytes32 × List PathNode × ℕ
  | (nodes, path, idx), h =>
    let path := if idx % 2 = 0 then path ++ [.right (nodes.getD (idx + 1) Bytes32.zero)]
      else path ++ [.left (nodes.getD (idx - 1) Bytes32.zero)]
    let idx := idx / 2
    (compressLevel sha256 h nodes, path, idx)

def path (leaves : List Bytes32) (idx : ℕ) : Outcome ε (List PathNode) :=
  let n := leaves.length
  if n = 2 ^ n.log2 then
    if idx < n then
      ok (((List.range n.log2).reverse.map (· + 1)).foldl (pathStep sha256) (leaves, [], idx)).2.1
    else .panic "assertion failed: idx < N"
  else .panic "assertion failed: N.is_power_of_two()"

/-- The level above: the hash of every pair of consecutive values. -/
def hashPairs (f : ℕ → Bytes32) (j : ℕ) : Bytes32 := node sha256 (f (2 * j)) (f (2 * j + 1))

/-- The levels of the tree over `N = 2 ^ L` leaves, as the in-place loop keeps
them: after `k` levels the array still has `N` entries, of which the first
`2 ^ (L - k)` hold level `k`. -/
def LevelsDone (leaves : List Bytes32) (k : ℕ) (nodes : List Bytes32) : Prop :=
  nodes.length = leaves.length ∧
    ∀ j < 2 ^ (leaves.length.log2 - k), nodes.getD j Bytes32.zero =
      (hashPairs sha256)^[k] (leaves.getD · Bytes32.zero) j

/-- The state of `path` after `k` levels, for the leaf of index `idx₀`: the
array is as in `root`, the index is `idx₀ / 2 ^ k`, and the `k` recorded
siblings hash the leaf up to its ancestor on level `k`. -/
def PathDone (leaves : List Bytes32) (idx₀ k : ℕ) (s : List Bytes32 × List PathNode × ℕ) :
    Prop :=
  LevelsDone sha256 leaves k s.1 ∧ s.2.2 = idx₀ / 2 ^ k ∧ s.2.1.length = k ∧
    pathRoot sha256 (leaves.getD idx₀ Bytes32.zero) s.2.1 =
      (hashPairs sha256)^[k] (leaves.getD · Bytes32.zero) (idx₀ / 2 ^ k)

variable {sha256}

theorem root_eq (elements : List Bytes32) :
    (root sha256 elements : Outcome ε Bytes32) =
      if elements.length = 2 ^ elements.length.log2 then
        ok ((((List.range elements.length.log2).reverse.map (· + 1)).foldl
          (fun nodes h => compressLevel sha256 h nodes) elements).getD 0 Bytes32.zero)
      else .panic "assertion failed: n.is_power_of_two()" := rfl

/-- The first `m` rounds of the inner loop: the entries below `m` hold the
hashes of their pairs, read before they were overwritten, and the others are
untouched. -/
theorem foldl_compress {nodes : List Bytes32} :
    ∀ m ≤ nodes.length,
      ((List.range m).foldl
          (fun nodes i =>
            nodes.set i (node sha256 (nodes.getD (i * 2) Bytes32.zero)
              (nodes.getD (i * 2 + 1) Bytes32.zero))) nodes).length = nodes.length ∧
        ∀ j, ((List.range m).foldl
          (fun nodes i =>
            nodes.set i (node sha256 (nodes.getD (i * 2) Bytes32.zero)
              (nodes.getD (i * 2 + 1) Bytes32.zero))) nodes).getD j Bytes32.zero =
          if j < m then hashPairs sha256 (nodes.getD · Bytes32.zero) j
          else nodes.getD j Bytes32.zero
  | 0, _ => ⟨rfl, fun j => by simp⟩
  | m + 1, hm => by
    obtain ⟨hlen, hget⟩ := foldl_compress m (Nat.le_of_succ_le hm)
    rw [List.range_succ, List.foldl_append, List.foldl_cons, List.foldl_nil]
    -- round `m` reads entries `2 m` and `2 m + 1`, which are not below `m`
    have hread : ∀ i, m ≤ i → ((List.range m).foldl
        (fun nodes i =>
          nodes.set i (node sha256 (nodes.getD (i * 2) Bytes32.zero)
            (nodes.getD (i * 2 + 1) Bytes32.zero))) nodes).getD i Bytes32.zero =
        nodes.getD i Bytes32.zero := fun i hi => by rw [hget, if_neg (by omega)]
    refine ⟨by rw [List.length_set, hlen], fun j => ?_⟩
    rw [List.getD_eq_getElem?_getD, List.getElem?_set, hlen, hread (m * 2) (by omega),
      hread (m * 2 + 1) (by omega)]
    by_cases hj : j = m
    · subst hj
      simp [hashPairs, Nat.mul_comm, show j < nodes.length by omega]
    · rw [if_neg (Ne.symm hj), ← List.getD_eq_getElem?_getD, hget]
      by_cases hjm : j < m
      · rw [if_pos hjm, if_pos (by omega)]
      · rw [if_neg hjm, if_neg (by omega)]

/-- A level at height `h` of an array of at least `2 ^ h` entries: the first
`2 ^ (h - 1)` entries become the level above, the others stay. -/
theorem compressLevel_getD {h : ℕ} {nodes : List Bytes32} (hh : 2 ^ h ≤ nodes.length) :
    (compressLevel sha256 h nodes).length = nodes.length ∧
      ∀ j < 2 ^ (h - 1), (compressLevel sha256 h nodes).getD j Bytes32.zero =
        hashPairs sha256 (nodes.getD · Bytes32.zero) j := by
  have hle : 2 ^ (h - 1) ≤ nodes.length :=
    (Nat.pow_le_pow_right (by decide) (Nat.sub_le h 1)).trans hh
  obtain ⟨hlen, hget⟩ := @foldl_compress sha256 _ _ hle
  exact ⟨hlen, fun j hj => by rw [compressLevel, hget, if_pos hj]⟩

/-- One level of the loop keeps `LevelsDone`. -/
theorem levelsDone_compress {leaves : List Bytes32}
    (hpow : leaves.length = 2 ^ leaves.length.log2) {k : ℕ} (hk : k < leaves.length.log2)
    {nodes : List Bytes32} (h : LevelsDone sha256 leaves k nodes) :
    LevelsDone sha256 leaves (k + 1)
      (compressLevel sha256 (leaves.length.log2 - k) nodes) := by
  obtain ⟨hlen, hget⟩ := h
  have hfit : 2 ^ (leaves.length.log2 - k) ≤ nodes.length := by
    rw [hlen, hpow, Nat.log2_two_pow]
    exact Nat.pow_le_pow_right (by decide) (Nat.sub_le _ k)
  obtain ⟨hlen', hget'⟩ := @compressLevel_getD sha256 _ _ hfit
  refine ⟨hlen'.trans hlen, fun j hj => ?_⟩
  have hj' : j < 2 ^ (leaves.length.log2 - k - 1) := by
    rw [Nat.sub_sub]
    exact hj
  have hpow' : 2 ^ (leaves.length.log2 - k) = 2 * 2 ^ (leaves.length.log2 - k - 1) := by
    obtain ⟨d, hd⟩ : ∃ d, leaves.length.log2 - k = d + 1 := ⟨leaves.length.log2 - k - 1, by omega⟩
    rw [hd, Nat.add_sub_cancel, Nat.pow_succ, Nat.mul_comm]
  rw [hget' j hj', Function.iterate_succ_apply', hashPairs, hashPairs,
    hget (2 * j) (by omega), hget (2 * j + 1) (by omega)]

/-- `root` of `2 ^ L` leaves is level `L` of the tree. -/
theorem root_of_pow {leaves : List Bytes32} (hpow : leaves.length = 2 ^ leaves.length.log2) :
    (root sha256 leaves : Outcome ε Bytes32) =
      ok ((hashPairs sha256)^[leaves.length.log2] (leaves.getD · Bytes32.zero) 0) := by
  have hdone := foldl_rev_range_induction (fun nodes h => compressLevel sha256 h nodes)
    (LevelsDone sha256 leaves) leaves.length.log2 leaves
    ⟨rfl, fun j _ => rfl⟩ fun k hk nodes h => levelsDone_compress hpow hk h
  rw [root_eq, if_pos hpow, hdone.2 0 (by simp)]

theorem pathRoot_append_singleton (leaf : Bytes32) (path : List PathNode) (pathNode : PathNode) :
    pathRoot sha256 leaf (path ++ [pathNode]) =
      pathRootStep sha256 (pathRoot sha256 leaf path) pathNode := by
  rw [pathRoot, List.foldl_append, List.foldl_cons, List.foldl_nil, ← pathRoot]

/-- One level of `path` keeps `PathDone`: the recorded sibling is the other
child of the index's parent, on the side the parity of the index says. -/
theorem pathDone_step {leaves : List Bytes32} (hpow : leaves.length = 2 ^ leaves.length.log2)
    {idx₀ : ℕ} (hidx : idx₀ < leaves.length) {k : ℕ} (hk : k < leaves.length.log2)
    {s : List Bytes32 × List PathNode × ℕ} (h : PathDone sha256 leaves idx₀ k s) :
    PathDone sha256 leaves idx₀ (k + 1) (pathStep sha256 s (leaves.length.log2 - k)) := by
  obtain ⟨nodes, path, idx⟩ := s
  obtain ⟨hlevels, hidx', hlen, hroot⟩ := h
  dsimp only at hidx' hlen hroot
  subst hidx'
  have hget := hlevels.2
  have hbelow : idx₀ / 2 ^ k < 2 * 2 ^ (leaves.length.log2 - k - 1) := by
    have hsplit : 2 ^ leaves.length.log2 = 2 ^ (leaves.length.log2 - k - 1) * 2 * 2 ^ k := by
      rw [← Nat.pow_succ, ← Nat.pow_add]
      congr 1
      omega
    rw [Nat.div_lt_iff_lt_mul (Nat.two_pow_pos k), Nat.mul_comm 2, ← hsplit, ← hpow]
    exact hidx
  have hlevel : 2 ^ (leaves.length.log2 - k) = 2 * 2 ^ (leaves.length.log2 - k - 1) := by
    obtain ⟨d, hd⟩ : ∃ d, leaves.length.log2 - k = d + 1 := ⟨leaves.length.log2 - k - 1, by omega⟩
    rw [hd, Nat.add_sub_cancel, Nat.pow_succ, Nat.mul_comm]
  refine ⟨levelsDone_compress hpow hk hlevels, ?_, ?_, ?_⟩
  · show idx₀ / 2 ^ k / 2 = idx₀ / 2 ^ (k + 1)
    rw [Nat.div_div_eq_div_mul, Nat.pow_succ]
  · show (if idx₀ / 2 ^ k % 2 = 0 then _ else _ : List PathNode).length = k + 1
    split <;> simp [hlen]
  · show pathRoot sha256 _ (if idx₀ / 2 ^ k % 2 = 0 then _ else _) = _
    rw [Function.iterate_succ_apply', Nat.pow_succ, ← Nat.div_div_eq_div_mul]
    split
    · rename_i heven
      rw [pathRoot_append_singleton, hroot, pathRootStep, hget _ (by omega), hashPairs,
        Nat.mul_div_cancel' (Nat.dvd_of_mod_eq_zero heven)]
    · rename_i hodd
      have hparent : 2 * (idx₀ / 2 ^ k / 2) = idx₀ / 2 ^ k - 1 := by omega
      rw [pathRoot_append_singleton, hroot, pathRootStep, hget _ (by omega), hashPairs, hparent,
        show idx₀ / 2 ^ k - 1 + 1 = idx₀ / 2 ^ k by omega]

/-- Merkle path soundness: for `N = 2 ^ L` leaves and every index below `N`,
`path` returns `L` siblings that hash the leaf up to `root`. -/
theorem pathRoot_path {leaves : List Bytes32} (hpow : leaves.length = 2 ^ leaves.length.log2)
    {idx : ℕ} (hidx : idx < leaves.length) :
    ∃ p, (path sha256 leaves idx : Outcome ε (List PathNode)) = ok p ∧
      p.length = leaves.length.log2 ∧
      (root sha256 leaves : Outcome ε Bytes32) = ok (pathRoot sha256 (leaves.getD idx Bytes32.zero) p) := by
  have hdone := foldl_rev_range_induction (pathStep sha256) (PathDone sha256 leaves idx)
    leaves.length.log2 (leaves, [], idx)
    ⟨⟨rfl, fun j _ => rfl⟩, by simp, rfl, by simp [pathRoot]⟩
    fun k hk s h => pathDone_step hpow hidx hk h
  obtain ⟨-, -, hlen, hroot⟩ := hdone
  have hzero : idx / 2 ^ leaves.length.log2 = 0 := Nat.div_eq_of_lt (hpow ▸ hidx)
  refine ⟨_, by rw [path, if_pos hpow, if_pos hidx], hlen, ?_⟩
  rw [root_of_pow hpow, hroot, hzero]

theorem paddedLeavesStep_of_lt {n i : ℕ} (h : i < n) (leaves : List Bytes32) (element : Bytes) :
    (paddedLeavesStep sha256 n leaves (element, i) : Outcome ε (List Bytes32)) =
      ok (leaves.set i (leaf sha256 element)) := if_pos h

theorem paddedLeavesStep_of_le {n i : ℕ} (h : n ≤ i) (leaves : List Bytes32) (element : Bytes) :
    (paddedLeavesStep sha256 n leaves (element, i) : Outcome ε (List Bytes32)) =
      .panic "assertion failed: i < N" := if_neg (Nat.not_lt.mpr h)

/-- The `padded_leaves` loop over indices below `N` writes every leaf and keeps
`N` entries. -/
theorem foldlM_paddedLeavesStep {n : ℕ} {elements : List (Bytes × ℕ)}
    (h : ∀ p ∈ elements, p.2 < n) {init : List Bytes32} (hinit : init.length = n) :
    ∃ leaves, (elements.foldlM (paddedLeavesStep sha256 n) init : Outcome ε (List Bytes32)) =
      ok leaves ∧ leaves.length = n := by
  have hstep : ∀ (leaves : List Bytes32) (p : Bytes × ℕ), leaves.length = n → p ∈ elements →
      (paddedLeavesStep sha256 n leaves p : Outcome ε (List Bytes32)) =
        ok (leaves.set p.2 (leaf sha256 p.1)) ∧ (leaves.set p.2 (leaf sha256 p.1)).length = n := by
    rintro leaves ⟨element, i⟩ hlen hmem
    exact ⟨paddedLeavesStep_of_lt (h _ hmem) leaves element, by rw [List.length_set, hlen]⟩
  exact ⟨_, foldlM_eq_ok_foldl (fun leaves : List Bytes32 => leaves.length = n) hstep hinit⟩

/-- Within `N`, `padded_leaves` is the leaf hashes of the elements followed by
zero digests. -/
theorem paddedLeaves_eq {n : ℕ} {elements : List Bytes} (h : elements.length ≤ n) :
    (paddedLeaves sha256 n elements : Outcome ε (List Bytes32)) =
      ok (elements.map (leaf sha256) ++ List.replicate (n - elements.length) Bytes32.zero) := by
  induction elements using List.reverseRec with
  | nil => simp [paddedLeaves]
  | append_singleton l x ih =>
    rw [List.length_append, List.length_singleton] at h
    have hset : (l.map (leaf sha256) ++ List.replicate (n - l.length) Bytes32.zero).set l.length
        (leaf sha256 x) =
        (l ++ [x]).map (leaf sha256) ++ List.replicate (n - (l ++ [x]).length) Bytes32.zero := by
      obtain ⟨m, hm⟩ : ∃ m, n - l.length = m + 1 := ⟨n - l.length - 1, by omega⟩
      rw [hm, List.set_append_right _ _ (by simp), List.length_map, Nat.sub_self,
        List.replicate_succ, List.set_cons_zero, List.map_append, List.map_singleton,
        List.length_append, List.length_singleton, List.append_assoc, List.singleton_append,
        show n - (l.length + 1) = m by omega]
    rw [paddedLeaves, List.zipIdx_append, List.foldlM_append, ← paddedLeaves, ih (by omega)]
    simp only [bind_def, ok_bind, Nat.zero_add, List.zipIdx_cons, List.zipIdx_nil,
      List.foldlM_cons, List.foldlM_nil, paddedLeavesStep_of_lt (show l.length < n by omega),
      hset, pure_def]

theorem paddedLeaves_ok {n : ℕ} {elements : List Bytes} (h : elements.length ≤ n) :
    ∃ leaves, (paddedLeaves sha256 n elements : Outcome ε (List Bytes32)) = ok leaves ∧
      leaves.length = n := by
  refine foldlM_paddedLeavesStep (fun p hp => ?_) List.length_replicate
  obtain ⟨i, hi⟩ := p
  have := (List.mem_zipIdx hp).2.1
  omega

/-- `padded_leaves` panics on more than `N` elements: at the element of index `N`. -/
theorem paddedLeaves_panic {n : ℕ} {elements : List Bytes} (h : n < elements.length) :
    (paddedLeaves sha256 n elements : Outcome ε (List Bytes32)) =
      panic "assertion failed: i < N" := by
  obtain ⟨e, rest, hdrop⟩ : ∃ e rest, elements.drop n = e :: rest :=
    List.exists_cons_of_ne_nil (by simp; omega)
  have hsplit : elements = elements.take n ++ e :: rest := by
    rw [← hdrop, List.take_append_drop]
  have htake : (elements.take n).length = n := List.length_take_of_le h.le
  have hbelow : ∀ p ∈ (elements.take n).zipIdx, p.2 < n := by
    rintro ⟨x, i⟩ hp
    have := (List.mem_zipIdx hp).2.1
    simp only [htake] at this
    omega
  obtain ⟨leaves, hleaves, -⟩ :=
    foldlM_paddedLeavesStep (ε := ε) hbelow (List.length_replicate (n := n) (a := Bytes32.zero))
  rw [paddedLeaves, hsplit, List.zipIdx_append, List.foldlM_append, hleaves, htake,
    List.zipIdx_cons]
  simp only [List.foldlM_cons, bind_def, ok_bind, Nat.zero_add,
    paddedLeavesStep_of_le (le_refl n), panic_bind]

/-- The path of an element of padded leaves, for `N` a power of two, leads
from the element's leaf hash to the root. -/
theorem pathRoot_paddedLeaves {n : ℕ} (hn : n = 2 ^ n.log2) {elements : List Bytes}
    (hlen : elements.length ≤ n) {idx : ℕ} (hidx : idx < elements.length) :
    ∃ leaves p, (paddedLeaves sha256 n elements : Outcome ε (List Bytes32)) = ok leaves ∧
      (path sha256 leaves idx : Outcome ε (List PathNode)) = ok p ∧ p.length = n.log2 ∧
      (root sha256 leaves : Outcome ε Bytes32) = ok (pathRoot sha256 (leaf sha256 elements[idx]) p) := by
  let leaves := elements.map (leaf sha256) ++ List.replicate (n - elements.length) Bytes32.zero
  have hllen : leaves.length = n := by
    simp only [leaves, List.length_append, List.length_map, List.length_replicate]
    omega
  obtain ⟨p, hp, hplen, hroot⟩ :=
    pathRoot_path (ε := ε) (show leaves.length = 2 ^ leaves.length.log2 by rw [hllen]; exact hn)
      (show idx < leaves.length by omega)
  have hget : leaves.getD idx Bytes32.zero = leaf sha256 elements[idx] := by
    rw [List.getD_eq_getElem?_getD, List.getElem?_append_left (by simpa using hidx),
      List.getElem?_map, List.getElem?_eq_getElem hidx]
    rfl
  exact ⟨leaves, p, paddedLeaves_eq hlen, hp, hllen ▸ hplen, hget ▸ hroot⟩

end Merkle

end Cl
