import Mathlib.Data.List.Nodup
import Mathlib.Data.List.Perm.Basic
import Mathlib.Data.Prod.Lex
import Mathlib.Data.List.Sort

/-!
# The cells of a grid, read by rows and by columns

A grid of `rows × cols` values `f i j` has one cell `((i, j), f i j)` for each
position. Read row by row, the cells come in increasing lexicographic order of
their positions; read column by column, they come in another order, but the
two readings are permutations of each other, since both hold each position
once. So sorting any permutation of the cells by position gives back the
reading by rows, whatever the sort does with equal keys: there are none.
-/

namespace Grid

variable {α : Type*}

/-- The cells read row by row. -/
def byRows (rows cols : ℕ) (f : ℕ → ℕ → α) : List ((ℕ × ℕ) × α) :=
  (List.range rows).flatMap fun i => (List.range cols).map fun j => ((i, j), f i j)

/-- The cells read column by column. -/
def byColumns (rows cols : ℕ) (f : ℕ → ℕ → α) : List ((ℕ × ℕ) × α) :=
  (List.range cols).flatMap fun j => (List.range rows).map fun i => ((i, j), f i j)

variable {rows cols : ℕ} {f : ℕ → ℕ → α}

theorem mem_byRows {e : (ℕ × ℕ) × α} :
    e ∈ byRows rows cols f ↔ ∃ i < rows, ∃ j < cols, e = ((i, j), f i j) := by
  simp only [byRows, List.mem_flatMap, List.mem_range, List.mem_map]
  constructor
  · rintro ⟨i, hi, j, hj, rfl⟩
    exact ⟨i, hi, j, hj, rfl⟩
  · rintro ⟨i, hi, j, hj, rfl⟩
    exact ⟨i, hi, j, hj, rfl⟩

theorem mem_byColumns {e : (ℕ × ℕ) × α} :
    e ∈ byColumns rows cols f ↔ ∃ i < rows, ∃ j < cols, e = ((i, j), f i j) := by
  simp only [byColumns, List.mem_flatMap, List.mem_range, List.mem_map]
  constructor
  · rintro ⟨j, hj, i, hi, rfl⟩
    exact ⟨i, hi, j, hj, rfl⟩
  · rintro ⟨i, hi, j, hj, rfl⟩
    exact ⟨j, hj, i, hi, rfl⟩

theorem nodup_byRows : (byRows rows cols f).Nodup := by
  refine List.nodup_flatMap.mpr ⟨fun i _ => ?_, ?_⟩
  · exact List.nodup_range.map fun j j' h => (Prod.mk.inj (Prod.mk.inj h).1).2
  · refine List.nodup_range.pairwise_of_forall_ne fun i _ i' _ hne => ?_
    simp only [Function.onFun, List.disjoint_left, List.mem_map]
    rintro _ ⟨j, -, rfl⟩ ⟨j', -, h⟩
    exact hne (Prod.mk.inj (Prod.mk.inj h).1).1.symm

theorem nodup_byColumns : (byColumns rows cols f).Nodup := by
  refine List.nodup_flatMap.mpr ⟨fun j _ => ?_, ?_⟩
  · exact List.nodup_range.map fun i i' h => (Prod.mk.inj (Prod.mk.inj h).1).1
  · refine List.nodup_range.pairwise_of_forall_ne fun j _ j' _ hne => ?_
    simp only [Function.onFun, List.disjoint_left, List.mem_map]
    rintro _ ⟨i, -, rfl⟩ ⟨i', -, h⟩
    exact hne (Prod.mk.inj (Prod.mk.inj h).1).2.symm

theorem byColumns_perm_byRows : (byColumns rows cols f).Perm (byRows rows cols f) :=
  (List.perm_ext_iff_of_nodup nodup_byColumns nodup_byRows).mpr fun _ => by
    rw [mem_byColumns, mem_byRows]

/-- The order cells are read in: lexicographic on positions, row first. -/
def Before (a b : (ℕ × ℕ) × α) : Prop := toLex a.1 < toLex b.1

theorem pairwise_byRows : (byRows rows cols f).Pairwise Before := by
  refine List.pairwise_flatMap.mpr ⟨fun i _ => ?_, ?_⟩
  · -- within a row, by column
    refine List.pairwise_map.mpr (List.pairwise_lt_range.imp fun hjj' => ?_)
    exact Prod.Lex.toLex_lt_toLex.mpr (Or.inr ⟨rfl, hjj'⟩)
  · -- across rows, by row
    refine List.pairwise_lt_range.imp fun hii' => ?_
    simp only [List.mem_map]
    rintro _ ⟨j, -, rfl⟩ _ ⟨j', -, rfl⟩
    exact Prod.Lex.toLex_lt_toLex.mpr (Or.inl hii')

/-- `Before` never holds both ways, so two lists ordered by it with the same
members are equal. -/
instance : Std.Antisymm (Before (α := α)) :=
  ⟨fun _ _ hab hba => absurd (hab.trans hba) (lt_irrefl _)⟩

/-- Sorting cells by position, as `sort_by_key` on `(row, column)` does. -/
def sortByPosition (cells : List ((ℕ × ℕ) × α)) : List ((ℕ × ℕ) × α) :=
  cells.mergeSort fun a b => decide (toLex a.1 ≤ toLex b.1)

theorem pairwise_sortByPosition (cells : List ((ℕ × ℕ) × α)) :
    (sortByPosition cells).Pairwise fun a b => toLex a.1 ≤ toLex b.1 := by
  have hsorted := @List.pairwise_mergeSort _ (fun a b => decide (toLex a.1 ≤ toLex b.1))
    (fun _ _ _ hab hbc => decide_eq_true (le_trans (of_decide_eq_true hab) (of_decide_eq_true hbc)))
    (fun a b => by simpa using le_total (toLex a.1) (toLex b.1)) cells
  exact hsorted.imp of_decide_eq_true

/-- Any permutation of a list of cells ordered by position, sorted by position,
is that list: its positions are distinct. -/
theorem sortByPosition_eq_of_perm {cells cells' : List ((ℕ × ℕ) × α)} (hperm : cells.Perm cells')
    (hordered : cells'.Pairwise Before) : sortByPosition cells = cells' := by
  have hperm' : (sortByPosition cells).Perm cells' := (List.mergeSort_perm cells _).trans hperm
  have hdistinct : (sortByPosition cells).Pairwise fun a b => a.1 ≠ b.1 :=
    List.pairwise_map.mp ((hperm'.map Prod.fst).nodup_iff.mpr
      (List.pairwise_map.mpr (hordered.imp fun h heq => ne_of_lt h (congrArg toLex heq))))
  have hstrict : (sortByPosition cells).Pairwise Before :=
    ((pairwise_sortByPosition cells).and hdistinct).imp fun ⟨hle, hne⟩ =>
      lt_of_le_of_ne hle fun heq => hne (toLex.injective heq)
  exact List.Perm.eq_of_pairwise' hstrict hordered hperm'

/-- Sorting the cells read by columns, or in any other order, by position reads
the grid by rows. -/
theorem sortByPosition_of_perm_byRows {cells : List ((ℕ × ℕ) × α)}
    (hperm : cells.Perm (byRows rows cols f)) : sortByPosition cells = byRows rows cols f :=
  sortByPosition_eq_of_perm hperm pairwise_byRows

/-- The cells of a grid read by rows, each turned into a list, joined. -/
theorem flatMap_byRows {β : Type*} (g : (ℕ × ℕ) × α → List β) :
    (byRows rows cols f).flatMap g =
      (List.range rows).flatMap fun i => (List.range cols).flatMap fun j => g ((i, j), f i j) := by
  simp only [byRows, List.flatMap_assoc, List.flatMap_map]

/-- Every list is the values at its indices. -/
theorem map_range_getD (l : List α) (d : α) : (List.range l.length).map (l.getD · d) = l :=
  List.ext_getElem (by simp) fun i _ hi => by simp [List.getElem?_eq_getElem hi]

/-- The grid of a matrix given by its rows, with `d` where a row has no value. -/
def ofRows (matrix : List (List α)) (d : α) (i j : ℕ) : α := (matrix.getD i []).getD j d

/-- A matrix whose rows all have `w` values, read as a grid by rows, is its rows
joined. -/
theorem flatMap_byRows_ofRows {β : Type*} {matrix : List (List α)} {w : ℕ} (d : α)
    (hrect : ∀ row ∈ matrix, row.length = w) (g : α → List β) :
    (byRows matrix.length w (ofRows matrix d)).flatMap (fun e => g e.2) =
      matrix.flatten.flatMap g := by
  have hrow : ∀ i ∈ List.range matrix.length,
      ((List.range w).flatMap fun j => g (ofRows matrix d i j)) = (matrix.getD i []).flatMap g := by
    intro i hi
    have hlength : (matrix.getD i []).length = w := by
      rw [List.getD_eq_getElem?_getD, List.getElem?_eq_getElem (List.mem_range.mp hi)]
      exact hrect _ (List.getElem_mem _)
    rw [← hlength]
    conv_rhs => rw [← map_range_getD (matrix.getD i []) d]
    rw [List.flatMap_map]
    rfl
  rw [flatMap_byRows, List.flatMap_congr hrow]
  calc (List.range matrix.length).flatMap (fun i => (matrix.getD i []).flatMap g)
      = ((List.range matrix.length).map (matrix.getD · [])).flatMap (fun row => row.flatMap g) :=
        (List.flatMap_map _ _ _).symm
    _ = matrix.flatMap (fun row => row.flatMap g) := by rw [map_range_getD]
    _ = matrix.flatten.flatMap g := by rw [← List.flatMap_id, List.flatMap_assoc]; rfl

/-- A value of a matrix at a position inside it is among its values. -/
theorem ofRows_mem_flatten {matrix : List (List α)} {w : ℕ} (d : α)
    (hrect : ∀ row ∈ matrix, row.length = w) {i j : ℕ} (hi : i < matrix.length) (hj : j < w) :
    ofRows matrix d i j ∈ matrix.flatten := by
  have hj' : j < matrix[i].length := (hrect _ (List.getElem_mem hi)).symm ▸ hj
  have hrow : matrix.getD i [] = matrix[i] := by
    rw [List.getD_eq_getElem?_getD, List.getElem?_eq_getElem hi, Option.getD_some]
  have hvalue : matrix[i].getD j d = matrix[i][j] := by
    rw [List.getD_eq_getElem?_getD, List.getElem?_eq_getElem hj', Option.getD_some]
  rw [ofRows, hrow, hvalue]
  exact List.mem_flatten.mpr ⟨_, List.getElem_mem hi, List.getElem_mem hj'⟩

/-- The values at the indices `0, …, n - 1`, each with its index. -/
theorem zipIdx_map_range {β : Type*} (g : ℕ → β) (n : ℕ) :
    ((List.range n).map g).zipIdx = (List.range n).map fun j => (g j, j) :=
  List.ext_getElem (by simp) fun j _ _ => by simp [List.getElem_zipIdx]

end Grid
