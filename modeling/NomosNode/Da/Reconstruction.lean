import NomosNode.Da.Encoder
import NomosNode.Lib.Grid

/-!
# Reconstructing the data from its shares

`nomos-da/kzgrs-backend/src/reconstruction.rs`: `reconstruct_without_missing_data`
sorts the chunks of the shares by `(row, share_idx)`, drops the padding byte of
each and joins them, without interpolating. Whatever the order of the shares
this reads the matrix by rows, so the shares of the columns of `chunkify(data)`,
or of the first half of the extended columns when the chunks are canonical,
give `data` back. With no column at all, `chunkify` panics.
-/

namespace KzgrsBackend

open Outcome Coeffs Kzgrs

section Reconstruct

variable {ε : Type} {F : Type}

/-- The chunks of one share's column, each with its position `(row, share_idx)`. -/
def columnCells (column : List Chunk) (shareIdx : UInt16) : List ((ℕ × ℕ) × Bytes) :=
  (column.map Chunk.bytes).zipIdx.map fun cell => ((cell.2, shareIdx.toNat), cell.1)

/-- `assert_eq!(data.len(), BYTES_PER_FIELD_ELEMENT)` and `data.pop()`: a chunk
without the byte it was padded with. -/
def popPadding (data : Bytes) : Outcome ε Bytes :=
  if data.length = bytesPerFieldElement then ok data.dropLast
  else .panic "assertion `left == right` failed"

/-- `reconstruct_without_missing_data`. The sort is `sort_unstable_by_key` on
`(row, share_idx)`, compared as Rust compares tuples; shares with distinct
indices give distinct keys, and then every sort gives the same list. -/
def reconstructWithoutMissingData (shares : List (DaShare F)) : Outcome ε Bytes := do
  let data := shares.flatMap fun share => columnCells share.column share.shareIdx
  let chunks ← (Grid.sortByPosition data).mapM fun cell => popPadding cell.2
  ok chunks.flatten

/-- The columns of a matrix with their indices as share indices, as
`test_reconstruct` builds its shares: `idx as ShareIndex`. -/
def columnShares (matrix : List (List Chunk)) : List (List Chunk × UInt16) :=
  (columns matrix).zipIdx.map fun column => (column.1, UInt16.ofNat column.2)

theorem columnCells_eq (column : List Chunk) (shareIdx : UInt16) :
    columnCells column shareIdx = (List.range column.length).map fun row =>
      ((row, shareIdx.toNat), (column.getD row Chunk.empty).bytes) :=
  List.ext_getElem (by simp [columnCells]) fun row _ hrow => by
    simp [columnCells, List.getElem_zipIdx, List.getD_eq_getElem?_getD,
      List.getElem?_eq_getElem (by simpa using hrow)]

/-- The columns of a nonempty matrix whose rows all have `w` chunks. -/
theorem columns_of_rect {matrix : List (List Chunk)} {w : ℕ} (hne : matrix ≠ [])
    (hrect : ∀ row ∈ matrix, row.length = w) :
    columns matrix = (List.range w).map fun j => matrix.map (·.getD j Chunk.empty) := by
  obtain ⟨first, rest, rfl⟩ := List.exists_cons_of_ne_nil hne
  rw [columns, List.head?_cons, Option.map_some, Option.getD_some,
    hrect first List.mem_cons_self]

theorem columnShares_of_rect {matrix : List (List Chunk)} {w : ℕ} (hne : matrix ≠ [])
    (hrect : ∀ row ∈ matrix, row.length = w) :
    columnShares matrix = (List.range w).map fun j =>
      (matrix.map (·.getD j Chunk.empty), UInt16.ofNat j) := by
  rw [columnShares, columns_of_rect hne hrect, Grid.zipIdx_map_range, List.map_map]
  rfl

/-- The chunks of the shares of the columns of a matrix of `w` columns are the
matrix's chunks read by columns, when every index fits a share index. -/
theorem flatMap_columnShares {matrix : List (List Chunk)} {w : ℕ}
    (hrect : ∀ row ∈ matrix, row.length = w) (hw : w ≤ UInt16.size) :
    (columnShares matrix).flatMap (fun share => columnCells share.1 share.2) =
      Grid.byColumns matrix.length w fun i j => (Grid.ofRows matrix Chunk.empty i j).bytes := by
  rcases eq_or_ne matrix [] with rfl | hne
  · simp [columnShares, columns, Grid.byColumns]
  rw [columnShares_of_rect hne hrect, List.flatMap_map, Grid.byColumns]
  refine List.flatMap_congr fun j hj => ?_
  have hindex : (UInt16.ofNat j).toNat = j :=
    UInt16.toNat_ofNat_of_lt' ((List.mem_range.mp hj).trans_le hw)
  rw [columnCells_eq, List.length_map, hindex]
  refine List.map_congr_left fun i hi => ?_
  simp [Grid.ofRows, List.getD_eq_getElem?_getD, List.getElem?_eq_getElem (List.mem_range.mp hi)]

/-- Reconstruction reads a matrix of padded chunks by rows, whatever the order
of the shares of its columns. -/
theorem reconstructWithoutMissingData_of_perm {matrix : List (List Chunk)} {w : ℕ}
    (hrect : ∀ row ∈ matrix, row.length = w) (hw : w ≤ UInt16.size)
    (hpadded : ∀ c ∈ matrix.flatten, c.bytes.length = bytesPerFieldElement)
    {shares : List (DaShare F)}
    (hshares : (shares.map fun share => (share.column, share.shareIdx)).Perm (columnShares matrix)) :
    (reconstructWithoutMissingData shares : Outcome ε Bytes) =
      ok (matrix.flatten.flatMap fun c => c.bytes.dropLast) := by
  set cell := fun i j => (Grid.ofRows matrix Chunk.empty i j).bytes
  have hcells : (shares.flatMap fun share => columnCells share.column share.shareIdx).Perm
      (Grid.byRows matrix.length w cell) := by
    have hmap : (shares.flatMap fun share => columnCells share.column share.shareIdx) =
        (shares.map fun share => (share.column, share.shareIdx)).flatMap
          fun share => columnCells share.1 share.2 := by
      rw [List.flatMap_map]
    rw [hmap]
    exact ((hshares.flatMap_right _).trans (List.Perm.of_eq (flatMap_columnShares hrect hw))).trans
      Grid.byColumns_perm_byRows
  have hpop : (Grid.byRows matrix.length w cell).mapM (fun cell => popPadding cell.2) =
      (ok ((Grid.byRows matrix.length w cell).map fun cell => cell.2.dropLast) : Outcome ε _) := by
    refine mapM_eq_ok_map fun e he => ?_
    obtain ⟨i, hi, j, hj, rfl⟩ := Grid.mem_byRows.mp he
    rw [popPadding, if_pos (hpadded _ (Grid.ofRows_mem_flatten Chunk.empty hrect hi hj))]
  rw [reconstructWithoutMissingData, bind_def, Grid.sortByPosition_of_perm_byRows hcells, hpop,
    ok_bind, ← List.flatMap_def]
  congr 1
  calc (Grid.byRows matrix.length w cell).flatMap (fun e => e.2.dropLast)
      = (Grid.byRows matrix.length w (Grid.ofRows matrix Chunk.empty)).flatMap
          (fun e => e.2.bytes.dropLast) := by rw [Grid.flatMap_byRows, Grid.flatMap_byRows]
    _ = matrix.flatten.flatMap fun c => c.bytes.dropLast :=
        Grid.flatMap_byRows_ofRows Chunk.empty hrect fun c => c.bytes.dropLast

end Reconstruct

/-- The first `w` columns of rows of `w` chunks, extended by the same chunks,
are the columns of the rows. -/
theorem columnShares_take_append {matrix : List (List Chunk)} {w : ℕ}
    (hrect : ∀ row ∈ matrix, row.length = w) (tail : List Chunk) :
    (columnShares (matrix.map (· ++ tail))).take w = columnShares matrix := by
  rcases eq_or_ne matrix [] with rfl | hne
  · simp [columnShares, columns]
  have hrect' : ∀ row ∈ matrix.map (· ++ tail), row.length = w + tail.length := by
    intro row hrow
    obtain ⟨r, hr, rfl⟩ := List.mem_map.mp hrow
    rw [List.length_append, hrect r hr]
  rw [columnShares_of_rect (by simpa using hne) hrect', columnShares_of_rect hne hrect,
    ← List.map_take, List.take_range, Nat.min_eq_left (Nat.le_add_right _ _)]
  refine List.map_congr_left fun j hj => ?_
  rw [List.map_map]
  congr 1
  refine List.map_congr_left fun r hr => ?_
  rw [Function.comp_apply, List.getD_eq_getElem?_getD, List.getD_eq_getElem?_getD,
    List.getElem?_append_left ((List.mem_range.mp hj).trans_eq (hrect r hr).symm)]

section Chunkify

variable {w : ℕ} {data : Bytes}

/-- The rows `chunkify` cuts from data whose length is a multiple of the row
size: `w` chunks of 31 bytes, each padded with a zero byte. -/
def paddedRows (w : ℕ) (data : Bytes) : List (List Chunk) :=
  (data.chunks (w * maxBls12381EncodingChunkSize)).map fun d =>
    (d.chunks maxBls12381EncodingChunkSize).map fun c => ⟨c ++ [0]⟩

/-- `chunkify` cuts data of whole rows into its padded rows. -/
theorem chunkify_eq_paddedRows {ε : Type} {params : DaEncoderParams}
    (hcolumns : 2 ≤ params.columnCount)
    (hdata : params.columnCount / 2 * maxBls12381EncodingChunkSize ∣ data.length) :
    (chunkify params data : Outcome ε _) = ok (paddedRows (params.columnCount / 2) data) :=
  chunkify_of_dvd hcolumns (Nat.mod_eq_zero_of_dvd ((Dvd.intro_left _ rfl).trans hdata))

variable (hw : 0 < w) (hdata : w * maxBls12381EncodingChunkSize ∣ data.length)
include hw hdata

theorem length_of_mem_paddedRows : ∀ row ∈ paddedRows w data, row.length = w := by
  intro row hrow
  obtain ⟨d, hd, rfl⟩ := List.mem_map.mp hrow
  obtain ⟨k, hk⟩ := hdata
  have hd : d.length = w * maxBls12381EncodingChunkSize :=
    List.length_of_mem_chunks (Nat.mul_pos hw (by decide)) k data (by rw [hk, Nat.mul_comm]) d hd
  rw [List.length_map, List.length_chunks (by decide) w d hd]

omit hdata in
/-- Every chunk of the rows is a chunk of 31 bytes of the data, padded. -/
theorem mem_flatten_paddedRows {c : Chunk} (hc : c ∈ (paddedRows w data).flatten) :
    ∃ b ∈ data.chunks maxBls12381EncodingChunkSize, c = ⟨b ++ [0]⟩ := by
  obtain ⟨row, hrow, hc⟩ := List.mem_flatten.mp hc
  obtain ⟨d, hd, rfl⟩ := List.mem_map.mp hrow
  obtain ⟨b, hb, rfl⟩ := List.mem_map.mp hc
  refine ⟨b, ?_, rfl⟩
  rw [← List.flatMap_chunks_chunks (Nat.mul_pos hw (by decide)) (by decide) (Dvd.intro_left _ rfl)]
  exact List.mem_flatMap.mpr ⟨d, hd, hb⟩

theorem bytes_of_mem_paddedRows {c : Chunk} (hc : c ∈ (paddedRows w data).flatten) :
    c.bytes.length = bytesPerFieldElement := by
  obtain ⟨b, hb, rfl⟩ := mem_flatten_paddedRows hw hc
  obtain ⟨k, hk⟩ := (Dvd.intro_left w rfl : maxBls12381EncodingChunkSize ∣ _).trans hdata
  rw [List.length_append, List.length_of_mem_chunks (by decide) k data (by rw [hk, Nat.mul_comm]) b hb]
  rfl

omit hdata in
/-- The rows, joined without their padding bytes, are the data. -/
theorem flatMap_paddedRows :
    (paddedRows w data).flatten.flatMap (fun c => c.bytes.dropLast) = data := by
  have hrow : ∀ d ∈ data.chunks (w * maxBls12381EncodingChunkSize),
      ((d.chunks maxBls12381EncodingChunkSize).map fun c => (⟨c ++ [0]⟩ : Chunk)).flatMap
        (fun c => c.bytes.dropLast) = d := by
    intro d _
    rw [List.flatMap_map]
    simp only [List.dropLast_concat]
    rw [List.flatMap_id', List.flatten_chunks (by decide)]
  rw [List.flatten_eq_flatMap, List.flatMap_assoc, paddedRows, List.flatMap_map]
  dsimp only [id]
  rw [List.flatMap_congr hrow, List.flatMap_id', List.flatten_chunks (Nat.mul_pos hw (by decide))]

end Chunkify

section Encoded

variable {ε : Type} {F : Type} [Field F] [DecidableEq F] (K : ScalarField F)

/-- With no column, `chunkify` cuts the data into chunks of no byte, and
`chunks(0)` panics: for `column_count = 0` and the empty data, a multiple of
`0` bytes, there are no shares to reconstruct from. -/
theorem chunkify_without_columns_panics :
    0 % 2 = 0 ∧ 0 / 2 * maxBls12381EncodingChunkSize ∣ ([] : Bytes).length ∧
      (chunkify ⟨0, ⟨2⟩⟩ [] : Outcome KzgRsError (List (List Chunk))) =
        .panic "chunk size must be non-zero" := by
  refine ⟨rfl, dvd_refl 0, ?_⟩
  simp [chunkify, sliceChunks]

/-- With canonical chunks, the extended rows of a successful `encode` are the
chunked rows, each followed by the same tail: the values at the other points of
the row domain, all zero. -/
theorem extendedData_of_canonical (hashCommitment : CommitmentHash F maxBls12381EncodingChunkSize)
    {params : DaEncoderParams} (hcolumns : 2 ≤ params.columnCount)
    (hindex : params.columnCount / 2 ≤ UInt16.size) {data : Bytes}
    (hdata : params.columnCount / 2 * maxBls12381EncodingChunkSize ∣ data.length)
    (hcanonical : ∀ b ∈ data.chunks maxBls12381EncodingChunkSize,
      K.toBytesLe (leNat (b ++ [0]) : F) = b ++ [0])
    {e : EncodedData F} (hencode : encodeData K hashCommitment params data = ok e) :
    ∃ padding : List Chunk,
      e.extendedData = (paddedRows (params.columnCount / 2) data).map (· ++ padding) := by
  set w := params.columnCount / 2 with hw_def
  have hw : 0 < w := by omega
  have hchunk : (chunkify params data : Outcome KzgRsError _) = ok (paddedRows w data) :=
    chunkify_eq_paddedRows hcolumns hdata
  have hrect := length_of_mem_paddedRows hw hdata
  obtain ⟨matrix, rowDomain, rows, hmatrix, hrowDomain, hrows, hextended⟩ :=
    extendedData_of_encodeData K hencode
  rw [hchunk, ok.injEq] at hmatrix
  subst hmatrix
  have hsize : w ≤ rowDomain.size :=
    (Nat.div_le_self _ _).trans (Domain.le_size_of_new hrowDomain (by simp [UInt16.size] at hindex; omega))
  have hrowPadded : ∀ r ∈ paddedRows w data, ∀ c ∈ r, c.bytes.length = bytesPerFieldElement :=
    fun r hr c hc => bytes_of_mem_paddedRows hw hdata (List.mem_flatten.mpr ⟨r, hr, hc⟩)
  have hbytes : ∀ r ∈ paddedRows w data, (asBytes r).length % bytesPerFieldElement = 0 := by
    intro r hr
    refine Nat.mod_eq_zero_of_dvd ?_
    rw [asBytes, List.length_flatMap]
    refine List.dvd_sum fun n hn => ?_
    obtain ⟨c, hc, rfl⟩ := List.mem_map.mp hn
    rw [hrowPadded r hr c hc]
  have hcanon : ∀ r ∈ paddedRows w data,
      r.map (fun c => (⟨K.toBytesLe (leNat c.bytes)⟩ : Chunk)) = r := by
    intro r hr
    refine (List.map_congr_left fun c hc => ?_).trans (List.map_id' r)
    obtain ⟨b, hb, rfl⟩ := mem_flatten_paddedRows hw (List.mem_flatten.mpr ⟨r, hr, hc⟩)
    rw [hcanonical b hb]
  refine ⟨List.replicate (rowDomain.size - w) ⟨K.toBytesLe 0⟩, ?_⟩
  rw [hextended, rowPolynomials_of_computeKzgRowCommitments hrows hbytes,
    evalsToChunkMatrix_rsEncodeRows K hrect hsize hrowPadded]
  exact List.map_congr_left fun r hr => by rw [hcanon r hr]

/-- Reconstruction undoes chunking, for at least two columns and at most as many
data columns as share indices. The shares of the columns of `chunkify(data)`,
share index the column index, in any order, give `data` back. So do the shares
of the first `column_count / 2` columns of the extended data of a successful
`encode`, when every chunk of 31 bytes of the data, padded, is the canonical
encoding of a field element, as for any data in the BLS12-381 scalar field. -/
theorem reconstruct_undoes_chunkify (hashCommitment : CommitmentHash F maxBls12381EncodingChunkSize)
    (params : DaEncoderParams) (hcolumns : 2 ≤ params.columnCount)
    (hindex : params.columnCount / 2 ≤ UInt16.size) {data : Bytes}
    (hdata : params.columnCount / 2 * maxBls12381EncodingChunkSize ∣ data.length) :
    (∃ matrix, (chunkify params data : Outcome KzgRsError _) = ok matrix ∧
      ∀ shares : List (DaShare F),
        (shares.map fun share => (share.column, share.shareIdx)).Perm (columnShares matrix) →
          (reconstructWithoutMissingData shares : Outcome ε Bytes) = ok data) ∧
    ((∀ b ∈ data.chunks maxBls12381EncodingChunkSize, K.toBytesLe (leNat (b ++ [0]) : F) = b ++ [0]) →
      ∀ e, encodeData K hashCommitment params data = ok e →
        ∀ shares : List (DaShare F),
          (shares.map fun share => (share.column, share.shareIdx)).Perm
              ((columnShares e.extendedData).take (params.columnCount / 2)) →
            (reconstructWithoutMissingData shares : Outcome ε Bytes) = ok data) := by
  set w := params.columnCount / 2 with hw_def
  have hw : 0 < w := by omega
  have hchunk : (chunkify params data : Outcome KzgRsError _) = ok (paddedRows w data) :=
    chunkify_eq_paddedRows hcolumns hdata
  have hrect := length_of_mem_paddedRows hw hdata
  have hpadded : ∀ c ∈ (paddedRows w data).flatten, c.bytes.length = bytesPerFieldElement :=
    fun _ hc => bytes_of_mem_paddedRows hw hdata hc
  have hread : ∀ shares : List (DaShare F),
      (shares.map fun share => (share.column, share.shareIdx)).Perm (columnShares (paddedRows w data)) →
        (reconstructWithoutMissingData shares : Outcome ε Bytes) = ok data := by
    intro shares hshares
    rw [reconstructWithoutMissingData_of_perm hrect hindex hpadded hshares, flatMap_paddedRows hw]
  refine ⟨⟨_, hchunk, hread⟩, fun hcanonical e hencode shares hshares => hread shares ?_⟩
  obtain ⟨padding, hextended⟩ :=
    extendedData_of_canonical K hashCommitment hcolumns hindex hdata hcanonical hencode
  rw [hextended, columnShares_take_append hrect] at hshares
  exact hshares

/-- Two rows of two data columns, 124 bytes counting up, in four columns: every
order of the data columns' shares gives the data back. Over the field of three
elements, where a code of two columns exists, so does the data column of the
extended data of one nonzero chunk. -/
theorem reconstruct_undoes_chunkify_two_rows :
    (∃ matrix, (chunkify ⟨4, ⟨2⟩⟩ ((List.range 124).map UInt8.ofNat) : Outcome KzgRsError _) =
        ok matrix ∧
      ∀ shares : List (DaShare (ZMod 3)),
        (shares.map fun share => (share.column, share.shareIdx)).Perm (columnShares matrix) →
          (reconstructWithoutMissingData shares : Outcome Unit Bytes) =
            ok ((List.range 124).map UInt8.ofNat)) ∧
    ∃ e, encodeData zmod3 zeroHash ⟨2, ⟨2⟩⟩ (2 :: List.replicate 30 0) = ok e ∧
      ∀ shares : List (DaShare (ZMod 3)),
        (shares.map fun share => (share.column, share.shareIdx)).Perm
            ((columnShares e.extendedData).take 1) →
          (reconstructWithoutMissingData shares : Outcome Unit Bytes) = ok (2 :: List.replicate 30 0) := by
  have hfour := reconstruct_undoes_chunkify (ε := Unit) zmod3 zeroHash ⟨4, ⟨2⟩⟩ (by decide)
    (by decide) (show 4 / 2 * maxBls12381EncodingChunkSize ∣ ((List.range 124).map UInt8.ofNat).length
      by simp only [List.length_map, List.length_range, maxBls12381EncodingChunkSize]; decide)
  have htwo := reconstruct_undoes_chunkify (ε := Unit) zmod3 zeroHash ⟨2, ⟨2⟩⟩ (by decide)
    (by decide) (show 2 / 2 * maxBls12381EncodingChunkSize ∣ (2 :: List.replicate 30 (0 : UInt8)).length
      by decide)
  have hcanonical : ∀ b ∈ (2 :: List.replicate 30 (0 : UInt8)).chunks maxBls12381EncodingChunkSize,
      zmod3.toBytesLe (leNat (b ++ [0]) : ZMod 3) = b ++ [0] := by
    rw [List.chunks_of_length_le (by decide) (by simp) (by simp [maxBls12381EncodingChunkSize])]
    simp only [List.mem_singleton, forall_eq]
    decide
  obtain ⟨_, -, _, _, -, -, hencode⟩ := encodeData_one_chunk zmod3 zeroHash (by decide)
    (show (⟨2, ⟨2⟩⟩ : DaEncoderParams).columnCount = 2 from rfl) (by decide)
    (show (2 :: List.replicate 30 (0 : UInt8)).length = maxBls12381EncodingChunkSize from rfl)
    (show (leNat ((2 :: List.replicate 30 (0 : UInt8)) ++ [0]) : ZMod 3) = 2 by decide)
  exact ⟨hfour.1, _, hencode, htwo.2 hcanonical _ hencode⟩

end Encoded

end KzgrsBackend
