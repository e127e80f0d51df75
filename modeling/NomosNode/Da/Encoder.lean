import Mathlib.Algebra.Field.ZMod
import NomosNode.Da.Kzgrs

/-!
# The DA encoder

`nomos-da/kzgrs-backend/src/encoder.rs`: the data is cut into rows of
`column_count / 2` chunks of 31 bytes, each padded to a field element; every row
is interpolated over the row domain, committed, extended by `rs::encode` and
proved by FK20, and the columns and the hashes of their commitments are
committed and proved in turn. `chunkify` panics unless the length is a multiple
of 31, and since `ifft` pads a row with zeros, the extended row is the row
followed by zeros.
-/

namespace KzgrsBackend

open Outcome Coeffs Kzgrs

/-- `DaEncoderParams::MAX_BLS12_381_ENCODING_CHUNK_SIZE`. -/
def maxBls12381EncodingChunkSize : ℕ := 31

/-- `Chunk`: the bytes of one cell of the matrix. -/
structure Chunk where
  bytes : Bytes
  deriving DecidableEq

def Chunk.empty : Chunk := ⟨[]⟩

/-- `Row::as_bytes` and `Column::as_bytes`. -/
def asBytes (chunks : List Chunk) : Bytes := chunks.flatMap Chunk.bytes

/-- `ChunksMatrix::columns`: as many columns as the first row has chunks, with
the empty chunk where a shorter row has none. -/
def columns (matrix : List (List Chunk)) : List (List Chunk) :=
  let size := (matrix.head?.map List.length).getD 0
  (List.range size).map fun i => matrix.map fun row => row.getD i Chunk.empty

/-- `ChunksMatrix::transposed`. -/
def transposed (matrix : List (List Chunk)) : List (List Chunk) := columns matrix

section Chunkify

variable {ε : Type}

/-- `data.chunks(n)`, which panics on `0`. -/
def sliceChunks {α : Type} (n : ℕ) (data : List α) : Outcome ε (List (List α)) :=
  if n = 0 then .panic "chunk size must be non-zero" else ok (data.chunks n)

/-- The text of the panic of `copy_from_slice` when the lengths differ. -/
def copyFromSliceMessage (srcLen dstLen : ℕ) : String :=
  "copy_from_slice: source slice length (" ++ toString srcLen ++
    ") does not match destination slice length (" ++ toString dstLen ++ ")"

/-- `buff[..MAX_BLS12_381_ENCODING_CHUNK_SIZE].copy_from_slice(chunk)` on a
zeroed buffer of `BYTES_PER_FIELD_ELEMENT` bytes, and `Chunk::from` of it. -/
def toFieldChunk (chunk : Bytes) : Outcome ε Chunk :=
  if chunk.length = maxBls12381EncodingChunkSize then
    ok ⟨chunk ++ List.replicate (bytesPerFieldElement - maxBls12381EncodingChunkSize) 0⟩
  else .panic (copyFromSliceMessage chunk.length maxBls12381EncodingChunkSize)

/-- One row of `chunkify`: its chunks of 31 bytes, each made a field element. -/
def chunkRow (d : Bytes) : Outcome ε (List Chunk) := do
  let chunks ← sliceChunks maxBls12381EncodingChunkSize d
  chunks.mapM toFieldChunk

structure DaEncoderParams where
  columnCount : ℕ
  globalParameters : GlobalParameters

/-- `DaEncoder::chunkify`. -/
def chunkify (params : DaEncoderParams) (data : Bytes) : Outcome ε (List (List Chunk)) := do
  -- the rows hold half as many chunks as the extended rows will
  let chunkSize := params.columnCount / 2 * maxBls12381EncodingChunkSize
  let rows ← sliceChunks chunkSize data
  rows.mapM chunkRow

theorem chunkRow_of_dvd {d : Bytes} (h : d.length % maxBls12381EncodingChunkSize = 0) :
    (chunkRow d : Outcome ε _) =
      ok ((d.chunks maxBls12381EncodingChunkSize).map fun c => ⟨c ++ [0]⟩) := by
  have hlengths := List.length_of_mem_chunks (by decide : 0 < maxBls12381EncodingChunkSize)
    (d.length / maxBls12381EncodingChunkSize) d (Nat.div_mul_cancel (Nat.dvd_of_mod_eq_zero h)).symm
  rw [chunkRow, sliceChunks, if_neg (by decide), bind_def, ok_bind]
  exact mapM_eq_ok_map fun c hc => by rw [toFieldChunk, if_pos (hlengths c hc)]; rfl

/-- A row whose length is not a multiple of 31 ends with a short chunk, on which
`copy_from_slice` panics. -/
theorem chunkRow_of_not_dvd {d : Bytes} (h : d.length % maxBls12381EncodingChunkSize ≠ 0) :
    (chunkRow d : Outcome ε _) = .panic (copyFromSliceMessage
      (d.length % maxBls12381EncodingChunkSize) maxBls12381EncodingChunkSize) := by
  have hpos : 0 < maxBls12381EncodingChunkSize := by decide
  obtain ⟨-, hpre, hpost⟩ := List.eq_append_rest (n := maxBls12381EncodingChunkSize) d
  rw [chunkRow, sliceChunks, if_neg (by decide), bind_def, ok_bind,
    List.chunks_eq_append_rest hpos h]
  refine mapM_append_singleton_panic (fun c hc => ⟨⟨c ++ [0]⟩, ?_⟩) ?_
  · rw [toFieldChunk, if_pos (List.length_of_mem_chunks hpos _ _ hpre c hc)]
    rfl
  · rw [toFieldChunk, hpost, if_neg (Nat.ne_of_lt (Nat.mod_lt _ hpos))]

/-- On data whose length is a multiple of 31, `chunkify` cuts rows of
`column_count / 2` chunks and pads every chunk with a zero byte. -/
theorem chunkify_of_dvd {params : DaEncoderParams} {data : Bytes}
    (hcolumns : 2 ≤ params.columnCount) (h : data.length % maxBls12381EncodingChunkSize = 0) :
    (chunkify params data : Outcome ε _) =
      ok ((data.chunks (params.columnCount / 2 * maxBls12381EncodingChunkSize)).map fun d =>
        (d.chunks maxBls12381EncodingChunkSize).map fun c => ⟨c ++ [0]⟩) := by
  have hpos : 0 < params.columnCount / 2 * maxBls12381EncodingChunkSize :=
    Nat.mul_pos (by omega) (by decide)
  rw [chunkify, sliceChunks, if_neg hpos.ne', bind_def, ok_bind]
  exact mapM_eq_ok_map fun d hd => chunkRow_of_dvd (Nat.mod_eq_zero_of_dvd
    (List.dvd_length_of_mem_chunks hpos (Dvd.intro_left _ rfl) (Nat.dvd_of_mod_eq_zero h) d hd))

/-- `chunkify` panics on data whose length is not a multiple of 31: the last
row ends with a chunk of `data.len() % 31` bytes. -/
theorem chunkify_of_not_dvd {params : DaEncoderParams} {data : Bytes}
    (hcolumns : 2 ≤ params.columnCount) (h : data.length % maxBls12381EncodingChunkSize ≠ 0) :
    (chunkify params data : Outcome ε _) = .panic (copyFromSliceMessage
      (data.length % maxBls12381EncodingChunkSize) maxBls12381EncodingChunkSize) := by
  set chunkSize := params.columnCount / 2 * maxBls12381EncodingChunkSize with hchunkSize
  have hpos : 0 < chunkSize := Nat.mul_pos (by omega) (by decide)
  have hdvd : maxBls12381EncodingChunkSize ∣ chunkSize := Dvd.intro_left _ rfl
  have hrows : data.length % chunkSize ≠ 0 := fun h0 =>
    h (Nat.mod_eq_zero_of_dvd (hdvd.trans (Nat.dvd_of_mod_eq_zero h0)))
  obtain ⟨-, hpre, hpost⟩ := List.eq_append_rest (n := chunkSize) data
  have hlast : (data.drop (data.length / chunkSize * chunkSize)).length %
      maxBls12381EncodingChunkSize = data.length % maxBls12381EncodingChunkSize := by
    rw [hpost, Nat.mod_mod_of_dvd _ hdvd]
  rw [chunkify, sliceChunks, if_neg (by omega), bind_def, ok_bind,
    List.chunks_eq_append_rest hpos hrows]
  refine mapM_append_singleton_panic (fun d hd => ⟨_, chunkRow_of_dvd ?_⟩) ?_
  · rw [List.length_of_mem_chunks hpos _ _ hpre d hd]
    exact Nat.dvd_iff_mod_eq_zero.mp hdvd
  · rw [chunkRow_of_not_dvd (by rwa [hlast]), hlast]

end Chunkify

section Encode

variable {F : Type} [Field F] [DecidableEq F] (K : ScalarField F)

/-- `hash_commitment::<HASH_SIZE>`: a Blake2b digest of `HASH_SIZE` bytes of the
serialized commitment. -/
structure CommitmentHash (F : Type) (hashSize : ℕ) where
  hash : Commitment F → Bytes
  length_hash : ∀ c, (hash c).length = hashSize

/-- `compute_kzg_row_commitments`: every row interpolated over the domain from
its 32-byte field elements, and committed. -/
def computeKzgRowCommitments (globalParameters : GlobalParameters) (matrix : List (List Chunk))
    (polynomialEvaluationDomain : Domain F) :
    Outcome KzgRsError (List ((Evaluations F × List F) × Commitment F)) :=
  matrix.mapM fun r => do
    let (evals, poly) ← bytesToPolynomialUnchecked bytesPerFieldElement (asBytes r)
      polynomialEvaluationDomain
    let commitment ← commitPolynomial globalParameters poly
    ok ((evals, poly), commitment)

/-- `rs_encode_row`. -/
def rsEncodeRow (row : List F) (polynomialEvaluationDomain : Domain F) : Evaluations F :=
  encode row polynomialEvaluationDomain

/-- `rs_encode_rows`. -/
def rsEncodeRows (rows : List (List F)) (polynomialEvaluationDomain : Domain F) :
    List (Evaluations F) :=
  rows.map fun poly => rsEncodeRow poly polynomialEvaluationDomain

/-- `compute_rows_proofs`. -/
def computeRowsProofs {ε : Type} (polynomials : List (List F)) :
    Outcome ε (List (List (Proof F))) :=
  polynomials.mapM (fk20BatchGenerateElementsProofs K)

/-- `compute_kzg_column_commitments`: the row commitments of the transposed
matrix. -/
def computeKzgColumnCommitments (globalParameters : GlobalParameters)
    (matrix : List (List Chunk)) (polynomialEvaluationDomain : Domain F) :
    Outcome KzgRsError (List ((Evaluations F × List F) × Commitment F)) :=
  computeKzgRowCommitments globalParameters (transposed matrix) polynomialEvaluationDomain

/-- `compute_aggregated_column_commitment`: the 31-byte hashes of the column
commitments, interpolated over the row domain and committed. -/
def computeAggregatedColumnCommitment
    (hashCommitment : CommitmentHash F maxBls12381EncodingChunkSize)
    (globalParameters : GlobalParameters) (commitments : List (Commitment F))
    (polynomialEvaluationDomain : Domain F) :
    Outcome KzgRsError ((Evaluations F × List F) × Commitment F) := do
  let hashes := commitments.flatMap hashCommitment.hash
  let (evals, poly) ← bytesToPolynomial maxBls12381EncodingChunkSize hashes
    polynomialEvaluationDomain
  let commitment ← commitPolynomial globalParameters poly
  ok ((evals, poly), commitment)

/-- `compute_aggregated_column_proofs`. -/
def computeAggregatedColumnProofs {ε : Type} (polynomial : List F) : Outcome ε (List (Proof F)) :=
  fk20BatchGenerateElementsProofs K polynomial

/-- `evals_to_chunk_matrix`: every value as the bytes of its representative. -/
def evalsToChunkMatrix (evals : List (Evaluations F)) : List (List Chunk) :=
  evals.map fun eval => eval.evals.map fun point => ⟨K.toBytesLe point⟩

/-- `EncodedData`. -/
structure EncodedData (F : Type) where
  data : Bytes
  chunkedData : List (List Chunk)
  extendedData : List (List Chunk)
  rowCommitments : List (Commitment F)
  rowsProofs : List (List (Proof F))
  columnCommitments : List (Commitment F)
  aggregatedColumnCommitment : Commitment F
  aggregatedColumnProofs : List (Proof F)

/-- `DaEncoder::encode`. -/
def encodeData (hashCommitment : CommitmentHash F maxBls12381EncodingChunkSize)
    (params : DaEncoderParams) (data : Bytes) : Outcome KzgRsError (EncodedData F) := do
  let globalParameters := params.globalParameters
  let chunkedData ← chunkify params data
  let rowDomain ← expect (Domain.new K params.columnCount) "Domain should be able to build"
  let columnDomain ← expect (Domain.new K chunkedData.length) "Domain should be able to build"
  let rows ← computeKzgRowCommitments globalParameters chunkedData rowDomain
  let rowPolynomials := rows.map fun row => row.1.2
  let rowCommitments := rows.map Prod.snd
  let encodedEvaluations := rsEncodeRows rowPolynomials rowDomain
  let extendedData := evalsToChunkMatrix K encodedEvaluations
  let rowsProofs ← computeRowsProofs K rowPolynomials
  let columns ← computeKzgColumnCommitments globalParameters extendedData columnDomain
  let columnCommitments := columns.map Prod.snd
  let ((_, aggregatedPolynomial), aggregatedColumnCommitment) ←
    computeAggregatedColumnCommitment hashCommitment globalParameters columnCommitments rowDomain
  let aggregatedColumnProofs ← computeAggregatedColumnProofs K aggregatedPolynomial
  ok ⟨data, chunkedData, extendedData, rowCommitments, rowsProofs, columnCommitments,
    aggregatedColumnCommitment, aggregatedColumnProofs⟩

/-- `DaShare`: one column of the extended matrix with what checks it. -/
structure DaShare (F : Type) where
  column : List Chunk
  shareIdx : UInt16
  columnCommitment : Commitment F
  aggregatedColumnCommitment : Commitment F
  aggregatedColumnProof : Proof F
  rowsCommitments : List (Commitment F)
  rowsProofs : List (Proof F)

/-- `EncodedData::to_da_share`: `None` past the last column; the fields are
built in order, and each index into the commitments and proofs panics where
the entry is missing. -/
def EncodedData.toDaShare {ε : Type} (e : EncodedData F) (index : ℕ) :
    Outcome ε (Option (DaShare F)) :=
  match (columns e.extendedData)[index]? with
  | none => ok none
  | some column => do
    -- `index.try_into().unwrap()` into the `u16` of a `ShareIndex`
    let shareIdx ← if index < UInt16.size then ok (UInt16.ofNat index)
      else .panic "called `Result::unwrap()` on an `Err` value: TryFromIntError(())"
    let columnCommitment ← getIndex e.columnCommitments index
    let aggregatedColumnProof ← getIndex e.aggregatedColumnProofs index
    let rowsProofs ← e.rowsProofs.mapM fun proofs => unwrap proofs[index]?
    ok (some ⟨column, shareIdx, columnCommitment, e.aggregatedColumnCommitment,
      aggregatedColumnProof, e.rowCommitments, rowsProofs⟩)

/-- The values `bytes_to_evaluations` reads from a row of whole field
elements. -/
def rowEvaluations (r : List Chunk) (domain : Domain F) : Evaluations F :=
  ⟨((asBytes r).chunks bytesPerFieldElement).map fun b => (leNat b : F), domain⟩

omit [DecidableEq F] in
/-- A row of one chunk holding the bytes of `x` reads as `x`. -/
theorem rowEvaluations_singleton (x : F) (domain : Domain F) :
    rowEvaluations [⟨K.toBytesLe x⟩] domain = ⟨[x], domain⟩ := by
  have hbytes : asBytes [⟨K.toBytesLe x⟩] = K.toBytesLe x := List.append_nil _
  rw [rowEvaluations, hbytes, List.chunks_of_length_le (by decide)
    (List.ne_nil_of_length_pos (by rw [K.length_toBytesLe]; decide)) (K.length_toBytesLe x).le,
    List.map_singleton, K.leNat_toBytesLe]

/-- A matrix whose rows hold whole field elements is committed row by row, as
long as the parameters have a power for every coefficient the domain allows. -/
theorem computeKzgRowCommitments_of_dvd {globalParameters : GlobalParameters}
    {matrix : List (List Chunk)} {domain : Domain F}
    (hbytes : ∀ r ∈ matrix, (asBytes r).length % bytesPerFieldElement = 0)
    (hpowers : max domain.size 1 ≤ globalParameters.numPowers) :
    computeKzgRowCommitments globalParameters matrix domain =
      ok (matrix.map fun r => ((rowEvaluations r domain, (rowEvaluations r domain).interpolate),
        ⟨(rowEvaluations r domain).interpolate⟩)) := by
  refine mapM_eq_ok_map fun r hr => ?_
  have hcommit : commitPolynomial globalParameters (rowEvaluations r domain).interpolate = ok _ :=
    commitPolynomial_of_le
      ((max_le_max_right 1 (rowEvaluations r domain).length_interpolate_le).trans hpowers)
  rw [bind_def, bytesToPolynomialUnchecked_of_dvd domain (by decide) le_rfl (hbytes r hr), ok_bind]
  simp only [rowEvaluations, bind_def] at hcommit ⊢
  rw [hcommit, ok_bind]

/-- The values `compute_aggregated_column_commitment` interpolates: the hash of
every column commitment, read as a field element. -/
def columnHashEvaluations (hashCommitment : CommitmentHash F maxBls12381EncodingChunkSize)
    (commitments : List (Commitment F)) (domain : Domain F) : Evaluations F :=
  ⟨commitments.map fun c => (leNat (hashCommitment.hash c) : F), domain⟩

/-- The aggregated column commitment always builds when the parameters have a
power for every coefficient the row domain allows: the hashes are whole chunks
of 31 bytes, one for each column. -/
theorem computeAggregatedColumnCommitment_of_le
    (hashCommitment : CommitmentHash F maxBls12381EncodingChunkSize)
    (globalParameters : GlobalParameters) (commitments : List (Commitment F)) (domain : Domain F)
    (hpowers : max domain.size 1 ≤ globalParameters.numPowers) :
    computeAggregatedColumnCommitment hashCommitment globalParameters commitments domain =
      ok ((columnHashEvaluations hashCommitment commitments domain,
        (columnHashEvaluations hashCommitment commitments domain).interpolate),
        ⟨(columnHashEvaluations hashCommitment commitments domain).interpolate⟩) := by
  have hdvd : (commitments.flatMap hashCommitment.hash).length %
      maxBls12381EncodingChunkSize = 0 := by
    simp [List.length_flatMap, hashCommitment.length_hash]
  have hchunks : (commitments.flatMap hashCommitment.hash).chunks maxBls12381EncodingChunkSize =
      commitments.map hashCommitment.hash :=
    List.chunks_flatMap (by decide) _ commitments fun c _ => hashCommitment.length_hash c
  rw [computeAggregatedColumnCommitment, bind_def, bytesToPolynomial_of_dvd domain (by decide) hdvd,
    bytesToPolynomialUnchecked_of_dvd domain (by decide) (by decide) hdvd, ok_bind, hchunks,
    List.map_map]
  simp only [bind_def]
  rw [commitPolynomial_of_le ((max_le_max_right 1 (Evaluations.length_interpolate_le _)).trans
    hpowers), ok_bind]
  rfl

omit [Field F] [DecidableEq F] in
/-- Past the last column there is no share. -/
theorem toDaShare_of_le {ε : Type} {e : EncodedData F} {index : ℕ}
    (h : (columns e.extendedData).length ≤ index) :
    (e.toDaShare index : Outcome ε _) = ok none := by
  rw [EncodedData.toDaShare, List.getElem?_eq_none h]

omit [Field F] [DecidableEq F] in
/-- A share is built when its column, its index, its column commitment, its
aggregated proof and a proof in every row exist. -/
theorem toDaShare_of_lt {ε : Type} {e : EncodedData F} {index : ℕ}
    (hcolumn : index < (columns e.extendedData).length) (hindex : index < UInt16.size)
    (hcommitment : index < e.columnCommitments.length)
    (haggregated : index < e.aggregatedColumnProofs.length)
    (hrows : ∀ proofs ∈ e.rowsProofs, index < proofs.length) :
    ∃ share, (e.toDaShare index : Outcome ε _) = ok (some share) := by
  obtain ⟨rowsProofs, hrowsProofs⟩ := mapM_ok (ε := ε)
    (f := fun proofs : List (Proof F) => unwrap proofs[index]?) fun proofs hproofs =>
      ⟨_, by rw [List.getElem?_eq_getElem (hrows proofs hproofs), unwrap_some]⟩
  rw [EncodedData.toDaShare, List.getElem?_eq_getElem hcolumn]
  simp only [if_pos hindex, bind_def, ok_bind, getIndex_of_lt hcommitment,
    getIndex_of_lt haggregated, hrowsProofs]
  exact ⟨_, rfl⟩

omit [Field F] [DecidableEq F] in
/-- A share whose column exists panics when a row has no proof at its index:
`proofs.get(index).copied().unwrap()`. -/
theorem toDaShare_of_short_row_proofs {ε : Type} {e : EncodedData F} {index : ℕ}
    (hcolumn : index < (columns e.extendedData).length) (hindex : index < UInt16.size)
    {proofs : List (Proof F)} (hproofs : proofs ∈ e.rowsProofs) (hshort : proofs.length ≤ index) :
    ∃ m, (e.toDaShare index : Outcome ε _) = .panic m := by
  rw [EncodedData.toDaShare, List.getElem?_eq_getElem hcolumn]
  simp only [if_pos hindex, bind_def, ok_bind]
  by_cases hc : index < e.columnCommitments.length
  · rw [getIndex_of_lt hc, ok_bind]
    by_cases ha : index < e.aggregatedColumnProofs.length
    · rw [getIndex_of_lt ha, ok_bind]
      obtain ⟨m, hm⟩ := mapM_panic_of_mem (f := fun proofs => unwrap proofs[index]?)
        (fun p _ => expect_eq_ok_or_panic p[index]? _) hproofs
        ⟨_, by rw [List.getElem?_eq_none hshort]; rfl⟩
      exact ⟨m, by rw [hm, panic_bind]⟩
    · obtain ⟨m, hm⟩ := getIndex_of_length_le (ε := ε) (not_lt.mp ha)
      exact ⟨m, by rw [hm, panic_bind]⟩
  · obtain ⟨m, hm⟩ := getIndex_of_length_le (ε := ε) (not_lt.mp hc)
    exact ⟨m, by rw [hm, panic_bind]⟩

/-- What a successful `encode` extends: the rows of `chunkify`, interpolated over
the row domain and evaluated back by `rs_encode_rows`. -/
theorem extendedData_of_encodeData {hashCommitment : CommitmentHash F maxBls12381EncodingChunkSize}
    {params : DaEncoderParams} {data : Bytes} {e : EncodedData F}
    (hencode : encodeData K hashCommitment params data = ok e) :
    ∃ matrix rowDomain rows, (chunkify params data : Outcome KzgRsError _) = ok matrix ∧
      Domain.new K params.columnCount = some rowDomain ∧
      computeKzgRowCommitments params.globalParameters matrix rowDomain = ok rows ∧
      e.extendedData = evalsToChunkMatrix K (rsEncodeRows (rows.map fun row => row.1.2) rowDomain) := by
  simp only [encodeData, bind_def, bind_eq_ok] at hencode
  obtain ⟨matrix, hchunk, rowDomain, hrowDomain, _, -, rows, hrows, _, -, _, -, _, -, _, -, he⟩ :=
    hencode
  refine ⟨matrix, rowDomain, rows, hchunk, eq_some_of_expect_eq_ok hrowDomain, hrows, ?_⟩
  rw [ok.injEq] at he
  rw [← he]

/-- The polynomials a successful `compute_kzg_row_commitments` commits: the
values of each row, interpolated. -/
theorem rowPolynomials_of_computeKzgRowCommitments {globalParameters : GlobalParameters}
    {matrix : List (List Chunk)} {domain : Domain F}
    {rows : List ((Evaluations F × List F) × Commitment F)}
    (hrows : computeKzgRowCommitments globalParameters matrix domain = ok rows)
    (hbytes : ∀ r ∈ matrix, (asBytes r).length % bytesPerFieldElement = 0) :
    rows.map (fun row => row.1.2) = matrix.map fun r => (rowEvaluations r domain).interpolate := by
  refine map_of_mapM_eq_ok hrows fun r hr row hrow => ?_
  rw [bind_def, bytesToPolynomialUnchecked_of_dvd domain (by decide) le_rfl (hbytes r hr),
    ok_bind] at hrow
  simp only [bind_def, bind_eq_ok] at hrow
  obtain ⟨commitment, -, hrow⟩ := hrow
  rw [ok.injEq] at hrow
  rw [← hrow]
  rfl

/-- A row of whole field elements, interpolated over a domain of at least as
many points and evaluated back, becomes its values, then zeros, each written
as the bytes of its representative. -/
theorem evalsToChunkMatrix_rsEncodeRows {matrix : List (List Chunk)} {domain : Domain F} {w : ℕ}
    (hrect : ∀ r ∈ matrix, r.length = w) (hw : w ≤ domain.size)
    (hpadded : ∀ r ∈ matrix, ∀ c ∈ r, c.bytes.length = bytesPerFieldElement) :
    evalsToChunkMatrix K (rsEncodeRows (matrix.map fun r => (rowEvaluations r domain).interpolate)
        domain) =
      matrix.map fun r => r.map (fun c => ⟨K.toBytesLe (leNat c.bytes)⟩) ++
        List.replicate (domain.size - w) ⟨K.toBytesLe 0⟩ := by
  simp only [evalsToChunkMatrix, rsEncodeRows, List.map_map]
  refine List.map_congr_left fun r hr => ?_
  have hvalues : (rowEvaluations r domain).evals = r.map fun c => (leNat c.bytes : F) := by
    rw [rowEvaluations, asBytes, List.chunks_flatMap (by decide) _ r (hpadded r hr), List.map_map]
    rfl
  have hlength : (r.map fun c => (leNat c.bytes : F)).length ≤ domain.size := by
    rw [List.length_map, hrect r hr]
    exact hw
  have hencode := encode_interpolate domain _ hlength
  rw [← hvalues] at hencode
  simp only [Function.comp_apply, rsEncodeRow]
  rw [show (rowEvaluations r domain) = ⟨(rowEvaluations r domain).evals, domain⟩ from rfl, hencode,
    hvalues, List.map_append, List.map_map, List.map_replicate, List.length_map, hrect r hr]
  rfl

/-- Encoding one chunk of 31 bytes over two columns: one row holding the
chunk's value `x`, extended to `x` and `0`; two columns, committed as the
constant `x` and as the empty polynomial; and FK20 proofs of the row and of the
aggregated column polynomial, as many as the domain built from their numbers of
coefficients. -/
theorem encodeData_one_chunk (hashCommitment : CommitmentHash F maxBls12381EncodingChunkSize)
    {params : DaEncoderParams} (htwoAdicity : 1 ≤ K.twoAdicity) (hcolumns : params.columnCount = 2)
    (hpowers : 2 ≤ params.globalParameters.numPowers) {data : Bytes}
    (hlength : data.length = maxBls12381EncodingChunkSize) {x : F}
    (hx : (leNat (data ++ [0]) : F) = x) :
    ∃ rowDomain : Domain F, rowDomain.size = 2 ∧ ∃ rowProofs aggregatedProofs : List (Proof F),
      rowProofs.length = 2 ^ Nat.clog 2 (Evaluations.interpolate ⟨[x], rowDomain⟩).length ∧
      aggregatedProofs.length = 2 ^ Nat.clog 2
        (columnHashEvaluations hashCommitment [⟨trim [x]⟩, ⟨[]⟩] rowDomain).interpolate.length ∧
      encodeData K hashCommitment params data = ok ⟨data, [[⟨data ++ [0]⟩]],
        [[⟨K.toBytesLe x⟩, ⟨K.toBytesLe 0⟩]], [⟨Evaluations.interpolate ⟨[x], rowDomain⟩⟩],
        [rowProofs], [⟨trim [x]⟩, ⟨[]⟩],
        ⟨(columnHashEvaluations hashCommitment [⟨trim [x]⟩, ⟨[]⟩] rowDomain).interpolate⟩,
        aggregatedProofs⟩ := by
  set chunk : Chunk := ⟨data ++ [0]⟩ with hchunk_def
  set point : Chunk := ⟨K.toBytesLe x⟩ with hpoint
  set zero : Chunk := ⟨K.toBytesLe 0⟩ with hzero
  have hchunk : (chunkify params data : Outcome KzgRsError _) = ok [[chunk]] := by
    have hdata : data.chunks maxBls12381EncodingChunkSize = [data] :=
      List.chunks_of_length_le (by decide) (List.ne_nil_of_length_pos (by rw [hlength]; decide))
        (Nat.le_of_eq hlength)
    rw [chunkify_of_dvd (by omega) (by rw [hlength]; rfl), hcolumns,
      show 2 / 2 * maxBls12381EncodingChunkSize = maxBls12381EncodingChunkSize from rfl, hdata,
      List.map_singleton, hdata]
    rfl
  obtain ⟨rowDomain, hrowDomain, hrowSize⟩ := Domain.new_pow (K := K) htwoAdicity
  obtain ⟨columnDomain, hcolumnDomain, hcolumnSize⟩ := Domain.new_pow (K := K) (Nat.zero_le _)
  rw [pow_one] at hrowDomain hrowSize
  rw [pow_zero] at hcolumnDomain hcolumnSize
  have hrowEvals : rowEvaluations [chunk] rowDomain = ⟨[x], rowDomain⟩ := by
    have hbytes : asBytes [chunk] = data ++ [0] := List.append_nil _
    rw [rowEvaluations, hbytes, List.chunks_of_length_le (by decide) (by simp)
      (by simp [hlength, maxBls12381EncodingChunkSize, bytesPerFieldElement]), List.map_singleton,
      hx]
  have hrows : computeKzgRowCommitments params.globalParameters [[chunk]] rowDomain =
      ok [((⟨[x], rowDomain⟩, Evaluations.interpolate ⟨[x], rowDomain⟩),
        ⟨Evaluations.interpolate ⟨[x], rowDomain⟩⟩)] := by
    rw [computeKzgRowCommitments_of_dvd
      (by simp [chunk, asBytes, hlength, maxBls12381EncodingChunkSize, bytesPerFieldElement])
      (by rw [hrowSize]; omega), List.map_singleton, hrowEvals]
  have hextended : evalsToChunkMatrix K
      (rsEncodeRows [Evaluations.interpolate ⟨[x], rowDomain⟩] rowDomain) = [[point, zero]] := by
    have hencode := encode_interpolate rowDomain [x] (by rw [hrowSize]; simp)
    rw [hrowSize] at hencode
    simp [evalsToChunkMatrix, rsEncodeRows, rsEncodeRow, hencode, point, zero]
  have hcolumnCommitments : computeKzgColumnCommitments params.globalParameters [[point, zero]]
      columnDomain = ok [((⟨[x], columnDomain⟩, trim [x]), ⟨trim [x]⟩),
        ((⟨[0], columnDomain⟩, []), ⟨[]⟩)] := by
    have htransposed : transposed [[point, zero]] = [[point], [zero]] := rfl
    rw [computeKzgColumnCommitments, htransposed, computeKzgRowCommitments_of_dvd
      (by simp [asBytes, point, zero, K.length_toBytesLe]) (by rw [hcolumnSize]; omega)]
    simp only [List.map_cons, List.map_nil, point, zero, rowEvaluations_singleton,
      Evaluations.interpolate_singleton hcolumnSize, trim_singleton_zero]
  have haggregated := computeAggregatedColumnCommitment_of_le hashCommitment
    params.globalParameters [⟨trim [x]⟩, ⟨[]⟩] rowDomain (by rw [hrowSize]; omega)
  obtain ⟨rowProofs, hrowProofs, hrowProofsLength⟩ := fk20BatchGenerateElementsProofs_length
    (ε := KzgRsError) K
    ((Evaluations.clog_length_interpolate_le (e := ⟨[x], rowDomain⟩) (k := 1) hrowSize).trans
      htwoAdicity)
  obtain ⟨aggregatedProofs, haggregatedProofs, haggregatedProofsLength⟩ :=
    fk20BatchGenerateElementsProofs_length (ε := KzgRsError) K
      ((Evaluations.clog_length_interpolate_le
        (e := columnHashEvaluations hashCommitment [⟨trim [x]⟩, ⟨[]⟩] rowDomain) (k := 1)
        hrowSize).trans
        htwoAdicity)
  refine ⟨rowDomain, hrowSize, rowProofs, aggregatedProofs, hrowProofsLength,
    haggregatedProofsLength, ?_⟩
  simp only [encodeData, bind_def, hchunk, ok_bind, hcolumns, hrowDomain, expect_some,
    List.length_singleton, hcolumnDomain, hrows, List.map_cons, List.map_nil, computeRowsProofs,
    List.mapM_cons, List.mapM_nil, hrowProofs, pure_def, hextended, hcolumnCommitments,
    haggregated, computeAggregatedColumnProofs, haggregatedProofs]

/-- The field of three elements, with its square root of unity `-1`: the
smallest scalar field with a domain of two points. -/
def zmod3 : ScalarField (ZMod 3) where
  twoAdicity := 1
  twoAdicRootOfUnity := -1
  isPrimitiveRoot := IsPrimitiveRoot.neg_one 3 (by decide)
  toBytesLe x := leBytes bytesPerFieldElement x.val
  length_toBytesLe x := length_leBytes _ _
  leNat_toBytesLe x := by
    rw [leNat_leBytes, Nat.mod_eq_of_lt ((ZMod.val_lt x).trans (by decide)), ZMod.natCast_zmod_val]

/-- A hash of every commitment to 31 zero bytes. -/
def zeroHash : CommitmentHash F maxBls12381EncodingChunkSize :=
  ⟨fun _ => List.replicate maxBls12381EncodingChunkSize 0, fun _ => List.length_replicate⟩

/-- `encode` panics on data whose length is not a multiple of 31, whatever the
field, the hash and the parameters. -/
theorem encodeData_of_not_dvd (hashCommitment : CommitmentHash F maxBls12381EncodingChunkSize)
    {params : DaEncoderParams} {data : Bytes} (hcolumns : 2 ≤ params.columnCount)
    (h : data.length % maxBls12381EncodingChunkSize ≠ 0) :
    encodeData K hashCommitment params data = .panic (copyFromSliceMessage
      (data.length % maxBls12381EncodingChunkSize) maxBls12381EncodingChunkSize) := by
  rw [encodeData, bind_def, chunkify_of_not_dvd hcolumns h, panic_bind]

theorem encodeData_of_not_dvd_one_byte :
    encodeData zmod3 zeroHash ⟨2, ⟨2⟩⟩ [0] = .panic (copyFromSliceMessage 1 31) :=
  encodeData_of_not_dvd zmod3 zeroHash (by decide) (by decide)

/-- The extension of a row adds no redundancy: the `k` values of a row
interpolated over the `2 k` points of the row domain come back from
`rs_encode_row` followed by `k` zeros, and decoding from the last `k` columns,
which are known to be zero, gives zeros instead of the row. -/
theorem rsEncodeRow_pads_with_zeros {ε : Type} (rowDomain : Domain F) (row : List F)
    (hsize : rowDomain.size = 2 * row.length) :
    (rsEncodeRow (Evaluations.interpolate ⟨row, rowDomain⟩) rowDomain).evals =
        row ++ List.replicate row.length 0 ∧
      (decode row.length (List.replicate row.length none ++ List.replicate row.length (some 0))
        rowDomain : Outcome ε _) = ok ⟨List.replicate row.length 0, rowDomain⟩ := by
  refine ⟨?_, decode_of_zero_suffix rowDomain row.length hsize.ge⟩
  rw [rsEncodeRow, encode_interpolate rowDomain row (by omega), hsize]
  congr 2
  omega

theorem rsEncodeRow_pads_with_zeros_one :
    (rsEncodeRow (Evaluations.interpolate ⟨[1], ⟨2, -1, zmod3.isPrimitiveRoot⟩⟩)
        ⟨2, -1, zmod3.isPrimitiveRoot⟩).evals = [1, 0] ∧
      (decode 1 [none, some 0] ⟨2, -1, zmod3.isPrimitiveRoot⟩ : Outcome Unit _) =
        ok ⟨[0], ⟨2, -1, zmod3.isPrimitiveRoot⟩⟩ :=
  rsEncodeRow_pads_with_zeros _ [1] rfl

/-- FK20 sizes its domain from the number of coefficients, not from the number
of columns. An all-zero row interpolates to the empty polynomial, which gets a
domain of one point and so one proof: for two columns and 31 zero bytes,
`encode` succeeds and `to_da_share(1)` panics, whatever the field, the hash and
the parameters. -/
theorem toDaShare_panics_on_zero_row {ε : Type}
    (hashCommitment : CommitmentHash F maxBls12381EncodingChunkSize) {params : DaEncoderParams}
    (htwoAdicity : 1 ≤ K.twoAdicity) (hcolumns : params.columnCount = 2)
    (hpowers : 2 ≤ params.globalParameters.numPowers) :
    ∃ e, encodeData K hashCommitment params (List.replicate 31 0) = ok e ∧
      ∃ m, (e.toDaShare 1 : Outcome ε _) = .panic m := by
  obtain ⟨rowDomain, -, rowProofs, _, hrowProofs, -, hencode⟩ :=
    encodeData_one_chunk K hashCommitment htwoAdicity hcolumns hpowers
      (show (List.replicate 31 (0 : UInt8)).length = maxBls12381EncodingChunkSize from rfl)
      (show (leNat (List.replicate 31 (0 : UInt8) ++ [0]) : F) = 0 by
        rw [show List.replicate 31 (0 : UInt8) ++ [0] = List.replicate 32 0 from rfl,
          leNat_replicate_zero, Nat.cast_zero])
  have hrow : Evaluations.interpolate ⟨[(0 : F)], rowDomain⟩ = [] :=
    Evaluations.interpolate_of_forall_eq_zero (by simp)
  rw [hrow] at hrowProofs
  refine ⟨_, hencode, toDaShare_of_short_row_proofs (by simp [columns]) (by decide)
    (List.mem_singleton_self _) ?_⟩
  simp [hrowProofs]

theorem toDaShare_panics_on_zero_row_zmod3 :
    ∃ e, encodeData zmod3 zeroHash ⟨2, ⟨2⟩⟩ (List.replicate 31 0) = ok e ∧
      ∃ m, (e.toDaShare 1 : Outcome Unit _) = .panic m :=
  toDaShare_panics_on_zero_row zmod3 zeroHash (by decide) rfl (by decide)

end Encode

end KzgrsBackend
