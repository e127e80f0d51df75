import NomosNode.Da.Encoder

/-!
# The DA share verifier

`nomos-da/kzgrs-backend/src/verifier.rs`: a light share's column is committed
again and the hash of that commitment checked against the aggregated column
commitment, and each chunk against its row commitment, all at the point of the
share index. The index, a `u16` chosen by the sender, is read only through
`domain.element(index) = ω ^ (index mod c)`, so a column that verifies under one
index verifies under every index congruent to it. The column domain is rebuilt
with `expect`, and every chunk is read with an assertion of at most 32 bytes.
-/

namespace KzgrsBackend

open Outcome Coeffs Kzgrs

variable {F : Type} [Field F] [DecidableEq F] (K : ScalarField F)

/-- `DaLightShare`: a share without the commitments common to all shares. -/
structure DaLightShare (F : Type) where
  shareIdx : UInt16
  column : List Chunk
  columnCommitment : Commitment F
  aggregatedColumnProof : Proof F
  rowsProofs : List (Proof F)

/-- `DaSharesCommitments`: the commitments common to all shares of a blob. -/
structure DaSharesCommitments (F : Type) where
  aggregatedColumnCommitment : Commitment F
  rowsCommitments : List (Commitment F)

/-- `Share::into_share_and_commitments`. -/
def DaShare.intoShareAndCommitments (share : DaShare F) :
    DaLightShare F × DaSharesCommitments F :=
  (⟨share.shareIdx, share.column, share.columnCommitment, share.aggregatedColumnProof,
    share.rowsProofs⟩, ⟨share.aggregatedColumnCommitment, share.rowsCommitments⟩)

section Verify

variable {ε : Type}

/-- `DaVerifier::verify_column`. -/
def verifyColumn (hashCommitment : CommitmentHash F maxBls12381EncodingChunkSize)
    (globalParameters : GlobalParameters) (column : List Chunk)
    (columnCommitment aggregatedColumnCommitment : Commitment F) (aggregatedColumnProof : Proof F)
    (index : ℕ) (rowsDomain : Domain F) : Outcome ε Bool := do
  let columnDomain ← expect (Domain.new K column.length) "Domain should be able to build"
  letOkElse (bytesToPolynomial bytesPerFieldElement (asBytes column) columnDomain) false
    fun (_, polynomial) =>
  letOkElse (commitPolynomial globalParameters polynomial) false fun computedColumnCommitment =>
  if computedColumnCommitment ≠ columnCommitment then ok false
  else do
    let commitmentHash := hashCommitment.hash columnCommitment
    let element ← fieldElementFromBytesLe commitmentHash
    ok (verifyElementProof index element aggregatedColumnCommitment aggregatedColumnProof
      rowsDomain)

/-- `DaVerifier::verify_chunk`. -/
def verifyChunk (chunk : Chunk) (commitment : Commitment F) (proof : Proof F) (index : ℕ)
    (domain : Domain F) : Outcome ε Bool := do
  let element ← fieldElementFromBytesLe chunk.bytes
  ok (verifyElementProof index element commitment proof domain)

/-- `DaVerifier::verify_chunks`: the three lists must have one length, and the
loop stops at the first chunk that fails. -/
def verifyChunks (chunks : List Chunk) (commitments : List (Commitment F))
    (proofs : List (Proof F)) (index : ℕ) (domain : Domain F) : Outcome ε Bool :=
  if chunks.length = commitments.length ∧ commitments.length = proofs.length then
    (chunks.zip (commitments.zip proofs)).allM fun (chunk, commitment, proof) =>
      verifyChunk chunk commitment proof index domain
  else ok false

/-- `DaVerifier::verify`. -/
def verify (hashCommitment : CommitmentHash F maxBls12381EncodingChunkSize)
    (globalParameters : GlobalParameters) (commitments : DaSharesCommitments F)
    (lightShare : DaLightShare F) (rowsDomainSize : ℕ) : Outcome ε Bool := do
  let rowsDomain ← expect (Domain.new K rowsDomainSize) "Domain should be able to build"
  let index := lightShare.shareIdx.toNat
  let isColumnVerified ← verifyColumn K hashCommitment globalParameters lightShare.column
    lightShare.columnCommitment commitments.aggregatedColumnCommitment
    lightShare.aggregatedColumnProof index rowsDomain
  if isColumnVerified then
    verifyChunks lightShare.column commitments.rowsCommitments lightShare.rowsProofs index rowsDomain
  else ok false

/-- Both checks read the index only through `verify_element_proof`. -/
theorem verifyColumn_index_mod (hashCommitment : CommitmentHash F maxBls12381EncodingChunkSize)
    (globalParameters : GlobalParameters) (column : List Chunk)
    (columnCommitment aggregatedColumnCommitment : Commitment F) (aggregatedColumnProof : Proof F)
    {i j : ℕ} {rowsDomain : Domain F} (h : i % rowsDomain.size = j % rowsDomain.size) :
    (verifyColumn K hashCommitment globalParameters column columnCommitment
        aggregatedColumnCommitment aggregatedColumnProof i rowsDomain : Outcome ε Bool) =
      verifyColumn K hashCommitment globalParameters column columnCommitment
        aggregatedColumnCommitment aggregatedColumnProof j rowsDomain := by
  simp only [verifyColumn, verifyElementProof_mod h]

theorem verifyChunks_index_mod (chunks : List Chunk) (commitments : List (Commitment F))
    (proofs : List (Proof F)) {i j : ℕ} {domain : Domain F} (h : i % domain.size = j % domain.size) :
    (verifyChunks chunks commitments proofs i domain : Outcome ε Bool) =
      verifyChunks chunks commitments proofs j domain := by
  simp only [verifyChunks, verifyChunk, verifyElementProof_mod h]

/-- A chunk of more than 32 bytes fails the assertion of
`field_element_from_bytes_le`: the verifier panics instead of rejecting it. -/
theorem verifyChunk_of_long_chunk {chunk : Chunk} (h : bytesPerFieldElement < chunk.bytes.length)
    (commitment : Commitment F) (proof : Proof F) (index : ℕ) (domain : Domain F) :
    (verifyChunk chunk commitment proof index domain : Outcome ε Bool) =
      .panic "assertion failed: b.len() <= BYTES_PER_FIELD_ELEMENT" := by
  rw [verifyChunk, bind_def, fieldElementFromBytesLe, if_neg (not_le.mpr h), panic_bind]

/-- A column of one zero, committed by the empty polynomial, is accepted under
every share index when the aggregated commitment is the constant hash of that
commitment and the proofs are empty: for every hash and every rows domain. -/
theorem verify_zero_column (hashCommitment : CommitmentHash F maxBls12381EncodingChunkSize)
    {globalParameters : GlobalParameters} (hpowers : 1 ≤ globalParameters.numPowers)
    {rowsDomainSize : ℕ} (hdomain : Nat.clog 2 rowsDomainSize ≤ K.twoAdicity) (idx : UInt16) :
    (verify K hashCommitment globalParameters
        ⟨⟨[(leNat (hashCommitment.hash ⟨[]⟩) : F)]⟩, [⟨[]⟩]⟩
        ⟨idx, [⟨K.toBytesLe 0⟩], ⟨[]⟩, ⟨[]⟩, [⟨[]⟩]⟩ rowsDomainSize : Outcome ε Bool) = ok true := by
  obtain ⟨rowsDomain, hrowsDomain, -⟩ := Domain.new_of_clog_le hdomain
  obtain ⟨columnDomain, hcolumnDomain, -⟩ := Domain.new_pow (K := K) (Nat.zero_le _)
  rw [pow_zero] at hcolumnDomain
  have hlength : (asBytes [⟨K.toBytesLe 0⟩]).length % bytesPerFieldElement = 0 := by
    simp [asBytes, K.length_toBytesLe]
  have hcolumn : (bytesToPolynomial bytesPerFieldElement (asBytes [⟨K.toBytesLe 0⟩]) columnDomain :
      Outcome KzgRsError _) = ok (⟨[0], columnDomain⟩, []) := by
    rw [bytesToPolynomial_of_dvd columnDomain le_rfl hlength,
      bytesToPolynomialUnchecked_of_dvd columnDomain (by decide) le_rfl hlength]
    have hevals := rowEvaluations_singleton K 0 columnDomain
    simp only [rowEvaluations] at hevals
    rw [hevals, Evaluations.interpolate_of_forall_eq_zero (by simp)]
  have hhash : (fieldElementFromBytesLe (hashCommitment.hash ⟨[]⟩) : Outcome ε F) =
      ok (leNat (hashCommitment.hash ⟨[]⟩) : F) :=
    fieldElementFromBytesLe_of_length_le (by rw [hashCommitment.length_hash]; decide)
  have hchunk : (fieldElementFromBytesLe (K.toBytesLe 0) : Outcome ε F) = ok 0 := by
    rw [fieldElementFromBytesLe_of_length_le (K.length_toBytesLe 0).le, K.leNat_toBytesLe]
  simp only [verify, verifyColumn, verifyChunks, verifyChunk, hrowsDomain, hcolumnDomain,
    List.length_singleton, expect_some, bind_def, ok_bind, hcolumn, letOkElse_ok,
    commitPolynomial_of_le (show max ([] : List F).length 1 ≤ globalParameters.numPowers by simpa),
    letOkElse_ok, ne_eq, not_true_eq_false, if_false, hhash, verifyElementProof_const, if_true,
    and_self, List.zip_cons_cons, List.zip_nil_left, List.allM_cons, List.allM_nil, hchunk,
    verifyElementProof_zero, pure_def]

/-- The verifier reads the share index only modulo the number of columns: a
light share gets the same answer under every index congruent to its own,
`share_idx + c` included. -/
theorem verify_eq_of_shareIdx_mod (hashCommitment : CommitmentHash F maxBls12381EncodingChunkSize)
    (globalParameters : GlobalParameters) (commitments : DaSharesCommitments F)
    (lightShare : DaLightShare F) (k : ℕ) (idx : UInt16)
    (hidx : idx.toNat % 2 ^ k = lightShare.shareIdx.toNat % 2 ^ k) :
    (verify K hashCommitment globalParameters commitments { lightShare with shareIdx := idx }
        (2 ^ k) : Outcome ε Bool) =
      verify K hashCommitment globalParameters commitments lightShare (2 ^ k) := by
  unfold verify
  cases hd : Domain.new K (2 ^ k) with
  | none => rfl
  | some d =>
    have hlog : Nat.clog 2 (2 ^ k) = k := Nat.clog_pow 2 k (by norm_num)
    have hmod : idx.toNat % d.size = lightShare.shareIdx.toNat % d.size := by
      rcases Domain.size_of_new hd with hsize | ⟨hclog, S, -⟩
      · rwa [hsize, hlog]
      · -- a mixed-radix rows domain: `2 ^ k` is past every `u16` index, so the indices agree
        have hk : UInt16.size < 2 ^ k :=
          S.uInt16Size_le.trans_lt (Nat.pow_lt_pow_right (by norm_num) (hlog ▸ hclog))
        rw [Nat.mod_eq_of_lt (idx.toNat_lt_size.trans hk),
          Nat.mod_eq_of_lt (lightShare.shareIdx.toNat_lt_size.trans hk)] at hidx
        rw [hidx]
    simp only [expect_some, bind_def, ok_bind,
      verifyColumn_index_mod K hashCommitment globalParameters _ _ _ _ hmod,
      verifyChunks_index_mod _ _ _ hmod]

theorem verify_eq_of_shareIdx_mod_two :
    (verify zmod3 zeroHash ⟨1⟩ ⟨⟨[(leNat (List.replicate 31 0) : ZMod 3)]⟩, [⟨[]⟩]⟩
        ⟨2, [⟨zmod3.toBytesLe 0⟩], ⟨[]⟩, ⟨[]⟩, [⟨[]⟩]⟩ 2 : Outcome Unit Bool) = ok true := by
  have hclog : Nat.clog 2 2 ≤ zmod3.twoAdicity := le_of_eq (Nat.clog_pow 2 1 (by norm_num))
  exact (verify_eq_of_shareIdx_mod zmod3 zeroHash ⟨1⟩ _
    ⟨0, [⟨zmod3.toBytesLe 0⟩], ⟨[]⟩, ⟨[]⟩, [⟨[]⟩]⟩ 1 2 (by decide)).trans
    (verify_zero_column zmod3 zeroHash le_rfl hclog 0)

end Verify

end KzgrsBackend
