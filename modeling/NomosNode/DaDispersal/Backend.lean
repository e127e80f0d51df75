import NomosNode.Da.Encoder
import NomosNode.DaSampling.Backend

/-!
# The dispersal backend of an executor

`nomos-services/data-availability/dispersal/src/backend/kzgrs.rs` and the
`get_blob_samples` loop of its libp2p adapter: `process_dispersal` encodes the
data, sends share `i` to subnetwork `i`, waits for as many dispersal successes
as there are columns, and publishes the blob id. Both waits count events and
never look at where they come from, so acknowledgments from a single subnetwork
are enough to publish. The network is the list of events delivered before each
timeout; sends succeed and the mempool accepts every blob id.
-/

namespace NomosDaDispersal

open Outcome Coeffs Kzgrs KzgrsBackend NomosDaSampling

/-- `DispersalExecutorEvent` as the dispersal events stream yields it. -/
inductive DispersalEvent (B : Type)
  | dispersalSuccess (blobId : B) (subnetworkId : ℕ)
  | dispersalError

/-- The sampling events `get_blob_samples` looks at: a success with the light
share's index, an error naming a subnetwork, and a request, which it skips. -/
inductive SamplingEvent (B : Type)
  | samplingSuccess (blobId : B) (shareIdx : ℕ)
  | samplingError (blobId : B) (subnetworkId : ℕ)
  | samplingRequest (blobId : B)

/-- How `process_dispersal` can fail. -/
inductive DispersalError
  | encoder (error : KzgRsError)
  | elapsed
  | samplingTimedOut

/-- `MempoolPublishStrategy`, durations in ticks. -/
inductive MempoolPublishStrategy
  | immediately
  | timeout (waitDuration : ℕ)
  | sampleSubnetworks (sampleThreshold timeout cooldown : ℕ)

/-- `DispersalKZGRSBackendSettings`: the encoder's parameters and the strategy. -/
structure DispersalKZGRSBackendSettings where
  encoderSettings : DaEncoderParams
  mempoolStrategy : MempoolPublishStrategy

variable {F : Type} [Field F] [DecidableEq F] (K : ScalarField F) {B : Type} [DecidableEq B]

/-- The shares `EncodedDataIterator` yields: `to_da_share(0)`, `to_da_share(1)`,
… up to the first `None`, which comes at the number of columns. -/
def sharesOf {ε : Type} (encodedData : EncodedData F) : Outcome ε (List (DaShare F)) := do
  let shares ← (List.range ((columns encodedData.extendedData).length + 1)).mapM
    encodedData.toDaShare
  ok (shares.filterMap id)

/-- The `filter_map` of `disperse`: a success for the blob, from any subnetwork. -/
def validResponse (blobId : B) : DispersalEvent B → Option Unit
  | .dispersalSuccess b _ => if b = blobId then some () else none
  | .dispersalError => none

/-- `DispersalFromAdapter::disperse`: the shares are sent, and the call waits
for `num_columns` valid responses among the events delivered before the
timeout. -/
def disperse (buildBlobId : Commitment F → List (Commitment F) → B)
    (encodedData : EncodedData F) (events : List (DispersalEvent B)) :
    Outcome DispersalError Unit := do
  let numColumns := encodedData.columnCommitments.length
  let blobId := buildBlobId encodedData.aggregatedColumnCommitment encodedData.rowCommitments
  let _ ← sharesOf encodedData
  if numColumns ≤ (events.filterMap (validResponse blobId)).length then ok ()
  else err .elapsed

/-- The loop of `get_blob_samples` over the sampling events delivered before
the timeout: successes for the blob are counted whatever their share index,
errors put their subnetwork back among the pending ones. -/
def getBlobSamplesLoop (blobId : B) (expectedCount : ℕ) :
    ℕ → Finset ℕ → List (SamplingEvent B) → Outcome DispersalError Unit
  | _, _, [] => err .samplingTimedOut
  | successCount, pendingSubnets, .samplingSuccess b shareIdx :: events =>
    if b = blobId then
      if expectedCount ≤ successCount + 1 then ok ()
      else getBlobSamplesLoop blobId expectedCount (successCount + 1)
        (pendingSubnets.erase shareIdx) events
    else getBlobSamplesLoop blobId expectedCount successCount pendingSubnets events
  | successCount, pendingSubnets, .samplingError b subnetworkId :: events =>
    if b = blobId then
      getBlobSamplesLoop blobId expectedCount successCount (insert subnetworkId pendingSubnets)
        events
    else getBlobSamplesLoop blobId expectedCount successCount pendingSubnets events
  | successCount, pendingSubnets, .samplingRequest _ :: events =>
    getBlobSamplesLoop blobId expectedCount successCount pendingSubnets events

/-- `Libp2pNetworkAdapter::get_blob_samples`. -/
def getBlobSamples (blobId : B) (subnets : List ℕ) (events : List (SamplingEvent B)) :
    Outcome DispersalError Unit :=
  getBlobSamplesLoop blobId subnets.length 0 subnets.toFinset events

/-- `DispersalKZGRSBackend::process_dispersal`: it returns the blob id it
publishes to the mempool. -/
def processDispersal {R : Type} (M : ChooseMultiple R) (rng : R)
    (hashCommitment : CommitmentHash F maxBls12381EncodingChunkSize)
    (buildBlobId : Commitment F → List (Commitment F) → B)
    (settings : DispersalKZGRSBackendSettings) (data : Bytes)
    (dispersalEvents : List (DispersalEvent B)) (samplingEvents : List (SamplingEvent B)) :
    Outcome DispersalError B := do
  let encodedData ← (encodeData K hashCommitment settings.encoderSettings data).mapErr .encoder
  let blobId := buildBlobId encodedData.aggregatedColumnCommitment encodedData.rowCommitments
  disperse buildBlobId encodedData dispersalEvents
  match settings.mempoolStrategy with
  | .immediately => ok blobId
  | .timeout _ => ok blobId
  | .sampleSubnetworks sampleThreshold _ _ =>
    let subnets :=
      (M.choose rng (List.range settings.encoderSettings.columnCount) sampleThreshold).1
    getBlobSamples blobId subnets samplingEvents
    ok blobId

omit [Field F] [DecidableEq F] in
/-- The iterator yields every share when every column has one. -/
theorem sharesOf_ok {ε : Type} {encodedData : EncodedData F}
    (h : ∀ i < (columns encodedData.extendedData).length,
      ∃ share, (encodedData.toDaShare i : Outcome ε _) = ok (some share)) :
    ∃ shares, (sharesOf encodedData : Outcome ε _) = ok shares := by
  obtain ⟨shares, hshares⟩ := mapM_ok
    (l := List.range ((columns encodedData.extendedData).length + 1))
    (f := encodedData.toDaShare) fun i _ => by
      rcases Nat.lt_or_ge i (columns encodedData.extendedData).length with hlt | hge
      · obtain ⟨share, hshare⟩ := h i hlt
        exact ⟨_, hshare⟩
      · exact ⟨_, toDaShare_of_le hge⟩
  exact ⟨_, by rw [sharesOf, bind_def, hshares, ok_bind]⟩

/-- Successes for the blob are valid responses whatever their subnetwork. -/
theorem filterMap_validResponse_replicate (blobId : B) (subnetworkId n : ℕ) :
    (List.replicate n (DispersalEvent.dispersalSuccess blobId subnetworkId)).filterMap
      (validResponse blobId) = List.replicate n () := by
  induction n with
  | zero => rfl
  | succ n ih => rw [List.replicate_succ, List.filterMap_cons, validResponse, if_pos rfl, ih,
      List.replicate_succ]

omit [Field F] [DecidableEq F] in
/-- `disperse` returns once it has counted `num_columns` valid responses: it
never asks which subnetwork they come from. -/
theorem disperse_of_le (buildBlobId : Commitment F → List (Commitment F) → B)
    {encodedData : EncodedData F} {events : List (DispersalEvent B)}
    (hshares : ∃ shares, (sharesOf encodedData : Outcome DispersalError _) = ok shares)
    (hcount : encodedData.columnCommitments.length ≤ (events.filterMap (validResponse
      (buildBlobId encodedData.aggregatedColumnCommitment encodedData.rowCommitments))).length) :
    disperse buildBlobId encodedData events = ok () := by
  obtain ⟨shares, hshares⟩ := hshares
  rw [disperse, bind_def, hshares, ok_bind, if_pos hcount]

/-- The loop returns after enough successes for the blob, all with one share
index: the count is all it checks. -/
theorem getBlobSamplesLoop_replicate (blobId : B) (expectedCount shareIdx : ℕ) :
    ∀ (m successCount : ℕ) (pendingSubnets : Finset ℕ), 0 < m → expectedCount ≤ successCount + m →
      getBlobSamplesLoop blobId expectedCount successCount pendingSubnets
        (List.replicate m (.samplingSuccess blobId shareIdx)) = ok ()
  | 0, _, _, hm, _ => absurd hm (Nat.lt_irrefl 0)
  | m + 1, successCount, pendingSubnets, _, hcount => by
    rw [List.replicate_succ, getBlobSamplesLoop, if_pos rfl]
    split
    · rfl
    · -- not yet enough: one success fewer to wait for
      exact getBlobSamplesLoop_replicate blobId expectedCount shareIdx m (successCount + 1) _
        (by omega) (by omega)

theorem getBlobSamples_replicate (blobId : B) (subnets : List ℕ) (shareIdx : ℕ) {m : ℕ}
    (hm : 0 < m) (hlength : subnets.length ≤ m) :
    getBlobSamples blobId subnets (List.replicate m (.samplingSuccess blobId shareIdx)) = ok () :=
  getBlobSamplesLoop_replicate blobId _ shareIdx m 0 _ hm (by omega)

/-- An executor publishes a blob as soon as one subnetwork has acknowledged it
as many times as there are columns and, when it samples, as soon as one share
index has come back often enough: whatever the data, the strategy and the
subnetworks drawn, as long as encoding and the shares succeed. -/
theorem processDispersal_publishes_on_one_subnetwork {R : Type} (M : ChooseMultiple R) (rng : R)
    (hashCommitment : CommitmentHash F maxBls12381EncodingChunkSize)
    (buildBlobId : Commitment F → List (Commitment F) → B)
    (settings : DispersalKZGRSBackendSettings) (data : Bytes) {e : EncodedData F}
    (hencode : encodeData K hashCommitment settings.encoderSettings data = ok e)
    (hshares : ∃ shares, (sharesOf e : Outcome DispersalError _) = ok shares)
    (subnetworkId shareIdx : ℕ) :
    processDispersal K M rng hashCommitment buildBlobId settings data
        (List.replicate e.columnCommitments.length
          (.dispersalSuccess (buildBlobId e.aggregatedColumnCommitment e.rowCommitments)
            subnetworkId))
        (List.replicate (settings.encoderSettings.columnCount + 1)
          (.samplingSuccess (buildBlobId e.aggregatedColumnCommitment e.rowCommitments)
            shareIdx)) =
      ok (buildBlobId e.aggregatedColumnCommitment e.rowCommitments) := by
  have hdisperse : disperse buildBlobId e (List.replicate e.columnCommitments.length
      (.dispersalSuccess (buildBlobId e.aggregatedColumnCommitment e.rowCommitments)
        subnetworkId)) = ok () :=
    disperse_of_le buildBlobId hshares
      (by rw [filterMap_validResponse_replicate, List.length_replicate])
  rw [processDispersal, bind_def, hencode, mapErr_ok, ok_bind, bind_def, hdisperse, ok_bind]
  cases settings.mempoolStrategy with
  | immediately => rfl
  | timeout waitDuration => rfl
  | sampleSubnetworks sampleThreshold timeout cooldown =>
    have hlength : (M.choose rng (List.range settings.encoderSettings.columnCount)
        sampleThreshold).1.length ≤ settings.encoderSettings.columnCount + 1 := by
      rw [M.length, List.length_range]
      omega
    simp only [bind_def, getBlobSamples_replicate _ _ shareIdx (Nat.succ_pos _) hlength, ok_bind]

/-- A hash of commitments that tells the empty one from the others. -/
def emptyCommitmentHash : CommitmentHash F maxBls12381EncodingChunkSize where
  hash c := if c.poly = [] then List.replicate 31 0 else 1 :: List.replicate 30 0
  length_hash c := by split <;> rfl

theorem processDispersal_publishes_on_one_subnetwork_zmod3 :
    ∃ e, encodeData zmod3 emptyCommitmentHash ⟨2, ⟨2⟩⟩ (1 :: List.replicate 30 0) = ok e ∧
      e.columnCommitments.length = 2 ∧
      processDispersal zmod3 KzgrsSamplingBackend.takeFirst () emptyCommitmentHash
        (fun _ _ => (0 : ℕ)) ⟨⟨2, ⟨2⟩⟩, .sampleSubnetworks 2 0 0⟩ (1 :: List.replicate 30 0)
        (List.replicate 2 (.dispersalSuccess 0 0)) (List.replicate 3 (.samplingSuccess 0 0)) =
        ok 0 := by
  obtain ⟨rowDomain, hrowSize, rowProofs, aggregatedProofs, hrowProofs, haggregatedProofs,
    hencode⟩ := encodeData_one_chunk zmod3 emptyCommitmentHash (by decide)
      (show (⟨2, ⟨2⟩⟩ : DaEncoderParams).columnCount = 2 from rfl) (by decide)
      (show (1 :: List.replicate 30 (0 : UInt8)).length = maxBls12381EncodingChunkSize from rfl)
      (show (leNat ((1 :: List.replicate 30 (0 : UInt8)) ++ [0]) : ZMod 3) = 1 by decide)
  have hclog : 2 ^ Nat.clog 2 2 = 2 := by rw [Nat.clog_pow 2 1 (by norm_num)]; rfl
  have hrow : (Evaluations.interpolate ⟨[(1 : ZMod 3)], rowDomain⟩).length = 2 :=
    le_antisymm (hrowSize ▸ Evaluations.length_interpolate_le _)
      (Evaluations.one_lt_length_interpolate (by rw [hrowSize]; decide)
        (by change (1 : ZMod 3) ≠ 0; decide))
  have haggregated : (columnHashEvaluations emptyCommitmentHash [⟨trim [(1 : ZMod 3)]⟩, ⟨[]⟩]
      rowDomain).interpolate.length = 2 :=
    le_antisymm (hrowSize ▸ Evaluations.length_interpolate_le _)
      (Evaluations.one_lt_length_interpolate (by rw [columnHashEvaluations, hrowSize]; decide)
        (by
          change (leNat (emptyCommitmentHash.hash ⟨trim [(1 : ZMod 3)]⟩) : ZMod 3) ≠
            leNat (emptyCommitmentHash.hash ⟨[]⟩)
          decide))
  rw [hrow, hclog] at hrowProofs
  rw [haggregated, hclog] at haggregatedProofs
  refine ⟨_, hencode, rfl, processDispersal_publishes_on_one_subnetwork zmod3
    KzgrsSamplingBackend.takeFirst () emptyCommitmentHash (fun _ _ => (0 : ℕ))
    ⟨⟨2, ⟨2⟩⟩, .sampleSubnetworks 2 0 0⟩ _ hencode ?_ 0 0⟩
  refine sharesOf_ok fun i hi => ?_
  have hi : i < 2 := hi
  exact toDaShare_of_lt (by exact hi) (lt_of_lt_of_le hi (by decide)) hi
    (by rw [haggregatedProofs]; exact hi)
    (by simp only [List.mem_singleton]; rintro _ rfl; rw [hrowProofs]; exact hi)

end NomosDaDispersal
