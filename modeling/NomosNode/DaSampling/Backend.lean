import Mathlib.Data.Finset.Card

/-!
# The sampling backend of the DA sampling service

`nomos-services/data-availability/sampling/src/backend/kzgrs.rs`. `init_sampling`
draws the subnets to ask, hands them to the caller and forgets them; a success
adds whatever share index the peer sent, and a blob is validated once
`num_samples` distinct indices have come back, drawn or not. Over every run no
blob is both validated and pending, and each blob moves as the three-phase
machine `BlobPhase` does. The generator is a parameter with the contract of
`choose_multiple`; the clock counts ticks; `u16` indices are natural numbers.
-/

namespace NomosDaSampling

/-- `IteratorRandom::choose_multiple` with its generator: distinct elements of
the list, as many as asked or all of them, and the next state. -/
structure ChooseMultiple (R : Type) where
  choose : R → List ℕ → ℕ → List ℕ × R
  subset : ∀ r l n, (choose r l n).1 ⊆ l
  nodup : ∀ r l n, l.Nodup → (choose r l n).1.Nodup
  length : ∀ r l n, (choose r l n).1.length = min n l.length

/-- `SamplingState`: what `init_sampling` tells the caller. -/
inductive SamplingState
  | waitingCommitments
  | init (subnets : List ℕ)
  | tracking
  | terminated
  deriving DecidableEq

/-- `SamplingContext`: the subnets that answered, when sampling started, and the
commitments once they are known. -/
structure SamplingContext (C : Type) where
  subnets : Finset ℕ
  started : ℕ
  commitment : Option C

/-- `KzgrsSamplingBackendSettings`, without the prune interval, which only
schedules `prune`. -/
structure KzgrsSamplingBackendSettings where
  numSamples : ℕ
  numSubnets : ℕ
  blobsValidityDuration : ℕ

/-- `KzgrsSamplingBackend`: the pending blobs as a map from blob ids. -/
structure KzgrsSamplingBackend (R B C : Type) where
  settings : KzgrsSamplingBackendSettings
  validatedBlobs : Finset B
  pendingSamplingBlobs : B → Option (SamplingContext C)
  rng : R

namespace KzgrsSamplingBackend

variable {R B C : Type} [DecidableEq B]

/-- `DaSamplingServiceBackend::new`. -/
def new (settings : KzgrsSamplingBackendSettings) (rng : R) : KzgrsSamplingBackend R B C :=
  ⟨settings, ∅, fun _ => none, rng⟩

/-- `mark_completed`: every blob of the block leaves both collections. -/
def markCompleted (s : KzgrsSamplingBackend R B C) (blobsIds : List B) :
    KzgrsSamplingBackend R B C :=
  blobsIds.foldl (fun s id =>
    { s with pendingSamplingBlobs := Function.update s.pendingSamplingBlobs id none,
             validatedBlobs := s.validatedBlobs.erase id }) s

/-- `handle_sampling_success`: the index joins the subnets of a pending blob,
which is validated once `num_samples` distinct indices have answered. -/
def handleSamplingSuccess (s : KzgrsSamplingBackend R B C) (blobId : B) (columnIdx : ℕ) :
    KzgrsSamplingBackend R B C :=
  match s.pendingSamplingBlobs blobId with
  | none => s
  | some ctx =>
    let ctx := { ctx with subnets := insert columnIdx ctx.subnets }
    if ctx.subnets.card = s.settings.numSamples then
      { s with validatedBlobs := insert blobId s.validatedBlobs,
               pendingSamplingBlobs := Function.update s.pendingSamplingBlobs blobId none }
    else { s with pendingSamplingBlobs := Function.update s.pendingSamplingBlobs blobId (some ctx) }

/-- `handle_sampling_error`: only a blob this backend is sampling fails. -/
def handleSamplingError (s : KzgrsSamplingBackend R B C) (blobId : B) :
    KzgrsSamplingBackend R B C :=
  if (s.pendingSamplingBlobs blobId).isSome then
    { s with pendingSamplingBlobs := Function.update s.pendingSamplingBlobs blobId none,
             validatedBlobs := s.validatedBlobs.erase blobId }
  else s

/-- `init_sampling` at time `now`: a blob already pending or validated is left
alone; otherwise the subnets to ask are drawn and the blob becomes pending with
no subnet answered. -/
def initSampling (M : ChooseMultiple R) (s : KzgrsSamplingBackend R B C) (blobId : B)
    (now : ℕ) : SamplingState × KzgrsSamplingBackend R B C :=
  if (s.pendingSamplingBlobs blobId).isSome then (.tracking, s)
  else if blobId ∈ s.validatedBlobs then (.terminated, s)
  else
    let (subnets, rng) := M.choose s.rng (List.range s.settings.numSubnets) s.settings.numSamples
    (.init subnets, { s with
      pendingSamplingBlobs := Function.update s.pendingSamplingBlobs blobId (some ⟨∅, now, none⟩),
      rng := rng })

/-- `prune` at time `now`: the pending blobs older than the validity duration
are dropped. -/
def prune (s : KzgrsSamplingBackend R B C) (now : ℕ) : KzgrsSamplingBackend R B C :=
  { s with pendingSamplingBlobs := fun b => (s.pendingSamplingBlobs b).filter fun ctx =>
      now - ctx.started < s.settings.blobsValidityDuration }

/-- `get_commitments`. -/
def getCommitments (s : KzgrsSamplingBackend R B C) (blobId : B) : Option C :=
  (s.pendingSamplingBlobs blobId).bind SamplingContext.commitment

/-- `add_commitments`: recorded only for a pending blob. -/
def addCommitments (s : KzgrsSamplingBackend R B C) (blobId : B) (commitments : C) :
    KzgrsSamplingBackend R B C :=
  match s.pendingSamplingBlobs blobId with
  | none => s
  | some ctx =>
    let ctx := { ctx with commitment := some commitments }
    { s with pendingSamplingBlobs := Function.update s.pendingSamplingBlobs blobId (some ctx) }

end KzgrsSamplingBackend

/-- The calls the service makes on its backend. -/
inductive Call (B C : Type)
  | initSampling (blobId : B) (now : ℕ)
  | handleSamplingSuccess (blobId : B) (columnIdx : ℕ)
  | handleSamplingError (blobId : B)
  | addCommitments (blobId : B) (commitments : C)
  | markCompleted (blobsIds : List B)
  | prune (now : ℕ)

namespace KzgrsSamplingBackend

variable {R B C : Type} [DecidableEq B]

/-- One call on the backend; what `init_sampling` returns is dropped. -/
def step (M : ChooseMultiple R) (s : KzgrsSamplingBackend R B C) :
    Call B C → KzgrsSamplingBackend R B C
  | .initSampling blobId now => (s.initSampling M blobId now).2
  | .handleSamplingSuccess blobId columnIdx => s.handleSamplingSuccess blobId columnIdx
  | .handleSamplingError blobId => s.handleSamplingError blobId
  | .addCommitments blobId commitments => s.addCommitments blobId commitments
  | .markCompleted blobsIds => s.markCompleted blobsIds
  | .prune now => s.prune now

/-- A sequence of calls. -/
def run (M : ChooseMultiple R) (s : KzgrsSamplingBackend R B C) (calls : List (Call B C)) :
    KzgrsSamplingBackend R B C :=
  calls.foldl (step M) s

@[simp] theorem run_nil (M : ChooseMultiple R) (s : KzgrsSamplingBackend R B C) :
    run M s [] = s := rfl

@[simp] theorem run_cons (M : ChooseMultiple R) (s : KzgrsSamplingBackend R B C) (call : Call B C)
    (calls : List (Call B C)) : run M s (call :: calls) = run M (step M s call) calls := rfl

/-! ## No blob is both validated and pending -/

/-- Every validated blob is absent from the pending map. -/
def ValidatedNotPending (s : KzgrsSamplingBackend R B C) : Prop :=
  ∀ b ∈ s.validatedBlobs, s.pendingSamplingBlobs b = none

section Invariant

variable {V : Finset B} {P : B → Option (SamplingContext C)}

/-- Setting the entry of a blob that is not validated keeps the invariant. -/
theorem notPending_update_of_not_mem (h : ∀ b ∈ V, P b = none) {blobId : B} (hb : blobId ∉ V)
    (v : Option (SamplingContext C)) : ∀ b ∈ V, Function.update P blobId v b = none := by
  intro b hbV
  have hne : b ≠ blobId := fun heq => hb (heq ▸ hbV)
  rw [Function.update_of_ne hne, h b hbV]

/-- Dropping the entry of a blob keeps the invariant, whatever is done to the
validated set at that blob. -/
theorem notPending_update_none (h : ∀ b ∈ V, P b = none) {blobId : B} {V' : Finset B}
    (hV : ∀ b ∈ V', b ≠ blobId → b ∈ V) : ∀ b ∈ V', Function.update P blobId none b = none := by
  intro b hbV
  by_cases hb : b = blobId
  · rw [hb, Function.update_self]
  · rw [Function.update_of_ne hb, h b (hV b hbV hb)]

end Invariant

variable (M : ChooseMultiple R) {s : KzgrsSamplingBackend R B C}

omit [DecidableEq B] in
theorem new_validatedNotPending (settings : KzgrsSamplingBackendSettings) (rng : R) :
    (new settings rng : KzgrsSamplingBackend R B C).ValidatedNotPending := by
  intro b hb
  simp [new] at hb

theorem markCompleted_validatedNotPending (h : s.ValidatedNotPending) (blobsIds : List B) :
    (s.markCompleted blobsIds).ValidatedNotPending := by
  induction blobsIds generalizing s with
  | nil => exact h
  | cons id ids ih =>
    refine ih (s := { s with pendingSamplingBlobs := Function.update s.pendingSamplingBlobs id none,
                             validatedBlobs := s.validatedBlobs.erase id }) ?_
    exact notPending_update_none h fun b hb _ => Finset.mem_of_mem_erase hb

theorem handleSamplingSuccess_validatedNotPending (h : s.ValidatedNotPending) (blobId : B)
    (columnIdx : ℕ) : (s.handleSamplingSuccess blobId columnIdx).ValidatedNotPending := by
  unfold handleSamplingSuccess
  cases hctx : s.pendingSamplingBlobs blobId with
  | none => exact h
  | some ctx =>
    have hb : blobId ∉ s.validatedBlobs := fun hbV => by rw [h blobId hbV] at hctx; cases hctx
    dsimp only
    split
    · exact notPending_update_none h fun b hbV hne => (Finset.mem_insert.mp hbV).resolve_left hne
    · exact notPending_update_of_not_mem h hb _

theorem handleSamplingError_validatedNotPending (h : s.ValidatedNotPending) (blobId : B) :
    (s.handleSamplingError blobId).ValidatedNotPending := by
  unfold handleSamplingError
  split
  · exact notPending_update_none h fun b hb _ => Finset.mem_of_mem_erase hb
  · exact h

theorem initSampling_validatedNotPending (h : s.ValidatedNotPending) (blobId : B) (now : ℕ) :
    (s.initSampling M blobId now).2.ValidatedNotPending := by
  unfold initSampling
  split
  · exact h
  split
  · exact h
  · rename_i hb
    exact notPending_update_of_not_mem h hb _

omit [DecidableEq B] in
theorem prune_validatedNotPending (h : s.ValidatedNotPending) (now : ℕ) :
    (s.prune now).ValidatedNotPending := by
  intro b hb
  simp only [prune, h b hb, Option.filter_none]

theorem addCommitments_validatedNotPending (h : s.ValidatedNotPending) (blobId : B)
    (commitments : C) : (s.addCommitments blobId commitments).ValidatedNotPending := by
  unfold addCommitments
  cases hctx : s.pendingSamplingBlobs blobId with
  | none => exact h
  | some ctx =>
    have hb : blobId ∉ s.validatedBlobs := fun hbV => by rw [h blobId hbV] at hctx; cases hctx
    exact notPending_update_of_not_mem h hb _

/-- Every call keeps the invariant. -/
theorem step_validatedNotPending (h : s.ValidatedNotPending) :
    ∀ call : Call B C, (step M s call).ValidatedNotPending
  | .initSampling blobId now => initSampling_validatedNotPending M h blobId now
  | .handleSamplingSuccess blobId columnIdx =>
    handleSamplingSuccess_validatedNotPending h blobId columnIdx
  | .handleSamplingError blobId => handleSamplingError_validatedNotPending h blobId
  | .addCommitments blobId commitments => addCommitments_validatedNotPending h blobId commitments
  | .markCompleted blobsIds => markCompleted_validatedNotPending h blobsIds
  | .prune now => prune_validatedNotPending h now

/-- The validated blobs and the pending ones stay apart over every sequence of
calls from a state where they were apart, the new backend among them. -/
theorem run_validatedNotPending (h : s.ValidatedNotPending) (calls : List (Call B C)) :
    (run M s calls).ValidatedNotPending := by
  induction calls generalizing s with
  | nil => exact h
  | cons call calls ih => exact ih (step_validatedNotPending M h call)

/-! ## Validation does not follow the drawn subnets -/

/-- Successes at distinct indices that a pending blob has not seen, exactly as
many as it lacks, validate it: the indices are never compared with anything. -/
theorem run_successes_validate {ctx : SamplingContext C} (columnIdxs : List ℕ)
    (hctx : s.pendingSamplingBlobs blobId = some ctx) (hnodup : columnIdxs.Nodup)
    (hne : columnIdxs ≠ []) (hfresh : ∀ i ∈ columnIdxs, i ∉ ctx.subnets)
    (hcount : ctx.subnets.card + columnIdxs.length = s.settings.numSamples) :
    blobId ∈ (run M s (columnIdxs.map (.handleSamplingSuccess blobId))).validatedBlobs := by
  induction columnIdxs generalizing s ctx with
  | nil => exact absurd rfl hne
  | cons i rest ih =>
    have hcard : (insert i ctx.subnets).card = ctx.subnets.card + 1 :=
      Finset.card_insert_of_notMem (hfresh i List.mem_cons_self)
    rw [List.map_cons, run_cons]
    rcases rest with _ | ⟨j, rest⟩
    · -- the last index completes the count
      have hlast : (insert i ctx.subnets).card = s.settings.numSamples := by
        rw [hcard]
        simpa using hcount
      simp [step, handleSamplingSuccess, hctx, hlast]
    · -- an index before the last one: the blob stays pending with one more subnet
      have hmore : (insert i ctx.subnets).card ≠ s.settings.numSamples := by
        rw [hcard]
        simp only [List.length_cons] at hcount
        omega
      set ctx' : SamplingContext C := { ctx with subnets := insert i ctx.subnets }
      have hstep : step M s (.handleSamplingSuccess blobId i) = { s with
          pendingSamplingBlobs := Function.update s.pendingSamplingBlobs blobId (some ctx') } := by
        simp [step, handleSamplingSuccess, hctx, hmore, ctx']
      have hctx' : (step M s (.handleSamplingSuccess blobId i)).pendingSamplingBlobs blobId =
          some ctx' := by
        simp only [hstep, Function.update_self]
      have hsettings : (step M s (.handleSamplingSuccess blobId i)).settings = s.settings := by
        rw [hstep]
      obtain ⟨hi, hnodup⟩ := List.nodup_cons.mp hnodup
      refine ih hctx' hnodup (List.cons_ne_nil j rest) ?_ ?_
      · intro k hk hk'
        rcases Finset.mem_insert.mp hk' with rfl | hk'
        · exact hi hk
        · exact hfresh k (List.mem_cons_of_mem i hk) hk'
      · rw [hsettings, hcard, ← hcount]
        simp only [List.length_cons]
        omega

/-- `init_sampling` hands the drawn subnets to the caller and keeps none of
them: from any state where a blob is neither pending nor validated, successes
at any `num_samples` distinct indices after it validate the blob, whether or
not they are among the drawn subnets. -/
theorem run_validates_without_drawn_subnets (blobId : B) (now : ℕ)
    (hpending : s.pendingSamplingBlobs blobId = none) (hvalidated : blobId ∉ s.validatedBlobs)
    (columnIdxs : List ℕ) (hnodup : columnIdxs.Nodup)
    (hlength : columnIdxs.length = s.settings.numSamples) (hpos : 0 < s.settings.numSamples) :
    (s.initSampling M blobId now).1 =
        .init (M.choose s.rng (List.range s.settings.numSubnets) s.settings.numSamples).1 ∧
      blobId ∈ (run M s (.initSampling blobId now ::
        columnIdxs.map (.handleSamplingSuccess blobId))).validatedBlobs := by
  have hinit : s.initSampling M blobId now =
      (.init (M.choose s.rng (List.range s.settings.numSubnets) s.settings.numSamples).1,
        { s with
          pendingSamplingBlobs :=
            Function.update s.pendingSamplingBlobs blobId (some ⟨∅, now, none⟩),
          rng := (M.choose s.rng (List.range s.settings.numSubnets) s.settings.numSamples).2 }) := by
    simp [initSampling, hpending, hvalidated]
  refine ⟨by rw [hinit], ?_⟩
  have hctx : (step M s (.initSampling blobId now)).pendingSamplingBlobs blobId =
      some ⟨∅, now, none⟩ := by
    simp only [step, hinit, Function.update_self]
  have hsettings : (step M s (.initSampling blobId now)).settings = s.settings := by
    rw [step, hinit]
  rw [run_cons]
  refine run_successes_validate M columnIdxs hctx hnodup ?_ (fun i _ => Finset.notMem_empty i) ?_
  · rintro rfl
    rw [List.length_nil] at hlength
    omega
  · rw [hsettings, Finset.card_empty, Nat.zero_add, hlength]

/-- A generator that always draws the first subnets. -/
def takeFirst : ChooseMultiple Unit where
  choose r l n := (l.take n, r)
  subset _ l n := List.take_subset n l
  nodup _ l n h := h.sublist (List.take_sublist n l)
  length _ _ _ := List.length_take

theorem run_validates_without_drawn_subnets_one :
    ((new ⟨1, 2, 10⟩ () : KzgrsSamplingBackend Unit ℕ Unit).initSampling takeFirst 0 0).1 =
        .init [0] ∧
      0 ∈ (run takeFirst (new ⟨1, 2, 10⟩ () : KzgrsSamplingBackend Unit ℕ Unit)
        [.initSampling 0 0, .handleSamplingSuccess 0 1]).validatedBlobs :=
  run_validates_without_drawn_subnets takeFirst 0 0 rfl (by simp [new]) [1] (by simp) rfl
    (by decide)

end KzgrsSamplingBackend

/-! ## The life of one blob

The backend read for one blob is a small machine: the blob is unknown, being
sampled with the indices that answered, or validated. Every run of the backend
from a state where no blob is both validated and pending moves each blob as
that machine does, and a validated blob has a history the machine explains. -/

/-- Where one blob stands: unknown, being sampled (the indices that answered
and when sampling started), or validated. -/
inductive BlobPhase
  | idle
  | sampling (answered : Finset ℕ) (started : ℕ)
  | validated
  deriving DecidableEq

namespace Call

variable {B C : Type} [DecidableEq B]

/-- The index a call reports for `blobId`, when it is a success for that blob. -/
def successIndex (blobId : B) : Call B C → Option ℕ
  | .handleSamplingSuccess b columnIdx => if b = blobId then some columnIdx else none
  | .initSampling _ _ | .handleSamplingError _ | .addCommitments _ _ | .markCompleted _
  | .prune _ => none

/-- A `mark_completed` for a block that lists `blobId`. -/
def Completes (blobId : B) : Call B C → Prop
  | .markCompleted blobsIds => blobId ∈ blobsIds
  | .initSampling _ _ | .handleSamplingSuccess _ _ | .handleSamplingError _ | .addCommitments _ _
  | .prune _ => False

/-- A call that ends the sampling of `blobId`: an error for it, or a block
that lists it. -/
def EndsSampling (blobId : B) (call : Call B C) : Prop :=
  call = .handleSamplingError blobId ∨ call.Completes blobId

end Call

section Abstract

variable {B C : Type} [DecidableEq B]

/-- The distinct indices that a list of calls reports for `blobId`. -/
def answeredIndices (blobId : B) (calls : List (Call B C)) : Finset ℕ :=
  (calls.filterMap (Call.successIndex blobId)).toFinset

@[simp] theorem answeredIndices_nil (blobId : B) : answeredIndices blobId ([] : List (Call B C)) = ∅ :=
  rfl

theorem answeredIndices_append_singleton (blobId : B) (calls : List (Call B C)) (call : Call B C) :
    answeredIndices blobId (calls ++ [call]) =
      answeredIndices blobId calls ∪ answeredIndices blobId [call] := by
  simp only [answeredIndices, List.filterMap_append, List.toFinset_append]

namespace BlobPhase

variable (settings : KzgrsSamplingBackendSettings) (blobId : B)

/-- A success at `columnIdx` for a blob in this phase. -/
def answer (columnIdx : ℕ) : BlobPhase → BlobPhase
  | .idle => .idle
  | .sampling answered started =>
    if (insert columnIdx answered).card = settings.numSamples then .validated
    else .sampling (insert columnIdx answered) started
  | .validated => .validated

/-- A prune at `now` of a blob in this phase. -/
def prune (now : ℕ) : BlobPhase → BlobPhase
  | .idle => .idle
  | .sampling answered started =>
    if now - started < settings.blobsValidityDuration then .sampling answered started else .idle
  | .validated => .validated

/-- What one call does to the phase of `blobId`. -/
def step (phase : BlobPhase) : Call B C → BlobPhase
  | .initSampling b now => if b = blobId ∧ phase = .idle then .sampling ∅ now else phase
  | .handleSamplingSuccess b columnIdx => if b = blobId then phase.answer settings columnIdx else phase
  | .handleSamplingError b => if b = blobId ∧ phase ≠ .validated then .idle else phase
  | .addCommitments _ _ => phase
  | .markCompleted blobsIds => if blobId ∈ blobsIds then .idle else phase
  | .prune now => phase.prune settings now

variable {settings blobId}

/-- A blob is being sampled after a call only if that call started it, or it
was sampled before, the call did not end it, and the call's index joined the
answered ones. -/
theorem step_eq_sampling {phase : BlobPhase} {call : Call B C} {answered : Finset ℕ} {started : ℕ}
    (h : phase.step settings blobId call = .sampling answered started) :
    (phase = .idle ∧ call = .initSampling blobId started ∧ answered = ∅) ∨
      ∃ answered', phase = .sampling answered' started ∧ ¬ call.EndsSampling blobId ∧
        answered = answered' ∪ answeredIndices blobId [call] := by
  cases call with
  | initSampling b now =>
    by_cases hstart : b = blobId ∧ phase = .idle
    · obtain ⟨rfl, rfl⟩ := hstart
      simp only [step, and_self, if_true, sampling.injEq] at h
      exact .inl ⟨rfl, by rw [h.2], h.1.symm⟩
    · rw [step, if_neg hstart] at h
      subst h
      exact .inr ⟨answered, rfl, by simp [Call.EndsSampling, Call.Completes], by
        simp [answeredIndices, List.filterMap_cons, Call.successIndex]⟩
  | handleSamplingSuccess b columnIdx =>
    cases phase with
    | idle => simp [step, answer] at h
    | validated => simp [step, answer] at h
    | sampling answered' started' =>
      by_cases hb : b = blobId
      · subst hb
        by_cases hcard : (insert columnIdx answered').card = settings.numSamples
        · simp [step, answer, hcard] at h
        · simp only [step, answer, if_true, if_neg hcard, sampling.injEq] at h
          obtain ⟨rfl, rfl⟩ := h
          exact .inr ⟨answered', rfl, by simp [Call.EndsSampling, Call.Completes], by
            simp [answeredIndices, Call.successIndex]⟩
      · simp only [step, if_neg hb, sampling.injEq] at h
        obtain ⟨rfl, rfl⟩ := h
        exact .inr ⟨_, rfl, by simp [Call.EndsSampling, Call.Completes], by
          simp [answeredIndices, Call.successIndex, hb]⟩
  | handleSamplingError b =>
    by_cases hend : b = blobId ∧ phase ≠ .validated
    · simp only [step, if_pos hend] at h
      cases h
    · rw [step, if_neg hend] at h
      subst h
      refine .inr ⟨answered, rfl, ?_, by simp [answeredIndices, List.filterMap_cons, Call.successIndex]⟩
      rintro (hcall | hcall)
      · cases hcall
        exact hend ⟨rfl, by simp⟩
      · exact hcall
  | addCommitments b commitments =>
    subst h
    exact .inr ⟨answered, rfl, by simp [Call.EndsSampling, Call.Completes], by
      simp [answeredIndices, List.filterMap_cons, Call.successIndex]⟩
  | markCompleted blobsIds =>
    by_cases hmem : blobId ∈ blobsIds
    · simp [step, hmem] at h
    · rw [step, if_neg hmem] at h
      subst h
      exact .inr ⟨answered, rfl, by simp [Call.EndsSampling, Call.Completes, hmem], by
        simp [answeredIndices, List.filterMap_cons, Call.successIndex]⟩
  | prune now =>
    cases phase with
    | idle => simp [step, prune] at h
    | validated => simp [step, prune] at h
    | sampling answered' started' =>
      by_cases hfresh : now - started' < settings.blobsValidityDuration
      · simp only [step, prune, if_pos hfresh, sampling.injEq] at h
        obtain ⟨rfl, rfl⟩ := h
        exact .inr ⟨answered', rfl, by simp [Call.EndsSampling, Call.Completes], by
          simp [answeredIndices, List.filterMap_cons, Call.successIndex]⟩
      · simp [step, prune, hfresh] at h

/-- A blob is validated after a call only if it was validated before and the
call completes no block listing it, or it was sampled and the call is the
success that brings the answered indices to `num_samples`. -/
theorem step_eq_validated {phase : BlobPhase} {call : Call B C}
    (h : phase.step settings blobId call = .validated) :
    (phase = .validated ∧ ¬ call.Completes blobId) ∨
      ∃ answered started columnIdx, phase = .sampling answered started ∧
        call = .handleSamplingSuccess blobId columnIdx ∧
        (insert columnIdx answered).card = settings.numSamples := by
  cases call with
  | handleSamplingSuccess b columnIdx =>
    by_cases hb : b = blobId
    · subst hb
      cases phase with
      | idle => simp [step, answer] at h
      | validated => exact .inl ⟨rfl, id⟩
      | sampling answered started =>
        by_cases hcard : (insert columnIdx answered).card = settings.numSamples
        · exact .inr ⟨answered, started, columnIdx, rfl, rfl, hcard⟩
        · simp [step, answer, hcard] at h
    · rw [step, if_neg hb] at h
      exact .inl ⟨h, id⟩
  | markCompleted blobsIds =>
    by_cases hmem : blobId ∈ blobsIds
    · simp [step, hmem] at h
    · rw [step, if_neg hmem] at h
      exact .inl ⟨h, hmem⟩
  | initSampling b now =>
    by_cases hstart : b = blobId ∧ phase = .idle
    · simp [step, hstart] at h
    · rw [step, if_neg hstart] at h
      exact .inl ⟨h, id⟩
  | handleSamplingError b =>
    by_cases hend : b = blobId ∧ phase ≠ .validated
    · simp only [step, if_pos hend] at h
      cases h
    · rw [step, if_neg hend] at h
      exact .inl ⟨h, id⟩
  | addCommitments b commitments => exact .inl ⟨h, id⟩
  | prune now =>
    cases phase with
    | idle => simp [step, prune] at h
    | validated => exact .inl ⟨rfl, id⟩
    | sampling answered started =>
      by_cases hfresh : now - started < settings.blobsValidityDuration <;>
        simp [step, prune, hfresh] at h

/-- Every phase a run from `idle` reaches has its history: a sampled blob was
started by an `init_sampling` from `idle` that nothing ended since, and its
answered indices are those reported since; a validated blob was then brought to
`num_samples` answered indices by one success, and no block listing it was
completed after. By induction on the run from its end, with the two inversion
lemmas as the step. -/
theorem history (calls : List (Call B C)) :
    (∀ answered started, calls.foldl (step settings blobId) .idle = .sampling answered started →
      ∃ pre mid, calls = pre ++ .initSampling blobId started :: mid ∧
        pre.foldl (step settings blobId) .idle = .idle ∧ (∀ call ∈ mid, ¬ call.EndsSampling blobId) ∧
        answeredIndices blobId mid = answered) ∧
    (calls.foldl (step settings blobId) .idle = .validated →
      ∃ pre started mid columnIdx post,
        calls = pre ++ .initSampling blobId started :: (mid ++ .handleSamplingSuccess blobId columnIdx :: post) ∧
        pre.foldl (step settings blobId) .idle = .idle ∧ (∀ call ∈ mid, ¬ call.EndsSampling blobId) ∧
        (insert columnIdx (answeredIndices blobId mid)).card = settings.numSamples ∧
        ∀ call ∈ post, ¬ call.Completes blobId) := by
  induction calls using List.reverseRecOn with
  | nil => exact ⟨fun _ _ h => (by cases h), fun h => (by cases h)⟩
  | append_singleton calls call ih =>
    rw [List.foldl_append, List.foldl_cons, List.foldl_nil]
    refine ⟨fun answered started h => ?_, fun h => ?_⟩
    · rcases step_eq_sampling h with ⟨hidle, rfl, rfl⟩ | ⟨answered', hphase, hends, rfl⟩
      · exact ⟨calls, [], rfl, hidle, by simp, rfl⟩
      · obtain ⟨pre, mid, rfl, hpre, hmid, rfl⟩ := ih.1 answered' started hphase
        refine ⟨pre, mid ++ [call], by simp, hpre, ?_, answeredIndices_append_singleton blobId mid call⟩
        simpa [or_imp, forall_and] using And.intro hmid hends
    · rcases step_eq_validated h with ⟨hphase, hcompletes⟩ |
          ⟨answered, started, columnIdx, hphase, rfl, hcard⟩
      · obtain ⟨pre, started, mid, columnIdx, post, rfl, hpre, hmid, hcard, hpost⟩ := ih.2 hphase
        refine ⟨pre, started, mid, columnIdx, post ++ [call], by simp, hpre, hmid, hcard, ?_⟩
        simpa [or_imp, forall_and] using And.intro hpost hcompletes
      · obtain ⟨pre, mid, rfl, hpre, hmid, rfl⟩ := ih.1 answered started hphase
        exact ⟨pre, started, mid, columnIdx, [], by simp, hpre, hmid, hcard, by simp⟩

end BlobPhase

end Abstract

namespace KzgrsSamplingBackend

variable {R B C : Type} [DecidableEq B] (M : ChooseMultiple R) {s : KzgrsSamplingBackend R B C}
  {blobId : B}

/-- The phase of `blobId` in a backend. -/
def phase (s : KzgrsSamplingBackend R B C) (blobId : B) : BlobPhase :=
  if blobId ∈ s.validatedBlobs then .validated
  else (s.pendingSamplingBlobs blobId).elim .idle fun ctx => .sampling ctx.subnets ctx.started

@[simp] theorem settings_initSampling (b : B) (now : ℕ) :
    (s.initSampling M b now).2.settings = s.settings := by
  unfold initSampling
  split
  · rfl
  · split <;> rfl

@[simp] theorem settings_markCompleted (blobsIds : List B) :
    (s.markCompleted blobsIds).settings = s.settings := by
  induction blobsIds generalizing s with
  | nil => rfl
  | cons id ids ih => exact ih

@[simp] theorem settings_step (call : Call B C) : (step M s call).settings = s.settings := by
  cases call with
  | handleSamplingSuccess b columnIdx =>
    simp only [step, handleSamplingSuccess]
    split
    · rfl
    · split <;> rfl
  | handleSamplingError b =>
    simp only [step, handleSamplingError]
    split <;> rfl
  | addCommitments b commitments =>
    simp only [step, addCommitments]
    split <;> rfl
  | _ => simp [step, prune]

omit [DecidableEq B] in
@[simp] theorem settings_new (settings : KzgrsSamplingBackendSettings) (rng : R) :
    (new settings rng : KzgrsSamplingBackend R B C).settings = settings := rfl

@[simp] theorem phase_new (settings : KzgrsSamplingBackendSettings) (rng : R) :
    (new settings rng : KzgrsSamplingBackend R B C).phase blobId = .idle := by
  simp [phase, new]

theorem phase_eq_idle : s.phase blobId = .idle ↔
    s.pendingSamplingBlobs blobId = none ∧ blobId ∉ s.validatedBlobs := by
  unfold phase
  cases s.pendingSamplingBlobs blobId <;> by_cases hv : blobId ∈ s.validatedBlobs <;> simp [hv]

/-- `init_sampling` of an idle blob draws its subnets. -/
theorem initSampling_fst_of_idle (hidle : s.phase blobId = .idle) (now : ℕ) :
    (s.initSampling M blobId now).1 =
      .init (M.choose s.rng (List.range s.settings.numSubnets) s.settings.numSamples).1 := by
  obtain ⟨hpending, hvalidated⟩ := phase_eq_idle.mp hidle
  simp [initSampling, hpending, hvalidated]

/-- A pending blob of a state where no validated blob is pending is being
sampled. -/
theorem phase_of_pending (h : s.ValidatedNotPending) {ctx : SamplingContext C}
    (hctx : s.pendingSamplingBlobs blobId = some ctx) :
    s.phase blobId = .sampling ctx.subnets ctx.started := by
  have hv : blobId ∉ s.validatedBlobs := fun hv => by rw [h blobId hv] at hctx; cases hctx
  simp [phase, hv, hctx]

theorem phase_initSampling (h : s.ValidatedNotPending) (b : B) (now : ℕ) :
    (s.initSampling M b now).2.phase blobId = (s.phase blobId).step s.settings blobId (.initSampling b now : Call B C) := by
  unfold initSampling
  by_cases hb : b = blobId
  · subst hb
    rcases hpending : s.pendingSamplingBlobs b with _ | ctx
    · by_cases hv : b ∈ s.validatedBlobs <;> simp [hpending, hv, phase, BlobPhase.step]
    · simp [phase_of_pending h hpending, BlobPhase.step]
  · split
    · simp [BlobPhase.step, hb]
    · split <;> simp [phase, BlobPhase.step, hb, Function.update_of_ne (Ne.symm hb)]

theorem phase_handleSamplingSuccess (h : s.ValidatedNotPending) (b : B) (columnIdx : ℕ) :
    (s.handleSamplingSuccess b columnIdx).phase blobId =
      (s.phase blobId).step s.settings blobId (.handleSamplingSuccess b columnIdx : Call B C) := by
  unfold handleSamplingSuccess
  by_cases hb : b = blobId
  · subst hb
    rcases hpending : s.pendingSamplingBlobs b with _ | ctx
    · by_cases hv : b ∈ s.validatedBlobs <;>
        simp [phase, hpending, hv, BlobPhase.step, BlobPhase.answer]
    · have hv : b ∉ s.validatedBlobs := fun hv => by rw [h b hv] at hpending; cases hpending
      rw [phase_of_pending h hpending]
      by_cases hcard : (insert columnIdx ctx.subnets).card = s.settings.numSamples <;>
        simp [phase, hv, hcard, BlobPhase.step, BlobPhase.answer]
  · simp only [BlobPhase.step, if_neg hb]
    split
    · rfl
    · split <;> simp [phase, Ne.symm hb]

theorem phase_handleSamplingError (h : s.ValidatedNotPending) (b : B) :
    (s.handleSamplingError b).phase blobId =
      (s.phase blobId).step s.settings blobId (.handleSamplingError b : Call B C) := by
  unfold handleSamplingError
  by_cases hb : b = blobId
  · subst hb
    rcases hpending : s.pendingSamplingBlobs b with _ | ctx
    · by_cases hv : b ∈ s.validatedBlobs <;> simp [phase, hpending, hv, BlobPhase.step]
    · have hv : b ∉ s.validatedBlobs := fun hv => by rw [h b hv] at hpending; cases hpending
      simp [hpending, hv, phase, BlobPhase.step]
  · split <;> simp [phase, BlobPhase.step, hb, Ne.symm hb]

theorem phase_prune (now : ℕ) :
    (s.prune now).phase blobId = (s.phase blobId).step s.settings blobId (.prune now : Call B C) := by
  by_cases hv : blobId ∈ s.validatedBlobs
  · simp [phase, prune, hv, BlobPhase.step, BlobPhase.prune]
  · rcases hpending : s.pendingSamplingBlobs blobId with _ | ctx
    · simp [phase, prune, hv, hpending, BlobPhase.step, BlobPhase.prune]
    · by_cases hfresh : now - ctx.started < s.settings.blobsValidityDuration <;>
        simp [phase, prune, hv, hpending, BlobPhase.step, BlobPhase.prune, Option.filter, hfresh]

theorem phase_addCommitments (b : B) (commitments : C) :
    (s.addCommitments b commitments).phase blobId = s.phase blobId := by
  unfold addCommitments
  split
  · rfl
  · rename_i ctx hpending
    by_cases hb : b = blobId
    · subst hb
      simp [phase, hpending]
    · simp [phase, Function.update_of_ne (Ne.symm hb)]

theorem phase_markCompleted (blobsIds : List B) :
    (s.markCompleted blobsIds).phase blobId = if blobId ∈ blobsIds then .idle else s.phase blobId := by
  induction blobsIds generalizing s with
  | nil => rfl
  | cons id ids ih =>
    rw [show s.markCompleted (id :: ids) = markCompleted { s with
      pendingSamplingBlobs := Function.update s.pendingSamplingBlobs id none,
      validatedBlobs := s.validatedBlobs.erase id } ids from rfl, ih]
    by_cases hid : blobId = id
    · subst hid
      simp [phase]
    · by_cases hmem : blobId ∈ ids <;> simp [phase, hid, hmem]

/-- The backend moves every blob as the machine of `BlobPhase` does. -/
theorem phase_step (h : s.ValidatedNotPending) (call : Call B C) :
    (step M s call).phase blobId = (s.phase blobId).step s.settings blobId call := by
  cases call with
  | initSampling b now => exact phase_initSampling M h b now
  | handleSamplingSuccess b columnIdx => exact phase_handleSamplingSuccess h b columnIdx
  | handleSamplingError b => exact phase_handleSamplingError h b
  | addCommitments b commitments => exact phase_addCommitments b commitments
  | markCompleted blobsIds => exact phase_markCompleted blobsIds
  | prune now => exact phase_prune now

variable (blobId) in
/-- Over a whole run, from a state where no validated blob is pending. -/
theorem run_phase (h : s.ValidatedNotPending) (calls : List (Call B C)) :
    (run M s calls).phase blobId = calls.foldl (BlobPhase.step s.settings blobId) (s.phase blobId) := by
  induction calls generalizing s with
  | nil => rfl
  | cons call calls ih =>
    rw [run_cons, ih (step_validatedNotPending M h call), settings_step, phase_step M h,
      List.foldl_cons]

/-- From a fresh backend, over every sequence of calls, no blob is both
validated and pending; and a blob is validated only after an
`init_sampling` that returned `Init`, then successes at `num_samples`
distinct indices, whichever they are, with no error for the blob and no
completed block listing it before the last of them, nor a completed block
listing it after. -/
theorem run_validated_after_num_samples_successes (settings : KzgrsSamplingBackendSettings) (rng : R)
    (calls : List (Call B C)) (blobId : B) :
    (run M (new settings rng) calls).ValidatedNotPending ∧
      (blobId ∈ (run M (new settings rng) calls).validatedBlobs →
        ∃ pre now mid columnIdx post,
          calls = pre ++ .initSampling blobId now :: (mid ++ .handleSamplingSuccess blobId columnIdx :: post) ∧
          (∃ subnets, ((run M (new settings rng) pre).initSampling M blobId now).1 = .init subnets) ∧
          (∀ call ∈ mid, ¬ call.EndsSampling blobId) ∧
          (insert columnIdx (answeredIndices blobId mid)).card = settings.numSamples ∧
          ∀ call ∈ post, ¬ call.Completes blobId) := by
  have hnew := new_validatedNotPending (B := B) (C := C) settings rng
  refine ⟨run_validatedNotPending M hnew calls, fun hmem => ?_⟩
  have hphase : calls.foldl (BlobPhase.step settings blobId) .idle = .validated := by
    have hrun := run_phase M blobId hnew calls
    rw [settings_new, phase_new] at hrun
    rw [← hrun]
    simp [phase, hmem]
  obtain ⟨pre, now, mid, columnIdx, post, rfl, hpre, hmid, hcard, hpost⟩ :=
    (BlobPhase.history calls).2 hphase
  refine ⟨pre, now, mid, columnIdx, post, rfl, ?_, hmid, hcard, hpost⟩
  have hidle : (run M (new settings rng) pre).phase blobId = .idle := by
    rw [run_phase M blobId hnew, settings_new, phase_new, hpre]
  exact ⟨_, initSampling_fst_of_idle M hidle now⟩

end KzgrsSamplingBackend

end NomosDaSampling
