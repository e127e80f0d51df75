import NomosNode.Lib.Outcome
import NomosNode.Lib.IterOrder

/-!
# The requesting side of the sampling protocol

`nomos-da/network/core/src/protocols/sampling/behaviour.rs`: a sample request
becomes a task that opens a stream to a member of the subnetwork other than the
local peer, writes the request and reads the answer, and an error is classified
by its kind. The behaviour is a state record; the answering side's streams are
left out, and what the remote side does is an argument of a task's completion.
Under a membership in which every subnetwork has another member no run panics.
No operation ever creates an entry of `to_sample`, so a request whose connection
is reset is not put back: it and a request whose stream ends early are dropped
without an event.
-/

namespace SamplingProtocol

open Outcome

variable {ε : Type} {κ ι : Type} [DecidableEq κ] [DecidableEq ι]

/-- `SampleRequest`: its share index is the subnetwork sampled. -/
structure SampleRequest (ι : Type) where
  blobId : ι
  shareIdx : UInt16
  deriving DecidableEq, Repr

/-- The kinds of `io::Error` the behaviour tells apart. -/
inductive IoErrorKind where
  | connectionReset
  | unexpectedEof
  | other
  deriving DecidableEq, Repr

/-- `SamplingError`, its variants of the requesting side. -/
inductive SamplingError (κ ι : Type) where
  | io (peerId : κ) (kind : IoErrorKind) (message : Option (SampleRequest ι))
  | protocol (subnetworkId : UInt16) (peerId : κ) (errorBlobId : ι)
  | openStream (peerId : κ)
  deriving DecidableEq, Repr

/-- `SamplingError::blob_id`. -/
def SamplingError.blobId : SamplingError κ ι → Option ι
  | .protocol _ _ errorBlobId => some errorBlobId
  | .io .. | .openStream _ => none

/-- `SamplingEvent`, its variants of the requesting side. -/
inductive SamplingEvent (κ ι : Type) where
  | samplingSuccess (blobId : ι) (subnetworkId : UInt16)
  | samplingError (error : SamplingError κ ι)
  deriving DecidableEq, Repr

/-- What the remote side does with a request. -/
inductive Remote (ι : Type) where
  /-- Answers with a light share of this blob and share index. -/
  | share (blobId : ι) (shareIdx : UInt16)
  /-- Answers with a `SampleError` for this blob and column. -/
  | error (blobId : ι) (columnIdx : UInt16)
  | connectionReset
  | unexpectedEof
  | otherIoError
  | openStreamFailed
  deriving DecidableEq, Repr

/-- A sampling task: the request it writes to a stream to a peer. -/
structure Task (κ ι : Type) where
  peerId : κ
  request : SampleRequest ι
  deriving DecidableEq, Repr

/-- `SamplingBehaviour`; `to_sample` maps a peer to its queue, when it has one. -/
structure SamplingBehaviour (κ ι : Type) where
  localPeerId : κ
  membersOf : UInt16 → Finset κ
  isAllowed : κ → Bool
  streamTasks : List (Task κ ι)
  toSample : κ → Option (List (UInt16 × ι))
  /-- The peers whose streams wait to be closed. -/
  toClose : List κ
  events : List (SamplingEvent κ ι)

/-- What a completed task gives: the answer on the stream, or an error and, when
the stream opened, the stream. -/
inductive TaskResult (κ ι : Type) where
  | response (peerId : κ) (response : Remote ι)
  | failure (error : SamplingError κ ι) (stream : Option κ)

/-- The outcome of a task of `stream_sample` behind `open_stream`, for what the
remote side does. -/
def taskResult (task : Task κ ι) : Remote ι → TaskResult κ ι
  | .openStreamFailed => .failure (.openStream task.peerId) none
  | .connectionReset => .failure (.io task.peerId .connectionReset (some task.request)) (some task.peerId)
  | .unexpectedEof => .failure (.io task.peerId .unexpectedEof (some task.request)) (some task.peerId)
  | .otherIoError => .failure (.io task.peerId .other (some task.request)) (some task.peerId)
  | remote => .response task.peerId remote

namespace SamplingBehaviour

/-- `SamplingBehaviour::new`. -/
def new (localPeerId : κ) (membersOf : UInt16 → Finset κ) (isAllowed : κ → Bool) :
    SamplingBehaviour κ ι :=
  ⟨localPeerId, membersOf, isAllowed, [], fun _ => none, [], []⟩

/-- `sample`: a task to the first member of the subnetwork other than the local
peer, panicking when there is none. -/
def sample (o : IterOrder κ) (self : SamplingBehaviour κ ι) (subnetworkId : UInt16) (blobId : ι) :
    Outcome ε (SamplingBehaviour κ ι) := do
  let peer ← expect ((o.visit (self.membersOf subnetworkId)).filter (· ≠ self.localPeerId)).head?
    "At least a single node should be a member of the subnetwork"
  ok { self with streamTasks := self.streamTasks ++ [⟨peer, ⟨blobId, subnetworkId⟩⟩] }

/-- The front of the peer's queue, taken from it, when the peer has a queue. -/
def popToSample (self : SamplingBehaviour κ ι) (peerId : κ) :
    Option ((UInt16 × ι) × SamplingBehaviour κ ι) :=
  match self.toSample peerId with
  | some (next :: rest) =>
    some (next, { self with toSample := Function.update self.toSample peerId (some rest) })
  | _ => none

/-- `try_sample`, run when an outbound connection to an allowed peer is
established. -/
def trySample (self : SamplingBehaviour κ ι) (peerId : κ) : SamplingBehaviour κ ι :=
  match self.popToSample peerId with
  | some ((subnetworkId, blobId), self) =>
    { self with streamTasks := self.streamTasks ++ [⟨peerId, ⟨blobId, subnetworkId⟩⟩] }
  | none => self

/-- `handle_established_outbound_connection`. -/
def handleEstablishedOutboundConnection (self : SamplingBehaviour κ ι) (peer : κ) :
    SamplingBehaviour κ ι :=
  if self.isAllowed peer then self.trySample peer else self

/-- `schedule_outgoing_stream_task`: the free stream takes the next request
queued for its peer, or waits to be closed. -/
def scheduleOutgoingStreamTask (self : SamplingBehaviour κ ι) (peerId : κ) :
    SamplingBehaviour κ ι :=
  match self.popToSample peerId with
  | some ((subnetworkId, blobId), self) =>
    { self with streamTasks := self.streamTasks ++ [⟨peerId, ⟨blobId, subnetworkId⟩⟩] }
  | none => { self with toClose := self.toClose ++ [peerId] }

/-- `handle_sample_response`: the event of an answer. A share is reported with
the blob id and share index it carries. -/
def handleSampleResponse (response : Remote ι) (peerId : κ) : Option (SamplingEvent κ ι) :=
  match response with
  | .error blobId columnIdx => some (.samplingError (.protocol columnIdx peerId blobId))
  | .share blobId shareIdx => some (.samplingSuccess blobId shareIdx)
  | _ => none

/-- The reset branch of `handle_stream_error`: the request written goes back to
the end of the peer's queue, if the peer has one. -/
def requeue (self : SamplingBehaviour κ ι) (peerId : κ) (message : Option (SampleRequest ι)) :
    SamplingBehaviour κ ι :=
  match self.toSample peerId, message with
  | some queue, some m =>
    { self with
      toSample := Function.update self.toSample peerId (some (queue ++ [(m.shareIdx, m.blobId)])) }
  | _, _ => self

/-- `handle_stream_error`: a reset connection puts the request back in the
peer's queue if the peer has one, an early end is a normal close, and any other
error is reported; the stream, if any, waits to be closed. -/
def handleStreamError (self : SamplingBehaviour κ ι) (error : SamplingError κ ι)
    (stream : Option κ) : SamplingBehaviour κ ι :=
  let self := { self with toClose := self.toClose ++ stream.toList }
  match error with
  | .io peerId .connectionReset message => self.requeue peerId message
  | .io _ .unexpectedEof _ => self
  | error => { self with events := self.events ++ [.samplingError error] }

/-- The part of `poll` for a completed task. -/
def taskCompleted (self : SamplingBehaviour κ ι) (task : Task κ ι) (remote : Remote ι) :
    SamplingBehaviour κ ι :=
  let self := { self with streamTasks := self.streamTasks.erase task }
  match taskResult task remote with
  | .response peerId response =>
    let self := self.scheduleOutgoingStreamTask peerId
    { self with events := self.events ++ (handleSampleResponse response peerId).toList }
  | .failure error stream => self.handleStreamError error stream

end SamplingBehaviour

/-- The events a completed task adds, for what the remote side did: the answer's
own blob and index for a share, a protocol error for an error answer, nothing
for a reset or an early end, and an error for any other failure. -/
def completionEvents (task : Task κ ι) : Remote ι → List (SamplingEvent κ ι)
  | .share blobId shareIdx => [.samplingSuccess blobId shareIdx]
  | .error blobId columnIdx => [.samplingError (.protocol columnIdx task.peerId blobId)]
  | .connectionReset | .unexpectedEof => []
  | .otherIoError => [.samplingError (.io task.peerId .other (some task.request))]
  | .openStreamFailed => [.samplingError (.openStream task.peerId)]

/-- What happens to the requesting side: a request taken from the channel, an
outbound connection established, or a task completed against the remote. -/
inductive Op (κ ι : Type) where
  | sampleRequest (subnetworkId : UInt16) (blobId : ι)
  | establishedOutbound (peer : κ)
  | taskCompleted (task : Task κ ι) (remote : Remote ι)

def step (o : IterOrder κ) (self : SamplingBehaviour κ ι) : Op κ ι → Outcome ε (SamplingBehaviour κ ι)
  | .sampleRequest subnetworkId blobId => self.sample o subnetworkId blobId
  | .establishedOutbound peer => ok (self.handleEstablishedOutboundConnection peer)
  | .taskCompleted task remote => ok (self.taskCompleted task remote)

def run (o : IterOrder κ) (self : SamplingBehaviour κ ι) : List (Op κ ι) → Outcome ε (SamplingBehaviour κ ι)
  | [] => ok self
  | op :: ops => do
    let self ← step o self op
    run o self ops

/-- An event that reports a request for subnetwork `s` and blob `b`: a success
for `b` and `s`, or an error whose blob id is `b`. -/
def NamesRequest (request : SampleRequest ι) : SamplingEvent κ ι → Prop
  | .samplingSuccess blobId subnetworkId => blobId = request.blobId ∧ subnetworkId = request.shareIdx
  | .samplingError error => error.blobId = some request.blobId

/-! ### No queue is ever created -/

namespace SamplingBehaviour

omit [DecidableEq ι] in
/-- When a subnetwork has a member other than the local peer, `sample` does not
panic. -/
theorem sample_ok (o : IterOrder κ) (self : SamplingBehaviour κ ι) {subnetworkId : UInt16}
    (hmember : ∃ peer ∈ self.membersOf subnetworkId, peer ≠ self.localPeerId) (blobId : ι) :
    ∃ self', (self.sample o subnetworkId blobId : Outcome ε (SamplingBehaviour κ ι)) = ok self' ∧
      self'.toSample = self.toSample ∧ self'.membersOf = self.membersOf ∧
      self'.localPeerId = self.localPeerId := by
  obtain ⟨peer, hpeer, hne⟩ := hmember
  have hfilter : ((o.visit (self.membersOf subnetworkId)).filter (· ≠ self.localPeerId)) ≠ [] :=
    List.ne_nil_of_mem (List.mem_filter.mpr ⟨(o.mem_visit _ _).mpr hpeer, by simpa using hne⟩)
  obtain ⟨first, rest, hcons⟩ := List.exists_cons_of_ne_nil hfilter
  refine ⟨{ self with streamTasks := self.streamTasks ++ [⟨first, ⟨blobId, subnetworkId⟩⟩] }, ?_, rfl, rfl, rfl⟩
  rw [sample, hcons, List.head?_cons, expect_some, bind_def, ok_bind]

omit [DecidableEq ι] in
theorem popToSample_of_none {self : SamplingBehaviour κ ι} {peerId : κ}
    (hnone : self.toSample peerId = none) : self.popToSample peerId = none := by
  rw [popToSample, hnone]

/-- Without queues, a completed task leaves the queues as they were, whatever
the remote side did. -/
theorem taskCompleted_toSample {self : SamplingBehaviour κ ι} (hnone : ∀ peer, self.toSample peer = none)
    (task : Task κ ι) (remote : Remote ι) : (self.taskCompleted task remote).toSample = self.toSample := by
  unfold taskCompleted
  cases remote with
  | share blobId shareIdx => simp [taskResult, scheduleOutgoingStreamTask, popToSample, hnone]
  | error blobId columnIdx => simp [taskResult, scheduleOutgoingStreamTask, popToSample, hnone]
  | connectionReset => simp [taskResult, handleStreamError, requeue, hnone]
  | unexpectedEof => simp [taskResult, handleStreamError]
  | otherIoError => simp [taskResult, handleStreamError]
  | openStreamFailed => simp [taskResult, handleStreamError]

omit [DecidableEq ι] in
theorem handleEstablishedOutboundConnection_of_none {self : SamplingBehaviour κ ι} {peer : κ}
    (hnone : self.toSample peer = none) : self.handleEstablishedOutboundConnection peer = self := by
  unfold handleEstablishedOutboundConnection
  split_ifs
  · rw [trySample, popToSample_of_none hnone]
  · rfl

omit [DecidableEq ι] in
/-- Taking the front of a queue changes only that queue. -/
theorem popToSample_eq {self self' : SamplingBehaviour κ ι} {peerId : κ} {next : UInt16 × ι}
    (hpop : self.popToSample peerId = some (next, self')) :
    ∃ rest, self' = { self with toSample := Function.update self.toSample peerId (some rest) } := by
  unfold popToSample at hpop
  split at hpop
  · next rest _ =>
    simp only [Option.some.injEq, Prod.mk.injEq] at hpop
    exact ⟨rest, hpop.2.symm⟩
  · cases hpop

omit [DecidableEq ι] in
/-- A free stream taking its next request adds no event and keeps the
membership. -/
theorem scheduleOutgoingStreamTask_frame (self : SamplingBehaviour κ ι) (peerId : κ) :
    (self.scheduleOutgoingStreamTask peerId).events = self.events ∧
      (self.scheduleOutgoingStreamTask peerId).membersOf = self.membersOf ∧
      (self.scheduleOutgoingStreamTask peerId).localPeerId = self.localPeerId := by
  unfold scheduleOutgoingStreamTask
  split
  · next hpop =>
    obtain ⟨rest, rfl⟩ := popToSample_eq hpop
    exact ⟨rfl, rfl, rfl⟩
  · exact ⟨rfl, rfl, rfl⟩

omit [DecidableEq ι] in
theorem handleEstablishedOutboundConnection_membership (self : SamplingBehaviour κ ι) (peer : κ) :
    (self.handleEstablishedOutboundConnection peer).membersOf = self.membersOf ∧
      (self.handleEstablishedOutboundConnection peer).localPeerId = self.localPeerId := by
  unfold handleEstablishedOutboundConnection trySample
  split_ifs
  · split
    · next hpop =>
      obtain ⟨rest, rfl⟩ := popToSample_eq hpop
      exact ⟨rfl, rfl⟩
    · exact ⟨rfl, rfl⟩
  · exact ⟨rfl, rfl⟩

theorem taskCompleted_membership (self : SamplingBehaviour κ ι) (task : Task κ ι) (remote : Remote ι) :
    (self.taskCompleted task remote).membersOf = self.membersOf ∧
      (self.taskCompleted task remote).localPeerId = self.localPeerId := by
  unfold taskCompleted
  cases remote with
  | share blobId shareIdx => simp [taskResult, scheduleOutgoingStreamTask_frame]
  | error blobId columnIdx => simp [taskResult, scheduleOutgoingStreamTask_frame]
  | connectionReset =>
    simp only [taskResult, handleStreamError, requeue]
    split <;> exact ⟨rfl, rfl⟩
  | unexpectedEof | otherIoError | openStreamFailed => exact ⟨rfl, rfl⟩

/-- Completing a task adds to the events exactly `completionEvents`. -/
theorem taskCompleted_events (self : SamplingBehaviour κ ι) (task : Task κ ι) (remote : Remote ι) :
    (self.taskCompleted task remote).events = self.events ++ completionEvents task remote := by
  unfold taskCompleted
  cases remote with
  | share blobId shareIdx =>
    simp [taskResult, scheduleOutgoingStreamTask_frame, handleSampleResponse, completionEvents]
  | error blobId columnIdx =>
    simp [taskResult, scheduleOutgoingStreamTask_frame, handleSampleResponse, completionEvents]
  | connectionReset =>
    simp only [taskResult, handleStreamError, requeue, completionEvents, List.append_nil]
    split <;> rfl
  | unexpectedEof => simp [taskResult, handleStreamError, completionEvents]
  | otherIoError => simp [taskResult, handleStreamError, completionEvents]
  | openStreamFailed => simp [taskResult, handleStreamError, completionEvents]

end SamplingBehaviour

/-- A step keeps every peer without a queue, and the membership. -/
theorem step_toSample (o : IterOrder κ) {self self' : SamplingBehaviour κ ι}
    (hnone : ∀ peer, self.toSample peer = none) {op : Op κ ι}
    (hstep : (step o self op : Outcome ε (SamplingBehaviour κ ι)) = ok self') :
    self'.toSample = self.toSample := by
  cases op with
  | sampleRequest subnetworkId blobId =>
    simp only [step, SamplingBehaviour.sample, bind_def, bind_eq_ok] at hstep
    obtain ⟨peer, -, hself'⟩ := hstep
    cases hself'
    rfl
  | establishedOutbound peer =>
    cases hstep
    rw [SamplingBehaviour.handleEstablishedOutboundConnection_of_none (hnone peer)]
  | taskCompleted task remote =>
    cases hstep
    exact SamplingBehaviour.taskCompleted_toSample hnone task remote

/-- No run ever gives a peer a queue: `to_sample` is only read, never filled. The
induction is on the run, from any state without queues. -/
theorem run_toSample (o : IterOrder κ) {self self' : SamplingBehaviour κ ι}
    (hnone : ∀ peer, self.toSample peer = none) {ops : List (Op κ ι)}
    (hrun : (run o self ops : Outcome ε (SamplingBehaviour κ ι)) = ok self') :
    ∀ peer, self'.toSample peer = none := by
  induction ops generalizing self with
  | nil =>
    cases hrun
    exact hnone
  | cons op ops ih =>
    simp only [run, bind_def, bind_eq_ok] at hrun
    obtain ⟨self₁, hstep, hrest⟩ := hrun
    exact ih (fun peer => step_toSample o hnone hstep ▸ hnone peer) hrest

/-- Under a membership in which every subnetwork has a member other than the
local peer, no step panics, and the membership stays. -/
theorem step_ok (o : IterOrder κ) {self : SamplingBehaviour κ ι}
    (hmembers : ∀ s, ∃ peer ∈ self.membersOf s, peer ≠ self.localPeerId) (op : Op κ ι) :
    ∃ self', (step o self op : Outcome ε (SamplingBehaviour κ ι)) = ok self' ∧
      self'.membersOf = self.membersOf ∧ self'.localPeerId = self.localPeerId := by
  cases op with
  | sampleRequest subnetworkId blobId =>
    obtain ⟨self', hsample, -, hmembersOf, hlocal⟩ :=
      SamplingBehaviour.sample_ok o self (hmembers subnetworkId) blobId
    exact ⟨self', hsample, hmembersOf, hlocal⟩
  | establishedOutbound peer =>
    exact ⟨_, rfl, SamplingBehaviour.handleEstablishedOutboundConnection_membership self peer⟩
  | taskCompleted task remote =>
    exact ⟨_, rfl, SamplingBehaviour.taskCompleted_membership self task remote⟩

/-- Every run under such a membership returns: the behaviour never panics. -/
theorem run_ok (o : IterOrder κ) {self : SamplingBehaviour κ ι}
    (hmembers : ∀ s, ∃ peer ∈ self.membersOf s, peer ≠ self.localPeerId) (ops : List (Op κ ι)) :
    ∃ self', (run o self ops : Outcome ε (SamplingBehaviour κ ι)) = ok self' := by
  induction ops generalizing self with
  | nil => exact ⟨self, rfl⟩
  | cons op ops ih =>
    obtain ⟨self₁, hstep, hmembersOf, hlocal⟩ := step_ok (ε := ε) o hmembers op
    obtain ⟨self', hrest⟩ := @ih self₁ (hmembersOf ▸ hlocal ▸ hmembers)
    exact ⟨self', by simp only [run, bind_def, hstep, ok_bind, hrest]⟩

/-- From any state a run reaches from `new`, a completed task is not accounted
for as each request should be. After a reset connection or an early end of the
stream, no event is added and no peer has a queue to take the request back;
after a failed stream opening, or an answer carrying another blob's share, the
one event added does not name the request. -/
theorem completed_request_not_accounted (o : IterOrder κ) (localPeerId : κ)
    (membersOf : UInt16 → Finset κ) (isAllowed : κ → Bool) {ops : List (Op κ ι)}
    {self : SamplingBehaviour κ ι}
    (hrun : (run o (SamplingBehaviour.new localPeerId membersOf isAllowed) ops :
      Outcome ε (SamplingBehaviour κ ι)) = ok self) (task : Task κ ι) :
    (∀ remote, remote = .connectionReset ∨ remote = .unexpectedEof →
      (self.taskCompleted task remote).events = self.events ∧
        ∀ peer, (self.taskCompleted task remote).toSample peer = none) ∧
    (∃ event, (self.taskCompleted task .openStreamFailed).events = self.events ++ [event] ∧
      ¬ NamesRequest task.request event) ∧
    ∀ blobId shareIdx, blobId ≠ task.request.blobId →
      ∃ event, (self.taskCompleted task (.share blobId shareIdx)).events = self.events ++ [event] ∧
        ¬ NamesRequest task.request event := by
  have hnone : ∀ peer, self.toSample peer = none := run_toSample o (fun _ => rfl) hrun
  refine ⟨?_, ?_, ?_⟩
  · rintro remote hremote
    have hdropped : completionEvents task remote = [] := by
      rcases hremote with rfl | rfl <;> rfl
    refine ⟨by rw [SamplingBehaviour.taskCompleted_events, hdropped, List.append_nil], fun peer => ?_⟩
    rw [SamplingBehaviour.taskCompleted_toSample hnone]
    exact hnone peer
  · refine ⟨_, SamplingBehaviour.taskCompleted_events self task .openStreamFailed, ?_⟩
    simp [NamesRequest, SamplingError.blobId]
  · intro blobId shareIdx hother
    exact ⟨_, SamplingBehaviour.taskCompleted_events self task (.share blobId shareIdx),
      fun hnames => hother hnames.1⟩

/-- The state after one request for blob `7` of subnetwork `0`, whose only member
is peer `1`, from local peer `0`. -/
def oneRequestSampled : SamplingBehaviour ℕ ℕ :=
  ⟨0, fun _ => {1}, fun _ => true, [⟨1, ⟨7, 0⟩⟩], fun _ => none, [], []⟩

theorem completed_request_not_accounted_one_request :
    (run IterOrder.sorted (SamplingBehaviour.new 0 (fun _ => {1}) (fun _ => true))
        [.sampleRequest 0 7] : Outcome Unit (SamplingBehaviour ℕ ℕ)) = ok oneRequestSampled ∧
      ⟨1, ⟨7, 0⟩⟩ ∈ oneRequestSampled.streamTasks ∧
      (oneRequestSampled.taskCompleted ⟨1, ⟨7, 0⟩⟩ .connectionReset).events = [] ∧
      ∀ peer, (oneRequestSampled.taskCompleted ⟨1, ⟨7, 0⟩⟩ .connectionReset).toSample peer = none :=
  have hrun : (run IterOrder.sorted (SamplingBehaviour.new 0 (fun _ => {1}) (fun _ => true))
      [.sampleRequest 0 7] : Outcome Unit (SamplingBehaviour ℕ ℕ)) = ok oneRequestSampled := rfl
  ⟨hrun, List.mem_singleton_self _,
    (completed_request_not_accounted IterOrder.sorted 0 _ _ hrun ⟨1, ⟨7, 0⟩⟩).1 _ (Or.inl rfl)⟩

end SamplingProtocol
