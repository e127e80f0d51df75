import NomosNode.Lib.IterOrder
import Mathlib.Data.Finset.Card

/-!
# The executor side of the dispersal protocol

`nomos-da/network/core/src/protocols/dispersal/executor/behaviour.rs`: each
share of a blob goes to a task on an idle stream of each connected member of its
subnetwork, or to that member's queue, or, before any stream to the subnetwork
opened, to the subnetwork's pending queue; a closed connection moves the peer's
queue back there. The behaviour is a state record changed by its callbacks and
the parts of `poll`, with its emitted events as a log and the hash sets visited
in an `IterOrder`. The subnetworks with an open stream only grow, so after the
one member of a subnetwork disconnects a share for it is neither queued, nor
sent, nor reported.
-/

namespace DispersalExecutor

variable {κ β ι : Type} [DecidableEq κ] [DecidableEq β]

/-- The response of a member: the blob id it took, or its error for a blob. -/
inductive DispersalResponse (ι : Type) where
  | blobId (blobId : ι)
  | error (blobId : ι)
  deriving DecidableEq, Repr

/-- `DispersalError`, with the fields the model keeps. -/
inductive DispersalError (κ ι : Type) where
  | io (peerId : κ) (blobId : ι) (subnetworkId : UInt16)
  | protocol (subnetworkId : UInt16) (blobId : ι)
  | openStreamError (peerId : κ)
  deriving DecidableEq, Repr

namespace DispersalError

/-- `DispersalError::blob_id`. -/
def blobId : DispersalError κ ι → Option ι
  | .io _ blobId _ | .protocol _ blobId => some blobId
  | .openStreamError _ => none

/-- `DispersalError::subnetwork_id`. -/
def subnetworkId : DispersalError κ ι → Option UInt16
  | .io _ _ subnetworkId | .protocol subnetworkId _ => some subnetworkId
  | .openStreamError _ => none

end DispersalError

/-- `DispersalExecutorEvent`. -/
inductive DispersalExecutorEvent (κ ι : Type) where
  | dispersalSuccess (blobId : ι) (subnetworkId : UInt16)
  | dispersalError (error : DispersalError κ ι)
  deriving DecidableEq, Repr

/-- A `stream_disperse` task: the share it writes to a peer's stream. -/
structure Task (κ β : Type) where
  peerId : κ
  share : β
  subnetworkId : UInt16
  deriving DecidableEq, Repr

/-- `DispersalExecutorBehaviour`: a map from a key to a queue is a function, an
absent key holding the empty queue. -/
structure DispersalExecutorBehaviour (κ β ι : Type) where
  membership : κ → Finset UInt16
  membersOf : UInt16 → Finset κ
  tasks : List (Task κ β)
  idleStreams : Finset κ
  toDisperse : κ → List (UInt16 × β)
  disconnectedPendingShares : UInt16 → List β
  connectedPeers : Finset κ
  subnetworkOpenStreams : Finset UInt16
  /-- The peers whose streams are being opened, in the order they were asked for. -/
  pendingOutStreams : List κ
  events : List (DispersalExecutorEvent κ ι)

namespace DispersalExecutorBehaviour

/-- `DispersalExecutorBehaviour::new`. -/
def new (membership : κ → Finset UInt16) (membersOf : UInt16 → Finset κ) :
    DispersalExecutorBehaviour κ β ι :=
  ⟨membership, membersOf, [], ∅, fun _ => [], fun _ => [], ∅, ∅, [], []⟩

/-- `handle_stream`: a free stream takes the next share queued for its peer, or
is parked as idle. -/
def handleStream (self : DispersalExecutorBehaviour κ β ι) (peerId : κ) :
    DispersalExecutorBehaviour κ β ι :=
  match self.toDisperse peerId with
  | (subnetworkId, share) :: rest =>
    { self with
      tasks := self.tasks ++ [⟨peerId, share, subnetworkId⟩]
      toDisperse := Function.update self.toDisperse peerId rest }
  | [] => { self with idleStreams := insert peerId self.idleStreams }

/-- The body of the loop of `disperse_share` for one connected member. -/
def disperseShareTo (subnetworkId : UInt16) (share : β) (self : DispersalExecutorBehaviour κ β ι)
    (peer : κ) : DispersalExecutorBehaviour κ β ι :=
  if peer ∈ self.idleStreams then
    { self with
      idleStreams := self.idleStreams.erase peer
      tasks := self.tasks ++ [⟨peer, share, subnetworkId⟩] }
  else
    { self with
      toDisperse := Function.update self.toDisperse peer
        (self.toDisperse peer ++ [(subnetworkId, share)]) }

/-- `disperse_share`: a task for each connected member of the subnetwork with an
idle stream, the share queued for each other connected member. -/
def disperseShare (o : IterOrder κ) (self : DispersalExecutorBehaviour κ β ι)
    (subnetworkId : UInt16) (share : β) : DispersalExecutorBehaviour κ β ι :=
  (o.visit ((self.membersOf subnetworkId).filter (· ∈ self.connectedPeers))).foldl
    (disperseShareTo subnetworkId share) self

/-- The body of the loop of `reschedule_shares_for_peer_stream` for one of the
peer's subnetworks: its pending shares move to the peer's queue. -/
def rescheduleSubnetwork (peerId : κ) (self : DispersalExecutorBehaviour κ β ι)
    (subnetwork : UInt16) : DispersalExecutorBehaviour κ β ι :=
  { self with
    toDisperse := Function.update self.toDisperse peerId
      (self.toDisperse peerId ++ (self.disconnectedPendingShares subnetwork).map (subnetwork, ·))
    disconnectedPendingShares := Function.update self.disconnectedPendingShares subnetwork [] }

/-- `reschedule_shares_for_peer_stream`. -/
def rescheduleSharesForPeerStream (oSubnetworks : IterOrder UInt16)
    (self : DispersalExecutorBehaviour κ β ι) (peerId : κ) : DispersalExecutorBehaviour κ β ι :=
  (oSubnetworks.visit (self.membership peerId)).foldl (rescheduleSubnetwork peerId) self

/-- `recover_shares_for_disconnected_subnetworks`: the peer's queue, in order,
back to the pending queues of its subnetworks. -/
def recoverSharesForDisconnectedSubnetworks (self : DispersalExecutorBehaviour κ β ι)
    (peerId : κ) : DispersalExecutorBehaviour κ β ι :=
  let recovered := (self.toDisperse peerId).foldl (fun pending (subnetworkId, share) =>
    Function.update pending subnetworkId (pending subnetworkId ++ [share]))
    self.disconnectedPendingShares
  { self with
    toDisperse := Function.update self.toDisperse peerId []
    disconnectedPendingShares := recovered }

/-- `handle_connection_closed`. -/
def handleConnectionClosed (self : DispersalExecutorBehaviour κ β ι) (peerId : κ) :
    DispersalExecutorBehaviour κ β ι :=
  if peerId ∈ self.connectedPeers then
    { self with connectedPeers := self.connectedPeers.erase peerId }
      |>.recoverSharesForDisconnectedSubnetworks peerId
  else self

/-- `handle_established_outbound_connection`: the peer is connected, and a stream
to it is asked for. -/
def handleEstablishedOutboundConnection (self : DispersalExecutorBehaviour κ β ι) (peer : κ) :
    DispersalExecutorBehaviour κ β ι :=
  { self with
    connectedPeers := insert peer self.connectedPeers
    pendingOutStreams := self.pendingOutStreams ++ [peer] }

/-- The part of `poll` for a completed task: its stream is free again and its
result reported, or its error reported and its stream dropped. -/
def taskCompleted (self : DispersalExecutorBehaviour κ β ι) (blobId : β → ι) (task : Task κ β)
    (result : Option (DispersalResponse ι)) : DispersalExecutorBehaviour κ β ι :=
  let self := { self with tasks := self.tasks.erase task }
  match result with
  | some response =>
    let self := self.handleStream task.peerId
    let event := match response with
      | .error responseBlobId => .dispersalError (.protocol task.subnetworkId responseBlobId)
      | .blobId _ => .dispersalSuccess (blobId task.share) task.subnetworkId
    { self with events := self.events ++ [event] }
  | none =>
    { self with events := self.events ++
      [.dispersalError (.io task.peerId (blobId task.share) task.subnetworkId)] }

/-- The part of `poll` for a share taken from the shares channel. -/
def shareTaken (o : IterOrder κ) (self : DispersalExecutorBehaviour κ β ι) (subnetworkId : UInt16)
    (share : β) : DispersalExecutorBehaviour κ β ι :=
  if subnetworkId ∈ self.subnetworkOpenStreams then self.disperseShare o subnetworkId share
  else
    { self with
      disconnectedPendingShares := Function.update self.disconnectedPendingShares subnetworkId
        (self.disconnectedPendingShares subnetworkId ++ [share]) }

/-- The part of `poll` for the next stream the control opened, or failed to. -/
def streamOpened (oSubnetworks : IterOrder UInt16) (self : DispersalExecutorBehaviour κ β ι)
    (opened : Bool) : DispersalExecutorBehaviour κ β ι :=
  match self.pendingOutStreams with
  | [] => self
  | peerId :: rest =>
    let self := { self with pendingOutStreams := rest }
    if opened then
      let self := { self with
        subnetworkOpenStreams := self.subnetworkOpenStreams ∪ self.membership peerId }
      (self.rescheduleSharesForPeerStream oSubnetworks peerId).handleStream peerId
    else { self with events := self.events ++ [.dispersalError (.openStreamError peerId)] }

end DispersalExecutorBehaviour

/-- What happens to the executor: a connection is established or closed, a task
completes with a response or an error, a share is taken from the channel, or a
stream opens or fails to. -/
inductive Op (κ β ι : Type) where
  | establishedOutbound (peer : κ)
  | connectionClosed (peer : κ)
  | taskCompleted (task : Task κ β) (result : Option (DispersalResponse ι))
  | shareTaken (subnetworkId : UInt16) (share : β)
  | streamOpened (opened : Bool)

section Run

variable (blobId : β → ι) (o : IterOrder κ) (oSubnetworks : IterOrder UInt16)

def step (self : DispersalExecutorBehaviour κ β ι) : Op κ β ι → DispersalExecutorBehaviour κ β ι
  | .establishedOutbound peer => self.handleEstablishedOutboundConnection peer
  | .connectionClosed peer => self.handleConnectionClosed peer
  | .taskCompleted task result => self.taskCompleted blobId task result
  | .shareTaken subnetworkId share => self.shareTaken o subnetworkId share
  | .streamOpened opened => self.streamOpened oSubnetworks opened

def run (self : DispersalExecutorBehaviour κ β ι) (ops : List (Op κ β ι)) :
    DispersalExecutorBehaviour κ β ι :=
  ops.foldl (step blobId o oSubnetworks) self

/-- Where a share taken from the channel can be: queued for a member of its
subnetwork, pending for the subnetwork, in a task, or reported. -/
def Accounted (self : DispersalExecutorBehaviour κ β ι) (subnetworkId : UInt16) (share : β) : Prop :=
  (∃ peer ∈ self.membersOf subnetworkId, (subnetworkId, share) ∈ self.toDisperse peer) ∨
    share ∈ self.disconnectedPendingShares subnetworkId ∨
    (∃ task ∈ self.tasks, task.subnetworkId = subnetworkId ∧ task.share = share) ∨
    .dispersalSuccess (blobId share) subnetworkId ∈ self.events ∨
    ∃ error, .dispersalError error ∈ self.events ∧ error.blobId = some (blobId share) ∧
      error.subnetworkId = some subnetworkId

end Run

/-! ### A share for a subnetwork whose members left -/

namespace DispersalExecutorBehaviour

omit [DecidableEq β] in
/-- A share for a subnetwork with an open stream and no connected member is
taken from the channel and changes nothing: no task, no queue, no event. -/
theorem shareTaken_of_no_connected_member (o : IterOrder κ) {self : DispersalExecutorBehaviour κ β ι}
    {subnetworkId : UInt16} (hopen : subnetworkId ∈ self.subnetworkOpenStreams)
    (hmembers : ∀ peer ∈ self.membersOf subnetworkId, peer ∉ self.connectedPeers) (share : β) :
    self.shareTaken o subnetworkId share = self := by
  have hnone : (self.membersOf subnetworkId).filter (· ∈ self.connectedPeers) = ∅ :=
    Finset.filter_eq_empty_iff.mpr hmembers
  rw [shareTaken, if_pos hopen, disperseShare, hnone, o.visit_empty, List.foldl_nil]

/-- No task, no event, and every queue empty. -/
structure Quiet (executor : DispersalExecutorBehaviour κ β ι) : Prop where
  tasks : executor.tasks = []
  events : executor.events = []
  toDisperse : ∀ peer, executor.toDisperse peer = []
  pending : ∀ subnetworkId, executor.disconnectedPendingShares subnetworkId = []

omit [DecidableEq κ] [DecidableEq β] in
theorem quiet_new (membership : κ → Finset UInt16) (membersOf : UInt16 → Finset κ) :
    (new membership membersOf : DispersalExecutorBehaviour κ β ι).Quiet :=
  ⟨rfl, rfl, fun _ => rfl, fun _ => rfl⟩

omit [DecidableEq β] in
theorem Quiet.handleEstablishedOutboundConnection {self : DispersalExecutorBehaviour κ β ι}
    (hquiet : self.Quiet) (peer : κ) : (self.handleEstablishedOutboundConnection peer).Quiet :=
  ⟨hquiet.tasks, hquiet.events, hquiet.toDisperse, hquiet.pending⟩

omit [DecidableEq β] in
/-- With every queue empty, a stream that opens moves no share and is parked. -/
theorem Quiet.rescheduleSharesForPeerStream {self : DispersalExecutorBehaviour κ β ι}
    (hquiet : self.Quiet) (oSubnetworks : IterOrder UInt16) (peerId : κ) :
    (self.rescheduleSharesForPeerStream oSubnetworks peerId).Quiet := by
  unfold DispersalExecutorBehaviour.rescheduleSharesForPeerStream
  -- the induction is on the subnetworks visited, each keeping every queue empty
  generalize oSubnetworks.visit (self.membership peerId) = subnetworks
  induction subnetworks generalizing self with
  | nil => exact hquiet
  | cons subnetwork subnetworks ih =>
    refine ih ⟨hquiet.tasks, hquiet.events, fun peer => ?_, fun t => ?_⟩
    · by_cases hpeer : peer = peerId
      · subst hpeer
        simp [rescheduleSubnetwork, hquiet.toDisperse, hquiet.pending]
      · simp [rescheduleSubnetwork, hpeer, hquiet.toDisperse]
    · by_cases ht : t = subnetwork
      · subst ht
        simp [rescheduleSubnetwork]
      · simp [rescheduleSubnetwork, ht, hquiet.pending]

omit [DecidableEq β] in
theorem Quiet.handleStream {self : DispersalExecutorBehaviour κ β ι} (hquiet : self.Quiet)
    (peerId : κ) : (self.handleStream peerId).Quiet := by
  rw [DispersalExecutorBehaviour.handleStream, hquiet.toDisperse peerId]
  exact ⟨hquiet.tasks, hquiet.events, hquiet.toDisperse, hquiet.pending⟩

omit [DecidableEq β] in
theorem Quiet.handleConnectionClosed {self : DispersalExecutorBehaviour κ β ι}
    (hquiet : self.Quiet) (peerId : κ) : (self.handleConnectionClosed peerId).Quiet := by
  unfold DispersalExecutorBehaviour.handleConnectionClosed
  split_ifs
  · refine ⟨hquiet.tasks, hquiet.events, fun peer => ?_, fun t => ?_⟩
    · by_cases hpeer : peer = peerId
      · subst hpeer
        simp [recoverSharesForDisconnectedSubnetworks]
      · simp [recoverSharesForDisconnectedSubnetworks, hpeer, hquiet.toDisperse]
    · simp [recoverSharesForDisconnectedSubnetworks, hquiet.toDisperse, hquiet.pending]
  · exact hquiet

omit [DecidableEq β] in
theorem Quiet.streamOpened {self : DispersalExecutorBehaviour κ β ι} (hquiet : self.Quiet)
    (oSubnetworks : IterOrder UInt16) : (self.streamOpened oSubnetworks true).Quiet := by
  unfold DispersalExecutorBehaviour.streamOpened
  split
  · exact hquiet
  · dsimp only
    rw [if_pos rfl]
    apply Quiet.handleStream
    apply Quiet.rescheduleSharesForPeerStream
    exact ⟨hquiet.tasks, hquiet.events, hquiet.toDisperse, hquiet.pending⟩

omit [DecidableEq β] in
/-- Rescheduling moves shares between the queues, and changes nothing else. -/
theorem rescheduleSharesForPeerStream_eq (oSubnetworks : IterOrder UInt16)
    (self : DispersalExecutorBehaviour κ β ι) (peerId : κ) :
    ∃ toDisperse pending, self.rescheduleSharesForPeerStream oSubnetworks peerId =
      { self with toDisperse := toDisperse, disconnectedPendingShares := pending } := by
  unfold DispersalExecutorBehaviour.rescheduleSharesForPeerStream
  generalize oSubnetworks.visit (self.membership peerId) = subnetworks
  induction subnetworks generalizing self with
  | nil => exact ⟨self.toDisperse, self.disconnectedPendingShares, rfl⟩
  | cons subnetwork subnetworks ih =>
    obtain ⟨toDisperse, pending, hfold⟩ := ih (self.rescheduleSubnetwork peerId subnetwork)
    exact ⟨toDisperse, pending, hfold⟩

omit [DecidableEq β] in
@[simp] theorem handleStream_connectedPeers (self : DispersalExecutorBehaviour κ β ι) (peerId : κ) :
    (self.handleStream peerId).connectedPeers = self.connectedPeers := by
  unfold DispersalExecutorBehaviour.handleStream
  split <;> rfl

omit [DecidableEq β] in
@[simp] theorem handleStream_subnetworkOpenStreams (self : DispersalExecutorBehaviour κ β ι)
    (peerId : κ) :
    (self.handleStream peerId).subnetworkOpenStreams = self.subnetworkOpenStreams := by
  unfold DispersalExecutorBehaviour.handleStream
  split <;> rfl

omit [DecidableEq β] in
/-- The stream asked for first opens: the peer's subnetworks are marked open,
and the connected peers stay. -/
theorem streamOpened_of_head (self : DispersalExecutorBehaviour κ β ι) {peerId : κ} {rest : List κ}
    (hpending : self.pendingOutStreams = peerId :: rest) (oSubnetworks : IterOrder UInt16) :
    (self.streamOpened oSubnetworks true).subnetworkOpenStreams =
        self.subnetworkOpenStreams ∪ self.membership peerId ∧
      (self.streamOpened oSubnetworks true).connectedPeers = self.connectedPeers := by
  unfold DispersalExecutorBehaviour.streamOpened
  rw [hpending]
  dsimp only
  rw [if_pos rfl]
  obtain ⟨toDisperse, pending, hreschedule⟩ := rescheduleSharesForPeerStream_eq oSubnetworks
    { self with
      pendingOutStreams := rest
      subnetworkOpenStreams := self.subnetworkOpenStreams ∪ self.membership peerId } peerId
  rw [hreschedule, handleStream_subnetworkOpenStreams, handleStream_connectedPeers]
  exact ⟨rfl, rfl⟩

omit [DecidableEq β] in
@[simp] theorem handleConnectionClosed_subnetworkOpenStreams (self : DispersalExecutorBehaviour κ β ι)
    (peerId : κ) :
    (self.handleConnectionClosed peerId).subnetworkOpenStreams = self.subnetworkOpenStreams := by
  unfold DispersalExecutorBehaviour.handleConnectionClosed
  split_ifs <;> rfl

omit [DecidableEq β] in
@[simp] theorem handleConnectionClosed_connectedPeers (self : DispersalExecutorBehaviour κ β ι)
    (peerId : κ) :
    (self.handleConnectionClosed peerId).connectedPeers = self.connectedPeers.erase peerId := by
  unfold DispersalExecutorBehaviour.handleConnectionClosed
  split_ifs with hconnected
  · rfl
  · exact (Finset.erase_eq_of_notMem hconnected).symm

omit [DecidableEq κ] [DecidableEq β] in
theorem not_accounted_of_quiet (blobId : β → ι) {self : DispersalExecutorBehaviour κ β ι}
    (hquiet : self.Quiet) (subnetworkId : UInt16) (share : β) :
    ¬ Accounted blobId self subnetworkId share := by
  simp [Accounted, hquiet.tasks, hquiet.events, hquiet.toDisperse, hquiet.pending]

end DispersalExecutorBehaviour

open DispersalExecutorBehaviour in
/-- The executor drops a share. The one connected peer's stream opens, which
marks its subnetworks as having an open stream, and its connection closes,
which does not unmark them; a share for one of them then finds no connected
member to send it to or queue it for, and is not kept for the subnetwork
either: it is not queued, not sent and not reported. -/
theorem share_dropped_after_disconnect (blobId : β → ι) (o : IterOrder κ)
    (oSubnetworks : IterOrder UInt16) (membership : κ → Finset UInt16)
    (membersOf : UInt16 → Finset κ) {peer : κ} {subnetworkId : UInt16}
    (hsubnetwork : subnetworkId ∈ membership peer) (share : β) :
    ¬ Accounted blobId (run blobId o oSubnetworks (new membership membersOf)
      [.establishedOutbound peer, .streamOpened true, .connectionClosed peer,
        .shareTaken subnetworkId share]) subnetworkId share := by
  set connected := (new membership membersOf : DispersalExecutorBehaviour κ β ι)
    |>.handleEstablishedOutboundConnection peer
  set opened := connected.streamOpened oSubnetworks true
  have hopened := streamOpened_of_head connected
    (show connected.pendingOutStreams = [peer] from rfl) oSubnetworks
  have hclosed : subnetworkId ∈ (opened.handleConnectionClosed peer).subnetworkOpenStreams ∧
      (opened.handleConnectionClosed peer).connectedPeers = ∅ := by
    rw [handleConnectionClosed_subnetworkOpenStreams, handleConnectionClosed_connectedPeers,
      hopened.1, hopened.2]
    simp [connected, handleEstablishedOutboundConnection, new, hsubnetwork]
  have hquiet : (opened.handleConnectionClosed peer).Quiet :=
    (((quiet_new membership membersOf).handleEstablishedOutboundConnection peer).streamOpened
      oSubnetworks).handleConnectionClosed peer
  have hrun : run blobId o oSubnetworks (new membership membersOf)
      [.establishedOutbound peer, .streamOpened true, .connectionClosed peer,
        .shareTaken subnetworkId share] = opened.handleConnectionClosed peer := by
    simp only [run, List.foldl_cons, List.foldl_nil, step]
    exact shareTaken_of_no_connected_member o hclosed.1 (fun p _ => hclosed.2 ▸ Finset.notMem_empty p) share
  rw [hrun]
  exact not_accounted_of_quiet blobId hquiet subnetworkId share

/-- An executor for peers, shares and blob ids that are numbers, where every peer
is in subnetwork `0`, whose members are `{1}`. -/
def oneSubnetworkExecutor : DispersalExecutorBehaviour ℕ ℕ ℕ :=
  .new (fun _ => {0}) (fun _ => {1})

theorem share_dropped_after_disconnect_one_peer :
    (0 : UInt16) ∈ oneSubnetworkExecutor.membership 1 ∧
      ¬ Accounted id (run id IterOrder.sorted
        (IterOrder.sortedBy UInt16.toNat fun _ _ h => UInt16.toNat_inj.mp h) oneSubnetworkExecutor
        [.establishedOutbound 1, .streamOpened true, .connectionClosed 1, .shareTaken 0 7]) 0 7 :=
  ⟨Finset.mem_singleton_self _,
    @share_dropped_after_disconnect ℕ ℕ ℕ _ _ id IterOrder.sorted
      (IterOrder.sortedBy UInt16.toNat fun _ _ h => UInt16.toNat_inj.mp h) (fun _ => {0})
      (fun _ => {1}) 1 0 (Finset.mem_singleton_self _) 7⟩

end DispersalExecutor
