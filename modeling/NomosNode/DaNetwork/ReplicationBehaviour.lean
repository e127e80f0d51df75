import NomosNode.Lib.TimedSizedCache
import NomosNode.Lib.IterOrder
import NomosNode.Lib.Mealy
import NomosNode.DaMessages.Packing
import NomosNode.DaNetwork.Replication

/-!
# The replication behaviour

`nomos-da/network/core/src/protocols/replication/behaviour.rs`: every share is
replicated once to the connected members of its subnetwork, its id kept in a
seen cache of bounded size whose entries expire. The behaviour is a state record
changed by the swarm's calls and the parts of `poll`; what its futures yield
(tasks by index and result, streams opened) is an input, `wire::serialize` a
parameter, and the connected peers are visited in an `IterOrder`. From `new`,
every run queues messages only for connected members other than the node, or
stops at the panic of `try_write_message`; a copy handled within the lifespan
of the cache is dropped.
-/

namespace Replication.PendingOutbound

open Outcome

variable {κ μ : Type} [DecidableEq κ]

/-- Every queued message and the peer it is queued for are related by `P`. -/
def QueuesFor (P : κ → μ → Prop) (self : PendingOutbound κ μ) : Prop :=
  ∀ p queue, self.messages.get? p = some queue → ∀ m ∈ queue, P p m

theorem get?_enqueueMessage (self : PendingOutbound κ μ) (peerId p : κ) (message : μ) :
    (self.enqueueMessage peerId message).messages.get? p =
      if p = peerId then some ((self.messages.get? p).getD [] ++ [message])
      else self.messages.get? p := by
  show ((self.messages.orInsert peerId []).modify peerId (· ++ [message])).get? p = _
  rw [LinkedMap.get?_modify]
  split_ifs with hp
  · subst hp
    rw [LinkedMap.get?_orInsert_self]
    rfl
  · exact LinkedMap.get?_orInsert_of_ne _ _ hp

theorem QueuesFor.enqueueMessage {P : κ → μ → Prop} {self : PendingOutbound κ μ}
    (h : self.QueuesFor P) {peerId : κ} {message : μ} (hP : P peerId message) :
    (self.enqueueMessage peerId message).QueuesFor P := by
  intro p queue hqueue m hm
  rw [get?_enqueueMessage] at hqueue
  split_ifs at hqueue with hp
  · subst hp
    obtain rfl := Option.some.inj hqueue
    rcases List.mem_append.mp hm with hm | hm
    · cases hold : self.messages.get? p with
      | none => simp [hold] at hm
      | some old =>
        rw [hold, Option.getD_some] at hm
        exact h p old hold m hm
    · rw [List.mem_singleton.mp hm]
      exact hP
  · exact h p queue hqueue m hm

/-- Taking the front of a queue keeps the rest where it was. -/
theorem QueuesFor.modify_tail {P : κ → μ → Prop} {self : PendingOutbound κ μ}
    (h : self.QueuesFor P) (peerId : κ) (lastScheduled : Option κ) :
    (⟨self.messages.modify peerId List.tail, lastScheduled⟩ : PendingOutbound κ μ).QueuesFor P := by
  intro p queue hqueue m hm
  change (self.messages.modify peerId List.tail).get? p = some queue at hqueue
  rw [LinkedMap.get?_modify] at hqueue
  split_ifs at hqueue
  · obtain ⟨old, hold, rfl⟩ := Option.map_eq_some_iff.mp hqueue
    exact h p old hold m (List.mem_of_mem_tail hm)
  · exact h p queue hqueue m hm

theorem QueuesFor.erase {P : κ → μ → Prop} {self : PendingOutbound κ μ} (h : self.QueuesFor P)
    (peerId : κ) (lastScheduled : Option κ) :
    (⟨self.messages.erase peerId, lastScheduled⟩ : PendingOutbound κ μ).QueuesFor P := by
  intro p queue hqueue m hm
  change (self.messages.erase peerId).get? p = some queue at hqueue
  by_cases hp : p = peerId
  · subst hp
    rw [LinkedMap.get?_eq_none_iff.mpr fun hmem => (LinkedMap.mem_keys_erase.mp hmem).1 rfl] at hqueue
    cases hqueue
  · rw [LinkedMap.get?_erase_of_ne _ hp] at hqueue
    exact h p queue hqueue m hm

/-- Queuing a message for peers of a set, each related to it by `P`, keeps the
marker a key, the queues' peers in the set, and every queue related by `P`. -/
theorem foldl_enqueueMessage {P : κ → μ → Prop} {S : Finset κ} {message : μ} :
    ∀ (peers : List κ) (self : PendingOutbound κ μ), (∀ p ∈ peers, p ∈ S ∧ P p message) →
      self.MarkerValid → (∀ p ∈ self.messages.keys, p ∈ S) → self.QueuesFor P →
      let self' := peers.foldl (fun pending peerId => pending.enqueueMessage peerId message) self
      self'.MarkerValid ∧ (∀ p ∈ self'.messages.keys, p ∈ S) ∧ self'.QueuesFor P := by
  intro peers
  induction peers with
  | nil => exact fun self _ hmarker hkeys hqueues => ⟨hmarker, hkeys, hqueues⟩
  | cons peerId peers ih =>
    intro self hpeers hmarker hkeys hqueues
    obtain ⟨hS, hP⟩ := hpeers peerId List.mem_cons_self
    refine ih _ (fun p hp => hpeers p (List.mem_cons_of_mem _ hp))
      (hmarker.enqueueMessage peerId message) ?_ (hqueues.enqueueMessage hP)
    intro p hp
    rcases mem_keys_enqueueMessage.mp hp with rfl | hp
    · exact hS
    · exact hkeys p hp

end Replication.PendingOutbound

namespace ReplicationProtocol

open Outcome Replication NomosDaMessages

variable {κ ι δ ε : Type}

/-- `Share`: the blob it belongs to and its data. -/
structure Share (ι δ : Type) where
  blobId : ι
  data : δ
  deriving DecidableEq

/-- `ReplicationRequest`. -/
structure ReplicationRequest (ι δ : Type) where
  share : Share ι δ
  subnetworkId : UInt16
  deriving DecidableEq

/-- `ReplicationRequest::id`: the blob id and the subnetwork, which
`ReplicationResponseId` packs into 34 bytes. -/
def ReplicationRequest.id (self : ReplicationRequest ι δ) : ι × UInt16 :=
  (self.share.blobId, self.subnetworkId)

/-- `ReplicationError`, with the peer each variant carries. -/
inductive ReplicationError (κ : Type) where
  | io (peerId : κ)
  | openStream (peerId : κ)
  | dequeueOutbound (peerId : κ)
  deriving DecidableEq, Repr

/-- The queues' error, as the behaviour reports it. -/
def ReplicationError.ofQueue : Replication.ReplicationError κ → ReplicationError κ
  | .dequeueOutbound peerId => .dequeueOutbound peerId

/-- `ReplicationEvent`. -/
inductive ReplicationEvent (κ ι δ : Type) where
  | incomingMessage (peerId : κ) (message : ReplicationRequest ι δ)
  | replicationError (error : ReplicationError κ)

/-- `WriteHalfState`, the write half being the peer's. -/
inductive WriteHalfState where
  | idle
  | busy
  deriving DecidableEq, Repr

/-- An outbound task: a message written to a peer, after opening a stream to it
when `opening`. -/
structure OutboundTask (κ ι δ : Type) where
  peerId : κ
  message : ReplicationRequest ι δ
  opening : Bool

/-- How a read task ended: `unpack_from_reader` gave a message, or failed. -/
inductive ReadResult (ι δ : Type) where
  | message (message : ReplicationRequest ι δ)
  | failed

/-- How the stream took a write: `write_all` of the framed message failed,
`flush` failed, or both went through. -/
inductive WriteResult where
  | writeAllFailed
  | flushFailed
  | flushed
  deriving DecidableEq, Repr

/-- How an outbound task ended: its stream did not open, or it opened and took
the write. A task whose stream is already open does not end with
`openStreamFailed`; that input is read as no task having ended. -/
inductive TaskResult where
  | openStreamFailed
  | written (result : WriteResult)
  deriving DecidableEq, Repr

/-- `ReplicationConfig`, the lifespan in nanoseconds. -/
structure ReplicationConfig where
  seenMessageCacheSize : ℕ
  seenMessageTtl : ℕ

/-- `ReplicationBehaviour`, with the parts that decide what is sent. -/
structure ReplicationBehaviour (κ ι δ : Type) [DecidableEq ι] where
  localPeerId : κ
  membership : κ → Finset UInt16
  membersOf : UInt16 → Finset κ
  /-- The peers whose read halves are being read, one task each. -/
  incomingTasks : List κ
  /-- The read halves of the streams we opened, not yet read. -/
  outboundReadHalves : List κ
  connected : Finset κ
  pendingOutbound : PendingOutbound κ (ReplicationRequest ι δ)
  outboundStreams : κ → Option WriteHalfState
  outboundTasks : List (OutboundTask κ ι δ)
  seenMessageCache : TimedSizedCache (ι × UInt16) Unit

namespace ReplicationBehaviour

variable [DecidableEq κ] [DecidableEq ι]

/-- `ReplicationBehaviour::new`: the cache refreshes an entry when it is read,
and its lifespan is `seen_message_ttl.as_secs()`. -/
def new (config : ReplicationConfig) (peerId : κ) (membership : κ → Finset UInt16)
    (membersOf : UInt16 → Finset κ) : Outcome ε (ReplicationBehaviour κ ι δ) := do
  let seenMessageCache ← TimedSizedCache.withSizeAndLifespanAndRefresh
    config.seenMessageCacheSize (config.seenMessageTtl / 1000000000) true
  ok ⟨peerId, membership, membersOf, [], [], ∅, PendingOutbound.default, fun _ => none, [],
    seenMessageCache⟩

/-- `is_neighbour`: the peer shares a subnetwork with the node. -/
def isNeighbour (self : ReplicationBehaviour κ ι δ) (peerId : κ) : Bool :=
  decide (0 < (self.membership self.localPeerId ∩ self.membership peerId).card)

/-- `no_loopback_member_peers_of`. -/
def noLoopbackMemberPeersOf (self : ReplicationBehaviour κ ι δ) (subnetwork : UInt16) : Finset κ :=
  (self.membersOf subnetwork).erase self.localPeerId

/-- `send_message_impl` (and `send_message`, whose waker is left out): a message
whose id is in the seen cache is dropped; otherwise its id is stored and the
message queued for each connected member of its subnetwork. -/
def sendMessageImpl (o : IterOrder κ) (self : ReplicationBehaviour κ ι δ) (now : ℕ)
    (message : ReplicationRequest ι δ) : ReplicationBehaviour κ ι δ :=
  let (seenMessageCache, seen) := self.seenMessageCache.cacheGet now message.id
  match seen with
  | some _ => { self with seenMessageCache }
  | none =>
    let peers := self.noLoopbackMemberPeersOf message.subnetworkId
    { self with
      seenMessageCache := (seenMessageCache.cacheSet now message.id ()).1
      pendingOutbound := ((o.visit self.connected).filter (· ∈ peers)).foldl
        (fun pending peerId => pending.enqueueMessage peerId message) self.pendingOutbound }

/-- `poll_incoming_tasks`: a message read is replicated, and the stream read
again; a failed read reports an IO error and drops the read half. -/
def pollIncomingTasks (o : IterOrder κ) (self : ReplicationBehaviour κ ι δ) (now : ℕ)
    (ended : Option (ℕ × ReadResult ι δ)) :
    ReplicationBehaviour κ ι δ × Option (ReplicationEvent κ ι δ) :=
  match ended with
  | some (i, result) =>
    match self.incomingTasks[i]? with
    | some peerId =>
      let self := { self with incomingTasks := self.incomingTasks.eraseIdx i }
      match result with
      | .message message =>
        let self := self.sendMessageImpl o now message
        ({ self with incomingTasks := self.incomingTasks ++ [peerId] },
          some (.incomingMessage peerId message))
      | .failed => (self, some (.replicationError (.io peerId)))
    | none => (self, none)
  | none => (self, none)

/-- `try_write_message`: the error it returns, if any. An error of
`pack_to_writer` panics, whether it is the encoding's or the stream's. -/
def tryWriteMessage (serialize : ReplicationRequest ι δ → Outcome IoError Bytes) (peerId : κ)
    (message : ReplicationRequest ι δ) (result : WriteResult) :
    Outcome ε (Option (ReplicationError κ)) :=
  match packToWriter serialize message [] with
  | .ok _ =>
    match result with
    | .writeAllFailed => .panic "Message should always be serializable."
    | .flushFailed => ok (some (.io peerId))
    | .flushed => ok none
  | _ => .panic "Message should always be serializable."

/-- The read half of a stream we opened, sent to the behaviour. -/
def sendReadHalf (self : ReplicationBehaviour κ ι δ) (peerId : κ) : ReplicationBehaviour κ ι δ :=
  { self with outboundReadHalves := self.outboundReadHalves ++ [peerId] }

/-- The stream of an opening task opened: its read half is sent, and the task
goes on to write. -/
def streamOpened (self : ReplicationBehaviour κ ι δ) (i : ℕ) : ReplicationBehaviour κ ι δ :=
  match self.outboundTasks[i]? with
  | some ⟨peerId, message, true⟩ =>
    { self.sendReadHalf peerId with
      outboundTasks := self.outboundTasks.set i ⟨peerId, message, false⟩ }
  | _ => self

/-- A write half that is free again takes the peer's next message, or is idle;
a peer without a queue is an error. -/
def writeHalfFreed (self : ReplicationBehaviour κ ι δ) (peerId : κ) :
    ReplicationBehaviour κ ι δ × Option (ReplicationError κ) :=
  match self.pendingOutbound.dequeueMessage peerId with
  | .ok (some message, pending) =>
    ({ self with
        pendingOutbound := pending
        outboundTasks := self.outboundTasks ++ [⟨peerId, message, false⟩] }, none)
  | .ok (none, pending) =>
    ({ self with
        pendingOutbound := pending
        outboundStreams := Function.update self.outboundStreams peerId (some .idle) }, none)
  | _ => (self, some (.dequeueOutbound peerId))

/-- `poll_outbound_tasks`: the task that ended, by its index and result, and
the error to report. -/
def pollOutboundTasks (serialize : ReplicationRequest ι δ → Outcome IoError Bytes)
    (self : ReplicationBehaviour κ ι δ) (ended : Option (ℕ × TaskResult)) :
    Outcome ε (ReplicationBehaviour κ ι δ × Option (ReplicationError κ)) :=
  match ended with
  | none => ok (self, none)
  | some (i, result) =>
    match self.outboundTasks[i]? with
    | none => ok (self, none)
    | some task =>
      let ended := { self with outboundTasks := self.outboundTasks.eraseIdx i }
      match task.opening, result with
      | true, .openStreamFailed => ok (ended, some (.openStream task.peerId))
      | false, .openStreamFailed => ok (self, none)
      | opening, .written result => do
        -- the stream of an opening task opened in this poll
        let ended := if opening then ended.sendReadHalf task.peerId else ended
        let error ← tryWriteMessage serialize task.peerId task.message result
        match error with
        | some error => ok (ended, some error)
        | none => ok (ended.writeHalfFreed task.peerId)

/-- The predicate `schedule_next_outbound_message` hands to `next_peer`: the
write half is idle, or no stream is open yet. -/
def isStreamIdle (self : ReplicationBehaviour κ ι δ) (peerId : κ) : Bool :=
  match self.outboundStreams peerId with
  | some .busy => false
  | _ => true

/-- `schedule_next_outbound_message`: the next message is written on the
peer's idle write half, or on a stream opened for it. -/
def scheduleNextOutboundMessage (self : ReplicationBehaviour κ ι δ) :
    Outcome ε (ReplicationBehaviour κ ι δ × Option (ReplicationError κ)) :=
  match self.pendingOutbound.scheduleNextOutboundMessage self.isStreamIdle with
  | .ok (pending, none) => ok ({ self with pendingOutbound := pending }, none)
  | .ok (pending, some (peerId, message)) =>
    match self.outboundStreams peerId with
    | some .idle =>
      ok ({ self with
          pendingOutbound := pending
          outboundStreams := Function.update self.outboundStreams peerId (some .busy)
          outboundTasks := self.outboundTasks ++ [⟨peerId, message, false⟩] }, none)
    | some .busy => .panic
      "internal error: entered unreachable code: The stream is idle, ensured by PendingOutbound::next_peer()"
    | none =>
      ok ({ self with
          pendingOutbound := pending
          outboundStreams := Function.update self.outboundStreams peerId (some .busy)
          outboundTasks := self.outboundTasks ++ [⟨peerId, message, true⟩] }, none)
  | .err error => ok (self, some (.ofQueue error))
  | .panic message => .panic message
  | .div => .div

/-- `poll_incoming_streams`: a stream another peer opened is read, and its write
half is idle. -/
def pollIncomingStreams (self : ReplicationBehaviour κ ι δ) (incoming : Option κ) :
    ReplicationBehaviour κ ι δ :=
  match incoming with
  | some peerId =>
    { self with
      outboundStreams := Function.update self.outboundStreams peerId (some .idle)
      incomingTasks := self.incomingTasks ++ [peerId] }
  | none => self

/-- `poll_new_outbound_read_halves`: the read half of a stream we opened is
read. -/
def pollNewOutboundReadHalves (self : ReplicationBehaviour κ ι δ) : ReplicationBehaviour κ ι δ :=
  match self.outboundReadHalves with
  | peerId :: rest => { self with outboundReadHalves := rest, incomingTasks := self.incomingTasks ++ [peerId] }
  | [] => self

/-- `poll`: an incoming message is reported after the other parts ran, unless one
of them reports an error first. -/
def poll (o : IterOrder κ) (serialize : ReplicationRequest ι δ → Outcome IoError Bytes)
    (self : ReplicationBehaviour κ ι δ) (now : ℕ) (readEnded : Option (ℕ × ReadResult ι δ))
    (writeEnded : Option (ℕ × TaskResult)) (incomingStream : Option κ) :
    Outcome ε (ReplicationBehaviour κ ι δ × Option (ReplicationEvent κ ι δ)) := do
  let (self, incoming) := self.pollIncomingTasks o now readEnded
  match incoming with
  | some (.replicationError error) => ok (self, some (.replicationError error))
  | _ =>
    let (self, error) ← self.pollOutboundTasks serialize writeEnded
    match error with
    | some error => ok (self, some (.replicationError error))
    | none =>
      let (self, error) ← self.scheduleNextOutboundMessage
      match error with
      | some error => ok (self, some (.replicationError error))
      | none => ok ((self.pollIncomingStreams incomingStream).pollNewOutboundReadHalves, incoming)

/-- `handle_established_inbound_connection`: a peer that shares no subnetwork
gets the dummy handler. -/
def handleEstablishedInboundConnection (self : ReplicationBehaviour κ ι δ) (peerId : κ) :
    ReplicationBehaviour κ ι δ × Bool :=
  if self.isNeighbour peerId then ({ self with connected := insert peerId self.connected }, true)
  else (self, false)

/-- `handle_established_outbound_connection`. -/
def handleEstablishedOutboundConnection (self : ReplicationBehaviour κ ι δ) (peerId : κ) :
    ReplicationBehaviour κ ι δ :=
  { self with connected := insert peerId self.connected }

/-- `on_swarm_event` for `ConnectionClosed`. -/
def onConnectionClosed (self : ReplicationBehaviour κ ι δ) (peerId : κ) :
    Outcome ε (ReplicationBehaviour κ ι δ) := do
  let pending ← self.pendingOutbound.onDisconnected peerId
  ok { self with
    connected := self.connected.erase peerId
    outboundStreams := Function.update self.outboundStreams peerId none
    pendingOutbound := pending }

end ReplicationBehaviour

/-- What the swarm and the futures do to the behaviour. -/
inductive Call (κ ι δ : Type) where
  | sendMessage (now : ℕ) (message : ReplicationRequest ι δ)
  | handleEstablishedInboundConnection (peerId : κ)
  | handleEstablishedOutboundConnection (peerId : κ)
  | connectionClosed (peerId : κ)
  | streamOpened (task : ℕ)
  | poll (now : ℕ) (readEnded : Option (ℕ × ReadResult ι δ)) (writeEnded : Option (ℕ × TaskResult))
      (incomingStream : Option κ)

/-- The message a call hands to `send_message_impl`, and when: one sent, or one
a read task read. -/
def Call.handles : Call κ ι δ → Option (ℕ × ReplicationRequest ι δ)
  | .sendMessage now message => some (now, message)
  | .poll now (some (_, .message message)) _ _ => some (now, message)
  | _ => none

namespace ReplicationBehaviour

variable [DecidableEq κ] [DecidableEq ι]

def step (o : IterOrder κ) (serialize : ReplicationRequest ι δ → Outcome IoError Bytes)
    (self : ReplicationBehaviour κ ι δ) :
    Call κ ι δ → Outcome ε (ReplicationBehaviour κ ι δ × Option (ReplicationEvent κ ι δ))
  | .sendMessage now message => ok (self.sendMessageImpl o now message, none)
  | .handleEstablishedInboundConnection peerId =>
    ok ((self.handleEstablishedInboundConnection peerId).1, none)
  | .handleEstablishedOutboundConnection peerId =>
    ok (self.handleEstablishedOutboundConnection peerId, none)
  | .connectionClosed peerId => do
    let self ← self.onConnectionClosed peerId
    ok (self, none)
  | .streamOpened i => ok (self.streamOpened i, none)
  | .poll now readEnded writeEnded incomingStream =>
    self.poll o serialize now readEnded writeEnded incomingStream

/-! ### Where the behaviour sends -/

/-- The queues belong to connected peers, and every message queued for, or
being written to, a peer is for a subnetwork that peer is a member of, the node
itself apart; the queues' marker is a key. -/
structure Routed (state : ReplicationBehaviour κ ι δ) : Prop where
  marker : state.pendingOutbound.MarkerValid
  connected : ∀ p ∈ state.pendingOutbound.messages.keys, p ∈ state.connected
  queued : state.pendingOutbound.QueuesFor fun p m => p ∈ state.noLoopbackMemberPeersOf m.subnetworkId
  writing : ∀ task ∈ state.outboundTasks,
    task.peerId ∈ state.noLoopbackMemberPeersOf task.message.subnetworkId

/-- The invariant reads the queues, the tasks, the connected peers and the
membership only. -/
theorem Routed.frame {self self' : ReplicationBehaviour κ ι δ} (h : self.Routed)
    (hpending : self'.pendingOutbound = self.pendingOutbound)
    (htasks : ∀ task ∈ self'.outboundTasks, task ∈ self.outboundTasks)
    (hconnected : self.connected ⊆ self'.connected) (hmembers : self'.membersOf = self.membersOf)
    (hlocal : self'.localPeerId = self.localPeerId) : self'.Routed := by
  have hpeers : self'.noLoopbackMemberPeersOf = self.noLoopbackMemberPeersOf := by
    funext subnetwork
    simp only [noLoopbackMemberPeersOf, hmembers, hlocal]
  refine ⟨hpending ▸ h.marker, fun p hp => hconnected (h.connected p (hpending ▸ hp)), ?_, ?_⟩
  · rw [hpending, hpeers]
    exact h.queued
  · intro task htask
    rw [hpeers]
    exact h.writing task (htasks task htask)

theorem new_eq_ok {config : ReplicationConfig} (hsize : 0 < config.seenMessageCacheSize)
    (peerId : κ) (membership : κ → Finset UInt16) (membersOf : UInt16 → Finset κ) :
    ∃ self : ReplicationBehaviour κ ι δ,
      (new config peerId membership membersOf : Outcome ε (ReplicationBehaviour κ ι δ)) = ok self ∧
        self.Routed ∧ self.seenMessageCache.refresh = true := by
  refine ⟨⟨peerId, membership, membersOf, [], [], ∅, PendingOutbound.default, fun _ => none, [],
    ⟨LinkedMap.empty, config.seenMessageCacheSize, config.seenMessageTtl / 1000000000, true, hsize,
      Nat.zero_le _⟩⟩, ?_, ?_, rfl⟩
  · simp only [new, TimedSizedCache.withSizeAndLifespanAndRefresh, dif_pos hsize, bind_def, ok_bind]
  · refine ⟨PendingOutbound.markerValid_default, fun p hp => ?_, fun p queue hqueue => ?_,
      fun task htask => ?_⟩
    · simp [PendingOutbound.default, LinkedMap.empty, LinkedMap.keys] at hp
    · cases hqueue
    · cases htask

/-- `send_message_impl` stores the message's id, and queues it for connected
members of its subnetwork other than the node, or changes nothing but the
cache. -/
theorem sendMessageImpl_eq (o : IterOrder κ) (self : ReplicationBehaviour κ ι δ) (now : ℕ)
    (message : ReplicationRequest ι δ) :
    ∃ (cache : TimedSizedCache (ι × UInt16) Unit) (enqueued : List κ),
      self.sendMessageImpl o now message =
      { self with
        seenMessageCache := cache
        pendingOutbound := enqueued.foldl (fun pending peerId => pending.enqueueMessage peerId message)
          self.pendingOutbound } ∧
      ∀ p ∈ enqueued, p ∈ self.connected ∧ p ∈ self.noLoopbackMemberPeersOf message.subnetworkId := by
  rcases hget : self.seenMessageCache.cacheGet now message.id with ⟨cache, _ | seen⟩
  · refine ⟨(cache.cacheSet now message.id ()).1,
      (o.visit self.connected).filter (· ∈ self.noLoopbackMemberPeersOf message.subnetworkId),
      by simp only [sendMessageImpl, hget], fun p hp => ?_⟩
    rw [List.mem_filter, o.mem_visit, decide_eq_true_eq] at hp
    exact hp
  · exact ⟨cache, [], by simp only [sendMessageImpl, hget, List.foldl_nil], fun p hp => by cases hp⟩

theorem Routed.sendMessageImpl {self : ReplicationBehaviour κ ι δ} (h : self.Routed) (o : IterOrder κ)
    (now : ℕ) (message : ReplicationRequest ι δ) : (self.sendMessageImpl o now message).Routed := by
  obtain ⟨cache, enqueued, hsend, henqueued⟩ := sendMessageImpl_eq o self now message
  obtain ⟨hmarker, hkeys, hqueues⟩ := PendingOutbound.foldl_enqueueMessage
    (P := fun p m => p ∈ self.noLoopbackMemberPeersOf m.subnetworkId) enqueued self.pendingOutbound
    henqueued h.marker h.connected h.queued
  rw [hsend]
  exact ⟨hmarker, hkeys, hqueues, h.writing⟩

theorem Routed.pollIncomingTasks {self : ReplicationBehaviour κ ι δ} (h : self.Routed)
    (o : IterOrder κ) (now : ℕ) (ended : Option (ℕ × ReadResult ι δ)) :
    (self.pollIncomingTasks o now ended).1.Routed := by
  rcases ended with _ | ⟨i, result⟩
  · exact h
  · simp only [ReplicationBehaviour.pollIncomingTasks]
    cases self.incomingTasks[i]? with
    | none => exact h
    | some peerId =>
      have hread : ({ self with incomingTasks := self.incomingTasks.eraseIdx i }).Routed :=
        h.frame rfl (fun _ htask => htask) subset_rfl rfl rfl
      cases result with
      | message message =>
        exact (hread.sendMessageImpl o now message).frame rfl (fun _ htask => htask) subset_rfl rfl rfl
      | failed => exact hread

/-- Taking the front of a peer's queue keeps the invariant, with a marker that
is a key. -/
theorem Routed.dequeue {self : ReplicationBehaviour κ ι δ} (h : self.Routed) (peerId : κ)
    (lastScheduled : Option κ) (hlast : ∀ p, lastScheduled = some p → p ∈ self.pendingOutbound.messages.keys)
    (streams : κ → Option WriteHalfState) :
    ({ self with
        pendingOutbound := ⟨self.pendingOutbound.messages.modify peerId List.tail, lastScheduled⟩
        outboundStreams := streams }).Routed := by
  refine ⟨fun p hp => ?_, fun p hp => ?_, h.queued.modify_tail peerId lastScheduled, h.writing⟩
  · rw [LinkedMap.keys_modify]
    exact hlast p hp
  · rw [LinkedMap.keys_modify] at hp
    exact h.connected p hp

/-- A write to a member of the message's subnetwork other than the node keeps
the invariant. -/
theorem Routed.addTask {self : ReplicationBehaviour κ ι δ} (h : self.Routed) (task : OutboundTask κ ι δ)
    (htask : task.peerId ∈ self.noLoopbackMemberPeersOf task.message.subnetworkId) :
    ({ self with outboundTasks := self.outboundTasks ++ [task] }).Routed := by
  refine ⟨h.marker, h.connected, h.queued, fun task' htask' => ?_⟩
  rcases List.mem_append.mp htask' with htask' | htask'
  · exact h.writing task' htask'
  · rw [List.mem_singleton.mp htask']
    exact htask

theorem Routed.writeHalfFreed {self : ReplicationBehaviour κ ι δ} (h : self.Routed) (peerId : κ) :
    (self.writeHalfFreed peerId).1.Routed := by
  unfold ReplicationBehaviour.writeHalfFreed
  cases hqueue : self.pendingOutbound.messages.get? peerId with
  | none =>
    have hnotFound : self.pendingOutbound.dequeueMessage peerId = err .peerNotFound := by
      simp [PendingOutbound.dequeueMessage, hqueue]
    rw [hnotFound]
    exact h
  | some queue =>
    rw [PendingOutbound.dequeueMessage_of_get? _ hqueue]
    have hdequeued := h.dequeue peerId self.pendingOutbound.lastScheduled
      h.marker
    cases queue with
    | nil => exact hdequeued _
    | cons message rest =>
      exact (hdequeued self.outboundStreams).addTask ⟨peerId, message, false⟩
        (h.queued peerId _ hqueue message List.mem_cons_self)

theorem Routed.sendReadHalf {self : ReplicationBehaviour κ ι δ} (h : self.Routed) (peerId : κ) :
    (self.sendReadHalf peerId).Routed :=
  h.frame rfl (fun _ htask => htask) subset_rfl rfl rfl

omit [DecidableEq κ] [DecidableEq ι] in
theorem tryWriteMessage_cases (serialize : ReplicationRequest ι δ → Outcome IoError Bytes)
    (peerId : κ) (message : ReplicationRequest ι δ) (result : WriteResult) :
    (∃ error, (tryWriteMessage serialize peerId message result :
        Outcome ε (Option (ReplicationError κ))) = ok error) ∨
      (tryWriteMessage serialize peerId message result : Outcome ε (Option (ReplicationError κ))) =
        .panic "Message should always be serializable." := by
  unfold tryWriteMessage
  split
  · cases result
    · exact .inr rfl
    · exact .inl ⟨_, rfl⟩
    · exact .inl ⟨_, rfl⟩
  · exact .inr rfl

/-- The outbound part keeps the invariant, or panics in `try_write_message`. -/
theorem Routed.pollOutboundTasks {self : ReplicationBehaviour κ ι δ} (h : self.Routed)
    (serialize : ReplicationRequest ι δ → Outcome IoError Bytes) (ended : Option (ℕ × TaskResult)) :
    (∃ r, (self.pollOutboundTasks serialize ended : Outcome ε _) = ok r ∧ r.1.Routed) ∨
      (self.pollOutboundTasks serialize ended : Outcome ε _) =
        .panic "Message should always be serializable." := by
  rcases ended with _ | ⟨i, result⟩
  · exact .inl ⟨(self, none), rfl, h⟩
  · cases htask : self.outboundTasks[i]? with
    | none => exact .inl ⟨(self, none), by simp only [ReplicationBehaviour.pollOutboundTasks, htask], h⟩
    | some task =>
      set ended := { self with outboundTasks := self.outboundTasks.eraseIdx i } with hended_def
      have hended : ended.Routed :=
        h.frame rfl (fun _ htask' => List.mem_of_mem_eraseIdx htask') subset_rfl rfl rfl
      obtain ⟨peerId, message, opening⟩ := task
      cases result with
      | openStreamFailed =>
        cases opening
        · exact .inl ⟨(self, none), by simp only [ReplicationBehaviour.pollOutboundTasks, htask], h⟩
        · exact .inl ⟨(ended, some (.openStream peerId)),
            by simp only [ReplicationBehaviour.pollOutboundTasks, htask, ← hended_def], hended⟩
      | written result =>
        set read := if opening then ended.sendReadHalf peerId else ended with hread_def
        have hread : read.Routed := by
          rw [hread_def]
          split
          · exact hended.sendReadHalf peerId
          · exact hended
        rcases tryWriteMessage_cases (ε := ε) serialize peerId message result with
          ⟨error, herror⟩ | hpanic
        · cases error with
          | some error =>
            exact .inl ⟨(read, some error), by simp only [ReplicationBehaviour.pollOutboundTasks, htask,
              herror, bind_def, ok_bind, ← hended_def, ← hread_def], hread⟩
          | none =>
            exact .inl ⟨read.writeHalfFreed peerId, by simp only [ReplicationBehaviour.pollOutboundTasks,
              htask, herror, bind_def, ok_bind, ← hended_def, ← hread_def], hread.writeHalfFreed peerId⟩
        · exact .inr (by simp only [ReplicationBehaviour.pollOutboundTasks, htask, hpanic, bind_def,
            panic_bind])

/-- Scheduling never panics: the peer `next_peer` picks has a message, and its
stream is idle or not open; the write it starts goes where the message was
queued. -/
theorem Routed.scheduleNextOutboundMessage {self : ReplicationBehaviour κ ι δ} (h : self.Routed) :
    ∃ r, (self.scheduleNextOutboundMessage : Outcome ε _) = ok r ∧ r.1.Routed := by
  rcases PendingOutbound.scheduleNextOutboundMessage_spec h.marker self.isStreamIdle with
    ⟨pending, hschedule, hmessages, hmarker⟩ | ⟨pending, peerId, message, rest, hschedule, hidle, hqueue,
      rfl, hmarker⟩
  · refine ⟨({ self with pendingOutbound := pending }, none),
      by simp only [ReplicationBehaviour.scheduleNextOutboundMessage, hschedule], hmarker, ?_, ?_, h.writing⟩
    · intro p hp
      rw [LinkedMap.keys, hmessages] at hp
      exact h.connected p hp
    · intro p queue hqueue
      change pending.messages.get? p = some queue at hqueue
      rw [hmessages] at hqueue
      exact h.queued p queue hqueue
  · have hmember := h.queued peerId _ hqueue message List.mem_cons_self
    have hdequeued := h.dequeue peerId (some peerId)
      (fun p hp => by cases hp; exact LinkedMap.mem_keys_of_get? hqueue)
      (Function.update self.outboundStreams peerId (some .busy))
    have hwrite : ∀ opening, self.outboundStreams peerId ≠ some .busy →
        (self.scheduleNextOutboundMessage : Outcome ε _) =
          ok ({ self with
            pendingOutbound := ⟨self.pendingOutbound.messages.modify peerId List.tail, some peerId⟩
            outboundStreams := Function.update self.outboundStreams peerId (some .busy)
            outboundTasks := self.outboundTasks ++ [⟨peerId, message, opening⟩] }, none) →
        ∃ r, (self.scheduleNextOutboundMessage : Outcome ε _) = ok r ∧ r.1.Routed :=
      fun opening _ hok => ⟨_, hok, hdequeued.addTask ⟨peerId, message, opening⟩ hmember⟩
    cases hstream : self.outboundStreams peerId with
    | none =>
      exact hwrite true (by simp [hstream])
        (by simp only [ReplicationBehaviour.scheduleNextOutboundMessage, hschedule, hstream])
    | some state =>
      cases state with
      | idle =>
        exact hwrite false (by simp [hstream])
          (by simp only [ReplicationBehaviour.scheduleNextOutboundMessage, hschedule, hstream])
      | busy => simp [isStreamIdle, hstream] at hidle

theorem Routed.pollIncomingStreams {self : ReplicationBehaviour κ ι δ} (h : self.Routed)
    (incoming : Option κ) : (self.pollIncomingStreams incoming).Routed := by
  cases incoming with
  | none => exact h
  | some peerId => exact h.frame rfl (fun _ htask => htask) subset_rfl rfl rfl

theorem Routed.pollNewOutboundReadHalves {self : ReplicationBehaviour κ ι δ} (h : self.Routed) :
    self.pollNewOutboundReadHalves.Routed := by
  unfold ReplicationBehaviour.pollNewOutboundReadHalves
  split
  · exact h.frame rfl (fun _ htask => htask) subset_rfl rfl rfl
  · exact h

theorem Routed.streamOpened {self : ReplicationBehaviour κ ι δ} (h : self.Routed) (i : ℕ) :
    (self.streamOpened i).Routed := by
  unfold ReplicationBehaviour.streamOpened
  split
  · rename_i peerId message htask
    refine ⟨h.marker, h.connected, h.queued, fun task' htask' => ?_⟩
    rcases List.mem_or_eq_of_mem_set htask' with htask' | rfl
    · exact h.writing task' htask'
    · exact h.writing ⟨peerId, message, true⟩ (List.mem_of_getElem? htask)
  · exact h

theorem Routed.handleEstablishedInboundConnection {self : ReplicationBehaviour κ ι δ} (h : self.Routed)
    (peerId : κ) : (self.handleEstablishedInboundConnection peerId).1.Routed := by
  unfold ReplicationBehaviour.handleEstablishedInboundConnection
  split
  · exact h.frame rfl (fun _ htask => htask) (Finset.subset_insert peerId self.connected) rfl rfl
  · exact h

theorem Routed.handleEstablishedOutboundConnection {self : ReplicationBehaviour κ ι δ} (h : self.Routed)
    (peerId : κ) : (self.handleEstablishedOutboundConnection peerId).Routed :=
  h.frame rfl (fun _ htask => htask) (Finset.subset_insert peerId self.connected) rfl rfl

/-- Closing a connection drops the peer's queue with the peer; the writes under
way are left as they are. -/
theorem Routed.onConnectionClosed {self : ReplicationBehaviour κ ι δ} (h : self.Routed) (peerId : κ) :
    ∃ self', (self.onConnectionClosed peerId : Outcome ε _) = ok self' ∧ self'.Routed := by
  obtain ⟨pending, hpending, hmessages, hmarker⟩ :=
    PendingOutbound.onDisconnected_spec (ε := ε) h.marker peerId
  refine ⟨{ self with
      connected := self.connected.erase peerId
      outboundStreams := Function.update self.outboundStreams peerId none
      pendingOutbound := pending },
    by simp only [ReplicationBehaviour.onConnectionClosed, bind_def, hpending, ok_bind],
    hmarker, fun p hp => ?_, fun p queue hqueue => ?_, h.writing⟩
  · change p ∈ pending.messages.keys at hp
    rw [hmessages] at hp
    obtain ⟨hne, hmem⟩ := LinkedMap.mem_keys_erase.mp hp
    exact Finset.mem_erase.mpr ⟨hne, h.connected p hmem⟩
  · change pending.messages.get? p = some queue at hqueue
    rw [hmessages] at hqueue
    exact h.queued.erase peerId none p queue hqueue

/-- The parts of `poll` run in turn on states that keep the invariant; the
first error reported ends the round. -/
theorem Routed.poll {self : ReplicationBehaviour κ ι δ} (h : self.Routed) (o : IterOrder κ)
    (serialize : ReplicationRequest ι δ → Outcome IoError Bytes) (now : ℕ)
    (readEnded : Option (ℕ × ReadResult ι δ)) (writeEnded : Option (ℕ × TaskResult))
    (incomingStream : Option κ) :
    (∃ r, (self.poll o serialize now readEnded writeEnded incomingStream : Outcome ε _) = ok r ∧
        r.1.Routed) ∨
      (self.poll o serialize now readEnded writeEnded incomingStream : Outcome ε _) =
        .panic "Message should always be serializable." := by
  unfold ReplicationBehaviour.poll
  have hread := h.pollIncomingTasks o now readEnded
  rcases hincoming : self.pollIncomingTasks o now readEnded with ⟨read, incoming⟩
  rw [hincoming] at hread
  dsimp only at hread ⊢
  split
  · exact .inl ⟨_, rfl, hread⟩
  · rcases hread.pollOutboundTasks (ε := ε) serialize writeEnded with
      ⟨⟨written, error⟩, hwritten, hrouted⟩ | hpanic
    · simp only [bind_def, hwritten, ok_bind]
      cases error with
      | some error => exact .inl ⟨_, rfl, hrouted⟩
      | none =>
        obtain ⟨⟨scheduled, error⟩, hscheduled, hrouted⟩ := hrouted.scheduleNextOutboundMessage (ε := ε)
        simp only [hscheduled, ok_bind]
        cases error with
        | some error => exact .inl ⟨_, rfl, hrouted⟩
        | none => exact .inl ⟨_, rfl, (hrouted.pollIncomingStreams incomingStream).pollNewOutboundReadHalves⟩
    · exact .inr (by simp only [bind_def, hpanic, panic_bind])

/-- Every call keeps the invariant, or panics in `try_write_message`. -/
theorem Routed.step {self : ReplicationBehaviour κ ι δ} (h : self.Routed) (o : IterOrder κ)
    (serialize : ReplicationRequest ι δ → Outcome IoError Bytes) (call : Call κ ι δ) :
    (∃ self' event, (self.step o serialize call : Outcome ε _) = ok (self', event) ∧ self'.Routed) ∨
      ∃ m, m = "Message should always be serializable." ∧
        (self.step o serialize call : Outcome ε _) = .panic m := by
  cases call with
  | sendMessage now message => exact .inl ⟨_, none, rfl, h.sendMessageImpl o now message⟩
  | handleEstablishedInboundConnection peerId =>
    exact .inl ⟨_, none, rfl, h.handleEstablishedInboundConnection peerId⟩
  | handleEstablishedOutboundConnection peerId =>
    exact .inl ⟨_, none, rfl, h.handleEstablishedOutboundConnection peerId⟩
  | connectionClosed peerId =>
    obtain ⟨closed, hclosed, hrouted⟩ := h.onConnectionClosed (ε := ε) peerId
    exact .inl ⟨closed, none, by simp only [ReplicationBehaviour.step, bind_def, hclosed, ok_bind], hrouted⟩
  | streamOpened i => exact .inl ⟨_, none, rfl, h.streamOpened i⟩
  | poll now readEnded writeEnded incomingStream =>
    rcases h.poll (ε := ε) o serialize now readEnded writeEnded incomingStream with
      ⟨⟨polled, event⟩, hpolled, hrouted⟩ | hpanic
    · exact .inl ⟨polled, event, hpolled, hrouted⟩
    · exact .inr ⟨_, rfl, hpanic⟩

/-- From `new`, every run ends in a state where each queue belongs to a
connected peer and every message queued or being written goes to a member of
its subnetwork other than the node, or stops at the panic of
`try_write_message`: no `expect` and no `unreachable!` fires. -/
theorem run_replicates_only_to_members {config : ReplicationConfig}
    (hsize : 0 < config.seenMessageCacheSize) (peerId : κ) (membership : κ → Finset UInt16)
    (membersOf : UInt16 → Finset κ) (o : IterOrder κ)
    (serialize : ReplicationRequest ι δ → Outcome IoError Bytes) (calls : List (Call κ ι δ)) :
    ∃ self : ReplicationBehaviour κ ι δ,
      (new config peerId membership membersOf : Outcome ε _) = ok self ∧
      ((∃ self', (Mealy.runOutcome (step (ε := ε) o serialize) self calls).1 = ok self' ∧
          self'.Routed) ∨
        (Mealy.runOutcome (step (ε := ε) o serialize) self calls).1 =
          .panic "Message should always be serializable.") := by
  obtain ⟨self, hnew, hrouted, -⟩ := new_eq_ok (ι := ι) (δ := δ) (ε := ε) hsize peerId membership membersOf
  refine ⟨self, hnew, ?_⟩
  rcases Mealy.runOutcome_progress Routed (· = "Message should always be serializable.")
      (fun state call hstate => hstate.step o serialize call) calls self hrouted with
    hok | ⟨m, rfl, hpanic⟩
  · exact .inl hok
  · exact .inr hpanic

/-- A node of one subnetwork, a single peer of it that connects and is sent
one share: the run keeps the invariant and queues the share for that peer. -/
theorem run_replicates_only_to_members_one_share :
    0 < ({ seenMessageCacheSize := 1, seenMessageTtl := 0 } : ReplicationConfig).seenMessageCacheSize ∧
    ∃ self self' : ReplicationBehaviour ℕ ℕ Unit,
      (new { seenMessageCacheSize := 1, seenMessageTtl := 0 } 0 (fun _ => {0}) (fun _ => {0, 1}) :
        Outcome Unit _) = ok self ∧
      (Mealy.runOutcome (step (ε := Unit) IterOrder.sorted (fun _ => ok []))
          self [.handleEstablishedOutboundConnection 1, .sendMessage 0 ⟨⟨0, ()⟩, 0⟩]).1 = ok self' ∧
      self'.Routed ∧ self'.pendingOutbound.messages.keys = [1] ∧
      (self'.pendingOutbound.messages.get? 1).map (List.map (·.subnetworkId)) = some [0] := by
  have hsize : 0 < ({ seenMessageCacheSize := 1, seenMessageTtl := 0 } : ReplicationConfig).seenMessageCacheSize := by
    decide
  obtain ⟨self, hnew, hrun⟩ := run_replicates_only_to_members (ι := ℕ) (δ := Unit) (ε := Unit) hsize 0
    (fun _ => {0}) (fun _ => {0, 1}) IterOrder.sorted (fun _ => ok [])
    [.handleEstablishedOutboundConnection 1, .sendMessage 0 ⟨⟨0, ()⟩, 0⟩]
  have hqueued : (do
      let self ← (new { seenMessageCacheSize := 1, seenMessageTtl := 0 } 0 (fun _ => {0})
        (fun _ => {0, 1}) : Outcome Unit (ReplicationBehaviour ℕ ℕ Unit))
      let self' ← (Mealy.runOutcome (step (ε := Unit) IterOrder.sorted (fun _ => ok []))
        self [.handleEstablishedOutboundConnection 1, .sendMessage 0 ⟨⟨0, ()⟩, 0⟩]).1
      ok (self'.pendingOutbound.messages.keys,
        (self'.pendingOutbound.messages.get? 1).map (List.map (·.subnetworkId)))) =
      ok ([1], some [0]) := by
    decide
  rw [hnew] at hqueued
  rcases hrun with ⟨self', hok, hrouted⟩ | hpanic
  · simp only [hok, bind_def, ok_bind, ok.injEq, Prod.mk.injEq] at hqueued
    exact ⟨hsize, self, self', hnew, hok, hrouted, hqueued⟩
  · simp only [hpanic, bind_def, ok_bind, panic_bind] at hqueued
    cases hqueued

/-! ### Replicating a message once -/

section SeenCache

variable {key : ι × UInt16} {t : ℕ} {used : Finset (ι × UInt16)}

/-- What `send_message_impl` leaves in the seen cache: the cache as the read
left it when the id was found, else the id stored after the read. -/
theorem seenMessageCache_sendMessageImpl (o : IterOrder κ) (self : ReplicationBehaviour κ ι δ) (now : ℕ)
    (message : ReplicationRequest ι δ) :
    ((self.seenMessageCache.cacheGet now message.id).2.isSome ∧
        (self.sendMessageImpl o now message).seenMessageCache =
          (self.seenMessageCache.cacheGet now message.id).1) ∨
      ((self.seenMessageCache.cacheGet now message.id).2 = none ∧
        (self.sendMessageImpl o now message).seenMessageCache =
          ((self.seenMessageCache.cacheGet now message.id).1.cacheSet now message.id ()).1) := by
  rcases hget : self.seenMessageCache.cacheGet now message.id with ⟨cache, _ | seen⟩
  · exact .inr ⟨rfl, by simp only [ReplicationBehaviour.sendMessageImpl, hget]⟩
  · exact .inl ⟨rfl, by simp only [ReplicationBehaviour.sendMessageImpl, hget]⟩

@[simp] theorem size_sendMessageImpl (o : IterOrder κ) (self : ReplicationBehaviour κ ι δ) (now : ℕ)
    (message : ReplicationRequest ι δ) :
    (self.sendMessageImpl o now message).seenMessageCache.size = self.seenMessageCache.size := by
  rcases seenMessageCache_sendMessageImpl o self now message with ⟨-, hcache⟩ | ⟨-, hcache⟩ <;>
    simp only [hcache, TimedSizedCache.size_cacheSet, TimedSizedCache.size_cacheGet]

@[simp] theorem seconds_sendMessageImpl (o : IterOrder κ) (self : ReplicationBehaviour κ ι δ) (now : ℕ)
    (message : ReplicationRequest ι δ) :
    (self.sendMessageImpl o now message).seenMessageCache.seconds = self.seenMessageCache.seconds := by
  rcases seenMessageCache_sendMessageImpl o self now message with ⟨-, hcache⟩ | ⟨-, hcache⟩ <;>
    simp only [hcache, TimedSizedCache.seconds_cacheSet, TimedSizedCache.seconds_cacheGet]

/-- A handled message's id is stored stamped with the instant it was handled. -/
theorem retains_sendMessageImpl {self : ReplicationBehaviour κ ι δ}
    (hrefresh : self.seenMessageCache.refresh = true) (o : IterOrder κ) (now : ℕ)
    (message : ReplicationRequest ι δ) :
    (self.sendMessageImpl o now message).seenMessageCache.Retains message.id now ∅ := by
  rcases seenMessageCache_sendMessageImpl o self now message with ⟨hfound, hcache⟩ | ⟨-, hcache⟩
  · -- a copy found in the cache is stamped anew, the cache refreshing on reads
    obtain ⟨seen, hseen⟩ := Option.isSome_iff_exists.mp hfound
    rw [hcache]
    exact TimedSizedCache.retains_cacheGet_of_eq_some hrefresh hseen
  · rw [hcache]
    exact TimedSizedCache.retains_cacheSet _ now message.id ()

/-- Handling a message of another id keeps a retained id, with that id used
since. -/
theorem retains_sendMessageImpl_of_ne {self : ReplicationBehaviour κ ι δ}
    (h : self.seenMessageCache.Retains key t used) (o : IterOrder κ) (now : ℕ)
    (message : ReplicationRequest ι δ) (hother : message.id ≠ key)
    (hcard : (insert message.id used).card < self.seenMessageCache.size) :
    (self.sendMessageImpl o now message).seenMessageCache.Retains key t (insert message.id used) := by
  have hread := h.cacheGet hother now
  rcases seenMessageCache_sendMessageImpl o self now message with ⟨-, hcache⟩ | ⟨hmissing, hcache⟩
  · rw [hcache]
    exact hread
  · -- not found: the id is stored after the read, and is not in the store then
    have habsent := TimedSizedCache.not_mem_keys_of_cacheGet_eq_none hmissing
    have hroom : (insert message.id (insert message.id used)).card <
        (self.seenMessageCache.cacheGet now message.id).1.size := by
      rw [Finset.insert_idem, TimedSizedCache.size_cacheGet]
      exact hcard
    have hset := hread.cacheSet hother habsent hroom now ()
    rw [hcache]
    rwa [Finset.insert_idem] at hset

/-- A copy of a retained id, handled less than a lifespan after the id was
stamped, is dropped: no queue changes. -/
theorem pendingOutbound_sendMessageImpl_of_retains {self : ReplicationBehaviour κ ι δ} {message : ReplicationRequest ι δ}
    (h : self.seenMessageCache.Retains message.id t used) (o : IterOrder κ) {now : ℕ}
    (hlive : (now - t) / 1000000000 < self.seenMessageCache.seconds) :
    (self.sendMessageImpl o now message).pendingOutbound = self.pendingOutbound := by
  obtain ⟨value, hfound⟩ := h.cacheGet_self hlive
  rcases hget : self.seenMessageCache.cacheGet now message.id with ⟨cache, _ | seen⟩
  · rw [hget] at hfound
    cases hfound
  · simp only [ReplicationBehaviour.sendMessageImpl, hget]

/-! #### What the calls do to the seen cache -/

/-- `send_message_impl` reads and writes the seen cache only. -/
theorem seenMessageCache_sendMessageImpl_congr {self self' : ReplicationBehaviour κ ι δ}
    (h : self'.seenMessageCache = self.seenMessageCache) (o : IterOrder κ) (now : ℕ)
    (message : ReplicationRequest ι δ) :
    (self'.sendMessageImpl o now message).seenMessageCache =
      (self.sendMessageImpl o now message).seenMessageCache := by
  rcases seenMessageCache_sendMessageImpl o self now message with ⟨hfound, hcache⟩ | ⟨hmissing, hcache⟩ <;>
    rcases seenMessageCache_sendMessageImpl o self' now message with ⟨hfound', hcache'⟩ | ⟨hmissing', hcache'⟩ <;>
    rw [hcache, hcache', h] <;>
    simp_all

theorem seenMessageCache_writeHalfFreed (self : ReplicationBehaviour κ ι δ) (peerId : κ) :
    (self.writeHalfFreed peerId).1.seenMessageCache = self.seenMessageCache := by
  unfold ReplicationBehaviour.writeHalfFreed
  split <;> rfl

theorem seenMessageCache_pollOutboundTasks {self : ReplicationBehaviour κ ι δ}
    {serialize : ReplicationRequest ι δ → Outcome IoError Bytes} {ended : Option (ℕ × TaskResult)}
    {r : ReplicationBehaviour κ ι δ × Option (ReplicationError κ)}
    (h : (self.pollOutboundTasks serialize ended : Outcome ε _) = ok r) :
    r.1.seenMessageCache = self.seenMessageCache := by
  unfold ReplicationBehaviour.pollOutboundTasks at h
  split at h
  · cases h
    rfl
  · split at h
    · cases h
      rfl
    · -- the task that ended: only its write, and the next one, touch the queues
      split at h
      · cases h
        rfl
      · cases h
        rfl
      · rw [bind_def, bind_eq_ok] at h
        obtain ⟨error, -, h⟩ := h
        split at h
        · cases h
          split <;> rfl
        · cases h
          rw [seenMessageCache_writeHalfFreed]
          split <;> rfl

theorem seenMessageCache_scheduleNextOutboundMessage {self : ReplicationBehaviour κ ι δ}
    {r : ReplicationBehaviour κ ι δ × Option (ReplicationError κ)}
    (h : (self.scheduleNextOutboundMessage : Outcome ε _) = ok r) :
    r.1.seenMessageCache = self.seenMessageCache := by
  unfold ReplicationBehaviour.scheduleNextOutboundMessage at h
  split at h
  · cases h
    rfl
  · split at h <;> cases h <;> rfl
  · cases h
    rfl
  · cases h
  · cases h

/-- A round of `poll` leaves the seen cache as its read part left it. -/
theorem seenMessageCache_poll {self : ReplicationBehaviour κ ι δ} {o : IterOrder κ}
    {serialize : ReplicationRequest ι δ → Outcome IoError Bytes} {now : ℕ}
    {readEnded : Option (ℕ × ReadResult ι δ)} {writeEnded : Option (ℕ × TaskResult)}
    {incomingStream : Option κ} {r : ReplicationBehaviour κ ι δ × Option (ReplicationEvent κ ι δ)}
    (h : (self.poll o serialize now readEnded writeEnded incomingStream : Outcome ε _) = ok r) :
    r.1.seenMessageCache = (self.pollIncomingTasks o now readEnded).1.seenMessageCache := by
  unfold ReplicationBehaviour.poll at h
  rcases hincoming : self.pollIncomingTasks o now readEnded with ⟨read, incoming⟩
  rw [hincoming] at h
  dsimp only at h ⊢
  split at h
  · cases h
    rfl
  · rw [bind_def, bind_eq_ok] at h
    obtain ⟨⟨written, error⟩, hwritten, h⟩ := h
    have hwrite := seenMessageCache_pollOutboundTasks hwritten
    dsimp only at h hwrite
    cases error with
    | some error =>
      cases h
      exact hwrite
    | none =>
      rw [bind_def, bind_eq_ok] at h
      obtain ⟨⟨scheduled, error⟩, hscheduled, h⟩ := h
      have hschedule := seenMessageCache_scheduleNextOutboundMessage hscheduled
      dsimp only at h hschedule
      cases error with
      | some error =>
        cases h
        exact hschedule.trans hwrite
      | none =>
        cases h
        show ((scheduled.pollIncomingStreams incomingStream).pollNewOutboundReadHalves).seenMessageCache = _
        rw [← hwrite, ← hschedule]
        unfold ReplicationBehaviour.pollNewOutboundReadHalves ReplicationBehaviour.pollIncomingStreams
        split <;> split <;> rfl

theorem seenMessageCache_pollIncomingTasks (o : IterOrder κ) (self : ReplicationBehaviour κ ι δ) (now : ℕ)
    (ended : Option (ℕ × ReadResult ι δ)) :
    (self.pollIncomingTasks o now ended).1.seenMessageCache = self.seenMessageCache ∨
      ∃ i message, ended = some (i, .message message) ∧
        (self.pollIncomingTasks o now ended).1.seenMessageCache =
          (self.sendMessageImpl o now message).seenMessageCache := by
  rcases ended with _ | ⟨i, result⟩
  · exact .inl rfl
  · simp only [ReplicationBehaviour.pollIncomingTasks]
    cases self.incomingTasks[i]? with
    | none => exact .inl rfl
    | some peerId =>
      cases result with
      | message message =>
        refine .inr ⟨i, message, rfl, ?_⟩
        dsimp only
        refine seenMessageCache_sendMessageImpl_congr ?_ o now message
        rfl
      | failed => exact .inl rfl

/-- A call leaves the seen cache as it was, or as `send_message_impl` leaves it
for the message the call hands it. -/
theorem seenMessageCache_step {self self' : ReplicationBehaviour κ ι δ} {o : IterOrder κ}
    {serialize : ReplicationRequest ι δ → Outcome IoError Bytes} {call : Call κ ι δ}
    {event : Option (ReplicationEvent κ ι δ)}
    (h : (self.step o serialize call : Outcome ε _) = ok (self', event)) :
    self'.seenMessageCache = self.seenMessageCache ∨
      ∃ now message, call.handles = some (now, message) ∧
        self'.seenMessageCache = (self.sendMessageImpl o now message).seenMessageCache := by
  cases call with
  | sendMessage now message =>
    cases h
    exact .inr ⟨now, message, rfl, rfl⟩
  | handleEstablishedInboundConnection peerId =>
    cases h
    left
    unfold ReplicationBehaviour.handleEstablishedInboundConnection
    split <;> rfl
  | handleEstablishedOutboundConnection peerId =>
    cases h
    exact .inl rfl
  | connectionClosed peerId =>
    simp only [ReplicationBehaviour.step, ReplicationBehaviour.onConnectionClosed, bind_def,
      bind_eq_ok] at h
    obtain ⟨closed, ⟨pending, -, hclosed⟩, h⟩ := h
    cases hclosed
    cases h
    exact .inl rfl
  | streamOpened i =>
    cases h
    left
    unfold ReplicationBehaviour.streamOpened
    split <;> rfl
  | poll now readEnded writeEnded incomingStream =>
    have hpoll := seenMessageCache_poll (r := (self', event)) h
    rcases seenMessageCache_pollIncomingTasks o self now readEnded with hread | ⟨i, message, rfl, hread⟩
    · exact .inl (hpoll.trans hread)
    · exact .inr ⟨now, message, rfl, hpoll.trans hread⟩

/-- Over a run of calls none of which hands over a retained id, the id stays
retained, as long as fewer than `size` distinct ids were used in all; the
lifespan does not change. -/
theorem retains_runOutcome (o : IterOrder κ) (serialize : ReplicationRequest ι δ → Outcome IoError Bytes)
    (calls : List (Call κ ι δ)) (self : ReplicationBehaviour κ ι δ) (used : Finset (ι × UInt16))
    (h : self.seenMessageCache.Retains key t used)
    (hother : ∀ x ∈ calls.filterMap Call.handles, x.2.id ≠ key)
    (hcard : (used ∪ ((calls.filterMap Call.handles).map fun x => x.2.id).toFinset).card <
      self.seenMessageCache.size)
    {self' : ReplicationBehaviour κ ι δ}
    (hrun : (Mealy.runOutcome (step (ε := ε) o serialize) self calls).1 = ok self') :
    self'.seenMessageCache.Retains key t (used ∪ ((calls.filterMap Call.handles).map fun x => x.2.id).toFinset) ∧
      self'.seenMessageCache.seconds = self.seenMessageCache.seconds := by
  induction calls generalizing self used with
  | nil =>
    rw [Mealy.runOutcome_nil] at hrun
    cases hrun
    exact ⟨by simpa using h, rfl⟩
  | cons call calls ih =>
    obtain ⟨mid, event, hstep, hrest, -⟩ := Mealy.runOutcome_cons_eq_ok hrun
    set used' := used ∪ (([call].filterMap Call.handles).map fun x => x.2.id).toFinset with hused'
    have hunion : used' ∪ ((calls.filterMap Call.handles).map fun x => x.2.id).toFinset =
        used ∪ (((call :: calls).filterMap Call.handles).map fun x => x.2.id).toFinset := by
      rw [hused', Finset.union_assoc, ← List.toFinset_append, ← List.map_append, ← List.filterMap_append]
      rfl
    have hmid : mid.seenMessageCache.Retains key t used' ∧
        mid.seenMessageCache.size = self.seenMessageCache.size ∧
        mid.seenMessageCache.seconds = self.seenMessageCache.seconds := by
      rcases seenMessageCache_step hstep with hsame | ⟨now, message, hhandles, hcache⟩
      · rw [hsame]
        exact ⟨h.mono Finset.subset_union_left, rfl, rfl⟩
      · have hused : insert message.id used ⊆ used' :=
          Finset.insert_subset_iff.mpr ⟨by simp [hused', hhandles], Finset.subset_union_left⟩
        have hroom : (insert message.id used).card < self.seenMessageCache.size := by
          refine lt_of_le_of_lt (Finset.card_le_card (hused.trans ?_)) hcard
          rw [← hunion]
          exact Finset.subset_union_left
        have hne : message.id ≠ key :=
          hother (now, message) (List.mem_filterMap.mpr ⟨call, List.mem_cons_self, hhandles⟩)
        rw [hcache, size_sendMessageImpl, seconds_sendMessageImpl]
        exact ⟨(retains_sendMessageImpl_of_ne h o now message hne hroom).mono hused, rfl, rfl⟩
    have hrest' := ih mid used' hmid.1
      (fun x hx => by
        obtain ⟨c, hc, hcx⟩ := List.mem_filterMap.mp hx
        exact hother x (List.mem_filterMap.mpr ⟨c, List.mem_cons_of_mem _ hc, hcx⟩))
      (by rw [hmid.2.1, hunion]; exact hcard) hrest
    rw [← hunion, ← hmid.2.2]
    exact hrest'

/-- Between a message handled at `t` and a copy handled less than a lifespan
later, a run of any calls of the behaviour that hands over fewer than
`seen_message_cache_size` distinct ids, never the message's, leaves the copy
dropped: no queue changes. -/
theorem run_drops_copies_within_lifespan {self : ReplicationBehaviour κ ι δ}
    (hrefresh : self.seenMessageCache.refresh = true) (o : IterOrder κ)
    (serialize : ReplicationRequest ι δ → Outcome IoError Bytes) (t : ℕ)
    (message : ReplicationRequest ι δ) (calls : List (Call κ ι δ))
    (hother : ∀ x ∈ calls.filterMap Call.handles, x.2.id ≠ message.id)
    (hfew : ((calls.filterMap Call.handles).map fun x => x.2.id).toFinset.card < self.seenMessageCache.size)
    {after : ReplicationBehaviour κ ι δ}
    (hrun : (Mealy.runOutcome (step (ε := ε) o serialize) (self.sendMessageImpl o t message) calls).1 =
      ok after)
    (now : ℕ) (copy : ReplicationRequest ι δ) (hcopy : copy.id = message.id)
    (hlive : (now - t) / 1000000000 < self.seenMessageCache.seconds) :
    (after.sendMessageImpl o now copy).pendingOutbound = after.pendingOutbound := by
  have hstored := retains_sendMessageImpl hrefresh o t message
  obtain ⟨hkept, hseconds⟩ := retains_runOutcome o serialize calls _ ∅ hstored hother
    (by rw [Finset.empty_union, size_sendMessageImpl]; exact hfew) hrun
  rw [← hcopy] at hkept
  refine pendingOutbound_sendMessageImpl_of_retains hkept o ?_
  rw [hseconds, seconds_sendMessageImpl]
  exact hlive

/-- A node of subnetwork 0, connected to peer 1, whose seen cache holds two ids
for ten seconds. -/
def twoEntryNode : ReplicationBehaviour ℕ ℕ Unit :=
  ⟨0, fun _ => {0}, fun _ => {0, 1}, [], [], {1}, PendingOutbound.default, fun _ => none, [],
    ⟨LinkedMap.empty, 2, 10, true, by decide, by decide⟩⟩

/-- A share, a connection, and a copy of the share a second later: the copy is
dropped. -/
theorem run_drops_copies_within_lifespan_after_connection :
    twoEntryNode.seenMessageCache.refresh = true ∧
    (∀ x ∈ ([.handleEstablishedOutboundConnection 1] : List (Call ℕ ℕ Unit)).filterMap Call.handles,
      x.2.id ≠ (⟨⟨0, ()⟩, 0⟩ : ReplicationRequest ℕ Unit).id) ∧
    ((([.handleEstablishedOutboundConnection 1] : List (Call ℕ ℕ Unit)).filterMap Call.handles).map
      fun x => x.2.id).toFinset.card < twoEntryNode.seenMessageCache.size ∧
    (Mealy.runOutcome (step (ε := Unit) IterOrder.sorted (fun _ => ok []))
        (twoEntryNode.sendMessageImpl IterOrder.sorted 0 ⟨⟨0, ()⟩, 0⟩)
        [.handleEstablishedOutboundConnection 1]).1 =
      ok ((twoEntryNode.sendMessageImpl IterOrder.sorted 0 ⟨⟨0, ()⟩, 0⟩).handleEstablishedOutboundConnection 1) ∧
    (⟨⟨0, ()⟩, 0⟩ : ReplicationRequest ℕ Unit).id = (⟨⟨0, ()⟩, 0⟩ : ReplicationRequest ℕ Unit).id ∧
    (1000000000 - 0) / 1000000000 < twoEntryNode.seenMessageCache.seconds ∧
    ((((twoEntryNode.sendMessageImpl IterOrder.sorted 0 ⟨⟨0, ()⟩, 0⟩).handleEstablishedOutboundConnection 1)).sendMessageImpl
        IterOrder.sorted 1000000000 ⟨⟨0, ()⟩, 0⟩).pendingOutbound =
      ((twoEntryNode.sendMessageImpl IterOrder.sorted 0 ⟨⟨0, ()⟩, 0⟩).handleEstablishedOutboundConnection 1).pendingOutbound :=
  ⟨rfl, by decide, by decide, rfl, rfl, by decide,
    run_drops_copies_within_lifespan (ε := Unit) (show twoEntryNode.seenMessageCache.refresh = true from rfl)
      IterOrder.sorted (fun _ => ok []) 0 _ [.handleEstablishedOutboundConnection 1] (by decide) (by decide)
      rfl 1000000000 _ rfl (by decide)⟩

end SeenCache

end ReplicationBehaviour

end ReplicationProtocol
