import NomosNode.Lib.Mealy
import NomosNode.Lib.Bytes

/-!
# The blend node's streams: temporal delays and persistent transmission

`nomos-blend/core/src/message_blend` and `persistent_transmission.rs`: a blend
node unwraps every message it receives and delays it by a random time
(`MessageBlendStream`), and sends at a steady rate, filling the gaps with drop
messages (`PersistentTransmissionStream`). A stream is its `poll_next`, `none`
for `Pending`; the schedulers and the coin are inputs of a poll, and
`unwrap_message` is a parameter that may panic, so a poll of the blend stream is
an `Outcome`. Both streams serve one queue at the ticks of their scheduler, in
the sense of `Mealy.ServesQueue`: oldest first, at most one per tick, nothing
lost or duplicated.
-/

namespace NomosBlend

open Outcome

variable {S M : Type}

/-- What the streams here need of the stream they wrap: a poll answers with
the oldest message the stream holds, if there is one, and keeps the rest. -/
def PopsFront (pollNext : S → S × Option M) (held : S → List M) : Prop :=
  ∀ s, (pollNext s).2.toList = (held s).take 1 ∧ held (pollNext s).1 = (held s).drop 1

/-! ## Unbounded channels -/

/-- An `mpsc::unbounded_channel` whose receiver is alive: the messages sent and
not yet received, oldest first. -/
structure UnboundedChannel (M : Type) where
  queue : List M

namespace UnboundedChannel

/-- `UnboundedSender::send`. It fails only once the receiver is dropped, and
each receiver here lives as long as its sender. -/
def send (self : UnboundedChannel M) (message : M) : UnboundedChannel M :=
  ⟨self.queue ++ [message]⟩

/-- `poll_next` of the `UnboundedReceiverStream` over the channel. -/
def pollRecv (self : UnboundedChannel M) : UnboundedChannel M × Option M :=
  match self.queue with
  | message :: rest => (⟨rest⟩, some message)
  | [] => (self, none)

@[simp] theorem queue_send (self : UnboundedChannel M) (message : M) :
    (self.send message).queue = self.queue ++ [message] := rfl

theorem pollRecv_popsFront : PopsFront (pollRecv (M := M)) queue := by
  intro self
  rcases self with ⟨_ | ⟨message, rest⟩⟩ <;> simp [pollRecv]

end UnboundedChannel

/-! ## The temporal processor -/

/-- `TemporalProcessor`: the messages scheduled and not yet released. -/
structure TemporalProcessor (M : Type) where
  queue : List M

namespace TemporalProcessor

def new : TemporalProcessor M := ⟨[]⟩

def pushMessage (self : TemporalProcessor M) (message : M) : TemporalProcessor M :=
  ⟨self.queue ++ [message]⟩

/-- `poll_next`: at a tick of the scheduler the oldest message is released; a
tick that finds the queue empty is used up. -/
def pollNext (self : TemporalProcessor M) (schedulerReady : Bool) :
    TemporalProcessor M × Option M :=
  if schedulerReady then
    match self.queue with
    | msg :: rest => (⟨rest⟩, some msg)
    | [] => (self, none)
  else (self, none)

theorem pollNext_spec (self : TemporalProcessor M) (schedulerReady : Bool) :
    (self.pollNext schedulerReady).2.toList =
        (if schedulerReady then self.queue.take 1 else []) ∧
      (self.pollNext schedulerReady).1.queue =
        if schedulerReady then self.queue.drop 1 else self.queue := by
  rcases self with ⟨_ | ⟨msg, rest⟩⟩ <;> cases schedulerReady <;> simp [pollNext]

end TemporalProcessor

/-- `TemporalStream`: a temporal processor fed by a wrapped stream. -/
structure TemporalStream (S M : Type) where
  processor : TemporalProcessor M
  wrappedStream : S

/-- `TemporalProcessorExt::temporal_stream`. -/
def temporalStream (wrappedStream : S) : TemporalStream S M :=
  ⟨TemporalProcessor.new, wrappedStream⟩

namespace TemporalStream

/-- `poll_next`: an item of the wrapped stream is scheduled, then the
processor is polled. -/
def pollNext (pollWrapped : S → S × Option M) (self : TemporalStream S M)
    (schedulerReady : Bool) : TemporalStream S M × Option M :=
  let wrapped := pollWrapped self.wrappedStream
  let processor :=
    match wrapped.2 with
    | some item => self.processor.pushMessage item
    | none => self.processor
  let polled := processor.pollNext schedulerReady
  (⟨polled.1, wrapped.1⟩, polled.2)

/-- Messages that are scheduled come out before those still in the wrapped
stream: what the stream holds, in the order it will release it. -/
def held (heldWrapped : S → List M) (self : TemporalStream S M) : List M :=
  self.processor.queue ++ heldWrapped self.wrappedStream

/-- The wrapped stream's item is appended behind the scheduled messages, so
the poll sees one queue: at a tick its front message is released. -/
theorem pollNext_spec {pollWrapped : S → S × Option M} {heldWrapped : S → List M}
    (hwrapped : PopsFront pollWrapped heldWrapped) (self : TemporalStream S M)
    (schedulerReady : Bool) :
    (self.pollNext pollWrapped schedulerReady).2.toList =
        (if schedulerReady then (self.held heldWrapped).take 1 else []) ∧
      (self.pollNext pollWrapped schedulerReady).1.held heldWrapped =
        if schedulerReady then (self.held heldWrapped).drop 1 else self.held heldWrapped := by
  obtain ⟨hitem, hrest⟩ := hwrapped self.wrappedStream
  obtain ⟨hout, hqueue⟩ :=
    (match (pollWrapped self.wrappedStream).2 with
      | some item => self.processor.pushMessage item
      | none => self.processor).pollNext_spec schedulerReady
  simp only [pollNext, held] at hout hqueue ⊢
  rw [hout, hqueue, hrest]
  rcases hw : heldWrapped self.wrappedStream with _ | ⟨item, rest⟩
  · -- the wrapped stream is empty and answers nothing
    rw [hw] at hitem
    cases hpoll : (pollWrapped self.wrappedStream).2
    · cases schedulerReady <;> simp
    · simp [hpoll] at hitem
  · -- the wrapped stream's front message joins the back of the queue
    rw [hw] at hitem
    cases hpoll : (pollWrapped self.wrappedStream).2 with
    | none => simp [hpoll] at hitem
    | some polled =>
      simp only [hpoll, Option.toList_some, List.take_succ_cons, List.take_zero,
        List.cons.injEq, and_true] at hitem
      subst hitem
      have hlen : 1 ≤ (self.processor.queue ++ [polled]).length := by simp
      cases schedulerReady
      · simp [TemporalProcessor.pushMessage]
      · simp only [TemporalProcessor.pushMessage, if_true, List.drop_succ_cons, List.drop_zero]
        rw [show self.processor.queue ++ polled :: rest =
          (self.processor.queue ++ [polled]) ++ rest by simp]
        exact ⟨(List.take_append_of_le_length hlen).symm,
          (List.drop_append_of_le_length hlen).symm⟩

end TemporalStream

/-! ## Persistent transmission -/

/-- Which branch of `PersistentTransmissionStream::poll_next` answers: a
message of the wrapped stream, the drop message after a won coin flip, or
`Pending`. -/
inductive Emission (M : Type)
  | message (item : M)
  | drop
  | pending
  deriving DecidableEq

namespace Emission

/-- The item the stream answers with. -/
def item (dropMessage : M) : Emission M → Option M
  | message item => some item
  | drop => some dropMessage
  | pending => none

/-- The wrapped stream's messages among what is emitted. -/
def messages : Emission M → List M
  | message item => [item]
  | _ => []

end Emission

/-- `PersistentTransmissionStream`, with the scheduler and the coin as inputs
of a poll. -/
structure PersistentTransmissionStream (S M : Type) where
  stream : S
  dropMessage : M

namespace PersistentTransmissionStream

/-- The body of `poll_next`, answering with the branch it takes. While the
scheduler is pending the wrapped stream is not polled; the coin is flipped
only when the wrapped stream has nothing. -/
def transmit (pollStream : S → S × Option M) (self : PersistentTransmissionStream S M)
    (schedulerReady coin : Bool) : PersistentTransmissionStream S M × Emission M :=
  if schedulerReady then
    let polled := pollStream self.stream
    let self := { self with stream := polled.1 }
    match polled.2 with
    | some item => (self, .message item)
    | none => if coin then (self, .drop) else (self, .pending)
  else (self, .pending)

/-- `poll_next`. -/
def pollNext (pollStream : S → S × Option M) (self : PersistentTransmissionStream S M)
    (schedulerReady coin : Bool) : PersistentTransmissionStream S M × Option M :=
  let transmitted := self.transmit pollStream schedulerReady coin
  (transmitted.1, transmitted.2.item self.dropMessage)

variable {pollStream : S → S × Option M} {held : S → List M}

@[simp] theorem dropMessage_transmit (self : PersistentTransmissionStream S M)
    (schedulerReady coin : Bool) :
    (self.transmit pollStream schedulerReady coin).1.dropMessage = self.dropMessage := by
  unfold transmit
  split
  · dsimp only
    split
    · rfl
    · split <;> rfl
  · rfl

/-- At a tick the front message of the wrapped stream is emitted; without one
nothing is taken from it. -/
theorem transmit_spec (hstream : PopsFront pollStream held)
    (self : PersistentTransmissionStream S M) (schedulerReady coin : Bool) :
    (self.transmit pollStream schedulerReady coin).2.messages =
        (if schedulerReady then (held self.stream).take 1 else []) ∧
      held (self.transmit pollStream schedulerReady coin).1.stream =
        if schedulerReady then (held self.stream).drop 1 else held self.stream := by
  obtain ⟨hitem, hrest⟩ := hstream self.stream
  cases schedulerReady
  · simp [transmit, Emission.messages]
  · cases hpoll : (pollStream self.stream).2 with
    | none =>
      rw [hpoll, Option.toList_none] at hitem
      cases coin <;> simp [transmit, hpoll, hrest, Emission.messages, ← hitem]
    | some item =>
      rw [hpoll, Option.toList_some] at hitem
      simp [transmit, hpoll, hrest, Emission.messages, ← hitem]

/-- A drop message goes out only at a tick, after a won coin flip, when the
wrapped stream holds nothing. -/
theorem transmit_eq_drop (hstream : PopsFront pollStream held)
    {self : PersistentTransmissionStream S M} {schedulerReady coin : Bool}
    (h : (self.transmit pollStream schedulerReady coin).2 = .drop) :
    schedulerReady = true ∧ coin = true ∧ held self.stream = [] := by
  obtain ⟨hitem, -⟩ := hstream self.stream
  cases schedulerReady
  · simp [transmit] at h
  · cases hpoll : (pollStream self.stream).2 with
    | some item => simp [transmit, hpoll] at h
    | none =>
      cases coin
      · simp [transmit, hpoll] at h
      · rw [hpoll, Option.toList_none, eq_comm, List.take_eq_nil_iff] at hitem
        simpa using hitem

end PersistentTransmissionStream

/-! ## Unwrapping and delaying: `MessageBlendStream` -/

/-- `BlendOutgoingMessage`. -/
inductive BlendOutgoingMessage
  | fullyUnwrapped (message : Bytes)
  | outbound (message : Bytes)
  deriving DecidableEq

/-- `MessageBlendStream`: the temporal stream over the receiver of the
temporal channel, into which `temporal_sender` sends. -/
structure MessageBlendStream where
  outputStream : TemporalStream (UnboundedChannel BlendOutgoingMessage) BlendOutgoingMessage

/-- One poll of the blend stream: the message the input stream answers with,
if any, and the answer of the temporal scheduler. -/
structure Poll where
  received : Option Bytes
  schedulerReady : Bool

namespace MessageBlendStream

variable {E ε : Type} (unwrapMessage : Bytes → Outcome E (Bytes × Bool))

/-- `new`: an empty temporal channel and an empty temporal processor. -/
def new : MessageBlendStream := ⟨temporalStream ⟨[]⟩⟩

/-- The message sent for an unwrapped message, by whether it was the last
layer. -/
def outgoing (unwrappedMessage : Bytes) (fullyUnwrapped : Bool) : BlendOutgoingMessage :=
  if fullyUnwrapped then .fullyUnwrapped unwrappedMessage else .outbound unwrappedMessage

/-- `process_incoming_message`: an unwrapped message goes into the temporal
channel; one that fails to unwrap is logged and dropped. -/
def processIncomingMessage (self : MessageBlendStream) (message : Bytes) :
    Outcome ε MessageBlendStream :=
  match unwrapMessage message with
  | ok (unwrappedMessage, fullyUnwrapped) =>
    ok ⟨{ self.outputStream with
      wrappedStream := self.outputStream.wrappedStream.send
        (outgoing unwrappedMessage fullyUnwrapped) }⟩
  | err _ => ok self
  | .panic m => .panic m
  | div => div

/-- The first half of `poll_next`: a message the input stream answers with is
processed. -/
def receive (self : MessageBlendStream) (received : Option Bytes) :
    Outcome ε MessageBlendStream :=
  match received with
  | some message => self.processIncomingMessage unwrapMessage message
  | none => ok self

/-- The second half of `poll_next`: the output stream is polled. -/
def pollOutput (self : MessageBlendStream) (schedulerReady : Bool) :
    MessageBlendStream × Option BlendOutgoingMessage :=
  let polled := self.outputStream.pollNext UnboundedChannel.pollRecv schedulerReady
  (⟨polled.1⟩, polled.2)

/-- `poll_next`. -/
def pollNext (self : MessageBlendStream) (poll : Poll) :
    Outcome ε (MessageBlendStream × Option BlendOutgoingMessage) := do
  let self ← self.receive unwrapMessage poll.received
  ok (self.pollOutput poll.schedulerReady)

/-- The stream polled once per element of `polls`. -/
def run (self : MessageBlendStream) (polls : List Poll) :
    Outcome ε MessageBlendStream × List (Option BlendOutgoingMessage) :=
  Mealy.runOutcome (pollNext unwrapMessage) self polls

/-- The messages waiting to be released, in the order they will be. -/
def delayed (self : MessageBlendStream) : List BlendOutgoingMessage :=
  self.outputStream.held UnboundedChannel.queue

/-- What processing a message adds to the stream: its unwrapping, if it
unwraps. -/
def accepted (message : Bytes) : List BlendOutgoingMessage :=
  match unwrapMessage message with
  | ok (unwrappedMessage, fullyUnwrapped) => [outgoing unwrappedMessage fullyUnwrapped]
  | _ => []

theorem mem_accepted {message : Bytes} {b : BlendOutgoingMessage}
    (h : b ∈ accepted unwrapMessage message) :
    ∃ unwrappedMessage fullyUnwrapped, unwrapMessage message = ok (unwrappedMessage, fullyUnwrapped) ∧
      b = outgoing unwrappedMessage fullyUnwrapped := by
  unfold accepted at h
  split at h
  · rename_i unwrappedMessage fullyUnwrapped hunwrap
    exact ⟨unwrappedMessage, fullyUnwrapped, hunwrap, List.mem_singleton.mp h⟩
  · simp at h

@[simp] theorem outgoing_eq_outbound {unwrappedMessage message : Bytes} {fullyUnwrapped : Bool} :
    outgoing unwrappedMessage fullyUnwrapped = .outbound message ↔
      unwrappedMessage = message ∧ fullyUnwrapped = false := by
  cases fullyUnwrapped <;> simp [outgoing]

theorem processIncomingMessage_eq_ok {self self' : MessageBlendStream} {message : Bytes}
    (h : (self.processIncomingMessage unwrapMessage message : Outcome ε _) = ok self') :
    self'.delayed = self.delayed ++ accepted unwrapMessage message := by
  unfold processIncomingMessage at h
  unfold accepted
  split at h
  · rename_i unwrapped fullyUnwrapped hunwrap
    cases Outcome.ok.inj h
    simp [hunwrap, delayed, TemporalStream.held]
  · rename_i e hunwrap
    cases Outcome.ok.inj h
    simp [hunwrap]
  all_goals cases h

theorem receive_eq_ok {self self' : MessageBlendStream} {received : Option Bytes}
    (h : (self.receive unwrapMessage received : Outcome ε _) = ok self') :
    self'.delayed = self.delayed ++ received.toList.flatMap (accepted unwrapMessage) := by
  cases received with
  | none => cases Outcome.ok.inj h; simp
  | some message => simpa using processIncomingMessage_eq_ok unwrapMessage h

theorem receive_returns (self : MessageBlendStream) {received : Option Bytes}
    (h : ∀ message ∈ received, (unwrapMessage message).Returns) :
    ∃ self', (self.receive unwrapMessage received : Outcome ε _) = ok self' := by
  cases received with
  | none => exact ⟨self, rfl⟩
  | some message =>
    have hunwrap := h message rfl
    show ∃ self', (self.processIncomingMessage unwrapMessage message : Outcome ε _) = ok self'
    unfold processIncomingMessage
    rcases hu : unwrapMessage message with ⟨unwrapped, fullyUnwrapped⟩ | e | m | _
    · exact ⟨_, rfl⟩
    · exact ⟨_, rfl⟩
    all_goals simp [hu] at hunwrap

/-- Polling the output stream releases the front message at a tick. -/
theorem pollOutput_spec (self : MessageBlendStream) (schedulerReady : Bool) :
    (self.pollOutput schedulerReady).2.toList =
        (if schedulerReady then self.delayed.take 1 else []) ∧
      (self.pollOutput schedulerReady).1.delayed =
        if schedulerReady then self.delayed.drop 1 else self.delayed :=
  TemporalStream.pollNext_spec UnboundedChannel.pollRecv_popsFront _ _

/-- The blend stream serves one queue, the messages it delays, at the ticks of
its temporal scheduler; what arrives at a poll is the unwrapping of the
message received, if any. -/
theorem pollNext_servesQueue :
    Mealy.ServesQueue (pollNext unwrapMessage (ε := ε)) delayed
      (fun poll _ => poll.received.toList.flatMap (accepted unwrapMessage)) Option.toList
      Poll.schedulerReady := by
  intro self poll self' released h
  obtain ⟨processed, hprocessed, hpolled⟩ := bind_eq_ok.mp h
  cases Outcome.ok.inj hpolled
  rw [← receive_eq_ok unwrapMessage hprocessed]
  exact pollOutput_spec processed poll.schedulerReady

/-- The blend stream releases the messages it receives in order, each once,
at most one at a tick of its temporal scheduler. Over any polls that receive
no message whose unwrapping panics, the run ends in a state; the messages it
released, followed by those still delayed, are the ones delayed at the start
followed by the unwrappings of the messages received, in the order received;
the messages delayed at the start are released first, one per tick; and no
more messages are released than the scheduler ticked. -/
theorem run_releases_in_order (self : MessageBlendStream) (polls : List Poll)
    (hreturns : ∀ poll ∈ polls, ∀ message ∈ poll.received, (unwrapMessage message).Returns) :
    ∃ final, (run (ε := ε) unwrapMessage self polls).1 = ok final ∧
      (run (ε := ε) unwrapMessage self polls).2.flatMap Option.toList ++ final.delayed =
        self.delayed ++ (polls.flatMap fun poll => poll.received.toList).flatMap
          (accepted unwrapMessage) ∧
      self.delayed.take (polls.countP Poll.schedulerReady) <+:
        (run (ε := ε) unwrapMessage self polls).2.flatMap Option.toList ∧
      ((run (ε := ε) unwrapMessage self polls).2.flatMap Option.toList).length ≤
        polls.countP Poll.schedulerReady := by
  have hq := pollNext_servesQueue unwrapMessage (ε := ε)
  have hstep : ∀ s poll, poll ∈ polls →
      ∃ r, (pollNext unwrapMessage s poll : Outcome ε _) = ok r := by
    intro s poll hpoll
    obtain ⟨processed, hprocessed⟩ := receive_returns (ε := ε) unwrapMessage s (hreturns poll hpoll)
    exact ⟨processed.pollOutput poll.schedulerReady, by simp [pollNext, hprocessed]⟩
  obtain ⟨final, hfinal⟩ :=
    Mealy.runOutcome_ok (fun poll => poll ∈ polls) hstep polls self fun _ h => h
  refine ⟨final, hfinal, ?_, hq.runOutcome_take_prefix polls self final hfinal,
    hq.runOutcome_length_le polls self final hfinal⟩
  rw [List.flatMap_assoc]
  exact hq.runOutcome_conserves_inputs polls self final hfinal

/-- A stand-in for the cryptographic processor: a layer is one byte, and a
message with no layer left fails to unwrap. -/
def peelByte : Bytes → Outcome Unit (Bytes × Bool)
  | [] => err ()
  | _ :: rest => ok (rest, rest.isEmpty)

/-- A message of two layers received, then one with none, then a tick. -/
def twoReceivedThenTick : List Poll := [⟨some [1, 2], false⟩, ⟨some [], false⟩, ⟨none, true⟩]

theorem run_releases_in_order_two_received :
    (∀ poll ∈ twoReceivedThenTick, ∀ message ∈ poll.received, (peelByte message).Returns) ∧
    ∃ final, (run (ε := Unit) peelByte new twoReceivedThenTick).1 = ok final ∧
      (run (ε := Unit) peelByte new twoReceivedThenTick).2.flatMap Option.toList ++ final.delayed =
        new.delayed ++ (twoReceivedThenTick.flatMap fun poll => poll.received.toList).flatMap
          (accepted peelByte) ∧
      new.delayed.take (twoReceivedThenTick.countP Poll.schedulerReady) <+:
        (run (ε := Unit) peelByte new twoReceivedThenTick).2.flatMap Option.toList ∧
      ((run (ε := Unit) peelByte new twoReceivedThenTick).2.flatMap Option.toList).length ≤
        twoReceivedThenTick.countP Poll.schedulerReady :=
  have hreturns :
      ∀ poll ∈ twoReceivedThenTick, ∀ message ∈ poll.received, (peelByte message).Returns := by
    simp [twoReceivedThenTick, peelByte]
  ⟨hreturns, run_releases_in_order peelByte new twoReceivedThenTick hreturns⟩

end MessageBlendStream

end NomosBlend
