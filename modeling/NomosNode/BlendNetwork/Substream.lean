import NomosNode.BlendNetwork.Handler

/-!
# One substream between two connection handlers

What `send_msg` writes on the outbound substream of one handler is what
`recv_msg` reads on the inbound substream of the other. A `Substream` pairs the
sending handler, the bytes in flight and the receiving handler, each driven by
its own swarm, so a run is any interleaving of their polls. The transport's
answers are inputs; `send_msg` fails on a message too long for its prefix, and a
read completes when the stream holds a whole frame. Over every run nothing is
lost or reordered on the wire, and end to end the delivered messages are, in
order, a sublist of those the sending behaviour gave.
-/

namespace NomosBlendNetwork

open Outcome NomosBlend BlendConnectionHandler

structure Substream where
  sender : BlendConnectionHandler
  stream : Bytes
  receiver : BlendConnectionHandler

namespace Substream

/-- The answer of `send_msg`'s future for a message, when the transport gives
the answer `transport` to its writes. -/
def sendAnswer (msg : Bytes) (transport : IoPoll Unit) : IoPoll Unit :=
  match sendMsg msg with
  | .ok _ => transport
  | .error _ => .error

/-- The answer of `recv_msg`'s future on the bytes the stream holds. -/
def recvAnswer (stream : Bytes) (transportFails : Bool) : IoPoll Bytes :=
  if transportFails then .error
  else
    match recvMsg stream with
    | some (msg, _) => .ready msg
    | none => .pending

inductive Input
  | senderPoll (intervalReady : Bool) (recv : IoPoll Bytes) (transport : List (IoPoll Unit))
  | senderBehaviourEvent (event : FromBehaviour)
  | senderConnectionEvent (event : ConnectionEvent)
  | receiverPoll (intervalReady transportFails : Bool) (sends : List (IoPoll Unit))
  | receiverBehaviourEvent (event : FromBehaviour)
  | receiverConnectionEvent (event : ConnectionEvent)

inductive Output
  | sender (polled : Option Polled)
  | receiver (polled : Option Polled)

/-- The messages the sending handler wrote. -/
def Output.written : Output → List Bytes
  | sender polled => Polled.writtenOf polled
  | receiver _ => []

/-- The messages the receiving handler handed its behaviour. -/
def Output.delivered : Output → List Bytes
  | receiver (some ⟨.notifyBehaviour (.message msg), _⟩) => [msg]
  | _ => []

/-- The messages the sending behaviour gave its handler. -/
def Input.given : Input → List Bytes
  | senderBehaviourEvent (.message msg) => [msg]
  | _ => []

variable {ε : Type} (dropMessage : Bytes)

def step (self : Substream) : Input → Outcome ε (Substream × Output)
  | .senderPoll intervalReady recv transport => do
    let polled ← self.sender.poll dropMessage intervalReady recv
      (List.zipWith sendAnswer self.sender.held transport)
    ok ({ self with sender := polled.1, stream := self.stream ++ polled.2.written.flatMap frame },
      .sender (some polled.2))
  | .senderBehaviourEvent event =>
    ok ({ self with sender := self.sender.onBehaviourEvent event }, .sender none)
  | .senderConnectionEvent event =>
    ok ({ self with sender := self.sender.onConnectionEvent event }, .sender none)
  | .receiverPoll intervalReady transportFails sends => do
    let polled ← self.receiver.poll dropMessage intervalReady (recvAnswer self.stream transportFails) sends
    let stream :=
      match polled.2.answer, recvMsg self.stream with
      | .notifyBehaviour (.message _), some (_, rest) => rest
      | _, _ => self.stream
    ok ({ self with receiver := polled.1, stream := stream }, .receiver (some polled.2))
  | .receiverBehaviourEvent event =>
    ok ({ self with receiver := self.receiver.onBehaviourEvent event }, .receiver none)
  | .receiverConnectionEvent event =>
    ok ({ self with receiver := self.receiver.onConnectionEvent event }, .receiver none)

/-! ## Frames on the stream -/

/-- The messages whose frames a stream holds, oldest first, reading at most
`fuel` of them. -/
def framed : ℕ → Bytes → List Bytes
  | 0, _ => []
  | fuel + 1, stream =>
    match recvMsg stream with
    | some (msg, rest) => msg :: framed fuel rest
    | none => []

/-- The messages whose frames the stream holds. -/
def inFlight (stream : Bytes) : List Bytes := framed stream.length stream

/-- A message `send_msg` accepts. -/
def Fits (msg : Bytes) : Prop := msg.length < 2 ^ 16

theorem framed_flatMap_frame {msgs : List Bytes} (hfits : ∀ msg ∈ msgs, Fits msg) :
    ∀ {fuel : ℕ}, msgs.length ≤ fuel → framed fuel (msgs.flatMap frame) = msgs := by
  induction msgs with
  | nil =>
    intro fuel _
    cases fuel <;> rfl
  | cons msg msgs ih =>
    intro fuel hfuel
    obtain ⟨fuel, rfl⟩ : ∃ k, fuel = k + 1 := ⟨fuel - 1, by simp at hfuel; omega⟩
    have hhead := hfits msg List.mem_cons_self
    have htail : ∀ m ∈ msgs, Fits m := fun m hm => hfits m (List.mem_cons_of_mem msg hm)
    simp only [List.flatMap_cons, framed, recvMsg_frame hhead, ih htail (by simpa using hfuel)]

theorem length_le_flatMap_frame (msgs : List Bytes) : msgs.length ≤ (msgs.flatMap frame).length := by
  induction msgs with
  | nil => simp
  | cons msg msgs ih =>
    simp only [List.flatMap_cons, List.length_append, List.length_cons, frame, length_beBytes]
    omega

/-- A stream of whole frames holds the messages they frame. -/
theorem inFlight_flatMap_frame {msgs : List Bytes} (hfits : ∀ msg ∈ msgs, Fits msg) :
    inFlight (msgs.flatMap frame) = msgs :=
  framed_flatMap_frame hfits (length_le_flatMap_frame msgs)

/-- The stream holds whole frames of messages `send_msg` accepts, and the
receiver's queue holds only events that wait. -/
def Framed (self : Substream) : Prop :=
  (∃ msgs : List Bytes, self.stream = msgs.flatMap frame ∧ ∀ msg ∈ msgs, Fits msg) ∧
    self.receiver.Waiting

theorem zipWith_answer_of_mem_zip {msgs : List Bytes} {transport : List (IoPoll Unit)} {msg : Bytes}
    {answer : IoPoll Unit} (h : (msg, answer) ∈ msgs.zip (List.zipWith sendAnswer msgs transport)) :
    ∃ t, answer = sendAnswer msg t := by
  induction msgs generalizing transport with
  | nil => simp at h
  | cons m msgs ih =>
    cases transport with
    | nil => simp at h
    | cons t transport =>
      simp only [List.zipWith_cons_cons, List.zip_cons_cons, List.mem_cons, Prod.mk.injEq] at h
      rcases h with ⟨rfl, rfl⟩ | h
      · exact ⟨t, rfl⟩
      · exact ih h

/-- A message the sender writes is one `send_msg` accepts. -/
theorem fits_of_written {self self' : BlendConnectionHandler} {intervalReady : Bool}
    {recv : IoPoll Bytes} {transport : List (IoPoll Unit)} {polled : Polled}
    (h : (self.poll dropMessage intervalReady recv (List.zipWith sendAnswer self.held transport) :
      Outcome ε _) = ok (self', polled)) : ∀ msg ∈ polled.written, Fits msg := by
  intro msg hmsg
  obtain ⟨t, hanswer⟩ := zipWith_answer_of_mem_zip (poll_written_ready dropMessage h msg hmsg)
  unfold sendAnswer at hanswer
  split at hanswer
  · rename_i bytes hsend
    exact lt_of_sendMsg_ok hsend
  · cases hanswer

/-- What a poll of the receiver hands out, and what it leaves on the stream:
a message is handed out only when it was the first whole frame, which the
read takes off the stream. -/
theorem receiverPoll_stream {self : Substream} {msgs : List Bytes} (hstream : self.stream = msgs.flatMap frame)
    (hfits : ∀ msg ∈ msgs, Fits msg) {intervalReady transportFails : Bool} {sends : List (IoPoll Unit)}
    {receiver' : BlendConnectionHandler} {polled : Polled} (hwaiting : self.receiver.Waiting)
    (h : (self.receiver.poll dropMessage intervalReady (recvAnswer self.stream transportFails) sends :
      Outcome ε _) = ok (receiver', polled)) :
    (∃ msg rest, polled.answer = .notifyBehaviour (.message msg) ∧ msgs = msg :: rest ∧
        recvMsg self.stream = some (msg, rest.flatMap frame)) ∨
      ∀ msg, polled.answer ≠ .notifyBehaviour (.message msg) := by
  by_cases hmessage : ∃ msg, polled.answer = .notifyBehaviour (.message msg)
  · obtain ⟨msg, hmsg⟩ := hmessage
    have hrecv := hwaiting.poll_message dropMessage h hmsg
    left
    unfold recvAnswer at hrecv
    split at hrecv
    · cases hrecv
    · split at hrecv
      · rename_i msg' rest' hread
        have hsame : msg' = msg := IoPoll.ready.inj hrecv
        subst hsame
        cases msgs with
        | nil => simp [hstream, recvMsg] at hread
        | cons first rest =>
          have hfirst : recvMsg self.stream = some (first, rest.flatMap frame) := by
            rw [hstream, List.flatMap_cons, recvMsg_frame (hfits first List.mem_cons_self)]
          rw [hfirst] at hread
          have hhead : first = msg' := (Prod.mk.inj (Option.some.inj hread)).1
          subst hhead
          exact ⟨first, rest, hmsg, rfl, hfirst⟩
      · cases hrecv
  · exact .inr fun msg hmsg => hmessage ⟨msg, hmsg⟩

theorem delivered_of_message {polled : Polled} {msg : Bytes}
    (h : polled.answer = .notifyBehaviour (.message msg)) :
    Output.delivered (.receiver (some polled)) = [msg] := by
  obtain ⟨answer, written⟩ := polled
  subst h
  rfl

theorem delivered_of_not_message {polled : Polled}
    (h : ∀ msg, polled.answer ≠ .notifyBehaviour (.message msg)) :
    Output.delivered (.receiver (some polled)) = [] := by
  obtain ⟨answer, written⟩ := polled
  unfold Output.delivered
  split
  · rename_i msg written' hpolled
    simp only [Output.receiver.injEq, Option.some.injEq, Polled.mk.injEq] at hpolled
    exact absurd hpolled.1 (h msg)
  · rfl

theorem given_behaviourEvent (event : FromBehaviour) :
    BlendConnectionHandler.Input.given (.behaviourEvent event) = Input.given (.senderBehaviourEvent event) := by
  cases event <;> rfl

/-- One step keeps the stream framed and conserves what is on it: what the
receiver is handed, followed by what the stream then holds, is what it held
followed by what the sender wrote; and end to end, what the receiver is
handed, what is on the stream and what the sender holds only lose, in order,
from what they were and what the sending behaviour gave. -/
theorem step_framed {self self' : Substream} {input : Input} {output : Output} (hself : self.Framed)
    (h : (self.step dropMessage input : Outcome ε _) = ok (self', output)) :
    self'.Framed ∧ output.delivered ++ inFlight self'.stream = inFlight self.stream ++ output.written ∧
      (output.delivered ++ (inFlight self'.stream ++ self'.sender.held)).Sublist
        (inFlight self.stream ++ self.sender.held ++ input.given) := by
  obtain ⟨⟨msgs, hstream, hfits⟩, hwaiting⟩ := hself
  have hin : inFlight self.stream = msgs := by
    rw [hstream]
    exact inFlight_flatMap_frame hfits
  cases input with
  | senderPoll intervalReady recv transport =>
    simp only [Substream.step, bind_def] at h
    obtain ⟨polled, hpoll, hrest⟩ := bind_eq_ok.mp h
    cases hrest
    have hwritten := fits_of_written dropMessage hpoll
    have hall : ∀ msg ∈ msgs ++ polled.2.written, Fits msg := by
      intro msg hmsg
      rcases List.mem_append.mp hmsg with hmsg | hmsg
      · exact hfits msg hmsg
      · exact hwritten msg hmsg
    have hnew : inFlight (self.stream ++ polled.2.written.flatMap frame) = msgs ++ polled.2.written := by
      rw [hstream, ← List.flatMap_append, inFlight_flatMap_frame hall]
    refine ⟨⟨⟨msgs ++ polled.2.written, by simp [hstream], hall⟩, hwaiting⟩, ?_, ?_⟩
    · simp [Output.delivered, Output.written, Polled.writtenOf, hnew, hin]
    · simp only [Output.delivered, hnew, hin, Input.given, List.nil_append, List.append_nil,
        List.append_assoc]
      exact (poll_written dropMessage hpoll).append_left msgs
  | senderBehaviourEvent event =>
    cases h
    have hheld := step_written (ε := ε) dropMessage
      (show (self.sender.step dropMessage (.behaviourEvent event) : Outcome ε _) =
        ok (self.sender.onBehaviourEvent event, none) from rfl)
    rw [given_behaviourEvent] at hheld
    refine ⟨⟨⟨msgs, hstream, hfits⟩, hwaiting⟩, by simp [Output.delivered, Output.written, Polled.writtenOf], ?_⟩
    simpa [Output.delivered, Polled.writtenOf, List.append_assoc] using hheld.append_left (inFlight self.stream)
  | senderConnectionEvent event =>
    cases h
    have hheld := step_written (ε := ε) dropMessage
      (show (self.sender.step dropMessage (.connectionEvent event) : Outcome ε _) =
        ok (self.sender.onConnectionEvent event, none) from rfl)
    refine ⟨⟨⟨msgs, hstream, hfits⟩, hwaiting⟩, by simp [Output.delivered, Output.written, Polled.writtenOf], ?_⟩
    simpa [Output.delivered, Polled.writtenOf, BlendConnectionHandler.Input.given, Input.given] using
      hheld.append_left (inFlight self.stream)
  | receiverPoll intervalReady transportFails sends =>
    simp only [Substream.step, bind_def] at h
    obtain ⟨polled, hpoll, hrest⟩ := bind_eq_ok.mp h
    cases hrest
    have hwaiting' := (hwaiting.poll dropMessage hpoll).1
    rcases receiverPoll_stream dropMessage hstream hfits hwaiting hpoll with
      ⟨msg, rest, hmsg, rfl, hread⟩ | hnone
    · -- the read took the first frame off the stream
      have hrest : ∀ m ∈ rest, Fits m := fun m hm => hfits m (List.mem_cons_of_mem msg hm)
      simp only [hmsg, hread]
      refine ⟨⟨⟨rest, rfl, hrest⟩, hwaiting'⟩, ?_, ?_⟩
      · simp [delivered_of_message hmsg, Output.written, hin, inFlight_flatMap_frame hrest]
      · simp [delivered_of_message hmsg, hin, inFlight_flatMap_frame hrest, Input.given]
    · -- nothing was handed out: the stream is as it was
      have hsame : (match polled.2.answer, recvMsg self.stream with
          | .notifyBehaviour (.message _), some (_, rest) => rest
          | _, _ => self.stream) = self.stream := by
        rcases hanswer : polled.2.answer with _ | event | _
        · rfl
        · cases event with
          | message msg => exact absurd hanswer (hnone msg)
          | _ => rfl
        · rfl
      simp only [hsame, delivered_of_not_message hnone]
      exact ⟨⟨⟨msgs, hstream, hfits⟩, hwaiting'⟩, by simp [Output.written],
        by simp [Input.given]⟩
  | receiverBehaviourEvent event =>
    cases h
    exact ⟨⟨⟨msgs, hstream, hfits⟩, hwaiting.onBehaviourEvent event⟩,
      by simp [Output.delivered, Output.written], by simp [Output.delivered, Input.given]⟩
  | receiverConnectionEvent event =>
    cases h
    exact ⟨⟨⟨msgs, hstream, hfits⟩, hwaiting.onConnectionEvent event⟩,
      by simp [Output.delivered, Output.written], by simp [Output.delivered, Input.given]⟩

theorem framed_new (monitorS monitorR : Option ConnectionMonitor) :
    (⟨new monitorS, [], new monitorR⟩ : Substream).Framed :=
  ⟨⟨[], rfl, by simp⟩, waiting_new monitorR⟩

/-- A substream between two handlers fresh from `new`, over every
interleaving of their polls and events that ends in a state: nothing is lost
or reordered on the wire, since the messages the receiving handler hands its
behaviour, followed by those whose frames are still on the stream, are the
messages the sending handler wrote; and end to end, the messages handed to the
receiving behaviour, those on the stream and those the sender still holds are,
in order, a sublist of the messages the sending behaviour gave its handler. -/
theorem run_delivers_in_order (monitorS monitorR : Option ConnectionMonitor) (inputs : List Input)
    {final : Substream}
    (hfinal : (Mealy.runOutcome (step (ε := ε) dropMessage) ⟨new monitorS, [], new monitorR⟩ inputs).1 =
      ok final) :
    (Mealy.runOutcome (step (ε := ε) dropMessage) ⟨new monitorS, [], new monitorR⟩ inputs).2.flatMap
        Output.delivered ++ inFlight final.stream =
      (Mealy.runOutcome (step (ε := ε) dropMessage) ⟨new monitorS, [], new monitorR⟩ inputs).2.flatMap
        Output.written ∧
    ((Mealy.runOutcome (step (ε := ε) dropMessage) ⟨new monitorS, [], new monitorR⟩ inputs).2.flatMap
        Output.delivered ++ (inFlight final.stream ++ final.sender.held)).Sublist
      (inputs.flatMap Input.given) := by
  have hwire := Mealy.runOutcome_conserves_outputs Framed (fun s => inFlight s.stream) Output.written
    Output.delivered (fun _ _ _ _ hs h => (step_framed (ε := ε) dropMessage hs h).1)
    (fun _ _ _ _ hs h => (step_framed (ε := ε) dropMessage hs h).2.1) inputs _ final
    (framed_new monitorS monitorR) hfinal
  have hends := (Mealy.runOutcome_sublist_of_invariant Framed
    (fun s => inFlight s.stream ++ s.sender.held) Input.given Output.delivered
    (fun _ _ _ _ hs h => (step_framed (ε := ε) dropMessage hs h).1)
    (fun _ _ _ _ hs h => (step_framed (ε := ε) dropMessage hs h).2.2) inputs _
    (framed_new monitorS monitorR)).2 final hfinal
  refine ⟨?_, ?_⟩
  · simpa [inFlight, framed] using hwire
  · simpa [inFlight, framed, held, new] using hends

/-- The sender is negotiated and given two messages, and writes both; the
receiver is negotiated and reads the first. -/
def twoWrittenOneRead : List Input :=
  [.senderConnectionEvent .fullyNegotiatedOutbound, .senderBehaviourEvent (.message [1]),
    .senderBehaviourEvent (.message [2]), .senderPoll false .pending [],
    .senderPoll false .pending [.ready (), .ready ()],
    .receiverConnectionEvent .fullyNegotiatedInbound, .receiverPoll false false [],
    .receiverPoll false false []]

theorem run_delivers_in_order_two_written_one_read :
    (Mealy.runOutcome (step (ε := Unit) [0]) ⟨new none, [], new none⟩ twoWrittenOneRead).1 =
        ok ⟨⟨none, some .idle, [], [], none⟩, frame [2], ⟨some .pendingRecv, none, [], [], none⟩⟩ ∧
      (Mealy.runOutcome (step (ε := Unit) [0]) ⟨new none, [], new none⟩ twoWrittenOneRead).2.flatMap
          Output.delivered ++ inFlight (frame [2]) =
        (Mealy.runOutcome (step (ε := Unit) [0]) ⟨new none, [], new none⟩ twoWrittenOneRead).2.flatMap
          Output.written := by
  have hfinal : (Mealy.runOutcome (step (ε := Unit) [0]) ⟨new none, [], new none⟩ twoWrittenOneRead).1 =
      ok ⟨⟨none, some .idle, [], [], none⟩, frame [2], ⟨some .pendingRecv, none, [], [], none⟩⟩ := rfl
  exact ⟨hfinal, (run_delivers_in_order [0] none none twoWrittenOneRead hfinal).1⟩

end Substream

end NomosBlendNetwork
