import NomosNode.Blend.Streams

/-!
# The blend service's loop

`nomos-services/blend/src/lib.rs`: `BlendService::run` wires the streams of
`nomos-blend` together. Local and cover messages are wrapped onto the persistent
transmission stream; messages from the network go through the message blend
stream, which forwards or broadcasts them. A run is any list of events, one per
branch of `select!`: the incoming streams, schedulers and coin are inputs, and
wrapping, unwrapping and deserialisation are parameters; the lifecycle branch is
not modelled. The persistent channel is a queue served at its ticks, and from a
fresh start the node publishes only drop messages, its own wrapped messages and
the next layers of those it received.
-/

namespace NomosBlendService

open Outcome NomosBlend

/-- What `run` keeps across iterations: the persistent transmission stream,
over the receiver of the channel `persistent_sender` sends into, and the
message blend stream. -/
structure BlendService where
  persistentTransmissionMessages : PersistentTransmissionStream (UnboundedChannel Bytes) Bytes
  blendMessages : MessageBlendStream

/-- One branch of the loop's `select!`, polled. -/
inductive Event (ρ : Type)
  | persistentTransmission (schedulerReady coin : Bool)
  | blendMessages (poll : Poll)
  | coverTraffic (message : Bytes) (rng : ρ)
  | localMessage (message : Bytes) (rng : ρ)

/-- What the body of a branch that fires does. -/
inductive Effect (X : Type)
  | publish (emission : Emission Bytes)
  | persistentSend (message : Bytes)
  | broadcast (message : X)
  | unrecognized

namespace Event

variable {ρ : Type}

/-- The events at which the persistent transmission's scheduler ticks. -/
def tick : Event ρ → Bool
  | persistentTransmission schedulerReady _ => schedulerReady
  | _ => false

end Event

section Effects

variable {X : Type}

/-- The messages of the persistent channel that an iteration publishes. -/
def published : Option (Effect X) → List Bytes
  | some (.publish emission) => emission.messages
  | _ => []

/-- The bytes an iteration publishes, drop messages included. -/
def publishedBytes (dropMessage : Bytes) : Option (Effect X) → List Bytes
  | some (.publish emission) => (emission.item dropMessage).toList
  | _ => []

/-- The messages an iteration sends into the persistent channel. -/
def sent : Option (Effect X) → List Bytes
  | some (.persistentSend message) => [message]
  | _ => []

end Effects

namespace BlendService

variable {E ε ρ X : Type} (unwrapMessage : Bytes → Outcome E (Bytes × Bool))
  (wrapMessage : ρ → Bytes → Outcome E Bytes) (deserialize : Bytes → Option X)

/-- The state at the start of `run`: both channels and the temporal processor
empty, and the drop message of the blend message format. -/
def new (dropMessage : Bytes) : BlendService :=
  ⟨⟨⟨[]⟩, dropMessage⟩, MessageBlendStream.new⟩

/-- The messages waiting in the persistent channel, oldest first. -/
def persistentQueue (self : BlendService) : List Bytes :=
  self.persistentTransmissionMessages.stream.queue

/-- `persistent_sender.send`. -/
def sendToPersistentTransmission (self : BlendService) (message : Bytes) : BlendService :=
  { self with
    persistentTransmissionMessages :=
      { self.persistentTransmissionMessages with
        stream := self.persistentTransmissionMessages.stream.send message } }

/-- `wrap_and_send_to_persistent_transmission`: a message that fails to wrap
is logged and dropped. -/
def wrapAndSendToPersistentTransmission (self : BlendService) (message : Bytes) (rng : ρ) :
    Outcome ε (BlendService × Option (Effect X)) :=
  match wrapMessage rng message with
  | ok wrappedMessage =>
    ok (self.sendToPersistentTransmission wrappedMessage, some (.persistentSend wrappedMessage))
  | err _ => ok (self, none)
  | .panic m => .panic m
  | div => div

/-- The body of the `blend_messages` branch for a message the stream
released: an outbound message goes to persistent transmission, a fully
unwrapped one is broadcast if it deserialises. -/
def handleBlendMessage (self : BlendService) : BlendOutgoingMessage → BlendService × Option (Effect X)
  | .outbound msg => (self.sendToPersistentTransmission msg, some (.persistentSend msg))
  | .fullyUnwrapped msg =>
    match deserialize msg with
    | some message => (self, some (.broadcast message))
    | none => (self, some .unrecognized)

/-- One iteration of the loop: the branch polled, and what its body does if
it fires. -/
def step (self : BlendService) : Event ρ → Outcome ε (BlendService × Option (Effect X))
  | .persistentTransmission schedulerReady coin =>
    let transmitted :=
      self.persistentTransmissionMessages.transmit UnboundedChannel.pollRecv schedulerReady coin
    let self := { self with persistentTransmissionMessages := transmitted.1 }
    match transmitted.2 with
    | .pending => ok (self, none)
    | emission => ok (self, some (.publish emission))
  | .blendMessages poll => do
    let polled ← self.blendMessages.pollNext unwrapMessage poll
    let self := { self with blendMessages := polled.1 }
    match polled.2 with
    | some msg => ok (self.handleBlendMessage deserialize msg)
    | none => ok (self, none)
  | .coverTraffic message rng => self.wrapAndSendToPersistentTransmission wrapMessage message rng
  | .localMessage message rng => self.wrapAndSendToPersistentTransmission wrapMessage message rng

/-- The loop run over a list of events. -/
def run (self : BlendService) (events : List (Event ρ)) :
    Outcome ε BlendService × List (Option (Effect X)) :=
  Mealy.runOutcome (step unwrapMessage wrapMessage deserialize) self events

@[simp] theorem persistentQueue_sendToPersistentTransmission (self : BlendService)
    (message : Bytes) :
    (self.sendToPersistentTransmission message).persistentQueue =
      self.persistentQueue ++ [message] := rfl

@[simp] theorem blendMessages_sendToPersistentTransmission (self : BlendService)
    (message : Bytes) :
    (self.sendToPersistentTransmission message).blendMessages = self.blendMessages := rfl

@[simp] theorem dropMessage_sendToPersistentTransmission (self : BlendService)
    (message : Bytes) :
    (self.sendToPersistentTransmission message).persistentTransmissionMessages.dropMessage =
      self.persistentTransmissionMessages.dropMessage := rfl

/-- The branches other than persistent transmission publish nothing, keep
the drop message and only add to the back of the persistent channel what they
send. -/
def SendsOnly (self self' : BlendService) (o : Option (Effect X)) : Prop :=
  (∀ emission, o ≠ some (.publish emission)) ∧
    self'.persistentTransmissionMessages.dropMessage =
      self.persistentTransmissionMessages.dropMessage ∧
    self'.persistentQueue = self.persistentQueue ++ sent o

theorem published_of_ne_publish {o : Option (Effect X)}
    (h : ∀ emission, o ≠ some (.publish emission)) : published o = [] := by
  rcases o with _ | ⟨emission | message | message | _⟩ <;> simp_all [published]

theorem publishedBytes_of_ne_publish {o : Option (Effect X)} (dropMessage : Bytes)
    (h : ∀ emission, o ≠ some (.publish emission)) : publishedBytes dropMessage o = [] := by
  rcases o with _ | ⟨emission | message | message | _⟩ <;> simp_all [publishedBytes]

/-- A released message is handled without touching the blend stream, and
only an outbound message is sent on. -/
theorem handleBlendMessage_spec (self : BlendService) (msg : BlendOutgoingMessage) :
    SendsOnly self (self.handleBlendMessage deserialize msg).1
        (self.handleBlendMessage deserialize msg).2 ∧
      (self.handleBlendMessage deserialize msg).1.blendMessages = self.blendMessages ∧
      ∀ m ∈ sent (self.handleBlendMessage deserialize msg).2, msg = .outbound m := by
  cases msg with
  | outbound m => simp [SendsOnly, handleBlendMessage, sent]
  | fullyUnwrapped m =>
    cases hd : deserialize m <;> simp [SendsOnly, handleBlendMessage, sent, hd]

/-- A local or cover message is wrapped and sent on, or dropped if it fails to
wrap; the blend stream is not touched. -/
theorem wrapAndSendToPersistentTransmission_spec {self self' : BlendService}
    {message : Bytes} {rng : ρ} {o : Option (Effect X)}
    (h : (self.wrapAndSendToPersistentTransmission wrapMessage message rng : Outcome ε _) =
      ok (self', o)) :
    SendsOnly self self' o ∧ self'.blendMessages = self.blendMessages ∧
      ∀ m ∈ sent o, wrapMessage rng message = ok m := by
  unfold wrapAndSendToPersistentTransmission at h
  split at h
  · rename_i wrappedMessage hwrap
    cases h
    simp [SendsOnly, sent, hwrap]
  · cases h
    simp [SendsOnly, sent]
  all_goals cases h

/-- The persistent transmission branch moves the stream on, publishes what it
emits, drop messages included, and sends nothing. -/
theorem step_persistentTransmission_eq_ok {self self' : BlendService} {schedulerReady coin : Bool}
    {o : Option (Effect X)}
    (h : (step unwrapMessage wrapMessage deserialize self
      (.persistentTransmission schedulerReady coin) : Outcome ε _) = ok (self', o)) :
    self' = { self with persistentTransmissionMessages := (self.persistentTransmissionMessages.transmit
        UnboundedChannel.pollRecv schedulerReady coin).1 } ∧
      published o = (self.persistentTransmissionMessages.transmit
        UnboundedChannel.pollRecv schedulerReady coin).2.messages ∧
      (∀ dropMessage, publishedBytes dropMessage o = ((self.persistentTransmissionMessages.transmit
        UnboundedChannel.pollRecv schedulerReady coin).2.item dropMessage).toList) ∧
      sent o = [] := by
  simp only [step] at h
  split at h <;> cases h <;> simp [published, publishedBytes, sent, Emission.messages, Emission.item, *]

/-- The `blend_messages` branch polls the blend stream and sends on only an
outbound message it released. -/
theorem step_blendMessages_eq_ok {self self' : BlendService} {poll : Poll}
    {o : Option (Effect X)}
    (h : (step unwrapMessage wrapMessage deserialize self (.blendMessages poll) : Outcome ε _) =
      ok (self', o)) :
    ∃ polled, (self.blendMessages.pollNext unwrapMessage poll : Outcome ε _) = ok polled ∧
      SendsOnly self self' o ∧ self'.blendMessages = polled.1 ∧
      ∀ m ∈ sent o, polled.2 = some (.outbound m) := by
  obtain ⟨polled, hpolled, hbody⟩ := bind_eq_ok.mp h
  refine ⟨polled, hpolled, ?_⟩
  cases hmsg : polled.2 with
  | none =>
    simp only [hmsg] at hbody
    cases hbody
    simp [SendsOnly, sent, persistentQueue]
  | some msg =>
    simp only [hmsg] at hbody
    obtain ⟨hsends, hblend, houtbound⟩ :=
      handleBlendMessage_spec deserialize { self with blendMessages := polled.1 } msg
    rw [Outcome.ok.inj hbody] at hsends hblend houtbound
    exact ⟨hsends, hblend, fun m hm => congrArg some (houtbound m hm)⟩

theorem servesQueue_of_sendsOnly {self self' : BlendService} {event : Event ρ}
    {o : Option (Effect X)} (htick : event.tick = false) (h : SendsOnly self self' o) :
    published o = (if event.tick then (self.persistentQueue ++ sent o).take 1 else []) ∧
      self'.persistentQueue = if event.tick then (self.persistentQueue ++ sent o).drop 1
        else self.persistentQueue ++ sent o := by
  simp only [htick, Bool.false_eq_true, if_false]
  exact ⟨published_of_ne_publish h.1, h.2.2⟩

/-- Every branch serves the persistent channel as one queue: the persistent
transmission branch takes its front message at a tick of its scheduler, and
the other branches add what they send to its back. -/
theorem step_servesQueue :
    Mealy.ServesQueue (step unwrapMessage wrapMessage deserialize (ε := ε)) persistentQueue
      (fun _ o => sent o) published Event.tick := by
  intro self event self' o h
  cases event with
  | persistentTransmission schedulerReady coin =>
    obtain ⟨hmessages, hrest⟩ := self.persistentTransmissionMessages.transmit_spec
      UnboundedChannel.pollRecv_popsFront schedulerReady coin
    obtain ⟨rfl, hpub, -, hsent⟩ :=
      step_persistentTransmission_eq_ok unwrapMessage wrapMessage deserialize h
    simp only [hsent, List.append_nil, Event.tick]
    exact ⟨hpub.trans hmessages, hrest⟩
  | blendMessages poll =>
    obtain ⟨_, _, hsends, -⟩ := step_blendMessages_eq_ok unwrapMessage wrapMessage deserialize h
    exact servesQueue_of_sendsOnly rfl hsends
  | coverTraffic message rng =>
    exact servesQueue_of_sendsOnly rfl (wrapAndSendToPersistentTransmission_spec wrapMessage h).1
  | localMessage message rng =>
    exact servesQueue_of_sendsOnly rfl (wrapAndSendToPersistentTransmission_spec wrapMessage h).1

/-- Publishing happens only at a tick of the persistent transmission's
scheduler, one message at a time, drop messages included. -/
theorem step_publishedBytes_length_le (dropMessage : Bytes) {self self' : BlendService}
    {event : Event ρ} {o : Option (Effect X)}
    (h : (step unwrapMessage wrapMessage deserialize self event : Outcome ε _) = ok (self', o)) :
    (publishedBytes dropMessage o).length ≤ if event.tick then 1 else 0 := by
  cases event with
  | persistentTransmission schedulerReady coin =>
    obtain ⟨-, -, hbytes, -⟩ := step_persistentTransmission_eq_ok unwrapMessage wrapMessage deserialize h
    rw [hbytes]
    cases schedulerReady
    · simp [PersistentTransmissionStream.transmit, Emission.item]
    · cases (self.persistentTransmissionMessages.transmit UnboundedChannel.pollRecv true coin).2 <;>
        simp [Emission.item, Event.tick]
  | blendMessages poll =>
    obtain ⟨_, _, hsends, -⟩ := step_blendMessages_eq_ok unwrapMessage wrapMessage deserialize h
    simp [publishedBytes_of_ne_publish dropMessage hsends.1]
  | coverTraffic message rng =>
    have hsends := (wrapAndSendToPersistentTransmission_spec wrapMessage h).1
    simp [publishedBytes_of_ne_publish dropMessage hsends.1]
  | localMessage message rng =>
    have hsends := (wrapAndSendToPersistentTransmission_spec wrapMessage h).1
    simp [publishedBytes_of_ne_publish dropMessage hsends.1]

/-- Over any interleaving of the loop's branches that ends in a state, the
persistent channel is a queue served at the ticks of its scheduler. The
messages of the channel that were published, followed by those still in it,
are those it held at the start followed by every message sent to it, in the
order sent; the messages it held at the start are published first, one per
tick, whatever is sent meanwhile; and at most one message is published per
tick, drop messages included. -/
theorem run_publishes_in_order (self final : BlendService) (events : List (Event ρ))
    (hfinal : (run (ε := ε) unwrapMessage wrapMessage deserialize self events).1 = ok final) :
    (run (ε := ε) unwrapMessage wrapMessage deserialize self events).2.flatMap published ++
        final.persistentQueue =
      self.persistentQueue ++
        (run (ε := ε) unwrapMessage wrapMessage deserialize self events).2.flatMap sent ∧
    self.persistentQueue.take (events.countP Event.tick) <+:
      (run (ε := ε) unwrapMessage wrapMessage deserialize self events).2.flatMap published ∧
    ((run (ε := ε) unwrapMessage wrapMessage deserialize self events).2.flatMap
        (publishedBytes self.persistentTransmissionMessages.dropMessage)).length ≤
      events.countP Event.tick := by
  have hq := step_servesQueue unwrapMessage wrapMessage deserialize (ε := ε)
  refine ⟨hq.runOutcome_conserves_outputs events self final hfinal,
    hq.runOutcome_take_prefix events self final hfinal, ?_⟩
  exact Mealy.runOutcome_length_flatMap_le _ Event.tick
    (fun _ _ _ _ h => step_publishedBytes_length_le unwrapMessage wrapMessage deserialize _ h)
    events self final hfinal

/-! ## Where published messages come from -/

section Provenance

variable (events : List (Event ρ))

/-- `m` is the wrapping of one of the node's own messages or of a cover
message of `events`. -/
def Wrapped (m : Bytes) : Prop :=
  ∃ message rng, (Event.coverTraffic message rng ∈ events ∨
      Event.localMessage message rng ∈ events) ∧ wrapMessage rng message = ok m

/-- `m` is the next layer of a message received in `events`. -/
def Forwarded (m : Bytes) : Prop :=
  ∃ poll, Event.blendMessages poll ∈ events ∧
    ∃ received ∈ poll.received, unwrapMessage received = ok (m, false)

/-- `b` is the unwrapping of a message received in `events`. -/
def Unwrapped (b : BlendOutgoingMessage) : Prop :=
  ∃ poll, Event.blendMessages poll ∈ events ∧
    ∃ received ∈ poll.received, b ∈ MessageBlendStream.accepted unwrapMessage received

/-- Everything the loop holds came from `events`: the persistent channel holds
wrapped and forwarded messages, and the blend stream unwrappings of messages
received. -/
def Provenance (dropMessage : Bytes) (self : BlendService) : Prop :=
  self.persistentTransmissionMessages.dropMessage = dropMessage ∧
    (∀ m ∈ self.persistentQueue, Wrapped wrapMessage events m ∨ Forwarded unwrapMessage events m) ∧
    ∀ b ∈ self.blendMessages.delayed, Unwrapped unwrapMessage events b

/-- An outbound message that was waiting in the blend stream is forwarded. -/
theorem Unwrapped.forwarded {m : Bytes} (h : Unwrapped unwrapMessage events (.outbound m)) :
    Forwarded unwrapMessage events m := by
  obtain ⟨poll, hpoll, received, hreceived, haccepted⟩ := h
  obtain ⟨unwrappedMessage, fullyUnwrapped, hunwrap, houtgoing⟩ :=
    MessageBlendStream.mem_accepted unwrapMessage haccepted
  obtain ⟨rfl, rfl⟩ := MessageBlendStream.outgoing_eq_outbound.mp houtgoing.symm
  exact ⟨poll, hpoll, received, hreceived, hunwrap⟩

/-- A poll of the blend stream at an event of the run releases and keeps only
unwrappings of messages received in the run. -/
theorem Provenance.released {dropMessage : Bytes} {self : BlendService} {poll : Poll}
    {polled : MessageBlendStream × Option BlendOutgoingMessage}
    (hself : Provenance unwrapMessage wrapMessage events dropMessage self)
    (hpoll : Event.blendMessages poll ∈ events)
    (h : (self.blendMessages.pollNext unwrapMessage poll : Outcome ε _) = ok polled) :
    ∀ b ∈ polled.2.toList ++ polled.1.delayed, Unwrapped unwrapMessage events b := by
  rw [(MessageBlendStream.pollNext_servesQueue unwrapMessage).step_conserves h]
  intro b hb
  rcases List.mem_append.mp hb with hb | hb
  · exact hself.2.2 b hb
  · obtain ⟨received, hreceived, haccepted⟩ := List.mem_flatMap.mp hb
    exact ⟨poll, hpoll, received, by simpa using hreceived, haccepted⟩

/-- Every branch at an event of the run keeps the provenance of what the loop
holds, and what it publishes is the drop message or a message that was waiting
in the persistent channel. -/
theorem Provenance.next {dropMessage : Bytes} {self self' : BlendService} {event : Event ρ}
    {o : Option (Effect X)}
    (hself : Provenance unwrapMessage wrapMessage events dropMessage self) (hevent : event ∈ events)
    (h : (step unwrapMessage wrapMessage deserialize self event : Outcome ε _) = ok (self', o)) :
    Provenance unwrapMessage wrapMessage events dropMessage self' ∧
      ∀ m ∈ publishedBytes dropMessage o,
        m = dropMessage ∨ Wrapped wrapMessage events m ∨ Forwarded unwrapMessage events m := by
  obtain ⟨hdrop, hqueue, hdelayed⟩ := hself
  have hsends : ∀ {self'' : BlendService}, SendsOnly self self'' o →
      self''.blendMessages = self.blendMessages →
      (∀ m ∈ sent o, Wrapped wrapMessage events m ∨ Forwarded unwrapMessage events m) →
      Provenance unwrapMessage wrapMessage events dropMessage self'' ∧
        ∀ m ∈ publishedBytes dropMessage o,
          m = dropMessage ∨ Wrapped wrapMessage events m ∨ Forwarded unwrapMessage events m := by
    intro self'' ⟨hnone, hdrop'', hqueue''⟩ hblend hsent
    refine ⟨⟨hdrop''.trans hdrop, fun m hm => ?_, hblend ▸ hdelayed⟩, by
      simp [publishedBytes_of_ne_publish dropMessage hnone]⟩
    rw [hqueue''] at hm
    rcases List.mem_append.mp hm with hm | hm
    · exact hqueue m hm
    · exact hsent m hm
  cases event with
  | persistentTransmission schedulerReady coin =>
    obtain ⟨hmessages, hrest⟩ := self.persistentTransmissionMessages.transmit_spec
      UnboundedChannel.pollRecv_popsFront schedulerReady coin
    have hsub : ∀ m ∈ (self.persistentTransmissionMessages.transmit
        UnboundedChannel.pollRecv schedulerReady coin).2.messages, m ∈ self.persistentQueue := by
      intro m hm
      rw [hmessages] at hm
      split at hm
      · exact List.mem_of_mem_take hm
      · simp at hm
    obtain ⟨rfl, -, hbytes, -⟩ := step_persistentTransmission_eq_ok unwrapMessage wrapMessage deserialize h
    refine ⟨⟨by simp [hdrop], fun m hm => ?_, hdelayed⟩, fun m hm => ?_⟩
    · simp only [persistentQueue, hrest] at hm
      split at hm
      · exact hqueue m (List.mem_of_mem_drop hm)
      · exact hqueue m hm
    · -- a drop message, or the front message of the channel
      rw [hbytes] at hm
      rcases hemission : (self.persistentTransmissionMessages.transmit
          UnboundedChannel.pollRecv schedulerReady coin).2 with item | _ | _
      · rw [hemission] at hsub
        simp only [hemission, Emission.item, Option.toList_some, List.mem_singleton] at hm
        exact Or.inr (hqueue m (hsub m (by simp [Emission.messages, hm])))
      · simp only [hemission, Emission.item, Option.toList_some, List.mem_singleton] at hm
        exact Or.inl hm
      · simp [hemission, Emission.item] at hm
  | blendMessages poll =>
    obtain ⟨polled, hpolled, hsendsOnly, hblend, houtbound⟩ :=
      step_blendMessages_eq_ok unwrapMessage wrapMessage deserialize h
    have hheld := Provenance.released unwrapMessage wrapMessage events ⟨hdrop, hqueue, hdelayed⟩
      hevent hpolled
    obtain ⟨hnone, hdrop', hqueue'⟩ := hsendsOnly
    refine ⟨⟨hdrop'.trans hdrop, fun m hm => ?_, fun b hb => hheld b (by simp [hblend ▸ hb])⟩,
      by simp [publishedBytes_of_ne_publish dropMessage hnone]⟩
    rw [hqueue'] at hm
    rcases List.mem_append.mp hm with hm | hm
    · exact hqueue m hm
    · -- an outbound message the blend stream released
      refine Or.inr (Unwrapped.forwarded unwrapMessage events (hheld _ ?_))
      simp [houtbound m hm]
  | coverTraffic message rng =>
    obtain ⟨hsendsOnly, hblend, hwrap⟩ := wrapAndSendToPersistentTransmission_spec wrapMessage h
    exact hsends hsendsOnly hblend fun m hm =>
      Or.inl ⟨message, rng, Or.inl hevent, hwrap m hm⟩
  | localMessage message rng =>
    obtain ⟨hsendsOnly, hblend, hwrap⟩ := wrapAndSendToPersistentTransmission_spec wrapMessage h
    exact hsends hsendsOnly hblend fun m hm =>
      Or.inl ⟨message, rng, Or.inr hevent, hwrap m hm⟩

end Provenance

/-- From a fresh start, over any interleaving of the loop's branches, the node
publishes to the blend network nothing but the drop message, wrappings of its
own messages and cover messages, and the next layer of messages it received:
a fully unwrapped payload, or anything else, is never published unless it is
one of these. This holds for the events of a run that stopped on a panic too. -/
theorem run_publishes_only_wrapped_or_forwarded (dropMessage : Bytes) (events : List (Event ρ)) :
    ∀ m ∈ (run (ε := ε) unwrapMessage wrapMessage deserialize (new dropMessage) events).2.flatMap
        (publishedBytes dropMessage),
      m = dropMessage ∨ Wrapped wrapMessage events m ∨ Forwarded unwrapMessage events m := by
  have hnew : Provenance unwrapMessage wrapMessage events dropMessage (new dropMessage) := by
    simp [Provenance, new, persistentQueue, MessageBlendStream.new, MessageBlendStream.delayed,
      TemporalStream.held, temporalStream, TemporalProcessor.new]
  obtain ⟨-, hgood⟩ := Mealy.runOutcome_invariant
    (Provenance unwrapMessage wrapMessage events dropMessage) (· ∈ events)
    (fun o => ∀ m ∈ publishedBytes dropMessage o,
      m = dropMessage ∨ Wrapped wrapMessage events m ∨ Forwarded unwrapMessage events m)
    (fun _ _ _ _ hself hevent h => hself.next unwrapMessage wrapMessage deserialize events hevent h)
    events (new dropMessage) hnew fun _ h => h
  intro m hm
  obtain ⟨o, ho, hm⟩ := List.mem_flatMap.mp hm
  exact hgood o ho m hm

/-- A stand-in for wrapping: one layer byte in front of the message. -/
def prependLayer (_ : Unit) (message : Bytes) : Outcome Unit Bytes := ok (0 :: message)

/-- A local message, a message of two layers received at a tick of the
temporal scheduler, then three ticks of persistent transmission, the last
with a won coin flip. -/
def localThenForwarded : List (Event Unit) :=
  [.localMessage [7] (), .blendMessages ⟨some [1, 2], true⟩,
    .persistentTransmission true false, .persistentTransmission true false,
    .persistentTransmission true true]

theorem run_publishes_in_order_local_then_forwarded :
    (run (ε := Unit) MessageBlendStream.peelByte prependLayer some (new [0])
        localThenForwarded).1 = ok (new [0]) ∧
    (run (ε := Unit) MessageBlendStream.peelByte prependLayer some (new [0])
          localThenForwarded).2.flatMap published ++ (new [0]).persistentQueue =
        (new [0]).persistentQueue ++
          (run (ε := Unit) MessageBlendStream.peelByte prependLayer some (new [0])
            localThenForwarded).2.flatMap sent ∧
      (new [0]).persistentQueue.take (localThenForwarded.countP Event.tick) <+:
        (run (ε := Unit) MessageBlendStream.peelByte prependLayer some (new [0])
          localThenForwarded).2.flatMap published ∧
      ((run (ε := Unit) MessageBlendStream.peelByte prependLayer some (new [0])
          localThenForwarded).2.flatMap
            (publishedBytes (new [0]).persistentTransmissionMessages.dropMessage)).length ≤
        localThenForwarded.countP Event.tick :=
  have hfinal : (run (ε := Unit) MessageBlendStream.peelByte prependLayer some (new [0])
      localThenForwarded).1 = ok (new [0]) := rfl
  ⟨hfinal, run_publishes_in_order MessageBlendStream.peelByte prependLayer some (new [0]) (new [0])
    localThenForwarded hfinal⟩

/-- The run above publishes the wrapping of its local message. -/
theorem run_publishes_only_wrapped_or_forwarded_local_then_forwarded :
    [0, 7] ∈ (run (ε := Unit) MessageBlendStream.peelByte prependLayer some (new [0])
        localThenForwarded).2.flatMap (publishedBytes [0]) ∧
      (([0, 7] : Bytes) = [0] ∨ Wrapped prependLayer localThenForwarded [0, 7] ∨
        Forwarded MessageBlendStream.peelByte localThenForwarded [0, 7]) :=
  have hpublished : [0, 7] ∈ (run (ε := Unit) MessageBlendStream.peelByte prependLayer some
      (new [0]) localThenForwarded).2.flatMap (publishedBytes [0]) := by decide
  ⟨hpublished, run_publishes_only_wrapped_or_forwarded MessageBlendStream.peelByte prependLayer some
    [0] localThenForwarded [0, 7] hpublished⟩

end BlendService

end NomosBlendService
