import NomosNode.BlendNetwork.Behaviour
import NomosNode.Blend.ConnMaintenance

/-!
# The blend connection handler

`nomos-blend/network/src/handler.rs`: one connection with a peer, with an
inbound and an outbound substream, a queue of events for the behaviour and an
optional connection monitor. A future is modelled by its answers when polled,
which are inputs, and a message whose send completes is recorded with the
poll's answer. Over every run the handler never hands the behaviour a
`DialUpgradeError`, writes a sublist of the behaviour's messages in order, and
after a close writes nothing until a substream is negotiated again.
-/

namespace NomosBlendNetwork

open Outcome NomosBlend

inductive InboundSubstreamState
  | pendingRecv
  | dropped
  deriving DecidableEq

inductive OutboundSubstreamState
  | pendingOpenSubstream
  | idle
  | pendingSend (msg : Bytes)
  | dropped
  deriving DecidableEq

structure BlendConnectionHandler where
  inboundSubstream : Option InboundSubstreamState
  outboundSubstream : Option OutboundSubstreamState
  outboundMsgs : List Bytes
  pendingEventsToBehaviour : List ToBehaviour
  monitor : Option ConnectionMonitor

inductive FromBehaviour
  | message (msg : Bytes)
  | closeSubstreams
  deriving DecidableEq

/-- The `ConnectionEvent`s the handler tells apart. -/
inductive ConnectionEvent
  | fullyNegotiatedInbound
  | fullyNegotiatedOutbound
  | dialUpgradeError
  | other
  deriving DecidableEq

/-- The answer of a future to a poll: `Pending`, or ready with its value or
with an `io::Error`. -/
inductive IoPoll (α : Type)
  | pending
  | ready (value : α)
  | error
  deriving DecidableEq

/-- The handler's answer to a poll: `Pending`, or a `ConnectionHandlerEvent`. -/
inductive HandlerPoll
  | pending
  | notifyBehaviour (event : ToBehaviour)
  | outboundSubstreamRequest
  deriving DecidableEq

/-- The answer to a poll, with the messages whose send completed during it. -/
structure Polled where
  answer : HandlerPoll
  written : List Bytes
  deriving DecidableEq

/-- The messages written during a step, if it was a poll. -/
def Polled.writtenOf : Option Polled → List Bytes
  | some polled => polled.written
  | none => []

namespace ToBehaviour

/-- The events that wait in a handler's queue until polled: the negotiations
and the monitor's judgements. -/
def waits : ToBehaviour → Bool
  | fullyNegotiatedInbound | fullyNegotiatedOutbound | maliciousPeer | unhealthyPeer => true
  | dialUpgradeError | message _ | ioError => false

end ToBehaviour

namespace BlendConnectionHandler

variable {ε : Type} (dropMessage : Bytes)

def new (monitor : Option ConnectionMonitor) : BlendConnectionHandler := ⟨none, none, [], [], monitor⟩

def closeSubstreams (self : BlendConnectionHandler) : BlendConnectionHandler :=
  { self with
    inboundSubstream := some .dropped
    outboundSubstream := some .dropped
    outboundMsgs := []
    pendingEventsToBehaviour := [] }

/-- The monitor's part of `poll`. A malicious peer has its substreams closed
before the event is queued. -/
def pollMonitor (self : BlendConnectionHandler) (intervalReady : Bool) :
    Outcome ε BlendConnectionHandler :=
  match self.monitor with
  | none => ok self
  | some monitor => do
    let polled ← monitor.poll intervalReady
    let self := { self with monitor := some polled.1 }
    match polled.2 with
    | some .malicious =>
      ok { self.closeSubstreams with
        pendingEventsToBehaviour := self.closeSubstreams.pendingEventsToBehaviour ++ [.maliciousPeer] }
    | some .unhealthy =>
      ok { self with pendingEventsToBehaviour := self.pendingEventsToBehaviour ++ [.unhealthyPeer] }
    | _ => ok self

/-- The inbound part of `poll`, and the event it returns with, if any. A
received message is recorded on the monitor. -/
def pollInbound (self : BlendConnectionHandler) (recv : IoPoll Bytes) :
    BlendConnectionHandler × Option ToBehaviour :=
  match self.inboundSubstream, recv with
  | some .pendingRecv, .ready msg =>
    ({ self with
      monitor := self.monitor.map fun monitor =>
        if isDropMessage dropMessage msg then monitor.recordDropMessage
        else monitor.recordEffectiveMessage },
      some (.message msg))
  | some .pendingRecv, .error => (self.closeSubstreams, some .ioError)
  | _, _ => (self, none)

/-- The `PendingSend` arm of the outbound loop, for a handler sending `msg`,
with the answers of the send futures it polls. A send that completes leaves
the substream idle, and the loop's `Idle` arm starts sending the next
message. -/
def pollSend (self : BlendConnectionHandler) (msg : Bytes) :
    List (IoPoll Unit) → BlendConnectionHandler × Polled
  | .ready () :: sends =>
    match self.outboundMsgs with
    | next :: rest =>
      let polled :=
        pollSend { self with outboundSubstream := some (.pendingSend next), outboundMsgs := rest }
          next sends
      (polled.1, { polled.2 with written := msg :: polled.2.written })
    | [] => ({ self with outboundSubstream := some .idle }, ⟨.pending, [msg]⟩)
  | .error :: _ => (self.closeSubstreams, ⟨.notifyBehaviour .ioError, []⟩)
  | .pending :: _ | [] => (self, ⟨.pending, []⟩)

/-- The outbound loop of `poll`. -/
def pollOutbound (self : BlendConnectionHandler) (sends : List (IoPoll Unit)) :
    BlendConnectionHandler × Polled :=
  match self.outboundSubstream with
  | some .pendingOpenSubstream => (self, ⟨.pending, []⟩)
  | some .idle =>
    match self.outboundMsgs with
    | msg :: rest =>
      pollSend { self with outboundSubstream := some (.pendingSend msg), outboundMsgs := rest } msg sends
    | [] => (self, ⟨.pending, []⟩)
  | some (.pendingSend msg) => pollSend self msg sends
  | some .dropped => (self, ⟨.pending, []⟩)
  | none => ({ self with outboundSubstream := some .pendingOpenSubstream }, ⟨.outboundSubstreamRequest, []⟩)

/-- `poll`: the monitor, then a queued event, then the inbound substream, then
the outbound loop. -/
def poll (self : BlendConnectionHandler) (intervalReady : Bool) (recv : IoPoll Bytes)
    (sends : List (IoPoll Unit)) : Outcome ε (BlendConnectionHandler × Polled) := do
  let self ← self.pollMonitor intervalReady
  match self.pendingEventsToBehaviour with
  | event :: rest => ok ({ self with pendingEventsToBehaviour := rest }, ⟨.notifyBehaviour event, []⟩)
  | [] =>
    let inbound := self.pollInbound dropMessage recv
    match inbound.2 with
    | some event => ok (inbound.1, ⟨.notifyBehaviour event, []⟩)
    | none => ok (inbound.1.pollOutbound sends)

def onBehaviourEvent (self : BlendConnectionHandler) : FromBehaviour → BlendConnectionHandler
  | .message msg => { self with outboundMsgs := self.outboundMsgs ++ [msg] }
  | .closeSubstreams => self.closeSubstreams

def onConnectionEvent (self : BlendConnectionHandler) : ConnectionEvent → BlendConnectionHandler
  | .fullyNegotiatedInbound =>
    { self with
      inboundSubstream := some .pendingRecv
      pendingEventsToBehaviour := self.pendingEventsToBehaviour ++ [.fullyNegotiatedInbound] }
  | .fullyNegotiatedOutbound =>
    { self with
      outboundSubstream := some .idle
      pendingEventsToBehaviour := self.pendingEventsToBehaviour ++ [.fullyNegotiatedOutbound] }
  | .dialUpgradeError =>
    { self with pendingEventsToBehaviour := self.pendingEventsToBehaviour ++ [ToBehaviour.dialUpgradeError] }.closeSubstreams
  | .other => self

/-- What the swarm does with a handler. -/
inductive Input
  | poll (intervalReady : Bool) (recv : IoPoll Bytes) (sends : List (IoPoll Unit))
  | behaviourEvent (event : FromBehaviour)
  | connectionEvent (event : ConnectionEvent)
  deriving DecidableEq

/-- The messages an input gives the handler to send. -/
def Input.given : Input → List Bytes
  | .behaviourEvent (.message msg) => [msg]
  | _ => []

def step (self : BlendConnectionHandler) : Input → Outcome ε (BlendConnectionHandler × Option Polled)
  | .poll intervalReady recv sends => do
    let polled ← self.poll dropMessage intervalReady recv sends
    ok (polled.1, some polled.2)
  | .behaviourEvent event => ok (self.onBehaviourEvent event, none)
  | .connectionEvent event => ok (self.onConnectionEvent event, none)

/-! ## What each part of a poll does -/

/-- The messages the handler holds to send, in the order it sends them: the
one being sent, then the queue. -/
def held (self : BlendConnectionHandler) : List Bytes :=
  (match self.outboundSubstream with
    | some (.pendingSend msg) => [msg]
    | _ => []) ++ self.outboundMsgs

@[simp] theorem held_closeSubstreams (self : BlendConnectionHandler) :
    self.closeSubstreams.held = [] := rfl

@[simp] theorem pendingEventsToBehaviour_closeSubstreams (self : BlendConnectionHandler) :
    self.closeSubstreams.pendingEventsToBehaviour = [] := rfl

@[simp] theorem inboundSubstream_closeSubstreams (self : BlendConnectionHandler) :
    self.closeSubstreams.inboundSubstream = some .dropped := rfl

@[simp] theorem outboundSubstream_closeSubstreams (self : BlendConnectionHandler) :
    self.closeSubstreams.outboundSubstream = some .dropped := rfl

/-- What the monitor's part of a poll can do: update the monitor, and either
queue an `UnhealthyPeer`, or close the substreams and queue a `MaliciousPeer`
alone. -/
theorem pollMonitor_eq_ok {self self' : BlendConnectionHandler} {intervalReady : Bool}
    (h : (self.pollMonitor intervalReady : Outcome ε _) = ok self') :
    ∃ monitor, self' = { self with monitor := monitor } ∨
      self' = { self with
        monitor := monitor
        pendingEventsToBehaviour := self.pendingEventsToBehaviour ++ [.unhealthyPeer] } ∨
      self' = { self.closeSubstreams with
        monitor := monitor
        pendingEventsToBehaviour := [.maliciousPeer] } := by
  unfold pollMonitor at h
  split at h
  · cases h
    exact ⟨self.monitor, .inl rfl⟩
  · simp only [bind_def] at h
    obtain ⟨polled, -, hrest⟩ := bind_eq_ok.mp h
    refine ⟨some polled.1, ?_⟩
    split at hrest
    · cases hrest
      exact .inr (.inr rfl)
    · cases hrest
      exact .inr (.inl rfl)
    · cases hrest
      exact .inl rfl

/-- What the inbound part of a poll can do: nothing; return a received
message, recorded on the monitor; or close the substreams on an error. -/
theorem pollInbound_cases (self : BlendConnectionHandler) (recv : IoPoll Bytes) :
    self.pollInbound dropMessage recv = (self, none) ∨
      (self.inboundSubstream = some .pendingRecv ∧ ∃ msg monitor, recv = .ready msg ∧
        self.pollInbound dropMessage recv = ({ self with monitor := monitor }, some (.message msg))) ∨
      self.pollInbound dropMessage recv = (self.closeSubstreams, some .ioError) := by
  unfold pollInbound
  split
  · rename_i msg hinbound
    exact .inr (.inl ⟨hinbound, msg, _, rfl, rfl⟩)
  · exact .inr (.inr rfl)
  · exact .inl rfl

theorem pollInbound_of_none {self : BlendConnectionHandler} {recv : IoPoll Bytes}
    (h : (self.pollInbound dropMessage recv).2 = none) : (self.pollInbound dropMessage recv).1 = self := by
  rcases pollInbound_cases dropMessage self recv with hcase | ⟨-, msg, monitor, -, hcase⟩ | hcase <;>
    rw [hcase] at h ⊢
  · simp at h
  · simp at h

/-- The send loop writes, in order, the front of what it held to send, and
holds the rest, or drops it at an error. -/
theorem pollSend_written (self : BlendConnectionHandler) (msg : Bytes) (sends : List (IoPoll Unit))
    (hsend : self.outboundSubstream = some (.pendingSend msg)) :
    ((self.pollSend msg sends).2.written ++ (self.pollSend msg sends).1.held).Sublist
      (msg :: self.outboundMsgs) := by
  induction sends generalizing self msg with
  | nil => simp [pollSend, held, hsend]
  | cons answer sends ih =>
    cases answer with
    | pending => simp [pollSend, held, hsend]
    | error => simp [pollSend]
    | ready u =>
      cases hmsgs : self.outboundMsgs with
      | nil => simp [pollSend, hmsgs, held]
      | cons next rest =>
        have hlater := ih { self with outboundSubstream := some (.pendingSend next), outboundMsgs := rest }
          next rfl
        simp only [pollSend, hmsgs, List.cons_append]
        exact hlater.cons_cons msg

/-- The send loop either closes the substreams at an error, or leaves
everything but the outbound substream as it was and answers `Pending`. -/
theorem pollSend_frame (self : BlendConnectionHandler) (msg : Bytes) (sends : List (IoPoll Unit)) :
    ((self.pollSend msg sends).1 = self.closeSubstreams ∧
        (self.pollSend msg sends).2.answer = .notifyBehaviour .ioError) ∨
      ((self.pollSend msg sends).1.inboundSubstream = self.inboundSubstream ∧
        (self.pollSend msg sends).1.pendingEventsToBehaviour = self.pendingEventsToBehaviour ∧
        (self.pollSend msg sends).1.monitor = self.monitor ∧
        (self.pollSend msg sends).2.answer = .pending) := by
  induction sends generalizing self msg with
  | nil => exact .inr ⟨rfl, rfl, rfl, rfl⟩
  | cons answer sends ih =>
    cases answer with
    | pending => exact .inr ⟨rfl, rfl, rfl, rfl⟩
    | error => exact .inl ⟨rfl, rfl⟩
    | ready u =>
      cases hmsgs : self.outboundMsgs with
      | nil => simp [pollSend, hmsgs]
      | cons next rest =>
        simp only [pollSend, hmsgs]
        exact ih { self with outboundSubstream := some (.pendingSend next), outboundMsgs := rest } next

/-- The outbound loop writes, in order, the front of what the handler held to
send. -/
theorem pollOutbound_written (self : BlendConnectionHandler) (sends : List (IoPoll Unit)) :
    ((self.pollOutbound sends).2.written ++ (self.pollOutbound sends).1.held).Sublist self.held := by
  unfold pollOutbound
  split
  · simp
  · rename_i hidle
    split
    · rename_i msg rest hmsgs
      simpa [held, hidle, hmsgs] using
        pollSend_written { self with outboundSubstream := some (.pendingSend msg), outboundMsgs := rest }
          msg sends rfl
    · simp
  · rename_i msg hsend
    simpa [held, hsend] using pollSend_written self msg sends hsend
  · simp
  · rename_i hnone
    simp [held, hnone]

/-- The outbound loop either closes the substreams at an error, or leaves the
inbound substream, the events and the monitor as they were and answers
`Pending` or asks for a substream. -/
theorem pollOutbound_frame (self : BlendConnectionHandler) (sends : List (IoPoll Unit)) :
    ((self.pollOutbound sends).1 = self.closeSubstreams ∧
        (self.pollOutbound sends).2.answer = .notifyBehaviour .ioError) ∨
      ((self.pollOutbound sends).1.inboundSubstream = self.inboundSubstream ∧
        (self.pollOutbound sends).1.pendingEventsToBehaviour = self.pendingEventsToBehaviour ∧
        (self.pollOutbound sends).1.monitor = self.monitor ∧
        ((self.pollOutbound sends).2.answer = .pending ∨
          (self.pollOutbound sends).2.answer = .outboundSubstreamRequest)) := by
  unfold pollOutbound
  split
  · exact .inr ⟨rfl, rfl, rfl, .inl rfl⟩
  · split
    · rename_i msg rest _
      rcases pollSend_frame { self with outboundSubstream := some (.pendingSend msg), outboundMsgs := rest }
          msg sends with ⟨hclose, hanswer⟩ | ⟨hin, hevents, hmonitor, hanswer⟩
      · exact .inl ⟨hclose, hanswer⟩
      · exact .inr ⟨hin, hevents, hmonitor, .inl hanswer⟩
    · exact .inr ⟨rfl, rfl, rfl, .inl rfl⟩
  · rename_i msg _
    rcases pollSend_frame self msg sends with ⟨hclose, hanswer⟩ | ⟨hin, hevents, hmonitor, hanswer⟩
    · exact .inl ⟨hclose, hanswer⟩
    · exact .inr ⟨hin, hevents, hmonitor, .inl hanswer⟩
  · exact .inr ⟨rfl, rfl, rfl, .inl rfl⟩
  · exact .inr ⟨rfl, rfl, rfl, .inr rfl⟩

/-- A dropped outbound substream answers `Pending` and writes nothing. -/
theorem pollOutbound_of_dropped {self : BlendConnectionHandler} (sends : List (IoPoll Unit))
    (h : self.outboundSubstream = some .dropped) : self.pollOutbound sends = (self, ⟨.pending, []⟩) := by
  simp [pollOutbound, h]

/-- What a poll can do: after the monitor's part, hand out the oldest queued
event, or else return what the inbound part returns with, or else run the
outbound loop. -/
theorem poll_eq_ok {self self' : BlendConnectionHandler} {intervalReady : Bool} {recv : IoPoll Bytes}
    {sends : List (IoPoll Unit)} {polled : Polled}
    (h : (self.poll dropMessage intervalReady recv sends : Outcome ε _) = ok (self', polled)) :
    ∃ monitored, (self.pollMonitor intervalReady : Outcome ε _) = ok monitored ∧
      ((∃ event rest, monitored.pendingEventsToBehaviour = event :: rest ∧
          self' = { monitored with pendingEventsToBehaviour := rest } ∧
          polled = ⟨.notifyBehaviour event, []⟩) ∨
        (monitored.pendingEventsToBehaviour = [] ∧ ∃ event,
          monitored.pollInbound dropMessage recv = (self', some event) ∧
          polled = ⟨.notifyBehaviour event, []⟩) ∨
        (monitored.pendingEventsToBehaviour = [] ∧ (monitored.pollInbound dropMessage recv).2 = none ∧
          monitored.pollOutbound sends = (self', polled))) := by
  unfold poll at h
  simp only [bind_def] at h
  obtain ⟨monitored, hmonitor, hrest⟩ := bind_eq_ok.mp h
  refine ⟨monitored, hmonitor, ?_⟩
  split at hrest
  · rename_i event rest hevents
    cases hrest
    exact .inl ⟨event, rest, hevents, rfl, rfl⟩
  · rename_i hevents
    split at hrest
    · rename_i event hinbound
      cases hrest
      exact .inr (.inl ⟨hevents, event, Prod.ext rfl hinbound, rfl⟩)
    · rename_i hinbound
      have houtbound := ok.inj hrest
      rw [pollInbound_of_none dropMessage hinbound] at houtbound
      exact .inr (.inr ⟨hevents, hinbound, houtbound⟩)

/-- What a step can do. -/
theorem step_eq_ok {self self' : BlendConnectionHandler} {input : Input} {output : Option Polled}
    (h : (self.step dropMessage input : Outcome ε _) = ok (self', output)) :
    (∃ intervalReady recv sends polled, input = .poll intervalReady recv sends ∧
        (self.poll dropMessage intervalReady recv sends : Outcome ε _) = ok (self', polled) ∧
        output = some polled) ∨
      (∃ event, input = .behaviourEvent event ∧ self' = self.onBehaviourEvent event ∧ output = none) ∨
      (∃ event, input = .connectionEvent event ∧ self' = self.onConnectionEvent event ∧ output = none) := by
  cases input with
  | poll intervalReady recv sends =>
    simp only [step, bind_def] at h
    obtain ⟨polled, hpoll, hrest⟩ := bind_eq_ok.mp h
    cases hrest
    exact .inl ⟨intervalReady, recv, sends, polled.2, rfl, hpoll, rfl⟩
  | behaviourEvent event =>
    cases h
    exact .inr (.inl ⟨event, rfl, rfl, rfl⟩)
  | connectionEvent event =>
    cases h
    exact .inr (.inr ⟨event, rfl, rfl, rfl⟩)

/-! ## The queue holds only events that wait -/

/-- Every queued event waits to be polled: no message, IO error or dial error
is left in the queue. -/
def Waiting (self : BlendConnectionHandler) : Prop :=
  ∀ event ∈ self.pendingEventsToBehaviour, event.waits = true

theorem waiting_new (monitor : Option ConnectionMonitor) : (new monitor).Waiting := by
  simp [Waiting, new]

theorem waiting_closeSubstreams (self : BlendConnectionHandler) : self.closeSubstreams.Waiting := by
  simp [Waiting]

theorem Waiting.push (self : BlendConnectionHandler) (hself : self.Waiting) {event : ToBehaviour}
    (hevent : event.waits = true) :
    ({ self with pendingEventsToBehaviour := self.pendingEventsToBehaviour ++ [event] }).Waiting := by
  intro queued hqueued
  rcases List.mem_append.mp hqueued with hqueued | hqueued
  · exact hself queued hqueued
  · rw [List.mem_singleton.mp hqueued]
    exact hevent

theorem Waiting.pollMonitor {self self' : BlendConnectionHandler} {intervalReady : Bool}
    (hself : self.Waiting) (h : (self.pollMonitor intervalReady : Outcome ε _) = ok self') :
    self'.Waiting := by
  obtain ⟨monitor, rfl | rfl | rfl⟩ := pollMonitor_eq_ok h
  · exact hself
  · exact Waiting.push { self with monitor := monitor } hself rfl
  · exact Waiting.push { self.closeSubstreams with monitor := monitor }
      (by simp [Waiting]) rfl

theorem Waiting.pollInbound {self : BlendConnectionHandler} (hself : self.Waiting) (recv : IoPoll Bytes) :
    (self.pollInbound dropMessage recv).1.Waiting := by
  rcases pollInbound_cases dropMessage self recv with h | ⟨-, msg, monitor, -, h⟩ | h <;> rw [h]
  · exact hself
  · exact hself
  · exact waiting_closeSubstreams self

theorem Waiting.pollOutbound {self : BlendConnectionHandler} (hself : self.Waiting)
    (sends : List (IoPoll Unit)) : (self.pollOutbound sends).1.Waiting := by
  rcases pollOutbound_frame self sends with ⟨hclose, -⟩ | ⟨-, hevents, -, -⟩
  · rw [hclose]
    exact waiting_closeSubstreams self
  · intro event hevent
    rw [hevents] at hevent
    exact hself event hevent

theorem Waiting.onBehaviourEvent {self : BlendConnectionHandler} (hself : self.Waiting)
    (event : FromBehaviour) : (self.onBehaviourEvent event).Waiting := by
  cases event with
  | message msg => exact hself
  | closeSubstreams => exact waiting_closeSubstreams self

/-- A dial error is queued and the queue cleared at once. -/
theorem Waiting.onConnectionEvent {self : BlendConnectionHandler} (hself : self.Waiting)
    (event : ConnectionEvent) : (self.onConnectionEvent event).Waiting := by
  cases event with
  | fullyNegotiatedInbound => exact Waiting.push { self with inboundSubstream := _ } hself rfl
  | fullyNegotiatedOutbound => exact Waiting.push { self with outboundSubstream := _ } hself rfl
  | dialUpgradeError => exact waiting_closeSubstreams _
  | other => exact hself

/-- A poll keeps the queued events waiting, and answers with a waiting event,
a received message, an IO error, `Pending` or a request for a substream. -/
theorem Waiting.poll {self self' : BlendConnectionHandler} {intervalReady : Bool} {recv : IoPoll Bytes}
    {sends : List (IoPoll Unit)} {polled : Polled} (hself : self.Waiting)
    (h : (self.poll dropMessage intervalReady recv sends : Outcome ε _) = ok (self', polled)) :
    self'.Waiting ∧
      ((∃ event, polled.answer = .notifyBehaviour event ∧ event.waits = true) ∨
        (∃ msg, polled.answer = .notifyBehaviour (.message msg)) ∨
        polled.answer = .notifyBehaviour .ioError ∨ polled.answer = .pending ∨
        polled.answer = .outboundSubstreamRequest) := by
  obtain ⟨monitored, hmonitor, hcases⟩ := poll_eq_ok dropMessage h
  have hmonitored := hself.pollMonitor hmonitor
  rcases hcases with ⟨event, rest, hevents, rfl, rfl⟩ | ⟨-, event, hinbound, rfl⟩ |
    ⟨-, -, houtbound⟩
  · refine ⟨fun queued hqueued => hmonitored queued (by simp [hevents, hqueued]), .inl ⟨event, rfl, ?_⟩⟩
    exact hmonitored event (by simp [hevents])
  · have hwaiting := hmonitored.pollInbound dropMessage recv
    rw [hinbound] at hwaiting
    refine ⟨hwaiting, ?_⟩
    rcases pollInbound_cases dropMessage monitored recv with hcase | ⟨-, msg, monitor, -, hcase⟩ | hcase
    · rw [hcase] at hinbound
      simp at hinbound
    · rw [hcase, Prod.mk.injEq, Option.some.injEq] at hinbound
      exact .inr (.inl ⟨msg, by rw [← hinbound.2]⟩)
    · rw [hcase, Prod.mk.injEq, Option.some.injEq] at hinbound
      exact .inr (.inr (.inl (by rw [← hinbound.2])))
  · have hwaiting := hmonitored.pollOutbound sends
    rw [houtbound] at hwaiting
    refine ⟨hwaiting, ?_⟩
    rcases pollOutbound_frame monitored sends with ⟨-, hanswer⟩ | ⟨-, -, -, hanswer | hanswer⟩ <;>
      rw [houtbound] at hanswer
    · exact .inr (.inr (.inl hanswer))
    · exact .inr (.inr (.inr (.inl hanswer)))
    · exact .inr (.inr (.inr (.inr hanswer)))

/-- A step keeps the queued events waiting and never hands out a dial
error. -/
theorem Waiting.step {self self' : BlendConnectionHandler} {input : Input} {output : Option Polled}
    (hself : self.Waiting) (h : (self.step dropMessage input : Outcome ε _) = ok (self', output)) :
    self'.Waiting ∧ ∀ polled, output = some polled → polled.answer ≠ .notifyBehaviour .dialUpgradeError := by
  rcases step_eq_ok dropMessage h with ⟨intervalReady, recv, sends, polled, -, hpoll, rfl⟩ |
    ⟨event, -, rfl, rfl⟩ | ⟨event, -, rfl, rfl⟩
  · obtain ⟨hwaiting, hanswer⟩ := hself.poll dropMessage hpoll
    refine ⟨hwaiting, fun polled' hpolled => ?_⟩
    cases hpolled
    rcases hanswer with ⟨event, hanswer, hwaits⟩ | ⟨msg, hanswer⟩ | hanswer | hanswer | hanswer <;>
      rw [hanswer]
    · rintro ⟨⟩
      cases hwaits
    all_goals simp
  · exact ⟨hself.onBehaviourEvent event, by simp⟩
  · exact ⟨hself.onConnectionEvent event, by simp⟩

/-- From the handler `new` creates, every run keeps the queued events waiting
and never hands out a dial error. -/
theorem run_waiting (monitor : Option ConnectionMonitor) (inputs : List Input) :
    (∀ self', (Mealy.runOutcome (step (ε := ε) dropMessage) (new monitor) inputs).1 = ok self' →
        self'.Waiting) ∧
      ∀ output ∈ (Mealy.runOutcome (step (ε := ε) dropMessage) (new monitor) inputs).2,
        ∀ polled, output = some polled → polled.answer ≠ .notifyBehaviour .dialUpgradeError :=
  Mealy.runOutcome_invariant Waiting (fun _ => True)
    (fun output => ∀ polled, output = some polled → polled.answer ≠ .notifyBehaviour .dialUpgradeError)
    (fun _ _ _ _ hself _ h => hself.step (ε := ε) dropMessage h) inputs (new monitor) (waiting_new monitor)
    (fun _ _ => trivial)

/-- From the handler `new` creates, over every run, no poll hands the
behaviour a `DialUpgradeError`: the event is queued and the queue cleared by
`close_substreams` in the same call. -/
theorem run_never_reports_dial_upgrade_error (monitor : Option ConnectionMonitor) (inputs : List Input) :
    ∀ output ∈ (Mealy.runOutcome (step (ε := ε) dropMessage) (new monitor) inputs).2,
      ∀ polled, output = some polled → polled.answer ≠ .notifyBehaviour .dialUpgradeError :=
  (run_waiting dropMessage monitor inputs).2

/-- A dial error, then a poll. -/
def dialErrorThenPoll : List Input :=
  [.connectionEvent .dialUpgradeError, .poll false .pending []]

theorem run_never_reports_dial_upgrade_error_after_dial_error :
    (some ⟨.pending, []⟩ : Option Polled) ∈
        (Mealy.runOutcome (step (ε := Unit) [0]) (new none) dialErrorThenPoll).2 ∧
      HandlerPoll.pending ≠ .notifyBehaviour .dialUpgradeError :=
  ⟨by decide, run_never_reports_dial_upgrade_error (ε := Unit) [0] none dialErrorThenPoll (some ⟨.pending, []⟩)
    (by decide) _ rfl⟩

/-! ## What the handler writes -/

theorem held_pollMonitor {self self' : BlendConnectionHandler} {intervalReady : Bool}
    (h : (self.pollMonitor intervalReady : Outcome ε _) = ok self') :
    self'.held = self.held ∨ self'.held = [] := by
  obtain ⟨monitor, rfl | rfl | rfl⟩ := pollMonitor_eq_ok h
  · exact .inl rfl
  · exact .inl rfl
  · exact .inr rfl

theorem held_pollMonitor_sublist {self self' : BlendConnectionHandler} {intervalReady : Bool}
    (h : (self.pollMonitor intervalReady : Outcome ε _) = ok self') : self'.held.Sublist self.held := by
  rcases held_pollMonitor h with hheld | hheld <;> rw [hheld]
  exact List.nil_sublist _

theorem held_pollInbound (self : BlendConnectionHandler) (recv : IoPoll Bytes) :
    (self.pollInbound dropMessage recv).1.held.Sublist self.held := by
  rcases pollInbound_cases dropMessage self recv with h | ⟨-, msg, monitor, -, h⟩ | h
  · rw [h]
  · rw [h]
    exact List.Sublist.refl _
  · rw [h]
    exact List.nil_sublist _

/-- A poll writes, in order, the front of what the handler held to send. -/
theorem poll_written {self self' : BlendConnectionHandler} {intervalReady : Bool} {recv : IoPoll Bytes}
    {sends : List (IoPoll Unit)} {polled : Polled}
    (h : (self.poll dropMessage intervalReady recv sends : Outcome ε _) = ok (self', polled)) :
    (polled.written ++ self'.held).Sublist self.held := by
  obtain ⟨monitored, hmonitor, hcases⟩ := poll_eq_ok dropMessage h
  have hmonitored := held_pollMonitor_sublist hmonitor
  rcases hcases with ⟨event, rest, -, rfl, rfl⟩ | ⟨-, event, hinbound, rfl⟩ | ⟨-, -, houtbound⟩
  · exact hmonitored
  · have hheld := held_pollInbound dropMessage monitored recv
    rw [hinbound] at hheld
    exact hheld.trans hmonitored
  · have hheld := pollOutbound_written monitored sends
    rw [houtbound] at hheld
    exact hheld.trans hmonitored

/-- A step writes, in order, the front of what the handler held to send and
the behaviour gave it. -/
theorem step_written {self self' : BlendConnectionHandler} {input : Input} {output : Option Polled}
    (h : (self.step dropMessage input : Outcome ε _) = ok (self', output)) :
    (Polled.writtenOf output ++ self'.held).Sublist (self.held ++ input.given) := by
  rcases step_eq_ok dropMessage h with ⟨intervalReady, recv, sends, polled, rfl, hpoll, rfl⟩ |
    ⟨event, rfl, rfl, rfl⟩ | ⟨event, rfl, rfl, rfl⟩
  · simpa [Polled.writtenOf, Input.given] using poll_written dropMessage hpoll
  · cases event with
    | message msg => simp [Polled.writtenOf, Input.given, onBehaviourEvent, held]
    | closeSubstreams => simp [Polled.writtenOf, onBehaviourEvent]
  · cases event with
    | fullyNegotiatedOutbound =>
      simp [Polled.writtenOf, Input.given, onConnectionEvent, held]
    | fullyNegotiatedInbound | other => simp [Polled.writtenOf, Input.given, onConnectionEvent, held]
    | dialUpgradeError => simp [Polled.writtenOf, onConnectionEvent]

/-- From the handler `new` creates, over every run, the messages written on
the outbound substream are, in order, a sublist of the messages the behaviour
gave the handler, and are followed, in that sublist, by those it still holds to
send: a message can be lost, at a close or a renegotiation, but is never
written twice, written out of order, or written while still held. -/
theorem run_writes_behaviour_messages_in_order (monitor : Option ConnectionMonitor) (inputs : List Input) :
    ((Mealy.runOutcome (step (ε := ε) dropMessage) (new monitor) inputs).2.flatMap
        Polled.writtenOf).Sublist (inputs.flatMap Input.given) ∧
      ∀ self', (Mealy.runOutcome (step (ε := ε) dropMessage) (new monitor) inputs).1 = ok self' →
        ((Mealy.runOutcome (step (ε := ε) dropMessage) (new monitor) inputs).2.flatMap
          Polled.writtenOf ++ self'.held).Sublist (inputs.flatMap Input.given) := by
  have hrun := Mealy.runOutcome_sublist held Input.given Polled.writtenOf
    (fun _ _ _ _ h => step_written (ε := ε) dropMessage h) inputs (new monitor)
  simpa [held, new] using hrun

/-- The outbound substream is negotiated and the behaviour gives two
messages; the first poll hands out the negotiation, the second sends the first
message and leaves the second one being sent. -/
def twoMessagesOneSent : List Input :=
  [.connectionEvent .fullyNegotiatedOutbound, .behaviourEvent (.message [1]),
    .behaviourEvent (.message [2]), .poll false .pending [], .poll false .pending [.ready (), .pending]]

theorem run_writes_behaviour_messages_in_order_one_sent :
    (Mealy.runOutcome (step (ε := Unit) [0]) (new none) twoMessagesOneSent).1 =
        ok ⟨none, some (.pendingSend [2]), [], [], none⟩ ∧
      ((Mealy.runOutcome (step (ε := Unit) [0]) (new none) twoMessagesOneSent).2.flatMap
          Polled.writtenOf ++ held ⟨none, some (.pendingSend [2]), [], [], none⟩).Sublist
        (twoMessagesOneSent.flatMap Input.given) := by
  have hrun : (Mealy.runOutcome (step (ε := Unit) [0]) (new none) twoMessagesOneSent).1 =
      ok ⟨none, some (.pendingSend [2]), [], [], none⟩ := rfl
  exact ⟨hrun, (run_writes_behaviour_messages_in_order [0] none twoMessagesOneSent).2 _ hrun⟩

/-! ## A closed handler is silent -/

/-- Both substreams are dropped. -/
def Closed (self : BlendConnectionHandler) : Prop :=
  self.inboundSubstream = some .dropped ∧ self.outboundSubstream = some .dropped

theorem Closed.pollMonitor {self self' : BlendConnectionHandler} {intervalReady : Bool}
    (hself : self.Closed) (h : (self.pollMonitor intervalReady : Outcome ε _) = ok self') :
    self'.Closed := by
  obtain ⟨monitor, rfl | rfl | rfl⟩ := pollMonitor_eq_ok h
  · exact hself
  · exact hself
  · exact ⟨rfl, rfl⟩

/-- A closed handler's poll hands out only the events that wait, and writes
nothing. -/
theorem Closed.poll {self self' : BlendConnectionHandler} {intervalReady : Bool} {recv : IoPoll Bytes}
    {sends : List (IoPoll Unit)} {polled : Polled} (hclosed : self.Closed) (hwaiting : self.Waiting)
    (h : (self.poll dropMessage intervalReady recv sends : Outcome ε _) = ok (self', polled)) :
    self'.Closed ∧ polled.written = [] ∧ ∀ msg, polled.answer ≠ .notifyBehaviour (.message msg) := by
  obtain ⟨monitored, hmonitor, hcases⟩ := poll_eq_ok dropMessage h
  have hclosed' := hclosed.pollMonitor hmonitor
  have hwaiting' := hwaiting.pollMonitor hmonitor
  have hinbound : monitored.pollInbound dropMessage recv = (monitored, none) := by
    simp [pollInbound, hclosed'.1]
  rcases hcases with ⟨event, rest, hevents, rfl, rfl⟩ | ⟨-, event, hin, rfl⟩ | ⟨-, -, houtbound⟩
  · refine ⟨hclosed', rfl, fun msg hmsg => ?_⟩
    have hwaits := hwaiting' event (by simp [hevents])
    have hevent : event = .message msg := by simpa using hmsg
    rw [hevent] at hwaits
    cases hwaits
  · rw [hinbound] at hin
    simp at hin
  · rw [pollOutbound_of_dropped sends hclosed'.2] at houtbound
    cases houtbound
    exact ⟨hclosed', rfl, by simp⟩

/-- Until a substream is negotiated again, a closed handler stays closed,
writes nothing and hands the behaviour no message. -/
theorem Closed.step {self self' : BlendConnectionHandler} {input : Input} {output : Option Polled}
    (hclosed : self.Closed) (hwaiting : self.Waiting)
    (hinput : input ≠ .connectionEvent .fullyNegotiatedInbound ∧
      input ≠ .connectionEvent .fullyNegotiatedOutbound)
    (h : (self.step dropMessage input : Outcome ε _) = ok (self', output)) :
    self'.Closed ∧ Polled.writtenOf output = [] ∧
      ∀ polled, output = some polled → ∀ msg, polled.answer ≠ .notifyBehaviour (.message msg) := by
  rcases step_eq_ok dropMessage h with ⟨intervalReady, recv, sends, polled, -, hpoll, rfl⟩ |
    ⟨event, -, rfl, rfl⟩ | ⟨event, rfl, rfl, rfl⟩
  · obtain ⟨hclosed', hwritten, hanswer⟩ := hclosed.poll dropMessage hwaiting hpoll
    refine ⟨hclosed', hwritten, fun polled' hpolled => ?_⟩
    cases hpolled
    exact hanswer
  · refine ⟨?_, rfl, by simp⟩
    cases event with
    | message msg => exact hclosed
    | closeSubstreams => exact ⟨rfl, rfl⟩
  · refine ⟨?_, rfl, by simp⟩
    cases event with
    | fullyNegotiatedInbound => exact absurd rfl hinput.1
    | fullyNegotiatedOutbound => exact absurd rfl hinput.2
    | dialUpgradeError => exact ⟨rfl, rfl⟩
    | other => exact hclosed

/-- Once a handler reached from `new` has both substreams dropped (after a
malicious judgement, an IO error, a dial error or the behaviour's request),
and until a substream is negotiated again, it writes nothing and hands the
behaviour no message, whatever the peer, the monitor and the behaviour do. -/
theorem run_silent_after_close (monitor : Option ConnectionMonitor) (before after : List Input)
    {self : BlendConnectionHandler}
    (hreach : (Mealy.runOutcome (step (ε := ε) dropMessage) (new monitor) before).1 = ok self)
    (hclosed : self.inboundSubstream = some .dropped ∧ self.outboundSubstream = some .dropped)
    (hafter : ∀ input ∈ after, input ≠ .connectionEvent .fullyNegotiatedInbound ∧
      input ≠ .connectionEvent .fullyNegotiatedOutbound) :
    (Mealy.runOutcome (step (ε := ε) dropMessage) self after).2.flatMap Polled.writtenOf = [] ∧
      ∀ output ∈ (Mealy.runOutcome (step (ε := ε) dropMessage) self after).2,
        ∀ polled, output = some polled → ∀ msg, polled.answer ≠ .notifyBehaviour (.message msg) := by
  have hwaiting : self.Waiting := (run_waiting dropMessage monitor before).1 self hreach
  have hrun := Mealy.runOutcome_invariant (fun s => s.Closed ∧ s.Waiting)
    (fun input => input ≠ .connectionEvent .fullyNegotiatedInbound ∧
      input ≠ .connectionEvent .fullyNegotiatedOutbound)
    (fun output => Polled.writtenOf output = [] ∧
      ∀ polled, output = some polled → ∀ msg, polled.answer ≠ .notifyBehaviour (.message msg))
    (fun _ _ _ _ hs hinput h =>
      have hstep := hs.1.step (ε := ε) dropMessage hs.2 hinput h
      ⟨⟨hstep.1, (hs.2.step (ε := ε) dropMessage h).1⟩, hstep.2⟩)
    after self ⟨hclosed, hwaiting⟩ hafter
  refine ⟨List.flatMap_eq_nil_iff.mpr fun output houtput => (hrun.2 output houtput).1,
    fun output houtput => (hrun.2 output houtput).2⟩

/-- The behaviour gives a message and the peer sends one, after a dial
error closed the handler. -/
def afterDialError : List Input :=
  [.behaviourEvent (.message [1]), .poll true (.ready [2]) [.ready ()]]

theorem run_silent_after_close_after_dial_error :
    (Mealy.runOutcome (step (ε := Unit) [0]) (new none) [.connectionEvent .dialUpgradeError]).1 =
        ok (new none).closeSubstreams ∧
      ((new none).closeSubstreams.inboundSubstream = some .dropped ∧
        (new none).closeSubstreams.outboundSubstream = some .dropped) ∧
      (∀ input ∈ afterDialError, input ≠ .connectionEvent .fullyNegotiatedInbound ∧
        input ≠ .connectionEvent .fullyNegotiatedOutbound) ∧
      (Mealy.runOutcome (step (ε := Unit) [0]) (new none).closeSubstreams afterDialError).2.flatMap
        Polled.writtenOf = [] := by
  have hreach : (Mealy.runOutcome (step (ε := Unit) [0]) (new none)
      [.connectionEvent .dialUpgradeError]).1 = ok (new none).closeSubstreams := rfl
  have hclosed : (new none).closeSubstreams.inboundSubstream = some .dropped ∧
      (new none).closeSubstreams.outboundSubstream = some .dropped := ⟨rfl, rfl⟩
  have hafter : ∀ input ∈ afterDialError, input ≠ .connectionEvent .fullyNegotiatedInbound ∧
      input ≠ .connectionEvent .fullyNegotiatedOutbound := by decide
  exact ⟨hreach, hclosed, hafter,
    (run_silent_after_close [0] none [.connectionEvent .dialUpgradeError] afterDialError hreach hclosed
      hafter).1⟩

/-! ## Which sends complete -/

/-- A message the send loop writes had its send future answer ready. -/
theorem pollSend_written_ready (self : BlendConnectionHandler) (msg : Bytes) (sends : List (IoPoll Unit)) :
    ∀ m ∈ (self.pollSend msg sends).2.written, (m, IoPoll.ready ()) ∈ (msg :: self.outboundMsgs).zip sends := by
  induction sends generalizing self msg with
  | nil => simp [pollSend]
  | cons answer sends ih =>
    cases answer with
    | pending => simp [pollSend]
    | error => simp [pollSend]
    | ready u =>
      intro m hm
      cases hmsgs : self.outboundMsgs with
      | nil =>
        simp only [pollSend, hmsgs, List.mem_singleton] at hm
        simp [hm]
      | cons next rest =>
        simp only [pollSend, hmsgs, List.mem_cons] at hm
        rcases hm with rfl | hm
        · simp
        · exact List.mem_cons_of_mem _
            (ih { self with outboundSubstream := some (.pendingSend next), outboundMsgs := rest } next m hm)

/-- A message the outbound loop writes is one the handler held, and its send
future answered ready. -/
theorem pollOutbound_written_ready (self : BlendConnectionHandler) (sends : List (IoPoll Unit)) :
    ∀ m ∈ (self.pollOutbound sends).2.written, (m, IoPoll.ready ()) ∈ self.held.zip sends := by
  unfold pollOutbound
  split
  · simp
  · rename_i hidle
    split
    · rename_i msg rest hmsgs
      simpa [held, hidle, hmsgs] using
        pollSend_written_ready { self with outboundSubstream := some (.pendingSend msg), outboundMsgs := rest }
          msg sends
    · simp
  · rename_i msg hsend
    simpa [held, hsend] using pollSend_written_ready self msg sends
  · simp
  · simp

/-- A message a poll writes is one the handler held, and its send future
answered ready. -/
theorem poll_written_ready {self self' : BlendConnectionHandler} {intervalReady : Bool}
    {recv : IoPoll Bytes} {sends : List (IoPoll Unit)} {polled : Polled}
    (h : (self.poll dropMessage intervalReady recv sends : Outcome ε _) = ok (self', polled)) :
    ∀ m ∈ polled.written, (m, IoPoll.ready ()) ∈ self.held.zip sends := by
  obtain ⟨monitored, hmonitor, hcases⟩ := poll_eq_ok dropMessage h
  rcases hcases with ⟨event, rest, -, rfl, rfl⟩ | ⟨-, event, -, rfl⟩ | ⟨-, -, houtbound⟩
  · simp
  · simp
  · intro m hm
    have hready := pollOutbound_written_ready monitored sends m (by rw [houtbound]; exact hm)
    rcases held_pollMonitor hmonitor with hheld | hheld <;> rw [hheld] at hready
    · exact hready
    · simp at hready

/-- A poll hands the behaviour a message only when the receive future
answered with it: the queue holds no message. -/
theorem Waiting.poll_message {self self' : BlendConnectionHandler} {intervalReady : Bool}
    {recv : IoPoll Bytes} {sends : List (IoPoll Unit)} {polled : Polled} (hself : self.Waiting)
    (h : (self.poll dropMessage intervalReady recv sends : Outcome ε _) = ok (self', polled))
    {msg : Bytes} (hmsg : polled.answer = .notifyBehaviour (.message msg)) : recv = .ready msg := by
  obtain ⟨monitored, hmonitor, hcases⟩ := poll_eq_ok dropMessage h
  rcases hcases with ⟨event, rest, hevents, rfl, rfl⟩ | ⟨-, event, hinbound, rfl⟩ | ⟨-, -, houtbound⟩
  · have hwaits := hself.pollMonitor hmonitor event (by simp [hevents])
    have hevent : event = .message msg := by simpa using hmsg
    rw [hevent] at hwaits
    cases hwaits
  · have hevent : event = .message msg := by simpa using hmsg
    subst hevent
    rcases pollInbound_cases dropMessage monitored recv with hcase | ⟨-, msg', monitor, hrecv, hcase⟩ | hcase <;>
      rw [hcase] at hinbound <;>
      simp only [Prod.mk.injEq, Option.some.injEq, ToBehaviour.message.injEq, reduceCtorEq, and_false]
        at hinbound
    rw [hrecv, hinbound.2]
  · rcases pollOutbound_frame monitored sends with ⟨-, hanswer⟩ | ⟨-, -, -, hanswer | hanswer⟩ <;>
      rw [houtbound] at hanswer <;> rw [hanswer] at hmsg <;> cases hmsg

/-! ## Framing -/

/-- The `io::Error` of framing: `InvalidInput`, with its text. -/
inductive FramingError
  | invalidInput (description : String)
  deriving DecidableEq

/-- `send_msg`: the length of the message as a big-endian `u16`, then the
message. A message whose length a `u16` cannot hold fails with
`InvalidInput`, whose text gives the size of a `u16` as the length expected. -/
def sendMsg (msg : Bytes) : Except FramingError Bytes :=
  if msg.length < 2 ^ 16 then .ok (beBytes 2 msg.length ++ msg)
  else .error (.invalidInput ("Message length is too big. Got " ++ toString msg.length ++
    ", expected " ++ toString 2))

/-- `recv_msg` on the bytes a stream holds: the message and the bytes after
it, or `none` while the stream holds no whole message (`read_exact` waits). -/
def recvMsg (stream : Bytes) : Option (Bytes × Bytes) :=
  if 2 ≤ stream.length then
    let msgLen := beNat (stream.take 2)
    if msgLen ≤ (stream.drop 2).length then some (((stream.drop 2).take msgLen), (stream.drop 2).drop msgLen)
    else none
  else none

/-- What `send_msg` writes for a message it accepts. -/
def frame (msg : Bytes) : Bytes := beBytes 2 msg.length ++ msg

theorem sendMsg_of_lt {msg : Bytes} (h : msg.length < 2 ^ 16) : sendMsg msg = .ok (frame msg) := by
  unfold sendMsg
  rw [if_pos h]
  rfl

theorem lt_of_sendMsg_ok {msg bytes : Bytes} (h : sendMsg msg = .ok bytes) : msg.length < 2 ^ 16 := by
  unfold sendMsg at h
  split at h
  · assumption
  · cases h

/-- The round trip: `recv_msg` reads back what `send_msg` wrote, and leaves
the stream at what follows. -/
theorem recvMsg_frame {msg : Bytes} (h : msg.length < 2 ^ 16) (rest : Bytes) :
    recvMsg (frame msg ++ rest) = some (msg, rest) := by
  have hprefix : beNat (beBytes 2 msg.length) = msg.length := by
    rw [beNat_beBytes, Nat.mod_eq_of_lt (by simpa using h)]
  have hlen : (beBytes 2 msg.length).length = 2 := length_beBytes _ _
  simp [recvMsg, frame, List.append_assoc, hlen, hprefix]

end BlendConnectionHandler

end NomosBlendNetwork
