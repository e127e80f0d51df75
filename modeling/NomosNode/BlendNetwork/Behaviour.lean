import NomosNode.Lib.TimedCache
import NomosNode.Lib.LinkedMap
import NomosNode.Lib.Mealy
import NomosNode.Lib.Outcome
import NomosNode.Lib.Bytes

/-!
# The blend network behaviour: forwarding with deduplication

`nomos-blend/network/src/behaviour.rs`: a message received from a peer is
forwarded to every other negotiated peer and reported to the swarm, and a
published message is sent to every negotiated peer, unless a timed cache of
message identifiers has seen it; drop messages are never reported and bypass the
cache when published. A run is any sequence of the swarm's calls; the identifier
and the drop message are parameters, and the peers are visited in the order of
their entries. Within one lifespan of the cache each peer is sent, and the swarm
told of, each message at most once.
-/

namespace NomosBlendNetwork

open Outcome

variable {κ : Type} [DecidableEq κ]

inductive NegotiatedPeerState
  | healthy
  | unhealthy
  deriving DecidableEq

/-- `Error`; an IO error keeps the peer and the connection it came from. -/
inductive Error (κ : Type)
  | noPeers
  | peerIOError (peerId : κ) (connectionId : ℕ)

/-- `Event`, what the behaviour reports to the swarm. -/
inductive Event (κ : Type)
  | message (message : Bytes)
  | maliciousPeer (peerId : κ)
  | unhealthyPeer (peerId : κ)
  | error (e : Error κ)

/-- The `ToSwarm` events the behaviour queues: a message for a peer's
connection handler (`FromBehaviour::Message`), or an event for the swarm. -/
inductive ToSwarm (κ : Type)
  | notifyHandler (peerId : κ) (message : Bytes)
  | generateEvent (event : Event κ)

/-- `ToBehaviour`, what a connection handler reports; an IO error's cause is
not kept. -/
inductive ToBehaviour
  | fullyNegotiatedInbound
  | fullyNegotiatedOutbound
  | dialUpgradeError
  | message (message : Bytes)
  | maliciousPeer
  | unhealthyPeer
  | ioError
  deriving DecidableEq

/-- `Behaviour`: the peers that negotiated the protocol, the events for the
swarm, oldest first, and the cache of seen message identifiers. -/
structure Behaviour (κ : Type) where
  negotiatedPeers : LinkedMap κ NegotiatedPeerState
  events : List (ToSwarm κ)
  duplicateCache : TimedCache Bytes Unit

/-- `BlendMessage::is_drop_message`. -/
def isDropMessage (dropMessage message : Bytes) : Bool :=
  message == dropMessage

namespace Behaviour

variable (messageId : Bytes → Bytes) (dropMessage : Bytes)

/-- `new`: no peers, no events, and an empty cache with the configured
lifespan. -/
def new (duplicateCacheLifespan : ℕ) : Behaviour κ :=
  ⟨LinkedMap.empty, [], TimedCache.withLifespan duplicateCacheLifespan⟩

/-- `forward_message`: a message for every negotiated peer but the excluded
one; `NoPeers` if there is none. -/
def forwardMessage (self : Behaviour κ) (message : Bytes) (excludedPeer : Option κ) :
    Behaviour κ × Outcome (Error κ) Unit :=
  let peers := self.negotiatedPeers.keys.filter fun peerId => excludedPeer != some peerId
  ({ self with events := self.events ++ peers.map fun peerId => .notifyHandler peerId message },
    if peers.length = 0 then err .noPeers else ok ())

/-- `publish`: a drop message is forwarded without the cache; another message
is forwarded unless the cache has seen it, and recorded if the forwarding
succeeded. -/
def publish (self : Behaviour κ) (now : ℕ) (message : Bytes) :
    Behaviour κ × Outcome (Error κ) Unit :=
  if isDropMessage dropMessage message then self.forwardMessage message none
  else
    let msgId := messageId message
    let seen := self.duplicateCache.cacheGet now msgId
    let self := { self with duplicateCache := seen.1 }
    if seen.2.isSome then (self, ok ())
    else
      let forwarded := self.forwardMessage message none
      match forwarded.2 with
      | ok () =>
        ({ forwarded.1 with duplicateCache := (forwarded.1.duplicateCache.cacheSet now msgId ()).1 },
          ok ())
      | result => (forwarded.1, result)

/-- `on_swarm_event`: only the close of a peer's last connection matters. -/
def onConnectionClosed (self : Behaviour κ) (peerId : κ) (remainingEstablished : ℕ) :
    Behaviour κ :=
  if remainingEstablished = 0 then { self with negotiatedPeers := self.negotiatedPeers.erase peerId }
  else self

/-- `on_connection_handler_event`. A message that is not a drop message and
that the cache has not seen is forwarded to the other peers and reported; the
error of the forwarding is only logged. -/
def onConnectionHandlerEvent (self : Behaviour κ) (now : ℕ) (peerId : κ) (connectionId : ℕ) :
    ToBehaviour → Behaviour κ
  | .message message =>
    if isDropMessage dropMessage message then self
    else
      let set := self.duplicateCache.cacheSet now (messageId message) ()
      let self := { self with duplicateCache := set.1 }
      if set.2.isSome then self
      else
        let forwarded := (self.forwardMessage message (some peerId)).1
        { forwarded with events := forwarded.events ++ [.generateEvent (.message message)] }
  | .fullyNegotiatedInbound | .fullyNegotiatedOutbound =>
    { self with negotiatedPeers := self.negotiatedPeers.insert peerId .healthy }
  | .dialUpgradeError => { self with negotiatedPeers := self.negotiatedPeers.erase peerId }
  | .maliciousPeer =>
    { self with
      negotiatedPeers := self.negotiatedPeers.erase peerId
      events := self.events ++ [.generateEvent (.maliciousPeer peerId)] }
  | .unhealthyPeer =>
    { self with
      negotiatedPeers := self.negotiatedPeers.insert peerId .unhealthy
      events := self.events ++ [.generateEvent (.unhealthyPeer peerId)] }
  | .ioError =>
    { self with
      negotiatedPeers := self.negotiatedPeers.erase peerId
      events := self.events ++ [.generateEvent (.error (.peerIOError peerId connectionId))] }

/-- `poll`: the oldest queued event. -/
def poll (self : Behaviour κ) : Behaviour κ × Option (ToSwarm κ) :=
  match self.events with
  | event :: rest => ({ self with events := rest }, some event)
  | [] => (self, none)

end Behaviour

/-- What the swarm does with the behaviour. -/
inductive Input (κ : Type)
  | publish (now : ℕ) (message : Bytes)
  | connectionClosed (peerId : κ) (remainingEstablished : ℕ)
  | connectionHandlerEvent (now : ℕ) (peerId : κ) (connectionId : ℕ) (event : ToBehaviour)
  | poll

/-- The instant an input reads the cache at. -/
def Input.instant : Input κ → Option ℕ
  | .publish now _ | .connectionHandlerEvent now _ _ _ => some now
  | _ => none

/-- What the behaviour answers. -/
inductive Output (κ : Type)
  | published (result : Outcome (Error κ) Unit)
  | handled
  | polled (event : Option (ToSwarm κ))

namespace Behaviour

variable (messageId : Bytes → Bytes) (dropMessage : Bytes)

def step (self : Behaviour κ) : Input κ → Behaviour κ × Output κ
  | .publish now message =>
    let published := self.publish messageId dropMessage now message
    (published.1, .published published.2)
  | .connectionClosed peerId remainingEstablished =>
    (self.onConnectionClosed peerId remainingEstablished, .handled)
  | .connectionHandlerEvent now peerId connectionId event =>
    (self.onConnectionHandlerEvent messageId dropMessage now peerId connectionId event, .handled)
  | .poll =>
    let polled := self.poll
    (polled.1, .polled polled.2)

/-- The behaviour driven by a list of inputs. -/
def run (self : Behaviour κ) (inputs : List (Input κ)) : Behaviour κ × List (Output κ) :=
  Mealy.run (step messageId dropMessage) self inputs

/-! ## What each input does to the queue and the cache -/

@[simp] theorem events_forwardMessage (self : Behaviour κ) (message : Bytes)
    (excludedPeer : Option κ) :
    (self.forwardMessage message excludedPeer).1.events = self.events ++
      (self.negotiatedPeers.keys.filter fun peerId => excludedPeer != some peerId).map
        fun peerId => .notifyHandler peerId message := rfl

@[simp] theorem duplicateCache_forwardMessage (self : Behaviour κ) (message : Bytes)
    (excludedPeer : Option κ) :
    (self.forwardMessage message excludedPeer).1.duplicateCache = self.duplicateCache := rfl

/-- Forwarding fails exactly when there is no peer to send to, and then it
queues nothing. -/
theorem forwardMessage_ok_of_ne_nil (self : Behaviour κ) (message : Bytes)
    (excludedPeer : Option κ)
    (h : (self.negotiatedPeers.keys.filter fun peerId => excludedPeer != some peerId) ≠ []) :
    (self.forwardMessage message excludedPeer).2 = ok () := by
  simp [forwardMessage, h]

/-- The peers a message is forwarded to are distinct. -/
theorem nodup_forwardPeers (self : Behaviour κ) (excludedPeer : Option κ) :
    (self.negotiatedPeers.keys.filter fun peerId => excludedPeer != some peerId).Nodup :=
  self.negotiatedPeers.nodup_keys.filter _

/-- Forwarding to every peer: the filter on the excluded peer keeps them all. -/
theorem filter_none_keys (self : Behaviour κ) :
    (self.negotiatedPeers.keys.filter fun peerId => (none : Option κ) != some peerId) =
      self.negotiatedPeers.keys := by
  simp

/-- `publish` of a drop message only forwards it. -/
theorem publish_of_drop (self : Behaviour κ) (now : ℕ) {message : Bytes}
    (hdrop : isDropMessage dropMessage message = true) :
    (self.publish messageId dropMessage now message).1 = (self.forwardMessage message none).1 := by
  simp [publish, hdrop]

/-- `publish` of a message the cache has seen only reads the cache. -/
theorem publish_of_seen (self : Behaviour κ) (now : ℕ) {message : Bytes}
    (hdrop : isDropMessage dropMessage message = false)
    (hseen : ((self.duplicateCache.cacheGet now (messageId message)).2).isSome) :
    (self.publish messageId dropMessage now message).1 =
      { self with duplicateCache := (self.duplicateCache.cacheGet now (messageId message)).1 } := by
  simp [publish, hdrop, hseen]

/-- `publish` of a message the cache has not seen forwards it to every peer;
it records it when there was a peer to send to, and otherwise has only read
the cache. -/
theorem publish_of_unseen (self : Behaviour κ) (now : ℕ) {message : Bytes}
    (hdrop : isDropMessage dropMessage message = false)
    (hunseen : (self.duplicateCache.cacheGet now (messageId message)).2 = none) :
    (self.publish messageId dropMessage now message).1.events =
        self.events ++ self.negotiatedPeers.keys.map (fun peerId => .notifyHandler peerId message) ∧
      ((self.negotiatedPeers.keys = [] ∧
          (self.publish messageId dropMessage now message).1.duplicateCache =
            (self.duplicateCache.cacheGet now (messageId message)).1) ∨
        (self.publish messageId dropMessage now message).1.duplicateCache =
          ((self.duplicateCache.cacheGet now (messageId message)).1.cacheSet now
            (messageId message) ()).1) := by
  by_cases hpeers : self.negotiatedPeers.keys = []
  · have hfail : ({ self with duplicateCache := (self.duplicateCache.cacheGet now
        (messageId message)).1 }.forwardMessage message none).2 = err .noPeers := by
      simp [forwardMessage, hpeers]
    simp only [publish, hdrop, Bool.false_eq_true, if_false, hunseen, Option.isSome_none, hfail]
    exact ⟨by simp [hpeers], .inl ⟨hpeers, rfl⟩⟩
  · have hok := forwardMessage_ok_of_ne_nil
      { self with duplicateCache := (self.duplicateCache.cacheGet now (messageId message)).1 }
      message none (by rwa [filter_none_keys])
    simp only [publish, hdrop, Bool.false_eq_true, if_false, hunseen, Option.isSome_none, hok]
    refine ⟨?_, .inr rfl⟩
    rw [events_forwardMessage]
    exact congrArg (self.events ++ ·) (congrArg _ (filter_none_keys self))

/-- A drop message from a peer is ignored. -/
theorem onConnectionHandlerEvent_of_drop (self : Behaviour κ) (now : ℕ) (peerId : κ)
    (connectionId : ℕ) {message : Bytes} (hdrop : isDropMessage dropMessage message = true) :
    self.onConnectionHandlerEvent messageId dropMessage now peerId connectionId (.message message) =
      self := by
  simp [onConnectionHandlerEvent, hdrop]

/-- A message from a peer that the cache had seen is only recorded again. -/
theorem onConnectionHandlerEvent_of_seen (self : Behaviour κ) (now : ℕ) (peerId : κ)
    (connectionId : ℕ) {message : Bytes} (hdrop : isDropMessage dropMessage message = false)
    (hseen : ((self.duplicateCache.cacheSet now (messageId message) ()).2).isSome) :
    self.onConnectionHandlerEvent messageId dropMessage now peerId connectionId (.message message) =
      { self with duplicateCache := (self.duplicateCache.cacheSet now (messageId message) ()).1 } := by
  simp [onConnectionHandlerEvent, hdrop, hseen]

/-- A message from a peer that the cache had not seen is recorded, forwarded
to every other peer and reported. -/
theorem onConnectionHandlerEvent_of_unseen (self : Behaviour κ) (now : ℕ) (peerId : κ)
    (connectionId : ℕ) {message : Bytes} (hdrop : isDropMessage dropMessage message = false)
    (hunseen : (self.duplicateCache.cacheSet now (messageId message) ()).2 = none) :
    (self.onConnectionHandlerEvent messageId dropMessage now peerId connectionId
        (.message message)).events =
      self.events ++ ((self.negotiatedPeers.keys.filter fun peer => some peerId != some peer).map
        (fun peer => .notifyHandler peer message) ++ [.generateEvent (.message message)]) ∧
    (self.onConnectionHandlerEvent messageId dropMessage now peerId connectionId
        (.message message)).duplicateCache =
      (self.duplicateCache.cacheSet now (messageId message) ()).1 := by
  simp [onConnectionHandlerEvent, hdrop, hunseen]

end Behaviour

namespace ToSwarm

/-- The message an event carries, if it carries one. -/
def message? : ToSwarm κ → Option Bytes
  | notifyHandler _ message => some message
  | generateEvent (.message message) => some message
  | generateEvent _ => none

end ToSwarm

namespace Behaviour

variable (messageId : Bytes → Bytes) (dropMessage : Bytes)

/-- The other events of a connection handler leave the cache alone and queue
only events that carry no message. -/
theorem onConnectionHandlerEvent_of_not_message (self : Behaviour κ) (now : ℕ) (peerId : κ)
    (connectionId : ℕ) {event : ToBehaviour} (hevent : ∀ message, event ≠ .message message) :
    ∃ extra, (self.onConnectionHandlerEvent messageId dropMessage now peerId connectionId
        event).events = self.events ++ extra ∧ (∀ ev ∈ extra, ev.message? = none) ∧
      (self.onConnectionHandlerEvent messageId dropMessage now peerId connectionId
        event).duplicateCache = self.duplicateCache := by
  cases event with
  | message message => exact absurd rfl (hevent message)
  | fullyNegotiatedInbound | fullyNegotiatedOutbound | dialUpgradeError =>
    exact ⟨[], by simp [onConnectionHandlerEvent], by simp, rfl⟩
  | maliciousPeer | unhealthyPeer | ioError =>
    exact ⟨_, rfl, by simp [ToSwarm.message?], rfl⟩

/-! ## Each message is forwarded once within a lifespan -/

/-- A notification to `peer` of a message, other than the drop message, with
identifier `i`. -/
def forwardsTo (i : Bytes) (peer : κ) : ToSwarm κ → Bool
  | .notifyHandler peerId message =>
    peerId == peer && messageId message == i && !isDropMessage dropMessage message
  | .generateEvent _ => false

/-- A report to the swarm of a message, other than the drop message, with
identifier `i`. -/
def reports (i : Bytes) : ToSwarm κ → Bool
  | .generateEvent (.message message) => messageId message == i && !isDropMessage dropMessage message
  | _ => false

/-- What the counting argument needs of a kind of event: it carries a message,
other than the drop message, with identifier `i`, and what one forwarding and
report queue holds at most one of it. -/
structure Tracks (p : ToSwarm κ → Bool) (i : Bytes) : Prop where
  carries : ∀ ev, p ev = true → ∃ message, ev.message? = some message ∧ messageId message = i ∧
    isDropMessage dropMessage message = false
  once : ∀ (peers : List κ) (message : Bytes), peers.Nodup →
    (peers.map (fun peerId => ToSwarm.notifyHandler peerId message) ++
      [ToSwarm.generateEvent (.message message)]).countP p ≤ 1

theorem tracks_forwardsTo (i : Bytes) (peer : κ) :
    Tracks messageId dropMessage (forwardsTo messageId dropMessage i peer) i := by
  refine ⟨fun ev hev => ?_, fun peers message hpeers => ?_⟩
  · cases ev with
    | notifyHandler peerId message =>
      simp only [forwardsTo, Bool.and_eq_true, beq_iff_eq, Bool.not_eq_true'] at hev
      exact ⟨message, rfl, hev.1.2, hev.2⟩
    | generateEvent event => simp [forwardsTo] at hev
  · -- the peers are distinct, so at most one of them is `peer`
    have hcount : (peers.map (fun peerId => ToSwarm.notifyHandler peerId message)).countP
        (forwardsTo messageId dropMessage i peer) ≤ peers.count peer := by
      rw [List.countP_map, List.count_eq_countP]
      refine List.countP_mono_left fun peerId _ h => ?_
      simp only [Function.comp, forwardsTo, Bool.and_eq_true] at h
      simpa using h.1.1
    have hone := List.nodup_iff_count_le_one.mp hpeers peer
    simp only [List.countP_append, List.countP_singleton, forwardsTo, Bool.false_eq_true,
      ↓reduceIte]
    omega

omit [DecidableEq κ] in
theorem tracks_reports (i : Bytes) :
    Tracks messageId dropMessage (reports (κ := κ) messageId dropMessage i) i := by
  refine ⟨fun ev hev => ?_, fun peers message _ => ?_⟩
  · rcases ev with _ | (message | _ | _ | _) <;> simp only [reports, Bool.false_eq_true] at hev
    simp only [Bool.and_eq_true, beq_iff_eq, Bool.not_eq_true'] at hev
    exact ⟨message, rfl, hev.1, hev.2⟩
  · have hnone : (peers.map (fun peerId => ToSwarm.notifyHandler peerId message)).countP
        (reports messageId dropMessage i) = 0 := by
      simp [List.countP_eq_zero, reports]
    rw [List.countP_append, hnone, Nat.zero_add]
    exact List.countP_le_length.trans (by simp)

/-- The lifespan of the cache is fixed. -/
@[simp] theorem lifespan_step (self : Behaviour κ) (input : Input κ) :
    (self.step messageId dropMessage input).1.duplicateCache.lifespan =
      self.duplicateCache.lifespan := by
  cases input with
  | publish now message =>
    simp only [step, publish]
    split
    · rfl
    · split
      · simp
      · split <;> simp
  | connectionClosed peerId remainingEstablished =>
    simp only [step, onConnectionClosed]
    split <;> rfl
  | connectionHandlerEvent now peerId connectionId event =>
    cases event <;> simp only [step, onConnectionHandlerEvent]
    case message message =>
      split
      · rfl
      · split <;> simp
  | poll =>
    simp only [step, poll]
    split <;> rfl

end Behaviour

/-- How many of the events a poll hands out satisfy `p`. -/
def Output.count (p : ToSwarm κ → Bool) : Output κ → ℕ
  | .polled (some event) => (p event).toNat
  | _ => 0

namespace Behaviour

variable {messageId : Bytes → Bytes} {dropMessage : Bytes} {p : ToSwarm κ → Bool} {i : Bytes}

omit [DecidableEq κ] in
/-- Events that carry no message count for nothing. -/
theorem Tracks.countP_of_none (hp : Tracks messageId dropMessage p i) {extra : List (ToSwarm κ)}
    (h : ∀ ev ∈ extra, ev.message? = none) : extra.countP p = 0 := by
  refine List.countP_eq_zero.mpr fun ev hev hpev => ?_
  obtain ⟨message, hmessage, -⟩ := hp.carries ev hpev
  rw [h ev hev] at hmessage
  cases hmessage

omit [DecidableEq κ] in
/-- Events that carry the drop message, or a message with another identifier,
count for nothing. -/
theorem Tracks.countP_of_other (hp : Tracks messageId dropMessage p i)
    {extra : List (ToSwarm κ)} {message : Bytes}
    (h : ∀ ev ∈ extra, ev.message? = some message)
    (hother : messageId message ≠ i ∨ isDropMessage dropMessage message = true) :
    extra.countP p = 0 := by
  refine List.countP_eq_zero.mpr fun ev hev hpev => ?_
  obtain ⟨carried, hcarried, hid, hdrop⟩ := hp.carries ev hpev
  rw [h ev hev, Option.some.injEq] at hcarried
  subst hcarried
  rcases hother with hother | hother
  · exact hother hid
  · rw [hdrop] at hother
    cases hother

omit [DecidableEq κ] in
/-- Forwarding without the report counts for at most one. -/
theorem Tracks.countP_forward_le (hp : Tracks messageId dropMessage p i) {peers : List κ}
    (hpeers : peers.Nodup) (message : Bytes) :
    (peers.map fun peerId => ToSwarm.notifyHandler peerId message).countP p ≤ 1 :=
  (List.Sublist.countP_le (List.sublist_append_left _ _)).trans (hp.once peers message hpeers)

omit [DecidableEq κ] in
/-- The events a forwarding and its report queue carry their message. -/
theorem message?_forward {peers : List κ} {message : Bytes} :
    ∀ ev ∈ (peers.map fun peerId => ToSwarm.notifyHandler peerId message) ++
      [ToSwarm.generateEvent (.message message)], ev.message? = some message := by
  intro ev hev
  rcases List.mem_append.mp hev with hev | hev
  · obtain ⟨peerId, -, rfl⟩ := List.mem_map.mp hev
    rfl
  · rw [List.mem_singleton.mp hev]
    rfl

omit [DecidableEq κ] in
/-- The notifications alone carry their message too. -/
theorem message?_notify {peers : List κ} {message : Bytes} :
    ∀ ev ∈ peers.map fun peerId => ToSwarm.notifyHandler peerId message,
      ev.message? = some message :=
  fun ev hev => message?_forward ev (List.mem_append_left _ hev)

/-- What one step may do, in the terms of the counting argument: a mark (the
identifier stamped inside the window) stays set, and the events counted by `p`
in the output and the queue grow only by the one addition that sets the mark. -/
def CountsOnce (p : ToSwarm κ → Bool) (i : Bytes) (start : ℕ) (self self' : Behaviour κ)
    (output : Output κ) : Prop :=
  (self.duplicateCache.StampedWithin start i = true →
      self'.duplicateCache.StampedWithin start i = true) ∧
    (output.count p + self'.events.countP p ≤ self.events.countP p ∨
      (self.duplicateCache.StampedWithin start i = false ∧
        self'.duplicateCache.StampedWithin start i = true ∧
        output.count p + self'.events.countP p ≤ self.events.countP p + 1))

omit [DecidableEq κ] in
/-- A step that queues only uncounted events and keeps the marks. -/
theorem countsOnce_of_uncounted {start : ℕ} {self self' : Behaviour κ} {output : Output κ}
    {extra : List (ToSwarm κ)} (hevents : self'.events = self.events ++ extra)
    (hextra : extra.countP p = 0) (houtput : output.count p = 0)
    (hkeep : self.duplicateCache.StampedWithin start i = true →
      self'.duplicateCache.StampedWithin start i = true) :
    CountsOnce p i start self self' output :=
  ⟨hkeep, .inl (by rw [hevents, List.countP_append, hextra, houtput]; omega)⟩

omit [DecidableEq κ] in
/-- A step that queues nothing. -/
theorem countsOnce_of_events_eq {start : ℕ} {self self' : Behaviour κ} {output : Output κ}
    (hevents : self'.events = self.events) (houtput : output.count p = 0)
    (hkeep : self.duplicateCache.StampedWithin start i = true →
      self'.duplicateCache.StampedWithin start i = true) :
    CountsOnce p i start self self' output :=
  countsOnce_of_uncounted (hevents.trans (List.append_nil _).symm) rfl houtput hkeep

omit [DecidableEq κ] in
/-- A message with identifier `i` that the cache did not hold live: the mark
was not set, and setting the identifier inside the window sets it. Queuing at
most one counted event is then allowed. -/
theorem countsOnce_of_recorded {start now : ℕ} {self self' : Behaviour κ} {output : Output κ}
    {extra : List (ToSwarm κ)} {cache : TimedCache Bytes Unit} (hnow : cache.Within start now)
    (hunmarked : self.duplicateCache.StampedWithin start i = false)
    (hcache : self'.duplicateCache = (cache.cacheSet now i ()).1)
    (hevents : self'.events = self.events ++ extra)
    (hextra : extra.countP p ≤ 1) (houtput : output.count p = 0) :
    CountsOnce p i start self self' output := by
  have hset : self'.duplicateCache.StampedWithin start i = true := by
    rw [hcache]
    exact TimedCache.stampedWithin_cacheSet _ _ (.inl rfl) hnow
  refine ⟨fun _ => hset, .inr ⟨hunmarked, hset, ?_⟩⟩
  rw [hevents, List.countP_append, houtput]
  omega

/-- `publish` inside the window counts once. -/
theorem publish_countsOnce (hp : Tracks messageId dropMessage p i) (self : Behaviour κ)
    {start now : ℕ} (message : Bytes) (hnow : self.duplicateCache.Within start now) :
    CountsOnce p i start self (self.publish messageId dropMessage now message).1
      (.published (self.publish messageId dropMessage now message).2) := by
  cases hdrop : isDropMessage dropMessage message
  case true =>
    rw [publish_of_drop messageId dropMessage self now hdrop]
    exact countsOnce_of_uncounted (events_forwardMessage _ _ _)
      (hp.countP_of_other message?_notify (.inr hdrop)) rfl id
  case false =>
    have hread : self.duplicateCache.StampedWithin start i = true →
        (self.duplicateCache.cacheGet now (messageId message)).1.StampedWithin start i = true :=
      fun h => TimedCache.stampedWithin_cacheGet _ h hnow
    cases hseen : (self.duplicateCache.cacheGet now (messageId message)).2 with
    | some value =>
      rw [publish_of_seen messageId dropMessage self now hdrop (by simp [hseen])]
      exact countsOnce_of_events_eq rfl rfl hread
    | none =>
      obtain ⟨hevents, hcache⟩ := publish_of_unseen messageId dropMessage self now hdrop hseen
      rcases hcache with ⟨hpeers, hcache⟩ | hcache
      · -- no peer to send to: nothing queued, the cache only read
        exact countsOnce_of_uncounted hevents (by simp [hpeers]) rfl (hcache ▸ hread)
      · have hread' : (self.duplicateCache.cacheGet now (messageId message)).1.Within start now :=
          (TimedCache.within_cacheGet_iff _ _).mpr hnow
        by_cases hid : messageId message = i
        · -- the message of identifier `i`, read unseen: it was not stamped inside the window
          subst hid
          exact countsOnce_of_recorded hread' (TimedCache.not_stampedWithin_of_cacheGet hnow hseen)
            hcache hevents
            (hp.countP_forward_le (self.negotiatedPeers.nodup_keys : self.negotiatedPeers.keys.Nodup)
              message) rfl
        · refine countsOnce_of_uncounted hevents (hp.countP_of_other message?_notify (.inl hid))
            rfl fun h => ?_
          rw [hcache]
          exact TimedCache.stampedWithin_cacheSet _ _ (.inr (hread h)) hread'

/-- The events of a connection handler inside the window count once. -/
theorem onConnectionHandlerEvent_countsOnce (hp : Tracks messageId dropMessage p i)
    (self : Behaviour κ) {start now : ℕ} (peerId : κ) (connectionId : ℕ) (event : ToBehaviour)
    (hnow : self.duplicateCache.Within start now) :
    CountsOnce p i start self
      (self.onConnectionHandlerEvent messageId dropMessage now peerId connectionId event)
      .handled := by
  by_cases hmessage : ∀ message, event ≠ .message message
  · obtain ⟨extra, hevents, hnone, hcache⟩ :=
      onConnectionHandlerEvent_of_not_message messageId dropMessage self now peerId connectionId
        hmessage
    exact countsOnce_of_uncounted hevents (hp.countP_of_none hnone) rfl (hcache ▸ id)
  obtain ⟨message, rfl⟩ := not_forall_not.mp hmessage
  cases hdrop : isDropMessage dropMessage message
  case true =>
    rw [onConnectionHandlerEvent_of_drop messageId dropMessage self now peerId connectionId hdrop]
    exact countsOnce_of_events_eq rfl rfl id
  case false =>
    cases hseen : (self.duplicateCache.cacheSet now (messageId message) ()).2 with
    | some value =>
      rw [onConnectionHandlerEvent_of_seen messageId dropMessage self now peerId connectionId hdrop
        (by simp [hseen])]
      exact countsOnce_of_events_eq rfl rfl fun h =>
        TimedCache.stampedWithin_cacheSet _ _ (.inr h) hnow
    | none =>
      obtain ⟨hevents, hcache⟩ := onConnectionHandlerEvent_of_unseen messageId dropMessage self now
        peerId connectionId hdrop hseen
      by_cases hid : messageId message = i
      · -- the message of identifier `i`, set unseen: it was not stamped inside the window
        subst hid
        exact countsOnce_of_recorded hnow (TimedCache.not_stampedWithin_of_cacheSet hnow hseen) hcache
          hevents (hp.once _ message (nodup_forwardPeers self (some peerId))) rfl
      · exact countsOnce_of_uncounted hevents (hp.countP_of_other message?_forward (.inl hid)) rfl
          fun h => hcache ▸ TimedCache.stampedWithin_cacheSet _ _ (.inr h) hnow

/-- One input inside the window counts once. -/
theorem step_countsOnce (hp : Tracks messageId dropMessage p i) (self : Behaviour κ)
    (input : Input κ) {start : ℕ} (hnow : ∀ now ∈ input.instant, self.duplicateCache.Within start now) :
    CountsOnce p i start self (self.step messageId dropMessage input).1
      (self.step messageId dropMessage input).2 := by
  cases input with
  | publish now message => exact publish_countsOnce hp self message (hnow now rfl)
  | connectionClosed peerId remainingEstablished =>
    refine countsOnce_of_events_eq ?_ rfl ?_ <;>
      simp only [step, onConnectionClosed] <;> split <;> simp
  | connectionHandlerEvent now peerId connectionId event =>
    exact onConnectionHandlerEvent_countsOnce hp self peerId connectionId event (hnow now rfl)
  | poll =>
    simp only [step, poll]
    split
    · rename_i event rest hevents
      refine ⟨id, .inl ?_⟩
      simp only [Output.count, hevents, List.countP_cons]
      cases p event <;> simp [Nat.add_comm]
    · exact countsOnce_of_events_eq rfl rfl id

/-- Over a run inside the window, the events counted by `p` that the swarm is
handed, with those still queued, exceed those queued at the start by at most
one. -/
theorem run_countsOnce (hp : Tracks messageId dropMessage p i) (self : Behaviour κ)
    (inputs : List (Input κ)) {start : ℕ}
    (hwindow : ∀ input ∈ inputs, ∀ now ∈ input.instant, self.duplicateCache.Within start now) :
    ((self.run messageId dropMessage inputs).2.map (Output.count p)).sum +
        (self.run messageId dropMessage inputs).1.events.countP p ≤ self.events.countP p + 1 := by
  have hsame : ∀ s : Behaviour κ, s.duplicateCache.lifespan = self.duplicateCache.lifespan →
      ∀ input : Input κ, (∀ now ∈ input.instant, self.duplicateCache.Within start now) →
        ∀ now ∈ input.instant, s.duplicateCache.Within start now := by
    intro s hs input hnow now hinstant
    unfold TimedCache.Within
    rw [hs]
    exact hnow now hinstant
  have hrun := @Mealy.run_sum_le_once (Behaviour κ) (Input κ) (Output κ) (step messageId dropMessage)
    (fun s => s.duplicateCache.lifespan = self.duplicateCache.lifespan)
    (fun input => ∀ now ∈ input.instant, self.duplicateCache.Within start now)
    (fun s => s.duplicateCache.StampedWithin start i) (fun s => s.events.countP p) (Output.count p)
    (fun s input hs _ => by rw [lifespan_step, hs])
    (fun s input hs hnow => (step_countsOnce hp s input (hsame s hs input hnow)).1)
    (fun s input hs hnow => (step_countsOnce hp s input (hsame s hs input hnow)).2)
    inputs self rfl hwindow
  unfold run
  split at hrun <;> omega

/-- Deduplication inside one lifespan of the cache: over any run whose
instants lie in a window of one lifespan, the swarm is handed, or still holds
queued, at most one notification to each peer of a message with a given
identifier, and at most one report of such a message, beyond those queued at
the start. Drop messages are not counted. -/
theorem run_forwards_each_message_once (self : Behaviour κ) (inputs : List (Input κ))
    {start : ℕ}
    (hwindow : ∀ input ∈ inputs, ∀ now ∈ input.instant, self.duplicateCache.Within start now)
    (i : Bytes) :
    (∀ peer : κ,
      ((self.run messageId dropMessage inputs).2.map
          (Output.count (forwardsTo messageId dropMessage i peer))).sum +
        (self.run messageId dropMessage inputs).1.events.countP
          (forwardsTo messageId dropMessage i peer) ≤
      self.events.countP (forwardsTo messageId dropMessage i peer) + 1) ∧
    ((self.run messageId dropMessage inputs).2.map
          (Output.count (reports messageId dropMessage i))).sum +
        (self.run messageId dropMessage inputs).1.events.countP (reports messageId dropMessage i) ≤
      self.events.countP (reports messageId dropMessage i) + 1 :=
  ⟨fun peer => run_countsOnce (tracks_forwardsTo messageId dropMessage i peer) self inputs hwindow,
    run_countsOnce (tracks_reports messageId dropMessage i) self inputs hwindow⟩

/-- Two peers negotiate; the first relays a message, the second relays it
again, and the swarm polls. -/
def relayedTwice : List (Input ℕ) :=
  [.connectionHandlerEvent 0 1 0 .fullyNegotiatedInbound,
    .connectionHandlerEvent 0 2 0 .fullyNegotiatedOutbound,
    .connectionHandlerEvent 1 1 0 (.message [5]),
    .connectionHandlerEvent 3 2 0 (.message [5]),
    .poll, .poll, .poll]

theorem run_forwards_each_message_once_relayed_twice :
    (∀ input ∈ relayedTwice, ∀ now ∈ input.instant,
      (new 10 : Behaviour ℕ).duplicateCache.Within 0 now) ∧
    (∀ peer : ℕ,
      (((new 10).run id [0] relayedTwice).2.map
          (Output.count (forwardsTo id [0] [5] peer))).sum +
        ((new 10).run id [0] relayedTwice).1.events.countP (forwardsTo id [0] [5] peer) ≤
      (new 10 : Behaviour ℕ).events.countP (forwardsTo id [0] [5] peer) + 1) ∧
    (((new 10 : Behaviour ℕ).run id [0] relayedTwice).2.map
          (Output.count (reports id [0] [5]))).sum +
        ((new 10 : Behaviour ℕ).run id [0] relayedTwice).1.events.countP (reports id [0] [5]) ≤
      (new 10 : Behaviour ℕ).events.countP (reports id [0] [5]) + 1 := by
  have hwindow : ∀ input ∈ relayedTwice, ∀ now ∈ input.instant,
      (new 10 : Behaviour ℕ).duplicateCache.Within 0 now := by
    simp [relayedTwice, Input.instant, new, TimedCache.withLifespan, TimedCache.Within]
  exact ⟨hwindow, run_forwards_each_message_once (new 10) relayedTwice hwindow [5]⟩

end Behaviour

end NomosBlendNetwork
