import NomosNode.Lib.Outcome
import NomosNode.Lib.LinkedMap

/-!
# The outbound queues of the replication protocol

`nomos-da/network/core/src/protocols/replication/behaviour.rs`: a message is
queued for each peer, and `next_peer` picks the next peer with a pending message
and an idle stream, scanning the queues round-robin from the peer after
`last_scheduled`; `on_disconnected` drops a peer's queue and moves the marker
back. The queues are the ordered entries of an `IndexMap`, and stream idleness
is a predicate, fresh at each scheduling. The marker is always unset or a key,
so no `expect` fires; but an unrelated disconnection clears it, and the next
scan serves the first peer again while a later one waits.
-/

namespace Replication

open Outcome

variable {ε : Type} {κ μ ν : Type} [DecidableEq κ]

/-- The variant of `ReplicationError` that the queues raise. -/
inductive ReplicationError (κ : Type) where
  | dequeueOutbound (peerId : κ)
  deriving DecidableEq, Repr

/-- `PeerNotFound`. -/
inductive PeerNotFound where
  | peerNotFound
  deriving DecidableEq, Repr

/-- The free function `next_peer`: the first peer, after `previous` and
wrapping around to it, whose queue is not empty and whose stream is idle. -/
def nextPeer (previous : Option κ) (pendingOutboundMessages : LinkedMap κ (List μ))
    (isStreamIdle : κ → Bool) : Outcome ε (Option κ) :=
  let ready := fun (e : κ × List μ) => !e.2.isEmpty && isStreamIdle e.1
  match previous with
  | some previous => do
    let i ← expect (pendingOutboundMessages.indexOf? previous) "Peer to be present"
    let entries := pendingOutboundMessages.entries
    ok (((entries.drop (i + 1) ++ entries.take (i + 1)).find? ready).map Prod.fst)
  | none => ok ((pendingOutboundMessages.entries.find? ready).map Prod.fst)

/-- The free function `on_disconnected`: remove the peer's queue, and give the
corrected marker. -/
def onDisconnected (messages : LinkedMap κ ν) (lastScheduled : Option κ) (disconnected : κ) :
    Outcome ε (LinkedMap κ ν × Option κ) := do
  -- the marker's index, panicking when the marker is not a key
  let i ← match lastScheduled with
    | some id => do
      let j ← expect (messages.indexOf? id) "Peer to be present"
      ok (some j)
    | none => ok none
  let messages := messages.erase disconnected
  match lastScheduled with
  | none => ok (messages, none)
  | some id =>
    if id = disconnected then do
      let i ← expect i "Valid index"
      if i = 0 then ok (messages, messages.entries.getLast?.map Prod.fst)
      else ok (messages, messages.entries[i - 1]?.map Prod.fst)
    else ok (messages, none)

/-- `PendingOutbound`: a queue per peer, in the order the peers were first
queued for, and the peer scheduled last. -/
structure PendingOutbound (κ μ : Type) where
  messages : LinkedMap κ (List μ)
  lastScheduled : Option κ

namespace PendingOutbound

/-- `PendingOutbound::default()`. -/
def default : PendingOutbound κ μ := ⟨LinkedMap.empty, none⟩

/-- `enqueue_message`: the message at the back of the peer's queue, the queue
created at the back of the map on the peer's first message. -/
def enqueueMessage (self : PendingOutbound κ μ) (peerId : κ) (message : μ) :
    PendingOutbound κ μ :=
  { self with messages := (self.messages.orInsert peerId []).modify peerId (· ++ [message]) }

/-- `dequeue_message`: the front of the peer's queue, which stays in the map
even when it becomes empty. -/
def dequeueMessage (self : PendingOutbound κ μ) (peerId : κ) :
    Outcome PeerNotFound (Option μ × PendingOutbound κ μ) :=
  match self.messages.get? peerId with
  | none => err .peerNotFound
  | some messages =>
    ok (messages.head?, { self with messages := self.messages.modify peerId List.tail })

/-- `PendingOutbound::on_disconnected`. -/
def onDisconnected (self : PendingOutbound κ μ) (peerId : κ) : Outcome ε (PendingOutbound κ μ) := do
  let (messages, lastScheduled) ← Replication.onDisconnected self.messages self.lastScheduled peerId
  ok ⟨messages, lastScheduled⟩

/-- `PendingOutbound::next_peer`, which moves the marker to the peer it picks. -/
def nextPeer (self : PendingOutbound κ μ) (isStreamIdle : κ → Bool) :
    Outcome ε (Option κ × PendingOutbound κ μ) := do
  let next ← Replication.nextPeer self.lastScheduled self.messages isStreamIdle
  ok (next, { self with lastScheduled := next })

/-- The queues' part of `schedule_next_outbound_message`: pick the next peer
and take the message to write to it. -/
def scheduleNextOutboundMessage (self : PendingOutbound κ μ) (isStreamIdle : κ → Bool) :
    Outcome (ReplicationError κ) (PendingOutbound κ μ × Option (κ × μ)) := do
  let (next, self) ← self.nextPeer isStreamIdle
  match next with
  | none => ok (self, none)
  | some peerId => do
    let (message, self) ← (self.dequeueMessage peerId).mapErr fun _ => .dequeueOutbound peerId
    let message ← expect message
      "Message is in the queue, ensured by PendingOutbound::next_peer()"
    ok (self, some (peerId, message))

/-- What the behaviour does to the queues: queue a message for a connected
member, schedule a write, or drop a peer whose connection closed. -/
inductive Op (κ μ : Type) where
  | enqueueMessage (peerId : κ) (message : μ)
  | schedule (isStreamIdle : κ → Bool)
  | disconnected (peerId : κ)

def step (self : PendingOutbound κ μ) : Op κ μ → Outcome (ReplicationError κ) (PendingOutbound κ μ)
  | .enqueueMessage peerId message => ok (self.enqueueMessage peerId message)
  | .schedule isStreamIdle => do
    let (self, _) ← self.scheduleNextOutboundMessage isStreamIdle
    ok self
  | .disconnected peerId => self.onDisconnected peerId

def run (self : PendingOutbound κ μ) : List (Op κ μ) → Outcome (ReplicationError κ) (PendingOutbound κ μ)
  | [] => ok self
  | op :: ops => do
    let self ← self.step op
    run self ops

/-- The marker is unset or the key of a queue. -/
def MarkerValid (self : PendingOutbound κ μ) : Prop :=
  ∀ p, self.lastScheduled = some p → p ∈ self.messages.keys

end PendingOutbound

/-! ### The free functions -/

/-- A peer found among some of the entries has a queue that is not empty and an
idle stream. -/
theorem ready_of_find? {m : LinkedMap κ (List μ)} {entries : List (κ × List μ)}
    (hentries : ∀ e ∈ entries, e ∈ m.entries) {isStreamIdle : κ → Bool} {p : κ}
    (hfind : (entries.find? fun e => !e.2.isEmpty && isStreamIdle e.1).map Prod.fst = some p) :
    ∃ queue, m.get? p = some queue ∧ queue ≠ [] ∧ isStreamIdle p = true := by
  obtain ⟨e, he, rfl⟩ := Option.map_eq_some_iff.mp hfind
  have hready := List.find?_some he
  simp only [Bool.and_eq_true, Bool.not_eq_true', List.isEmpty_eq_false_iff] at hready
  exact ⟨e.2, LinkedMap.get?_of_mem (hentries e (List.mem_of_find?_eq_some he)), hready⟩

/-- With a marker that is a key, `next_peer` does not panic, and picks none or a
peer with a message and an idle stream. -/
theorem nextPeer_ok {previous : Option κ} {m : LinkedMap κ (List μ)} (isStreamIdle : κ → Bool)
    (hprevious : ∀ p, previous = some p → p ∈ m.keys) :
    ∃ next, (nextPeer previous m isStreamIdle : Outcome ε (Option κ)) = ok next ∧
      ∀ p, next = some p → ∃ queue, m.get? p = some queue ∧ queue ≠ [] ∧
        isStreamIdle p = true := by
  cases previous with
  | none => exact ⟨_, rfl, fun p hp => ready_of_find? (fun e he => he) hp⟩
  | some previous =>
    obtain ⟨i, hi⟩ := Option.isSome_iff_exists.mp
      (LinkedMap.indexOf?_isSome (hprevious previous rfl))
    refine ⟨((m.entries.drop (i + 1) ++ m.entries.take (i + 1)).find?
        fun e => !e.2.isEmpty && isStreamIdle e.1).map Prod.fst,
      by simp only [nextPeer, hi, expect_some, bind_def, ok_bind], fun p hp => ready_of_find? ?_ hp⟩
    intro e he
    rcases List.mem_append.mp he with hdrop | htake
    · exact List.mem_of_mem_drop hdrop
    · exact List.mem_of_mem_take htake

omit [DecidableEq κ] in
theorem mem_keys_of_map_fst {m : LinkedMap κ ν} {o : Option (κ × ν)} {p : κ}
    (ho : ∀ e, o = some e → e ∈ m.entries) (h : o.map Prod.fst = some p) : p ∈ m.keys := by
  obtain ⟨e, he, rfl⟩ := Option.map_eq_some_iff.mp h
  exact List.mem_map_of_mem (ho e he)

/-- With a marker that is a key, `on_disconnected` does not panic, removes the
peer, and gives none or a key that is left. -/
theorem onDisconnected_ok {messages : LinkedMap κ ν} {lastScheduled : Option κ} (disconnected : κ)
    (hmarker : ∀ p, lastScheduled = some p → p ∈ messages.keys) :
    ∃ marker, (onDisconnected messages lastScheduled disconnected :
        Outcome ε (LinkedMap κ ν × Option κ)) = ok (messages.erase disconnected, marker) ∧
      ∀ p, marker = some p → p ∈ (messages.erase disconnected).keys := by
  cases lastScheduled with
  | none => exact ⟨none, rfl, fun p hp => by cases hp⟩
  | some id =>
    obtain ⟨i, hi⟩ := Option.isSome_iff_exists.mp (LinkedMap.indexOf?_isSome (hmarker id rfl))
    by_cases hid : id = disconnected
    · subst hid
      by_cases hi0 : i = 0
      · -- the marker was the first peer: it wraps around to the last one left
        refine ⟨(messages.erase id).entries.getLast?.map Prod.fst, by simp [onDisconnected, hi, hi0],
          fun p hp => mem_keys_of_map_fst (fun e he => List.mem_of_getLast? he) hp⟩
      · refine ⟨(messages.erase id).entries[i - 1]?.map Prod.fst, by simp [onDisconnected, hi, hi0],
          fun p hp => mem_keys_of_map_fst (fun e he => List.mem_of_getElem? he) hp⟩
    · exact ⟨none, by simp [onDisconnected, hi, hid], fun p hp => by cases hp⟩

/-! ### The marker over every run -/

namespace PendingOutbound

omit [DecidableEq κ] in
theorem markerValid_default : (default : PendingOutbound κ μ).MarkerValid :=
  fun p hp => by cases hp

theorem mem_keys_enqueueMessage {self : PendingOutbound κ μ} {peerId p : κ} {message : μ} :
    p ∈ (self.enqueueMessage peerId message).messages.keys ↔ p = peerId ∨ p ∈ self.messages.keys := by
  rw [enqueueMessage, LinkedMap.keys_modify, LinkedMap.mem_keys_orInsert]

theorem MarkerValid.enqueueMessage {self : PendingOutbound κ μ} (hself : self.MarkerValid)
    (peerId : κ) (message : μ) : (self.enqueueMessage peerId message).MarkerValid :=
  fun p hp => mem_keys_enqueueMessage.mpr (Or.inr (hself p hp))

theorem dequeueMessage_of_get? (self : PendingOutbound κ μ) {peerId : κ} {queue : List μ}
    (hqueue : self.messages.get? peerId = some queue) :
    self.dequeueMessage peerId =
      ok (queue.head?, { self with messages := self.messages.modify peerId List.tail }) := by
  rw [dequeueMessage, hqueue]

/-- What scheduling does to the queues: nothing but move the marker, or take
the front message of a peer whose stream is idle. -/
theorem scheduleNextOutboundMessage_spec {self : PendingOutbound κ μ} (hself : self.MarkerValid)
    (isStreamIdle : κ → Bool) :
    (∃ self', self.scheduleNextOutboundMessage isStreamIdle = ok (self', none) ∧
        self'.messages = self.messages ∧ self'.MarkerValid) ∨
      ∃ self' p m rest, self.scheduleNextOutboundMessage isStreamIdle = ok (self', some (p, m)) ∧
        isStreamIdle p = true ∧ self.messages.get? p = some (m :: rest) ∧
        self' = ⟨self.messages.modify p List.tail, some p⟩ ∧ self'.MarkerValid := by
  obtain ⟨next, hnext, hready⟩ := nextPeer_ok (ε := ReplicationError κ) isStreamIdle hself
  have hpick : self.nextPeer isStreamIdle =
      (ok (next, { self with lastScheduled := next }) : Outcome (ReplicationError κ) _) := by
    rw [nextPeer, bind_def, hnext, ok_bind]
  cases next with
  | none =>
    refine .inl ⟨{ self with lastScheduled := none },
      by rw [scheduleNextOutboundMessage, bind_def, hpick, ok_bind], rfl, ?_⟩
    exact fun p hp => by cases hp
  | some peerId =>
    obtain ⟨queue, hqueue, hne, hidle⟩ := hready peerId rfl
    obtain ⟨message, rest, rfl⟩ := List.exists_cons_of_ne_nil hne
    refine .inr ⟨_, peerId, message, rest, ?_, hidle, hqueue, rfl, ?_⟩
    · simp only [scheduleNextOutboundMessage, bind_def, hpick, ok_bind,
        dequeueMessage_of_get? { self with lastScheduled := some peerId } hqueue,
        mapErr_ok, List.head?_cons, expect_some]
    · intro p hp
      cases hp
      rw [LinkedMap.keys_modify]
      exact LinkedMap.mem_keys_of_get? hqueue

/-- Scheduling picks a peer whose queue holds a message, so the dequeue finds the
peer and the message, and the marker it leaves is a key. -/
theorem MarkerValid.scheduleNextOutboundMessage {self : PendingOutbound κ μ}
    (hself : self.MarkerValid) (isStreamIdle : κ → Bool) :
    ∃ self' scheduled, self.scheduleNextOutboundMessage isStreamIdle = ok (self', scheduled) ∧
      self'.MarkerValid := by
  rcases scheduleNextOutboundMessage_spec hself isStreamIdle with
    ⟨self', h, -, hvalid⟩ | ⟨self', p, m, -, h, -, -, -, hvalid⟩
  · exact ⟨self', _, h, hvalid⟩
  · exact ⟨self', _, h, hvalid⟩

/-- Dropping a peer removes its queue, and leaves the marker a key. -/
theorem onDisconnected_spec {self : PendingOutbound κ μ} (hself : self.MarkerValid)
    (peerId : κ) :
    ∃ self', (self.onDisconnected peerId : Outcome ε (PendingOutbound κ μ)) = ok self' ∧
      self'.messages = self.messages.erase peerId ∧ self'.MarkerValid := by
  obtain ⟨marker, hmarker, hkeys⟩ := onDisconnected_ok (ε := ε) peerId hself
  exact ⟨⟨self.messages.erase peerId, marker⟩,
    by rw [PendingOutbound.onDisconnected, bind_def, hmarker, ok_bind], rfl, hkeys⟩

theorem MarkerValid.onDisconnected {self : PendingOutbound κ μ} (hself : self.MarkerValid)
    (peerId : κ) :
    ∃ self', (self.onDisconnected peerId : Outcome ε (PendingOutbound κ μ)) = ok self' ∧
      self'.MarkerValid := by
  obtain ⟨self', h, -, hvalid⟩ := onDisconnected_spec (ε := ε) hself peerId
  exact ⟨self', h, hvalid⟩

/-- A step keeps the marker valid, and so never panics. -/
theorem MarkerValid.step {self : PendingOutbound κ μ} (hself : self.MarkerValid) (op : Op κ μ) :
    ∃ self', self.step op = ok self' ∧ self'.MarkerValid := by
  cases op with
  | enqueueMessage peerId message => exact ⟨_, rfl, hself.enqueueMessage peerId message⟩
  | schedule isStreamIdle =>
    obtain ⟨self', scheduled, hschedule, hvalid⟩ := hself.scheduleNextOutboundMessage isStreamIdle
    exact ⟨self', by rw [PendingOutbound.step, bind_def, hschedule, ok_bind], hvalid⟩
  | disconnected peerId => exact hself.onDisconnected peerId

/-- Safety: from a valid marker every run of the queues returns, with the marker
still valid; in particular neither `expect` of the marker ever fires. -/
theorem MarkerValid.run {self : PendingOutbound κ μ} (hself : self.MarkerValid)
    (ops : List (Op κ μ)) : ∃ self', self.run ops = ok self' ∧ self'.MarkerValid := by
  induction ops generalizing self with
  | nil => exact ⟨self, rfl, hself⟩
  | cons op ops ih =>
    obtain ⟨self₁, hstep, hvalid₁⟩ := hself.step op
    obtain ⟨self', hrun, hvalid'⟩ := ih hvalid₁
    exact ⟨self', by rw [PendingOutbound.run, bind_def, hstep, ok_bind, hrun], hvalid'⟩

theorem run_markerValid (ops : List (Op κ μ)) :
    ∃ self', (default : PendingOutbound κ μ).run ops = ok self' ∧ self'.MarkerValid :=
  markerValid_default.run ops

end PendingOutbound

/-! ### The scan restarts after an unrelated disconnection -/

theorem nextPeer_none_of_head {m : LinkedMap κ (List μ)} {a : κ} {message : μ} {queue : List μ}
    {rest : List (κ × List μ)} (hentries : m.entries = (a, message :: queue) :: rest)
    {isStreamIdle : κ → Bool} (hidle : isStreamIdle a = true) :
    (nextPeer none m isStreamIdle : Outcome ε (Option κ)) = ok (some a) := by
  simp [nextPeer, hentries, hidle]

namespace PendingOutbound

/-- With the marker unset, scheduling serves the first queue when its stream is
idle. -/
theorem scheduleNextOutboundMessage_of_head {self : PendingOutbound κ μ}
    (hlast : self.lastScheduled = none) {a : κ} {message : μ} {queue : List μ}
    {rest : List (κ × List μ)} (hentries : self.messages.entries = (a, message :: queue) :: rest)
    {isStreamIdle : κ → Bool} (hidle : isStreamIdle a = true) :
    self.scheduleNextOutboundMessage isStreamIdle =
      ok (⟨self.messages.modify a List.tail, some a⟩, some (a, message)) := by
  have hpick : self.nextPeer isStreamIdle =
      (ok (some a, { self with lastScheduled := some a }) : Outcome (ReplicationError κ) _) := by
    rw [nextPeer, hlast, bind_def, nextPeer_none_of_head hentries hidle, ok_bind]
  have hqueue : self.messages.get? a = some (message :: queue) := by
    apply LinkedMap.get?_of_mem (e := (a, message :: queue))
    rw [hentries]
    exact List.mem_cons_self
  simp only [scheduleNextOutboundMessage, bind_def, hpick, ok_bind,
    dequeueMessage_of_get? { self with lastScheduled := some a } hqueue, mapErr_ok,
    List.head?_cons, expect_some]

/-- `next_peer` is not round-robin. Let the first queue hold two messages and a
later peer `b` wait with one, all streams idle. The first peer is served; then a
third peer disconnects, which clears the marker, and the scan starts again from
the first queue: the first peer is served a second time while `b`'s queue
stayed as it was. -/
theorem schedule_serves_first_peer_again_after_disconnect (self : PendingOutbound κ μ)
    (hlast : self.lastScheduled = none) {a b c : κ} {m₁ m₂ : μ} {queue : List μ}
    {rest : List (κ × List μ)} (hentries : self.messages.entries = (a, m₁ :: m₂ :: queue) :: rest)
    {mb : μ} {queueB : List μ} (hb : self.messages.get? b = some (mb :: queueB))
    (hba : b ≠ a) (hcb : c ≠ b) (hca : c ≠ a) :
    ∃ self₁ self₂ self₃,
      self.scheduleNextOutboundMessage (fun _ => true) = ok (self₁, some (a, m₁)) ∧
      self₁.messages.get? b = some (mb :: queueB) ∧
      (self₁.onDisconnected c : Outcome (ReplicationError κ) (PendingOutbound κ μ)) = ok self₂ ∧
      self₂.messages.get? b = some (mb :: queueB) ∧
      self₂.scheduleNextOutboundMessage (fun _ => true) = ok (self₃, some (a, m₂)) := by
  set served := self.messages.modify a List.tail with hserved
  have hentries₁ : served.entries = (a, m₂ :: queue) :: LinkedMap.modifyEntries rest a List.tail := by
    rw [hserved]
    show LinkedMap.modifyEntries self.messages.entries a List.tail = _
    simp [hentries, LinkedMap.modifyEntries]
  have hb₁ : served.get? b = some (mb :: queueB) := by
    rw [hserved, LinkedMap.get?_modify, if_neg hba, hb]
  have hindex : served.indexOf? a = some 0 := by
    simp [LinkedMap.indexOf?, LinkedMap.keys, hentries₁, List.idxOf?, List.findIdx?_cons]
  have hdisconnect : (PendingOutbound.onDisconnected ⟨served, some a⟩ c :
      Outcome (ReplicationError κ) (PendingOutbound κ μ)) = ok ⟨served.erase c, none⟩ := by
    simp [PendingOutbound.onDisconnected, Replication.onDisconnected, hindex, Ne.symm hca]
  have hentries₂ : (served.erase c).entries =
      (a, m₂ :: queue) :: (LinkedMap.modifyEntries rest a List.tail).filter (·.1 ≠ c) := by
    show served.entries.filter _ = _
    rw [hentries₁, List.filter_cons_of_pos (by simpa using Ne.symm hca)]
  refine ⟨⟨served, some a⟩, ⟨served.erase c, none⟩, ⟨(served.erase c).modify a List.tail, some a⟩,
    scheduleNextOutboundMessage_of_head hlast hentries rfl, hb₁, hdisconnect, ?_,
    scheduleNextOutboundMessage_of_head rfl hentries₂ rfl⟩
  rw [LinkedMap.get?_erase_of_ne served (Ne.symm hcb), hb₁]

/-- The queues after two messages for peer `0` and one for peer `1`. -/
def twoPeersQueued : PendingOutbound ℕ Unit :=
  ((default.enqueueMessage 0 ()).enqueueMessage 0 ()).enqueueMessage 1 ()

theorem schedule_serves_first_peer_again_after_disconnect_two_peers :
    twoPeersQueued.lastScheduled = none ∧
      twoPeersQueued.messages.entries = [(0, [(), ()]), (1, [()])] ∧
      twoPeersQueued.messages.get? 1 = some [()] ∧
      ∃ self₁ self₂ self₃,
        twoPeersQueued.scheduleNextOutboundMessage (fun _ => true) = ok (self₁, some (0, ())) ∧
        self₁.messages.get? 1 = some [()] ∧
        (self₁.onDisconnected 2 : Outcome (ReplicationError ℕ) (PendingOutbound ℕ Unit)) =
          ok self₂ ∧
        self₂.messages.get? 1 = some [()] ∧
        self₂.scheduleNextOutboundMessage (fun _ => true) = ok (self₃, some (0, ())) :=
  ⟨rfl, rfl, rfl, schedule_serves_first_peer_again_after_disconnect twoPeersQueued rfl rfl rfl
    (by decide) (by decide) (by decide)⟩

end PendingOutbound

end Replication
