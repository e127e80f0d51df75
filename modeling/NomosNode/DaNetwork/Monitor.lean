import NomosNode.Lib.Outcome
import NomosNode.Lib.Mealy
import Mathlib.Data.Finset.Basic

/-!
# Blocking misbehaving peers

`nomos-da/network/core/src/maintenance/monitor.rs`. The behaviour blocks a
malicious peer until a command unblocks it and an unhealthy one for
`redial_cooldown`, and `enforce` refuses every connection with a blocked peer.
The monitor is a parameter; instants are nanosecond counts carried by the
calls; `HashSet` and `HashMap` are a `Finset` and a function. `Unblock` clears
one of the two lists only, the malicious one first, so a peer blocked for both
reasons is still refused for the whole cooldown after the command answers that
it was removed.
-/

namespace Monitor

open Outcome

variable {κ M Ev Stats : Type} [DecidableEq κ]

inductive PeerStatus
  | malicious
  | unhealthy
  | healthy
  deriving DecidableEq, Repr

structure ConnectionMonitorOutput (κ : Type) where
  peerId : κ
  peerStatus : PeerStatus

/-- The methods of the `ConnectionMonitor` trait that the behaviour calls, on
the monitor's state `M`: `record_event`, at the instant the call reads, and
`stats`. -/
structure ConnectionMonitor (κ M Ev Stats : Type) where
  recordEvent : M → ℕ → Ev → M × Option (ConnectionMonitorOutput κ)
  stats : M → Stats

/-- `ConnectionDenied`, with its causes `Blocked` and `TemporarilyBlocked`. -/
inductive ConnectionDenied (κ : Type)
  | blocked (peer : κ)
  | temporarilyBlocked (peer : κ)
  deriving DecidableEq

inductive ConnectionMonitorCommand (κ : Type)
  | block (peer : κ)
  | unblock (peer : κ)
  | blacklistedPeers
  | stats
  deriving DecidableEq

/-- What a command sends back on its `oneshot` channel. -/
inductive CommandResponse (κ Stats : Type)
  | block (inserted : Bool)
  | unblock (removed : Bool)
  | blacklistedPeers (peers : Finset κ)
  | stats (stats : Stats)

structure ConnectionMonitorBehaviour (κ M : Type) where
  monitor : M
  maliciousPeers : Finset κ
  unhealthyPeers : κ → Option ℕ
  closeConnections : List κ
  redialCooldown : ℕ

namespace ConnectionMonitorBehaviour

def new (monitor : M) (redialCooldown : ℕ) : ConnectionMonitorBehaviour κ M :=
  ⟨monitor, ∅, fun _ => none, [], redialCooldown⟩

/-- `block_peer`: whether the peer was newly inserted; only then are its
connections closed. -/
def blockPeer (self : ConnectionMonitorBehaviour κ M) (peer : κ) :
    ConnectionMonitorBehaviour κ M × Bool :=
  if peer ∈ self.maliciousPeers then (self, false)
  else ({ self with
      maliciousPeers := insert peer self.maliciousPeers
      closeConnections := self.closeConnections ++ [peer] }, true)

/-- `temporarily_block_peer` at the instant `now`. -/
def temporarilyBlockPeer (self : ConnectionMonitorBehaviour κ M) (now : ℕ) (peer : κ) :
    ConnectionMonitorBehaviour κ M :=
  let blockedUntil := now + self.redialCooldown
  { self with
    unhealthyPeers := Function.update self.unhealthyPeers peer (some blockedUntil)
    closeConnections := self.closeConnections ++ [peer] }

/-- `unblock_peer`: the `||` looks at the unhealthy peers only when the peer
is not malicious. -/
def unblockPeer (self : ConnectionMonitorBehaviour κ M) (peer : κ) :
    ConnectionMonitorBehaviour κ M × Bool :=
  if peer ∈ self.maliciousPeers then
    ({ self with maliciousPeers := self.maliciousPeers.erase peer }, true)
  else
    ({ self with unhealthyPeers := Function.update self.unhealthyPeers peer none },
      (self.unhealthyPeers peer).isSome)

def recordEvent (self : ConnectionMonitorBehaviour κ M) (mon : ConnectionMonitor κ M Ev Stats)
    (now : ℕ) (event : Ev) : ConnectionMonitorBehaviour κ M :=
  let r := mon.recordEvent self.monitor now event
  let self := { self with monitor := r.1 }
  match r.2 with
  | some ⟨peerId, .malicious⟩ => (self.blockPeer peerId).1
  | some ⟨peerId, .unhealthy⟩ => self.temporarilyBlockPeer now peerId
  | some ⟨_, .healthy⟩ => self
  | none => self

/-- `enforce` at the instant `now`: forget the expired temporary blocks, then
refuse a peer that is blocked. -/
def enforce (self : ConnectionMonitorBehaviour κ M) (now : ℕ) (peer : κ) :
    ConnectionMonitorBehaviour κ M × Outcome (ConnectionDenied κ) Unit :=
  let self := { self with unhealthyPeers := fun p => (self.unhealthyPeers p).filter (now ≤ ·) }
  if peer ∈ self.maliciousPeers then (self, err (.blocked peer))
  else if (self.unhealthyPeers peer).isSome then (self, err (.temporarilyBlocked peer))
  else (self, ok ())

def handleEstablishedInboundConnection (self : ConnectionMonitorBehaviour κ M) (now : ℕ)
    (peer : κ) : ConnectionMonitorBehaviour κ M × Outcome (ConnectionDenied κ) Unit :=
  self.enforce now peer

/-- `handle_pending_outbound_connection`: a dial without a peer id passes. -/
def handlePendingOutboundConnection (self : ConnectionMonitorBehaviour κ M) (now : ℕ)
    (peer : Option κ) : ConnectionMonitorBehaviour κ M × Outcome (ConnectionDenied κ) Unit :=
  match peer with
  | some peer => self.enforce now peer
  | none => (self, ok ())

def handleEstablishedOutboundConnection (self : ConnectionMonitorBehaviour κ M) (now : ℕ)
    (peer : κ) : ConnectionMonitorBehaviour κ M × Outcome (ConnectionDenied κ) Unit :=
  self.enforce now peer

/-- The command branch of `poll`. -/
def handleCommand (self : ConnectionMonitorBehaviour κ M) (mon : ConnectionMonitor κ M Ev Stats) :
    ConnectionMonitorCommand κ → ConnectionMonitorBehaviour κ M × CommandResponse κ Stats
  | .block peer => ((self.blockPeer peer).1, .block (self.blockPeer peer).2)
  | .unblock peer => ((self.unblockPeer peer).1, .unblock (self.unblockPeer peer).2)
  | .blacklistedPeers => (self, .blacklistedPeers self.maliciousPeers)
  | .stats => (self, .stats (mon.stats self.monitor))

/-- `poll`: the command received, if any, then the next peer whose
connections to close. -/
def poll (self : ConnectionMonitorBehaviour κ M) (mon : ConnectionMonitor κ M Ev Stats)
    (command : Option (ConnectionMonitorCommand κ)) :
    ConnectionMonitorBehaviour κ M × Option (CommandResponse κ Stats) × Option κ :=
  let r : ConnectionMonitorBehaviour κ M × Option (CommandResponse κ Stats) :=
    match command with
    | some command => ((self.handleCommand mon command).1, some (self.handleCommand mon command).2)
    | none => (self, none)
  match r.1.closeConnections with
  | peer :: rest => ({ r.1 with closeConnections := rest }, r.2, some peer)
  | [] => (r.1, r.2, none)

/-! ## Blocks -/

/-- The peer is refused until `blockedUntil` at least: it is on the malicious
list, or temporarily blocked until then or later. -/
def BlockedUntil (self : ConnectionMonitorBehaviour κ M) (peer : κ) (blockedUntil : ℕ) : Prop :=
  peer ∈ self.maliciousPeers ∨ ∃ u, blockedUntil ≤ u ∧ self.unhealthyPeers peer = some u

variable {self : ConnectionMonitorBehaviour κ M} {peer : κ} {blockedUntil now : ℕ}

/-- What `enforce` keeps: the temporary blocks that last until `now` or later. -/
theorem enforce_fst (self : ConnectionMonitorBehaviour κ M) (now : ℕ) (peer : κ) :
    (self.enforce now peer).1 =
      { self with unhealthyPeers := fun p => (self.unhealthyPeers p).filter (now ≤ ·) } := by
  dsimp only [enforce]
  split_ifs <;> rfl

theorem enforce_snd (self : ConnectionMonitorBehaviour κ M) (now : ℕ) (peer : κ) :
    (self.enforce now peer).2 =
      if peer ∈ self.maliciousPeers then err (.blocked peer)
      else if ((self.unhealthyPeers peer).filter (now ≤ ·)).isSome then
        err (.temporarilyBlocked peer)
      else ok () := by
  dsimp only [enforce]
  split_ifs <;> rfl

theorem mem_blockPeer (q : κ) (h : peer ∈ self.maliciousPeers) :
    peer ∈ (self.blockPeer q).1.maliciousPeers := by
  unfold blockPeer
  split_ifs
  · exact h
  · exact Finset.mem_insert_of_mem h

theorem unhealthyPeers_blockPeer (self : ConnectionMonitorBehaviour κ M) (q : κ) :
    (self.blockPeer q).1.unhealthyPeers = self.unhealthyPeers := by
  unfold blockPeer
  split_ifs <;> rfl

theorem mem_unblockPeer {q : κ} (hq : q ≠ peer) (h : peer ∈ self.maliciousPeers) :
    peer ∈ (self.unblockPeer q).1.maliciousPeers := by
  unfold unblockPeer
  split_ifs
  · exact Finset.mem_erase.mpr ⟨Ne.symm hq, h⟩
  · exact h

theorem mem_recordEvent (mon : ConnectionMonitor κ M Ev Stats) (now : ℕ) (event : Ev)
    (h : peer ∈ self.maliciousPeers) : peer ∈ (self.recordEvent mon now event).maliciousPeers := by
  have h' : peer ∈ ({ self with monitor := (mon.recordEvent self.monitor now event).1 } :
      ConnectionMonitorBehaviour κ M).maliciousPeers := h
  dsimp only [recordEvent]
  split
  · exact mem_blockPeer _ h'
  all_goals exact h

theorem BlockedUntil.blockPeer (h : self.BlockedUntil peer blockedUntil) (q : κ) :
    (self.blockPeer q).1.BlockedUntil peer blockedUntil := by
  rcases h with hmal | hu
  · exact Or.inl (mem_blockPeer q hmal)
  · exact Or.inr (by rw [unhealthyPeers_blockPeer]; exact hu)

theorem BlockedUntil.unblockPeer (h : self.BlockedUntil peer blockedUntil) {q : κ}
    (hq : q ≠ peer) : (self.unblockPeer q).1.BlockedUntil peer blockedUntil := by
  rcases h with hmal | ⟨u, hu, hsome⟩
  · exact Or.inl (mem_unblockPeer hq hmal)
  · refine Or.inr ⟨u, hu, ?_⟩
    unfold ConnectionMonitorBehaviour.unblockPeer
    split_ifs
    · exact hsome
    · exact (Function.update_of_ne (Ne.symm hq) _ _).trans hsome

/-- A temporary block stamped no earlier than `blockedUntil - redial_cooldown`
lasts until `blockedUntil` at least. -/
theorem BlockedUntil.temporarilyBlockPeer (h : self.BlockedUntil peer blockedUntil)
    (hnow : blockedUntil ≤ now + self.redialCooldown) (q : κ) :
    (self.temporarilyBlockPeer now q).BlockedUntil peer blockedUntil := by
  by_cases hq : q = peer
  · subst hq
    exact Or.inr ⟨now + self.redialCooldown, hnow, Function.update_self ..⟩
  · rcases h with hmal | ⟨u, hu, hsome⟩
    · exact Or.inl hmal
    · exact Or.inr ⟨u, hu, (Function.update_of_ne (Ne.symm hq) _ _).trans hsome⟩

theorem BlockedUntil.recordEvent (h : self.BlockedUntil peer blockedUntil)
    (mon : ConnectionMonitor κ M Ev Stats) (event : Ev)
    (hnow : blockedUntil ≤ now + self.redialCooldown) :
    (self.recordEvent mon now event).BlockedUntil peer blockedUntil := by
  have h' : ({ self with monitor := (mon.recordEvent self.monitor now event).1 } :
      ConnectionMonitorBehaviour κ M).BlockedUntil peer blockedUntil := h
  dsimp only [ConnectionMonitorBehaviour.recordEvent]
  split
  · exact h'.blockPeer _
  · exact h'.temporarilyBlockPeer hnow _
  all_goals exact h

/-- `enforce` keeps a block that lasts until `now` or later, and refuses the
blocked peer: as `Blocked` when it is malicious. -/
theorem BlockedUntil.enforce (h : self.BlockedUntil peer blockedUntil) (hnow : now ≤ blockedUntil)
    (q : κ) :
    (self.enforce now q).1.BlockedUntil peer blockedUntil ∧
      (q = peer → (self.enforce now q).2 = err (.blocked peer) ∨
        (peer ∉ self.maliciousPeers ∧ (self.enforce now q).2 = err (.temporarilyBlocked peer))) := by
  rcases h with hmal | ⟨u, hu, hsome⟩
  · refine ⟨Or.inl (by rw [enforce_fst]; exact hmal), fun hq => Or.inl ?_⟩
    rw [enforce_snd, hq, if_pos hmal]
  · -- the entry outlives `now`, so the retain keeps it
    have hkept : (self.unhealthyPeers peer).filter (now ≤ ·) = some u := by
      rw [hsome, Option.filter_some, if_pos (decide_eq_true (hnow.trans hu))]
    refine ⟨Or.inr ⟨u, hu, by rw [enforce_fst]; exact hkept⟩, fun hq => ?_⟩
    subst hq
    rw [enforce_snd]
    by_cases hmal : q ∈ self.maliciousPeers
    · exact Or.inl (if_pos hmal)
    · rw [if_neg hmal, hkept, Option.isSome_some, if_pos rfl]
      exact Or.inr ⟨hmal, rfl⟩

theorem mem_handleCommand (mon : ConnectionMonitor κ M Ev Stats) {c : ConnectionMonitorCommand κ}
    (hc : c ≠ .unblock peer) (h : peer ∈ self.maliciousPeers) :
    peer ∈ (self.handleCommand mon c).1.maliciousPeers := by
  cases c with
  | block q => exact mem_blockPeer q h
  | unblock q => exact mem_unblockPeer (fun hq => hc (hq ▸ rfl)) h
  | blacklistedPeers => exact h
  | stats => exact h

theorem BlockedUntil.handleCommand (h : self.BlockedUntil peer blockedUntil)
    (mon : ConnectionMonitor κ M Ev Stats) {c : ConnectionMonitorCommand κ}
    (hc : c ≠ .unblock peer) : (self.handleCommand mon c).1.BlockedUntil peer blockedUntil := by
  cases c with
  | block q => exact h.blockPeer q
  | unblock q => exact h.unblockPeer fun hq => hc (hq ▸ rfl)
  | blacklistedPeers => exact h
  | stats => exact h

/-- `poll` hands the command to `handleCommand`, then pops a close request,
which changes the queue only. -/
theorem poll_fst (self : ConnectionMonitorBehaviour κ M) (mon : ConnectionMonitor κ M Ev Stats)
    (command : Option (ConnectionMonitorCommand κ)) :
    ∃ queue, (self.poll mon command).1 =
      { command.elim self (fun c => (self.handleCommand mon c).1) with closeConnections := queue } := by
  cases command <;> (dsimp only [poll]; split) <;> exact ⟨_, rfl⟩

theorem poll_response (self : ConnectionMonitorBehaviour κ M)
    (mon : ConnectionMonitor κ M Ev Stats) (command : Option (ConnectionMonitorCommand κ)) :
    (self.poll mon command).2.1 = command.map fun c => (self.handleCommand mon c).2 := by
  cases command <;> (dsimp only [poll]; split) <;> rfl

theorem mem_poll (mon : ConnectionMonitor κ M Ev Stats) {command : Option (ConnectionMonitorCommand κ)}
    (hc : command ≠ some (.unblock peer)) (h : peer ∈ self.maliciousPeers) :
    peer ∈ (self.poll mon command).1.maliciousPeers := by
  obtain ⟨queue, hq⟩ := poll_fst self mon command
  rw [hq]
  cases command with
  | none => exact h
  | some c => exact mem_handleCommand mon (fun hc' => hc (hc' ▸ rfl)) h

theorem BlockedUntil.poll (h : self.BlockedUntil peer blockedUntil)
    (mon : ConnectionMonitor κ M Ev Stats) {command : Option (ConnectionMonitorCommand κ)}
    (hc : command ≠ some (.unblock peer)) : (self.poll mon command).1.BlockedUntil peer blockedUntil := by
  obtain ⟨queue, hq⟩ := poll_fst self mon command
  rw [hq]
  cases command with
  | none => exact h
  | some c => exact h.handleCommand mon fun hc' => hc (hc' ▸ rfl)

/-! ## The cooldown -/

theorem redialCooldown_blockPeer (self : ConnectionMonitorBehaviour κ M) (q : κ) :
    (self.blockPeer q).1.redialCooldown = self.redialCooldown := by
  unfold blockPeer
  split_ifs <;> rfl

theorem redialCooldown_unblockPeer (self : ConnectionMonitorBehaviour κ M) (q : κ) :
    (self.unblockPeer q).1.redialCooldown = self.redialCooldown := by
  unfold unblockPeer
  split_ifs <;> rfl

theorem redialCooldown_recordEvent (self : ConnectionMonitorBehaviour κ M)
    (mon : ConnectionMonitor κ M Ev Stats) (now : ℕ) (event : Ev) :
    (self.recordEvent mon now event).redialCooldown = self.redialCooldown := by
  dsimp only [recordEvent]
  split
  · exact redialCooldown_blockPeer _ _
  all_goals rfl

theorem redialCooldown_poll (self : ConnectionMonitorBehaviour κ M)
    (mon : ConnectionMonitor κ M Ev Stats) (command : Option (ConnectionMonitorCommand κ)) :
    (self.poll mon command).1.redialCooldown = self.redialCooldown := by
  obtain ⟨queue, hq⟩ := poll_fst self mon command
  rw [hq]
  rcases command with _ | (q | q | _ | _)
  · rfl
  · exact redialCooldown_blockPeer self q
  · exact redialCooldown_unblockPeer self q
  · rfl
  · rfl

end ConnectionMonitorBehaviour

/-! ## Runs -/

/-- A call of the swarm into the behaviour, with the instant at which it
reads the clock. -/
inductive Event (κ Ev : Type)
  | recordEvent (now : ℕ) (event : Ev)
  | inboundConnection (now : ℕ) (peer : κ)
  | pendingOutboundConnection (now : ℕ) (peer : Option κ)
  | outboundConnection (now : ℕ) (peer : κ)
  | poll (command : Option (ConnectionMonitorCommand κ))

def Event.instant : Event κ Ev → Option ℕ
  | .recordEvent now _ => some now
  | .inboundConnection now _ => some now
  | .pendingOutboundConnection now _ => some now
  | .outboundConnection now _ => some now
  | .poll _ => none

/-- What the call returns to the swarm. -/
inductive Output (κ Stats : Type)
  | recorded
  | connection (peer : Option κ) (result : Outcome (ConnectionDenied κ) Unit)
  | polled (response : Option (CommandResponse κ Stats)) (close : Option κ)

open ConnectionMonitorBehaviour in
def step (mon : ConnectionMonitor κ M Ev Stats) (self : ConnectionMonitorBehaviour κ M) :
    Event κ Ev → ConnectionMonitorBehaviour κ M × Output κ Stats
  | .recordEvent now event => (self.recordEvent mon now event, .recorded)
  | .inboundConnection now peer =>
    ((self.handleEstablishedInboundConnection now peer).1,
      .connection (some peer) (self.handleEstablishedInboundConnection now peer).2)
  | .pendingOutboundConnection now peer =>
    ((self.handlePendingOutboundConnection now peer).1,
      .connection peer (self.handlePendingOutboundConnection now peer).2)
  | .outboundConnection now peer =>
    ((self.handleEstablishedOutboundConnection now peer).1,
      .connection (some peer) (self.handleEstablishedOutboundConnection now peer).2)
  | .poll command =>
    ((self.poll mon command).1, .polled (self.poll mon command).2.1 (self.poll mon command).2.2)

def run (mon : ConnectionMonitor κ M Ev Stats) (self : ConnectionMonitorBehaviour κ M)
    (events : List (Event κ Ev)) : ConnectionMonitorBehaviour κ M × List (Output κ Stats) :=
  Mealy.run (step mon) self events

/-- The output refuses every connection with `peer` that it reports. -/
def Output.Refuses (peer : κ) : Output κ Stats → Prop
  | .connection (some q) result =>
    q = peer → result = err (.blocked peer) ∨ result = err (.temporarilyBlocked peer)
  | _ => True

/-- The output refuses every connection with `peer` that it reports, as
`Blocked`. -/
def Output.RefusesAsBlocked (peer : κ) : Output κ Stats → Prop
  | .connection (some q) result => q = peer → result = err (.blocked peer)
  | _ => True

open ConnectionMonitorBehaviour

variable {self : ConnectionMonitorBehaviour κ M} {peer : κ} {blockedUntil : ℕ}

theorem redialCooldown_step (mon : ConnectionMonitor κ M Ev Stats)
    (self : ConnectionMonitorBehaviour κ M) (e : Event κ Ev) :
    (step mon self e).1.redialCooldown = self.redialCooldown := by
  cases e with
  | recordEvent now event => exact redialCooldown_recordEvent self mon now event
  | inboundConnection now q => simp [step, handleEstablishedInboundConnection, enforce_fst]
  | pendingOutboundConnection now q =>
    cases q <;> simp [step, handlePendingOutboundConnection, enforce_fst]
  | outboundConnection now q => simp [step, handleEstablishedOutboundConnection, enforce_fst]
  | poll command => exact redialCooldown_poll self mon command

/-- A malicious peer stays malicious at every call but a command that unblocks
it, and every connection with it is refused as `Blocked`. -/
theorem mem_step (hmal : peer ∈ self.maliciousPeers) (mon : ConnectionMonitor κ M Ev Stats)
    {e : Event κ Ev} (he : e ≠ .poll (some (.unblock peer))) :
    peer ∈ (step mon self e).1.maliciousPeers ∧ (step mon self e).2.RefusesAsBlocked peer := by
  have henforce : ∀ now q, peer ∈ (self.enforce now q).1.maliciousPeers ∧
      (q = peer → (self.enforce now q).2 = err (.blocked peer)) := fun now q =>
    ⟨by rw [enforce_fst]; exact hmal, fun hq => by rw [enforce_snd, hq, if_pos hmal]⟩
  cases e with
  | recordEvent now event => exact ⟨mem_recordEvent mon now event hmal, trivial⟩
  | inboundConnection now q => exact henforce now q
  | pendingOutboundConnection now q =>
    cases q with
    | none => exact ⟨hmal, trivial⟩
    | some q => exact henforce now q
  | outboundConnection now q => exact henforce now q
  | poll command => exact ⟨mem_poll mon (fun hc => he (hc ▸ rfl)) hmal, trivial⟩

/-- A block until `blockedUntil` survives every call made in the window from
`blockedUntil - redial_cooldown` to `blockedUntil` but a command that unblocks
the peer, and every connection with the peer is refused. -/
theorem ConnectionMonitorBehaviour.BlockedUntil.step (h : self.BlockedUntil peer blockedUntil)
    (mon : ConnectionMonitor κ M Ev Stats) {e : Event κ Ev}
    (he : e ≠ .poll (some (.unblock peer)))
    (htime : ∀ now ∈ e.instant, blockedUntil ≤ now + self.redialCooldown ∧ now ≤ blockedUntil) :
    (step mon self e).1.BlockedUntil peer blockedUntil ∧ (step mon self e).2.Refuses peer := by
  have henforce : ∀ now q, now ≤ blockedUntil →
      (self.enforce now q).1.BlockedUntil peer blockedUntil ∧
        (q = peer → (self.enforce now q).2 = err (.blocked peer) ∨
          (self.enforce now q).2 = err (.temporarilyBlocked peer)) := fun now q hnow => by
    obtain ⟨hkeep, hrefuse⟩ := h.enforce hnow q
    exact ⟨hkeep, fun hq => (hrefuse hq).imp id And.right⟩
  cases e with
  | recordEvent now event => exact ⟨h.recordEvent mon event (htime now rfl).1, trivial⟩
  | inboundConnection now q => exact henforce now q (htime now rfl).2
  | pendingOutboundConnection now q =>
    cases q with
    | none => exact ⟨h, trivial⟩
    | some q => exact henforce now q (htime now rfl).2
  | outboundConnection now q => exact henforce now q (htime now rfl).2
  | poll command => exact ⟨h.poll mon fun hc => he (hc ▸ rfl), trivial⟩

/-- A block until `blockedUntil` lasts over every run without a command that
unblocks the peer and with its calls in the window from `blockedUntil -
redial_cooldown` to `blockedUntil`, and every connection with the peer is
refused. -/
theorem ConnectionMonitorBehaviour.BlockedUntil.run (h : self.BlockedUntil peer blockedUntil)
    (mon : ConnectionMonitor κ M Ev Stats) (events : List (Event κ Ev))
    (hunblock : ∀ e ∈ events, e ≠ .poll (some (.unblock peer)))
    (htime : ∀ e ∈ events, ∀ now ∈ e.instant,
      blockedUntil ≤ now + self.redialCooldown ∧ now ≤ blockedUntil) :
    (run mon self events).1.BlockedUntil peer blockedUntil ∧
      ∀ o ∈ (run mon self events).2, o.Refuses peer := by
  obtain ⟨⟨hend, -⟩, houts⟩ := Mealy.run_invariant
    (fun s => s.BlockedUntil peer blockedUntil ∧ s.redialCooldown = self.redialCooldown)
    (fun e => e ≠ .poll (some (.unblock peer)) ∧ ∀ now ∈ e.instant,
      blockedUntil ≤ now + self.redialCooldown ∧ now ≤ blockedUntil)
    (Output.Refuses peer)
    (fun s e hs he => by
      obtain ⟨hblocked, hcd⟩ := hs
      obtain ⟨he, ht⟩ := he
      obtain ⟨hkeep, hrefuse⟩ := hblocked.step mon he (by rw [hcd]; exact ht)
      exact ⟨⟨hkeep, (redialCooldown_step mon s e).trans hcd⟩, hrefuse⟩)
    events self ⟨h, rfl⟩ fun e he => ⟨hunblock e he, htime e he⟩
  exact ⟨hend, houts⟩

/-- Along every run without a command that unblocks it, a malicious peer stays
on the malicious list and every connection with it is refused as `Blocked`;
and a peer blocked until `blockedUntil` stays blocked, with every connection
with it refused, while the calls happen between `blockedUntil -
redial_cooldown` and `blockedUntil`, such as the whole cooldown after an
unhealthy report. -/
theorem run_refuses_blocked_peers (mon : ConnectionMonitor κ M Ev Stats)
    (self : ConnectionMonitorBehaviour κ M) (peer : κ) (events : List (Event κ Ev))
    (hunblock : ∀ e ∈ events, e ≠ .poll (some (.unblock peer))) :
    (peer ∈ self.maliciousPeers →
      peer ∈ (run mon self events).1.maliciousPeers ∧
        ∀ o ∈ (run mon self events).2, o.RefusesAsBlocked peer) ∧
    ∀ blockedUntil, self.BlockedUntil peer blockedUntil →
      (∀ e ∈ events, ∀ now ∈ e.instant,
        blockedUntil ≤ now + self.redialCooldown ∧ now ≤ blockedUntil) →
      (run mon self events).1.BlockedUntil peer blockedUntil ∧
        ∀ o ∈ (run mon self events).2, o.Refuses peer := by
  refine ⟨fun hmal => Mealy.run_invariant (fun s => peer ∈ s.maliciousPeers)
    (· ≠ .poll (some (.unblock peer))) (Output.RefusesAsBlocked peer)
    (fun _ _ hs he => mem_step hs mon he) events self hmal hunblock,
    fun blockedUntil hblocked htime => hblocked.run mon events hunblock htime⟩

/-- A monitor that never reports a peer. -/
def silentMonitor : ConnectionMonitor ℕ Unit Unit Unit := ⟨fun m _ _ => (m, none), fun _ => ()⟩

/-- Peer 0 blocked by a command, with a cooldown of 10. -/
def peerZeroBlocked : ConnectionMonitorBehaviour ℕ Unit :=
  ((ConnectionMonitorBehaviour.new () 10).blockPeer 0).1

/-- A connection from peer 0 at instant 5, then a poll. -/
def connectThenPoll : List (Event ℕ Unit) := [.inboundConnection 5 0, .poll none]

theorem run_refuses_blocked_peers_after_block :
    (∀ e ∈ connectThenPoll, e ≠ .poll (some (.unblock 0))) ∧
      (0 ∈ peerZeroBlocked.maliciousPeers →
        0 ∈ (run silentMonitor peerZeroBlocked connectThenPoll).1.maliciousPeers ∧
          ∀ o ∈ (run silentMonitor peerZeroBlocked connectThenPoll).2, o.RefusesAsBlocked 0) ∧
      ∀ blockedUntil, peerZeroBlocked.BlockedUntil 0 blockedUntil →
        (∀ e ∈ connectThenPoll, ∀ now ∈ e.instant,
          blockedUntil ≤ now + peerZeroBlocked.redialCooldown ∧ now ≤ blockedUntil) →
        (run silentMonitor peerZeroBlocked connectThenPoll).1.BlockedUntil 0 blockedUntil ∧
          ∀ o ∈ (run silentMonitor peerZeroBlocked connectThenPoll).2, o.Refuses 0 :=
  have hunblock : ∀ e ∈ connectThenPoll, e ≠ .poll (some (.unblock 0)) := by
    simp [connectThenPoll]
  ⟨hunblock, run_refuses_blocked_peers silentMonitor peerZeroBlocked 0 connectThenPoll hunblock⟩

/-- `Unblock` on a malicious peer answers that it was removed and changes the
malicious list only, besides the close queue: the `||` stops there. -/
theorem poll_unblock_of_malicious (mon : ConnectionMonitor κ M Ev Stats)
    (self : ConnectionMonitorBehaviour κ M) (peer : κ) (hmal : peer ∈ self.maliciousPeers) :
    (self.poll mon (some (.unblock peer))).2.1 = some (.unblock true) ∧
      ∃ queue, (self.poll mon (some (.unblock peer))).1 =
        { self with maliciousPeers := self.maliciousPeers.erase peer, closeConnections := queue } := by
  have hunblock : self.unblockPeer peer =
      ({ self with maliciousPeers := self.maliciousPeers.erase peer }, true) := by
    rw [unblockPeer, if_pos hmal]
  obtain ⟨queue, hpoll⟩ := poll_fst self mon (some (.unblock peer))
  refine ⟨?_, queue, ?_⟩
  · rw [poll_response]
    simp only [Option.map_some, handleCommand, hunblock]
  · rw [hpoll]
    simp only [Option.elim, handleCommand, hunblock]

/-- A run that starts with `Unblock` of a peer both malicious and temporarily
blocked until `blockedUntil`, with no other unblock of it and its calls in the
window from `blockedUntil - redial_cooldown` to `blockedUntil`: the command
answers that the peer was removed, and the peer leaves the malicious list, yet
every connection with it in the run is refused and it is still blocked at the
end. -/
theorem run_unblock_keeps_temporary_block (mon : ConnectionMonitor κ M Ev Stats)
    (self : ConnectionMonitorBehaviour κ M) (peer : κ) {blockedUntil : ℕ} (events : List (Event κ Ev))
    (hmal : peer ∈ self.maliciousPeers) (hunhealthy : self.unhealthyPeers peer = some blockedUntil)
    (hunblock : ∀ e ∈ events, e ≠ .poll (some (.unblock peer)))
    (htime : ∀ e ∈ events, ∀ now ∈ e.instant,
      blockedUntil ≤ now + self.redialCooldown ∧ now ≤ blockedUntil) :
    (∃ close, (run mon self (.poll (some (.unblock peer)) :: events)).2.head? =
        some (.polled (some (.unblock true)) close)) ∧
      peer ∉ (self.poll mon (some (.unblock peer))).1.maliciousPeers ∧
      (run mon self (.poll (some (.unblock peer)) :: events)).1.BlockedUntil peer blockedUntil ∧
      ∀ o ∈ (run mon self (.poll (some (.unblock peer)) :: events)).2, o.Refuses peer := by
  obtain ⟨hanswer, queue, hstate⟩ := poll_unblock_of_malicious mon self peer hmal
  have hblocked : (self.poll mon (some (.unblock peer))).1.BlockedUntil peer blockedUntil :=
    Or.inr ⟨blockedUntil, le_rfl, by rw [hstate]; exact hunhealthy⟩
  obtain ⟨hend, houts⟩ := hblocked.run mon events hunblock
    (by rw [redialCooldown_poll]; exact htime)
  have hrun : run mon self (.poll (some (.unblock peer)) :: events) =
      ((run mon (self.poll mon (some (.unblock peer))).1 events).1,
        .polled (some (.unblock true)) (self.poll mon (some (.unblock peer))).2.2 ::
          (run mon (self.poll mon (some (.unblock peer))).1 events).2) := by
    simp only [run, Mealy.run_cons, step, hanswer]
  rw [hrun]
  refine ⟨⟨_, rfl⟩, by rw [hstate]; exact Finset.notMem_erase peer _, hend, ?_⟩
  rintro o (_ | ⟨_, ho⟩)
  · trivial
  · exact houts o ho

/-- Peer 0 reported unhealthy at instant 0 with a cooldown of 10, then blocked
by a command. -/
def peerZeroReportedThenBlocked : ConnectionMonitorBehaviour ℕ Unit :=
  (((ConnectionMonitorBehaviour.new () 10).temporarilyBlockPeer 0 0).blockPeer 0).1

/-- Connections with peer 0 at instants 5 and 10, with a poll between them. -/
def connectUntilExpiry : List (Event ℕ Unit) :=
  [.inboundConnection 5 0, .poll none, .outboundConnection 10 0]

theorem run_unblock_keeps_temporary_block_after_report :
    0 ∈ peerZeroReportedThenBlocked.maliciousPeers ∧
      peerZeroReportedThenBlocked.unhealthyPeers 0 = some 10 ∧
      (∀ e ∈ connectUntilExpiry, e ≠ .poll (some (.unblock 0))) ∧
      (∀ e ∈ connectUntilExpiry, ∀ now ∈ e.instant,
        10 ≤ now + peerZeroReportedThenBlocked.redialCooldown ∧ now ≤ 10) ∧
      (∃ close, (run silentMonitor peerZeroReportedThenBlocked
          (.poll (some (.unblock 0)) :: connectUntilExpiry)).2.head? =
        some (.polled (some (.unblock true)) close)) ∧
      0 ∉ (peerZeroReportedThenBlocked.poll silentMonitor (some (.unblock 0))).1.maliciousPeers ∧
      (run silentMonitor peerZeroReportedThenBlocked
          (.poll (some (.unblock 0)) :: connectUntilExpiry)).1.BlockedUntil 0 10 ∧
      ∀ o ∈ (run silentMonitor peerZeroReportedThenBlocked
          (.poll (some (.unblock 0)) :: connectUntilExpiry)).2, o.Refuses 0 := by
  have hmal : 0 ∈ peerZeroReportedThenBlocked.maliciousPeers := by decide
  have hunhealthy : peerZeroReportedThenBlocked.unhealthyPeers 0 = some 10 := by decide
  have hunblock : ∀ e ∈ connectUntilExpiry, e ≠ .poll (some (.unblock 0)) := by
    simp [connectUntilExpiry]
  have htime : ∀ e ∈ connectUntilExpiry, ∀ now ∈ e.instant,
      10 ≤ now + peerZeroReportedThenBlocked.redialCooldown ∧ now ≤ 10 := by
    decide
  exact ⟨hmal, hunhealthy, hunblock, htime, run_unblock_keeps_temporary_block silentMonitor _ 0 _
    hmal hunhealthy hunblock htime⟩

end Monitor
