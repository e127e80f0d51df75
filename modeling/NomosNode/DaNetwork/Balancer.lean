import NomosNode.Lib.IterOrder
import Mathlib.Data.Finset.Card
import Mathlib.Logic.Function.Basic

/-!
# The connection balancer of the DA network

`nomos-da/network/core/src/maintenance/balancer.rs` and
`swarm/common/balancer.rs`: the balancer keeps the set of connected peers and,
per subnetwork, counts of inbound and outbound connections, and on its interval
dials unconnected members of subnetworks that miss outbound connections. The
counts are a map whose absent entries read as zero, a peer's subnetworks are
visited in an `IterOrder`, and the open connections are a ghost changed by the
same swarm events. The bookkeeping does not follow them: a dialled connection
closes as an inbound one, and the first of two connections of a peer to close
takes the peer out of the set.
-/

namespace DaBalancer

variable {α : Type} [DecidableEq α]

/-- `SubnetworkStats`. -/
structure SubnetworkStats where
  inbound : ℕ
  outbound : ℕ
  deriving DecidableEq, Repr

/-- The counts after adding to them through `isize`, clamped at zero. -/
def SubnetworkStats.add (stats : SubnetworkStats) (inbound outbound : ℤ) : SubnetworkStats :=
  ⟨((stats.inbound : ℤ) + inbound).toNat, ((stats.outbound : ℤ) + outbound).toNat⟩

/-- `ConnectionEvent`. -/
inductive ConnectionEvent (α : Type) where
  | openInbound (peer : α)
  | openOutbound (peer : α)
  | closeInbound (peer : α)
  | closeOutbound (peer : α)

/-- `DAConnectionBalancer`, with the two functions of its membership handler
that it reads. -/
structure DAConnectionBalancer (α : Type) where
  localPeerId : α
  membership : α → Finset UInt16
  membersOf : UInt16 → Finset α
  subnetworkStats : UInt16 → SubnetworkStats
  connectedPeers : Finset α

namespace DAConnectionBalancer

/-- `DAConnectionBalancer::new`: no stats and no connected peers. -/
def new (localPeerId : α) (membership : α → Finset UInt16) (membersOf : UInt16 → Finset α) :
    DAConnectionBalancer α :=
  ⟨localPeerId, membership, membersOf, fun _ => ⟨0, 0⟩, ∅⟩

/-- `update_subnetwork_stats`: the subnetwork's counts, an absent entry as zero,
with the two amounts added. -/
def updateSubnetworkStats (self : DAConnectionBalancer α) (subnetworkId : UInt16)
    (inbound outbound : ℤ) : DAConnectionBalancer α :=
  { self with
    subnetworkStats := Function.update self.subnetworkStats subnetworkId
      ((self.subnetworkStats subnetworkId).add inbound outbound) }

/-- The loop of `record_event` over the subnetworks of a peer. -/
def updatePeerSubnetworks (o : IterOrder UInt16) (self : DAConnectionBalancer α) (peer : α)
    (inbound outbound : ℤ) : DAConnectionBalancer α :=
  (o.visit (self.membership peer)).foldl
    (fun balancer subnetwork => balancer.updateSubnetworkStats subnetwork inbound outbound) self

/-- `record_event`. -/
def recordEvent (o : IterOrder UInt16) (self : DAConnectionBalancer α) :
    ConnectionEvent α → DAConnectionBalancer α
  | .openInbound peer =>
    updatePeerSubnetworks o { self with connectedPeers := insert peer self.connectedPeers } peer 1 0
  | .openOutbound peer =>
    updatePeerSubnetworks o { self with connectedPeers := insert peer self.connectedPeers } peer 0 1
  | .closeInbound peer =>
    updatePeerSubnetworks o { self with connectedPeers := self.connectedPeers.erase peer } peer (-1) 0
  | .closeOutbound peer =>
    updatePeerSubnetworks o { self with connectedPeers := self.connectedPeers.erase peer } peer 0 (-1)

/-- The candidates of `select_missing_peers`: the members of the subnetwork that
are neither connected nor the local peer. -/
def selectMissingCandidates (self : DAConnectionBalancer α) (subnetworkId : UInt16) : Finset α :=
  (self.membersOf subnetworkId).filter fun peer => peer ∉ self.connectedPeers ∧ peer ≠ self.localPeerId

end DAConnectionBalancer

/-- `choose_multiple`: `amount` distinct candidates drawn at random, all of them
when there are no more. -/
def ChooseMultiple (candidates : Finset α) (amount : ℕ) (chosen : Finset α) : Prop :=
  chosen ⊆ candidates ∧ chosen.card = min amount candidates.card

/-- The endpoint of a connection: we dialled it, or we listened for it. -/
inductive ConnectedPoint where
  | dialer
  | listener
  deriving DecidableEq, Repr

/-- The swarm's events that the behaviour hands to the balancer. -/
inductive SwarmEvent (α : Type) where
  | establishedInbound (peer : α)
  | establishedOutbound (peer : α)
  | connectionClosed (peer : α) (endpoint : ConnectedPoint)

/-- The balancer event the behaviour records for a swarm event: a closed
connection we dialled is recorded as `CloseInbound`, one we listened for as
`CloseOutbound`. -/
def toConnectionEvent : SwarmEvent α → ConnectionEvent α
  | .establishedInbound peer => .openInbound peer
  | .establishedOutbound peer => .openOutbound peer
  | .connectionClosed peer .dialer => .closeInbound peer
  | .connectionClosed peer .listener => .closeOutbound peer

/-- `ConnectionBalancerBehaviour` on a run of swarm events. -/
def runBehaviour (o : IterOrder UInt16) (balancer : DAConnectionBalancer α)
    (events : List (SwarmEvent α)) : DAConnectionBalancer α :=
  events.foldl (fun balancer event => balancer.recordEvent o (toConnectionEvent event)) balancer

/-- The ghost: the connections open after a swarm event. An inbound connection
has the listener's endpoint and an outbound one the dialer's; a closing removes
one connection of the peer with that endpoint. -/
def openConnections (conns : List (α × ConnectedPoint)) : SwarmEvent α → List (α × ConnectedPoint)
  | .establishedInbound peer => (peer, .listener) :: conns
  | .establishedOutbound peer => (peer, .dialer) :: conns
  | .connectionClosed peer endpoint => conns.erase (peer, endpoint)

def runOpenConnections (conns : List (α × ConnectedPoint)) (events : List (SwarmEvent α)) :
    List (α × ConnectedPoint) :=
  events.foldl openConnections conns

/-- The bookkeeping the balancer is meant to keep, against the open connections:
the connected peers are those with an open connection, and each subnetwork
counts the open inbound and outbound connections to its members. -/
structure MatchesOpen (balancer : DAConnectionBalancer α) (conns : List (α × ConnectedPoint)) :
    Prop where
  connected : ∀ peer, peer ∈ balancer.connectedPeers ↔ ∃ endpoint, (peer, endpoint) ∈ conns
  inbound : ∀ s, (balancer.subnetworkStats s).inbound =
    conns.countP fun c => c.2 = .listener ∧ s ∈ balancer.membership c.1
  outbound : ∀ s, (balancer.subnetworkStats s).outbound =
    conns.countP fun c => c.2 = .dialer ∧ s ∈ balancer.membership c.1

/-! ### What an event does to the balancer -/

namespace DAConnectionBalancer

omit [DecidableEq α] in
/-- Updating the counts of distinct subnetworks one after the other updates each
of them once, whatever the order. The induction is on the list, the counts of a
subnetwork changing at its own place only. -/
theorem foldl_updateSubnetworkStats (self : DAConnectionBalancer α) {subnetworks : List UInt16}
    (hnodup : subnetworks.Nodup) (inbound outbound : ℤ) :
    subnetworks.foldl (fun balancer subnetwork =>
        balancer.updateSubnetworkStats subnetwork inbound outbound) self =
      { self with subnetworkStats := fun s => if s ∈ subnetworks then
          (self.subnetworkStats s).add inbound outbound else self.subnetworkStats s } := by
  induction subnetworks generalizing self with
  | nil => rfl
  | cons x xs ih =>
    rw [List.nodup_cons] at hnodup
    rw [List.foldl_cons, ih _ hnodup.2]
    simp only [updateSubnetworkStats, mk.injEq, true_and, and_true]
    funext s
    by_cases hsx : s = x
    · subst hsx
      simp [hnodup.1]
    · simp [hsx]

omit [DecidableEq α] in
/-- The loop of `record_event` adds the amounts to the counts of the peer's
subnetworks, and leaves the others. -/
theorem updatePeerSubnetworks_eq (o : IterOrder UInt16) (self : DAConnectionBalancer α) (peer : α)
    (inbound outbound : ℤ) :
    updatePeerSubnetworks o self peer inbound outbound =
      { self with subnetworkStats := fun s => if s ∈ self.membership peer then
          (self.subnetworkStats s).add inbound outbound else self.subnetworkStats s } := by
  rw [updatePeerSubnetworks, foldl_updateSubnetworkStats self (o.nodup _)]
  simp only [o.mem_visit]

theorem selectMissingCandidates_eq_of_chooseMultiple {self : DAConnectionBalancer α}
    {subnetworkId : UInt16} {amount : ℕ} {chosen : Finset α}
    (henough : (self.selectMissingCandidates subnetworkId).card ≤ amount)
    (hchosen : ChooseMultiple (self.selectMissingCandidates subnetworkId) amount chosen) :
    chosen = self.selectMissingCandidates subnetworkId := by
  obtain ⟨hsub, hcard⟩ := hchosen
  exact Finset.eq_of_subset_of_card_le hsub (by rw [hcard, min_eq_right henough])

end DAConnectionBalancer

/-! ### The bookkeeping against the open connections -/

omit [DecidableEq α] in
/-- A new balancer's bookkeeping matches no open connection. -/
theorem matchesOpen_new (localPeerId : α) (membership : α → Finset UInt16)
    (membersOf : UInt16 → Finset α) :
    MatchesOpen (DAConnectionBalancer.new localPeerId membership membersOf) [] :=
  ⟨fun peer => by simp [DAConnectionBalancer.new], fun _ => rfl, fun _ => rfl⟩

/-- An event changes the connected peers and the counts of the peer's
subnetworks, and nothing the balancer reads besides. -/
theorem membership_recordEvent (o : IterOrder UInt16) (balancer : DAConnectionBalancer α)
    (event : ConnectionEvent α) : (balancer.recordEvent o event).membership = balancer.membership := by
  cases event <;> simp [DAConnectionBalancer.recordEvent, DAConnectionBalancer.updatePeerSubnetworks_eq]

/-- The balancer's bookkeeping does not follow the open connections, from any
state where it did. An outbound connection that opens and closes leaves the
outbound count of each of the peer's subnetworks one higher, since its closing
is recorded as `CloseInbound`. And when one of two connections of a peer closes,
the peer leaves the connected peers while a connection to it is still open, so
`select_missing_peers` dials it whenever its candidates are no more than it
draws. -/
theorem run_breaks_bookkeeping (o : IterOrder UInt16) {balancer : DAConnectionBalancer α}
    {conns : List (α × ConnectedPoint)} (hmatch : MatchesOpen balancer conns) {peer : α}
    {s : UInt16} (hs : s ∈ balancer.membership peer) :
    (runOpenConnections conns [.establishedOutbound peer, .connectionClosed peer .dialer] = conns ∧
      ((runBehaviour o balancer [.establishedOutbound peer, .connectionClosed peer .dialer]).subnetworkStats
        s).outbound = (balancer.subnetworkStats s).outbound + 1 ∧
      ¬ MatchesOpen (runBehaviour o balancer [.establishedOutbound peer, .connectionClosed peer .dialer])
        conns) ∧
    ((peer, .listener) ∈ runOpenConnections conns
        [.establishedInbound peer, .establishedInbound peer, .connectionClosed peer .listener] ∧
      peer ∉ (runBehaviour o balancer
        [.establishedInbound peer, .establishedInbound peer, .connectionClosed peer .listener]).connectedPeers ∧
      ∀ t amount chosen, peer ∈ balancer.membersOf t → peer ≠ balancer.localPeerId →
        ((runBehaviour o balancer [.establishedInbound peer, .establishedInbound peer,
          .connectionClosed peer .listener]).selectMissingCandidates t).card ≤ amount →
        ChooseMultiple ((runBehaviour o balancer [.establishedInbound peer, .establishedInbound peer,
          .connectionClosed peer .listener]).selectMissingCandidates t) amount chosen →
        peer ∈ chosen) := by
  have hconns : runOpenConnections conns [.establishedOutbound peer, .connectionClosed peer .dialer] =
      conns := List.erase_cons_head _ _
  have houtbound : ((runBehaviour o balancer [.establishedOutbound peer,
      .connectionClosed peer .dialer]).subnetworkStats s).outbound =
      (balancer.subnetworkStats s).outbound + 1 := by
    simp [runBehaviour, toConnectionEvent, DAConnectionBalancer.recordEvent,
      DAConnectionBalancer.updatePeerSubnetworks_eq, hs, SubnetworkStats.add]
  refine ⟨⟨hconns, houtbound, fun hafter => ?_⟩, ?_⟩
  · have hbefore := hmatch.outbound s
    have hafter' := hafter.outbound s
    rw [houtbound] at hafter'
    simp only [runBehaviour, List.foldl_cons, List.foldl_nil, membership_recordEvent] at hafter'
    omega
  set after := runBehaviour o balancer
    [.establishedInbound peer, .establishedInbound peer, .connectionClosed peer .listener]
  have hout : peer ∉ after.connectedPeers := by
    simp [after, runBehaviour, toConnectionEvent, DAConnectionBalancer.recordEvent,
      DAConnectionBalancer.updatePeerSubnetworks_eq]
  have hopen : runOpenConnections conns
      [.establishedInbound peer, .establishedInbound peer, .connectionClosed peer .listener] =
      (peer, .listener) :: conns := List.erase_cons_head _ _
  refine ⟨hopen ▸ List.mem_cons_self, hout, fun t amount chosen hmember hlocal henough hchosen => ?_⟩
  · rw [DAConnectionBalancer.selectMissingCandidates_eq_of_chooseMultiple henough hchosen]
    have hmembers : after.membersOf t = balancer.membersOf t := by
      simp [after, runBehaviour, toConnectionEvent, DAConnectionBalancer.recordEvent,
        DAConnectionBalancer.updatePeerSubnetworks_eq]
    have hlocal' : after.localPeerId = balancer.localPeerId := by
      simp [after, runBehaviour, toConnectionEvent, DAConnectionBalancer.recordEvent,
        DAConnectionBalancer.updatePeerSubnetworks_eq]
    simp only [DAConnectionBalancer.selectMissingCandidates, Finset.mem_filter, hmembers, hlocal']
    exact ⟨hmember, hout, hlocal⟩

/-- The subnetworks of a set visited in increasing order of their numbers. -/
def increasingSubnetworks : IterOrder UInt16 :=
  IterOrder.sortedBy UInt16.toNat fun _ _ h => UInt16.toNat_inj.mp h

/-- A balancer on peer `0`, where every peer is in subnetwork `0`, whose
members are `{1}`. -/
def testBalancer : DAConnectionBalancer ℕ :=
  DAConnectionBalancer.new 0 (fun _ => {0}) (fun _ => {1})

theorem run_breaks_bookkeeping_new_balancer :
    MatchesOpen testBalancer [] ∧ (0 : UInt16) ∈ testBalancer.membership 1 ∧
    ((runOpenConnections [] [.establishedOutbound 1, .connectionClosed 1 .dialer] = [] ∧
      ((runBehaviour increasingSubnetworks testBalancer
        [.establishedOutbound 1, .connectionClosed 1 .dialer]).subnetworkStats 0).outbound =
        (testBalancer.subnetworkStats 0).outbound + 1 ∧
      ¬ MatchesOpen (runBehaviour increasingSubnetworks testBalancer
        [.establishedOutbound 1, .connectionClosed 1 .dialer]) []) ∧
    ((1, .listener) ∈ runOpenConnections []
        [.establishedInbound 1, .establishedInbound 1, .connectionClosed 1 .listener] ∧
      1 ∉ (runBehaviour increasingSubnetworks testBalancer
        [.establishedInbound 1, .establishedInbound 1, .connectionClosed 1 .listener]).connectedPeers ∧
      ∀ t amount chosen, 1 ∈ testBalancer.membersOf t → 1 ≠ testBalancer.localPeerId →
        ((runBehaviour increasingSubnetworks testBalancer [.establishedInbound 1, .establishedInbound 1,
          .connectionClosed 1 .listener]).selectMissingCandidates t).card ≤ amount →
        ChooseMultiple ((runBehaviour increasingSubnetworks testBalancer [.establishedInbound 1,
          .establishedInbound 1, .connectionClosed 1 .listener]).selectMissingCandidates t) amount
          chosen →
        1 ∈ chosen)) :=
  ⟨matchesOpen_new _ _ _, Finset.mem_singleton_self _,
    run_breaks_bookkeeping increasingSubnetworks (matchesOpen_new _ _ _) (Finset.mem_singleton_self _)⟩

end DaBalancer
