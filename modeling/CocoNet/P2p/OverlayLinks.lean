import CocoNet.P2p.Classification
import CocoNet.P2p.Overlay
import CocoNet.P2p.RelayBookkeeping

/-!
# Which connections two nodes keep

A connection has two ends, and each end's loop decides on its own, and in its
own order of events, whether to close it.  The dialer of a relayed connection
sees a circuit, its listener never does.  So a relayed connection is closed by
its dialer alone, and in the end exactly when the two nodes also have a direct
connection or one that was dialed from the other side, in whatever order the
two ends came to know of their connections.

Two nodes that have each dialed the other through a relay therefore close both
connections.
-/

namespace CocoNet

open StepMachine

/-! ## Links -/

/-- A connection between two nodes, with the id it has at each end. -/
structure Link where
  dialer : PeerId
  listener : PeerId
  dialerId : ConnectionId
  listenerId : ConnectionId
  connection : NodeConnection

namespace Link

def dialerEvent (link : Link) : ConnectionEvent :=
  .established link.listener link.dialerId link.connection.dialerEnd

def listenerEvent (link : Link) : ConnectionEvent :=
  .established link.dialer link.listenerId link.connection.listenerEnd

def Relayed (link : Link) : Prop :=
  link.connection.throughCircuit = true

def Joins (link : Link) (first second : PeerId) : Prop :=
  (link.dialer = first ∧ link.listener = second) ∨
    (link.dialer = second ∧ link.listener = first)

/-- The two nodes have another way to each other: the link is direct, or the
other side has dialed it. -/
def Supersedes (other link : Link) : Prop :=
  other.Joins link.dialer link.listener ∧
    (¬ other.Relayed ∨ other.dialer = link.listener)

private theorem Joins.joins_iff {link : Link} {first second : PeerId}
    (joins : link.Joins first second) (other : Link) :
    other.Joins link.dialer link.listener ↔ other.Joins first second := by
  rcases joins with ⟨isDialer, isListener⟩ | ⟨isDialer, isListener⟩
  · rw [isDialer, isListener]
  · rw [isDialer, isListener]
    exact Or.comm

end Link

/-- The connections a node has established, in the order it learned of them. -/
def connectionsAt (run : List OverlayEvent) (peer : PeerId) :
    List ConnectionEvent :=
  connectionEvents (inputsAt peer run)

private theorem mem_connectionsAt_iff (run : List OverlayEvent) (peer : PeerId)
    (event : ConnectionEvent) :
    event ∈ connectionsAt run peer ↔
      ∃ tagged, tagged ∈ run ∧ tagged.node = peer ∧
        tagged.event = .swarm (.connection event) := by
  constructor
  · intro member
    obtain ⟨input, isInput, isConnection⟩ := List.mem_filterMap.1 member
    obtain ⟨tagged, owned, same⟩ := List.mem_map.1 isInput
    obtain ⟨inRun, isNode⟩ := List.mem_filter.1 owned
    refine ⟨tagged, inRun, of_decide_eq_true isNode, ?_⟩
    subst same
    simp only [OverlayEvent.input] at isConnection
    split at isConnection
    · rename_i found
      rw [found, Option.some.inj isConnection]
    · cases isConnection
  · intro ⟨tagged, inRun, isNode, same⟩
    refine List.mem_filterMap.2 ⟨tagged.input, ?_, ?_⟩
    · exact List.mem_map.2
        ⟨tagged, List.mem_filter.2 ⟨inRun, decide_eq_true isNode⟩, rfl⟩
    · simp only [OverlayEvent.input, same]

/-- A run over the given links: whatever is established at a node is one end
of a link, the ids at a node are fresh, both ends of every link have been
established by the end of the run, in any order and among any other events,
and the nodes still run. -/
structure Settled (config : PeerId → UplinkConfig) (links : List Link)
    (run : List OverlayEvent) : Prop where
  ends : ∀ node peer id endpoint,
    .established peer id endpoint ∈ connectionsAt run node →
      ∃ link, link ∈ links ∧
        ((link.dialer = node ∧
            link.dialerEvent = .established peer id endpoint) ∨
          (link.listener = node ∧
            link.listenerEvent = .established peer id endpoint))
  fresh : ∀ node, EachStep FreshId (connectionsAt run node)
  dialed : ∀ link, link ∈ links →
    link.dialerEvent ∈ connectionsAt run link.dialer
  listened : ∀ link, link ∈ links →
    link.listenerEvent ∈ connectionsAt run link.listener
  running : ∀ node, ((overlay config).stateAfter run node).status = .running

/-- The loop of one of the two ends has called `close_connection`. -/
def Link.ClosedIn (config : PeerId → UplinkConfig) (run : List OverlayEvent)
    (link : Link) : Prop :=
  link.dialerId ∈ closedConnections (effectsAt config run link.dialer) ∨
    link.listenerId ∈ closedConnections (effectsAt config run link.listener)

/-! ## One node -/

section Settled

variable {config : PeerId → UplinkConfig} {links : List Link}
variable {run : List OverlayEvent} (settled : Settled config links run)
include settled

private theorem Settled.bookkeeping (node : PeerId) :
    Bookkeeping (connectionsAt run node)
      (connections.stateAfter (connectionsAt run node))
      (closedConnections (effectsAt config run node)) := by
  have running := settled.running node
  rw [overlay_stateAfter] at running
  have closes := (eventLoop_connections ⟨node, config node⟩
    (inputsAt node run) running).2
  rw [effectsAt_eq, closes]
  exact bookkeeping_of_freshIds (settled.fresh node)

/-- What a node closes are relayed connections of peers that it also has a
direct connection to. -/
theorem Settled.closed_iff {node peer : PeerId} {id : ConnectionId}
    {endpoint : ConnectedPoint}
    (established :
      .established peer id endpoint ∈ connectionsAt run node) :
    id ∈ closedConnections (effectsAt config run node) ↔
      isRelayed endpoint = true ∧
        ∃ direct, EstablishedDirect (connectionsAt run node) peer direct := by
  have books := settled.bookkeeping node
  rw [books.dropped id]
  constructor
  · intro ⟨other, direct, relayed⟩
    obtain ⟨otherEndpoint, member, isRelayed⟩ := relayed
    obtain ⟨samePeer, sameEndpoint⟩ :=
      books.unique other peer id otherEndpoint endpoint member established
    rw [samePeer] at direct
    rw [sameEndpoint] at isRelayed
    exact ⟨isRelayed, (mem_directPeers_iff _ _).1 direct⟩
  · intro ⟨relayed, direct⟩
    exact ⟨peer, (mem_directPeers_iff _ _).2 direct,
      endpoint, established, relayed⟩

/-- The dialer of a link has a direct connection to its listener if and only if
it has one that supersedes the link. -/
theorem Settled.direct_iff (link : Link) :
    (∃ id, EstablishedDirect (connectionsAt run link.dialer) link.listener
        id) ↔
      ∃ other, other ∈ links ∧ other.Supersedes link := by
  constructor
  · intro ⟨id, endpoint, established, direct⟩
    obtain ⟨other, isLink, atEnd⟩ :=
      settled.ends _ _ _ _ established
    refine ⟨other, isLink, ?_⟩
    rcases atEnd with ⟨isDialer, same⟩ | ⟨isListener, same⟩
    · obtain ⟨samePeer, _, sameEnd⟩ := ConnectionEvent.established.inj same
      refine ⟨Or.inl ⟨isDialer, samePeer⟩, Or.inl ?_⟩
      rw [← sameEnd, NodeConnection.isRelayed_dialerEnd] at direct
      simp [Link.Relayed, direct]
    · obtain ⟨samePeer, _, _⟩ := ConnectionEvent.established.inj same
      exact ⟨Or.inr ⟨samePeer, isListener⟩, Or.inr samePeer⟩
  · intro ⟨other, isLink, joins, supersedes⟩
    rcases joins with ⟨isDialer, isListener⟩ | ⟨isListener, isDialer⟩
    · by_cases otherRelayed : other.Relayed
      · -- Dialed from both ends at once: the node is its own peer.
        have fromListener := supersedes.resolve_left (not_not.2 otherRelayed)
        have listened := settled.listened other isLink
        rw [Link.listenerEvent, isListener, ← fromListener] at listened
        rw [← isDialer, ← fromListener]
        exact ⟨_, _, listened, NodeConnection.isRelayed_listenerEnd _⟩
      · have dialed := settled.dialed other isLink
        rw [Link.dialerEvent, isDialer, isListener] at dialed
        refine ⟨_, _, dialed, ?_⟩
        rw [NodeConnection.isRelayed_dialerEnd]
        simpa [Link.Relayed] using otherRelayed
    · have listened := settled.listened other isLink
      rw [Link.listenerEvent, isListener, isDialer] at listened
      exact ⟨_, _, listened, NodeConnection.isRelayed_listenerEnd _⟩

/-! ## Both ends -/

private theorem Settled.link_closed_iff {link : Link} (member : link ∈ links) :
    link.ClosedIn config run ↔
      link.Relayed ∧ ∃ other, other ∈ links ∧ other.Supersedes link := by
  have atDialer := settled.closed_iff (settled.dialed link member)
  have atListener := settled.closed_iff (settled.listened link member)
  rw [NodeConnection.isRelayed_dialerEnd] at atDialer
  rw [NodeConnection.isRelayed_listenerEnd] at atListener
  have notAtListener :
      link.listenerId ∉
        closedConnections (effectsAt config run link.listener) := by
    rw [atListener]
    simp
  constructor
  · intro closed
    obtain ⟨relayed, direct⟩ :=
      atDialer.1 (closed.resolve_right notAtListener)
    exact ⟨relayed, (settled.direct_iff link).1 direct⟩
  · intro ⟨relayed, superseded⟩
    exact Or.inl
      (atDialer.2 ⟨relayed, (settled.direct_iff link).2 superseded⟩)

/-- Two nodes keep a link if and only if they have a direct one, or one that
nobody has dialed from its other side. -/
theorem Settled.keeps_link_iff (first second : PeerId) :
    (∃ link, link ∈ links ∧ link.Joins first second ∧
        ¬ link.ClosedIn config run) ↔
      (∃ link, link ∈ links ∧ link.Joins first second ∧ ¬ link.Relayed) ∨
        ∃ link, link ∈ links ∧ link.Joins first second ∧
          ∀ other, other ∈ links → other.Joins first second →
            other.dialer ≠ link.listener := by
  constructor
  · intro ⟨link, member, joins, kept⟩
    rw [settled.link_closed_iff member] at kept
    by_cases relayed : link.Relayed
    · refine Or.inr ⟨link, member, joins, ?_⟩
      intro other isLink otherJoins fromListener
      exact kept ⟨relayed, other, isLink,
        (joins.joins_iff other).2 otherJoins, Or.inr fromListener⟩
    · exact Or.inl ⟨link, member, joins, relayed⟩
  · intro found
    by_cases direct :
        ∃ link, link ∈ links ∧ link.Joins first second ∧ ¬ link.Relayed
    · obtain ⟨link, member, joins, notRelayed⟩ := direct
      refine ⟨link, member, joins, ?_⟩
      rw [settled.link_closed_iff member]
      exact fun closed => notRelayed closed.1
    · obtain ⟨link, member, joins, oneSided⟩ := found.resolve_left direct
      refine ⟨link, member, joins, ?_⟩
      rw [settled.link_closed_iff member]
      intro ⟨_, other, isLink, otherJoins, supersedes⟩
      have sameEnds := (joins.joins_iff other).1 otherJoins
      rcases supersedes with notRelayed | fromListener
      · exact direct ⟨other, isLink, sameEnds, notRelayed⟩
      · exact oneSided other isLink sameEnds fromListener

end Settled

/-- In whatever order the nodes come to know of the two ends of their
connections, and whatever else happens to them: a connection is closed by the
program if and only if it is relayed and its two nodes have a direct one, or
one that the other side has dialed.  So two nodes stay connected if and only if
they have a direct connection, or one that nobody has dialed from its other
side. -/
theorem relayed_links_settle {config : PeerId → UplinkConfig}
    {links : List Link} {run : List OverlayEvent}
    (settled : Settled config links run) :
    (∀ link, link ∈ links →
      (link.ClosedIn config run ↔
        link.Relayed ∧ ∃ other, other ∈ links ∧ other.Supersedes link)) ∧
    ∀ first second,
      ((∃ link, link ∈ links ∧ link.Joins first second ∧
          ¬ link.ClosedIn config run) ↔
        (∃ link, link ∈ links ∧ link.Joins first second ∧ ¬ link.Relayed) ∨
          ∃ link, link ∈ links ∧ link.Joins first second ∧
            ∀ other, other ∈ links → other.Joins first second →
              other.dialer ≠ link.listener) :=
  ⟨fun _ member => settled.link_closed_iff member, settled.keeps_link_iff⟩

/-- A link that `dialer` has dialed through a relay. -/
def relayedLink (dialer listener : PeerId) (dialerId listenerId : ConnectionId) :
    Link where
  dialer := dialer
  listener := listener
  dialerId := dialerId
  listenerId := listenerId
  connection := .relayed ⟨[.p2pCircuit], [], dialer, rfl⟩

/-- Nodes 1 and 2 have dialed each other through a relay. -/
def mutualLinks : List Link :=
  [relayedLink ⟨[1]⟩ ⟨[2]⟩ 1 1, relayedLink ⟨[2]⟩ ⟨[1]⟩ 2 2]

/-- A node comes to know of one end of a connection. -/
def connectionAt (node : PeerId) (event : ConnectionEvent) : OverlayEvent :=
  ⟨node, ⟨0, 0, true⟩, .swarm (.connection event), none⟩

def mutualDials : List OverlayEvent :=
  [connectionAt ⟨[1]⟩ (relayedLink ⟨[1]⟩ ⟨[2]⟩ 1 1).dialerEvent,
    connectionAt ⟨[2]⟩ (relayedLink ⟨[2]⟩ ⟨[1]⟩ 2 2).dialerEvent,
    connectionAt ⟨[1]⟩ (relayedLink ⟨[2]⟩ ⟨[1]⟩ 2 2).listenerEvent,
    connectionAt ⟨[2]⟩ (relayedLink ⟨[1]⟩ ⟨[2]⟩ 1 1).listenerEvent]

private theorem mutualDials_settled :
    Settled (fun _ => ⟨64, 8⟩) mutualLinks mutualDials := by
  have elsewhere : ∀ node, node ≠ ⟨[1]⟩ → node ≠ ⟨[2]⟩ →
      inputsAt node mutualDials = [] := by
    intro node notFirst notSecond
    simp [inputsAt, eventsAt, mutualDials, connectionAt, Ne.symm notFirst,
      Ne.symm notSecond]
  refine ⟨?_, ?_, ?_, ?_, ?_⟩
  · intro node peer id endpoint member
    obtain ⟨tagged, inRun, isNode, same⟩ :=
      (mem_connectionsAt_iff _ _ _).1 member
    simp only [mutualDials, List.mem_cons, List.not_mem_nil, or_false]
      at inRun
    rcases inRun with found | found | found | found
    all_goals
      subst found
      have shape := SwarmEvent.connection.inj (LoopEvent.swarm.inj same)
    · exact ⟨_, List.mem_cons_self, Or.inl ⟨isNode, shape⟩⟩
    · exact ⟨_, List.mem_cons_of_mem _ List.mem_cons_self,
        Or.inl ⟨isNode, shape⟩⟩
    · exact ⟨_, List.mem_cons_of_mem _ List.mem_cons_self,
        Or.inr ⟨isNode, shape⟩⟩
    · exact ⟨_, List.mem_cons_self, Or.inr ⟨isNode, shape⟩⟩
  · intro node
    apply eachStep_freshId
    by_cases first : node = ⟨[1]⟩
    · subst first
      decide +kernel
    by_cases second : node = ⟨[2]⟩
    · subst second
      decide +kernel
    rw [connectionsAt, elsewhere node first second]
    exact List.nodup_nil
  · intro link member
    rw [mem_connectionsAt_iff]
    simp only [mutualLinks, List.mem_cons, List.not_mem_nil, or_false]
      at member
    rcases member with found | found
    · subst found
      exact ⟨connectionAt _ _, by simp [mutualDials], rfl, rfl⟩
    · subst found
      exact ⟨connectionAt _ _, by simp [mutualDials], rfl, rfl⟩
  · intro link member
    rw [mem_connectionsAt_iff]
    simp only [mutualLinks, List.mem_cons, List.not_mem_nil, or_false]
      at member
    rcases member with found | found
    · subst found
      exact ⟨connectionAt _ _, by simp [mutualDials], rfl, rfl⟩
    · subst found
      exact ⟨connectionAt _ _, by simp [mutualDials], rfl, rfl⟩
  · intro node
    rw [overlay_stateAfter]
    by_cases first : node = ⟨[1]⟩
    · subst first
      decide +kernel
    by_cases second : node = ⟨[2]⟩
    · subst second
      decide +kernel
    rw [elsewhere node first second]
    rfl

/-- They close both connections. -/
theorem relayed_links_settle_mutual :
    ¬ ∃ link, link ∈ mutualLinks ∧ link.Joins ⟨[1]⟩ ⟨[2]⟩ ∧
      ¬ link.ClosedIn (fun _ => ⟨64, 8⟩) mutualDials := by
  rw [(relayed_links_settle mutualDials_settled).2]
  intro found
  rcases found with ⟨link, member, _, direct⟩ | ⟨link, member, _, oneSided⟩
  · simp only [mutualLinks, List.mem_cons, List.not_mem_nil, or_false]
      at member
    rcases member with isFirst | isSecond
    · subst isFirst
      exact direct rfl
    · subst isSecond
      exact direct rfl
  · simp only [mutualLinks, List.mem_cons, List.not_mem_nil, or_false]
      at member
    rcases member with isFirst | isSecond
    · subst isFirst
      exact oneSided (relayedLink ⟨[2]⟩ ⟨[1]⟩ 2 2) (by simp [mutualLinks])
        (Or.inr ⟨rfl, rfl⟩) rfl
    · subst isSecond
      exact oneSided (relayedLink ⟨[1]⟩ ⟨[2]⟩ 1 1) (by simp [mutualLinks])
        (Or.inl ⟨rfl, rfl⟩) rfl

end CocoNet
